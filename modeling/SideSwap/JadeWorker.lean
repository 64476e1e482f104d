import Mathlib.Tactic
import SideSwap.JadeSerial
import SideSwap.Table

/-! # The Jade worker

    `sideswap_jade/src/lib.rs`: requests are sent to the device under numbers,
    and the frames it sends back are matched with them by these numbers.  An
    authentication goes through a chain of steps, each under a new number: the
    device asks for a request to be made to a server and for its reply to be
    sent back.

    Decoding a frame, base64 and the server are given by `Libs` and by the
    events; the fields of a transaction to be signed are passed on as they are,
    in `Value`s. -/

namespace Jade

abbrev Bytes := List UInt8

/-! ## Requests and responses -/

inductive JadeNetwork where
  | liquid
  | testnetLiquid
deriving DecidableEq, Repr

def JadeNetwork.name : JadeNetwork → String
  | .liquid => "liquid"
  | .testnetLiquid => "testnet-liquid"

inductive BlindingFactorType where
  | asset
  | value
deriving DecidableEq, Repr

inductive Req where
  | readStatus
  | authUser (network : JadeNetwork)
  | resolveXpub (network : JadeNetwork) (path : List Nat)
  | getMasterBlindingKey
  | signMessage (path : List Nat) (message : String) (aeHostCommitment : Bytes)
  | getSignature (aeHostEntropy : Option Bytes)
  | getSharedNonce (script theirPubkey : Bytes)
  | getBlindingKey (script : Bytes)
  | getBlindingFactor (hashPrevouts : Bytes) (outputIndex : Nat) (factorType : BlindingFactorType)
  | getCommitments (assetId : Bytes) (value : Nat) (hashPrevouts : Bytes) (outputIndex : Nat)
      (vbf : Option Bytes)
  | signTx (tx : Value)
  | txInput (input : Option Value)

inductive StatusNetwork where
  | all
  | main
  | test
deriving DecidableEq, Repr

/-- The `State` of a device. -/
inductive JadeState where
  | ready
  | temp
  | unsaved
  | locked
  | uninit
deriving DecidableEq, Repr

/-- `RespVersionInfo`. -/
structure VersionInfo where
  jadeVersion : String
  jadeState : JadeState
  jadeNetworks : StatusNetwork
  jadeHasPin : Bool
  efusemac : String
deriving DecidableEq, Repr

/-- `RespGetCommitments`. -/
structure Commitments where
  abf : Bytes
  vbf : Bytes
  assetGenerator : Bytes
  valueCommitment : Bytes
  assetId : Bytes
  value : Nat
deriving DecidableEq, Repr

inductive Resp where
  | readStatus (info : VersionInfo)
  | authUser (ok : Bool)
  | resolveXpub (xpub : String)
  | getMasterBlindingKey (key : Bytes)
  | signMessage (signature : Bytes)
  | getSignature (signature : Option Bytes)
  | getSharedNonce (nonce : Bytes)
  | getBlindingKey (key : Bytes)
  | getBlindingFactor (factor : Bytes)
  | getCommitments (commitments : Commitments)
  | signTx (ok : Bool)
  | txInput (signature : Bytes)
deriving DecidableEq, Repr

inductive WorkerResp where
  | resp (result : Except String Resp)
  | fatalError (error : String)

inductive PendingRequest where
  | readStatus
  | httpRequest
  | authComplete
  | getXPub
  | getMasterBlindingKey
  | signMessage
  | getSignature
  | getSharedNonce
  | getBlindingKey
  | getBlindingFactor
  | getCommitments
  | signTx
  | txInput
deriving DecidableEq, Repr

/-! ## JSON and CBOR -/

/-- `serde_json::Value`; a number that is a float by its bits. -/
inductive Json where
  | null
  | bool (b : Bool)
  | string (s : String)
  | float (bits : UInt64)
  | number (text : String)
  | array (values : List Json)
  | object (entries : List (String × Json))

/-- The upper bits of a number, rounded to even. -/
def roundEven (m shift : Nat) : Nat :=
  let rest := m % 2 ^ shift
  if 2 ^ (shift - 1) < rest ∨ (rest = 2 ^ (shift - 1) ∧ m / 2 ^ shift % 2 = 1) then
    m / 2 ^ shift + 1
  else m / 2 ^ shift

/-- An integer `as f64`, by its bits. -/
def f64OfInt (n : Int) : UInt64 :=
  let m := n.natAbs
  if m = 0 then 0
  else
    let e := m.log2
    let mantissa := if e ≤ 52 then m * 2 ^ (52 - e) else roundEven m (e - 52)
    .ofNat ((e + 1022) * 2 ^ 52 + mantissa + if n < 0 then 2 ^ 63 else 0)

/-- `is_finite`. -/
def isFinite (bits : UInt64) : Bool := bits.toNat / 2 ^ 52 % 2 ^ 11 ≠ 2047

/-- `Number::from_f64`. -/
def fromF64 (error : String) (bits : UInt64) : Except String Json :=
  if isFinite bits then .ok (.float bits) else .error error

mutual

/-- `json_to_cbor`. -/
def jsonToCbor : Json → Except String Value
  | .null => .ok .null
  | .bool b => .ok (.bool b)
  | .string s => .ok (.text s)
  | .float bits => .ok (.float bits)
  | .number text => .error ("unsupported number: Number(" ++ text ++ ")")
  | .array values => (jsonToCborList values).map .array
  | .object entries => (jsonToCborEntries entries).map .map

def jsonToCborList : List Json → Except String (List Value)
  | [] => .ok []
  | value :: values => do
      let first ← jsonToCbor value
      let rest ← jsonToCborList values
      pure (first :: rest)

def jsonToCborEntries : List (String × Json) → Except String (List (Value × Value))
  | [] => .ok []
  | (key, value) :: entries => do
      let first ← jsonToCbor value
      let rest ← jsonToCborEntries entries
      pure ((.text key, first) :: rest)

end

/-- A `serde_json::Map` collected from entries: the last of a key counts. -/
def collectMap (entries : List (String × Json)) : List (String × Json) :=
  (Std.TreeMap.ofList entries compare).toList

mutual

/-- `cbor_to_json`. -/
def cborToJson : Value → Except String Json
  | .integer n => fromF64 "integer number conversion failed" (f64OfInt n)
  | .float bits => fromF64 "float number conversion failed" bits
  | .text s => .ok (.string s)
  | .bool b => .ok (.bool b)
  | .null => .ok .null
  | .array values => (cborToJsonList values).map .array
  | .map entries => (cborToJsonEntries entries).map fun entries => .object (collectMap entries)
  | .bytes _ => .error "unsupported CBOR value"
  | .tag _ _ => .error "unsupported CBOR value"

def cborToJsonList : List Value → Except String (List Json)
  | [] => .ok []
  | value :: values => do
      let first ← cborToJson value
      let rest ← cborToJsonList values
      pure (first :: rest)

def cborToJsonEntries : List (Value × Value) → Except String (List (String × Json))
  | [] => .ok []
  | (key, value) :: entries => do
      let first ← cborToJson value
      let rest ← cborToJsonEntries entries
      pure ((key.asText.getD "", first) :: rest)

end

/-! ## Messages -/

/-- `models::Req`: the number is sent as a text. -/
structure DeviceRequest where
  id : Int
  method : String
  params : Option Value

/-- `models::Resp`. -/
structure Response (α : Type) where
  id : String
  result : Option α
  error : Option String

/-- `RespAuthUser`: what the device asks to be requested of a server. -/
structure AuthRequest where
  urls : List String
  data : Value
  onReply : String

def record (fields : List (String × Value)) : Value :=
  .map (fields.map fun (name, value) => (.text name, value))

def path (indices : List Nat) : Value := .array (indices.map fun i => .integer i)

/-- Under which kind a request is pending. -/
def Req.pending : Req → PendingRequest
  | .readStatus => .readStatus
  | .authUser _ => .httpRequest
  | .resolveXpub _ _ => .getXPub
  | .getMasterBlindingKey => .getMasterBlindingKey
  | .signMessage _ _ _ => .signMessage
  | .getSignature _ => .getSignature
  | .getSharedNonce _ _ => .getSharedNonce
  | .getBlindingKey _ => .getBlindingKey
  | .getBlindingFactor _ _ _ => .getBlindingFactor
  | .getCommitments _ _ _ _ _ => .getCommitments
  | .signTx _ => .signTx
  | .txInput _ => .txInput

def Req.method : Req → String
  | .readStatus => "get_version_info"
  | .authUser _ => "auth_user"
  | .resolveXpub _ _ => "get_xpub"
  | .getMasterBlindingKey => "get_master_blinding_key"
  | .signMessage _ _ _ => "sign_message"
  | .getSignature _ => "get_signature"
  | .getSharedNonce _ _ => "get_shared_nonce"
  | .getBlindingKey _ => "get_blinding_key"
  | .getBlindingFactor _ _ _ => "get_blinding_factor"
  | .getCommitments _ _ _ _ _ => "get_commitments"
  | .signTx _ => "sign_liquid_tx"
  | .txInput _ => "tx_input"

def Req.params : Req → Option Value
  | .readStatus => none
  | .authUser network => some (record [("network", .text network.name)])
  | .resolveXpub network p =>
      some (record [("network", .text network.name), ("path", path p)])
  | .getMasterBlindingKey => none
  | .signMessage p message commitment =>
      some (record [("path", path p), ("message", .text message),
        ("ae_host_commitment", .bytes commitment)])
  | .getSignature entropy => some (record [("ae_host_entropy", entropy.elim .null .bytes)])
  | .getSharedNonce script theirPubkey =>
      some (record [("script", .bytes script), ("their_pubkey", .bytes theirPubkey)])
  | .getBlindingKey script => some (record [("script", .bytes script)])
  | .getBlindingFactor hashPrevouts outputIndex factorType =>
      some (record [("hash_prevouts", .bytes hashPrevouts),
        ("output_index", .integer outputIndex),
        ("type", .text (match factorType with
          | .asset => "ASSET"
          | .value => "VALUE"))])
  | .getCommitments assetId value hashPrevouts outputIndex vbf =>
      some (record ([("asset_id", .bytes assetId), ("value", .integer value),
        ("hash_prevouts", .bytes hashPrevouts), ("output_index", .integer outputIndex)] ++
        vbf.toList.map fun vbf => ("vbf", .bytes vbf)))
  | .signTx tx => some tx
  | .txInput input => some (input.getD (record []))

/-! ## The worker -/

/-- Decoders of frames, base64 and the debug format. -/
structure Libs where
  value : Bytes → Except String (Response Value)
  versionInfo : Bytes → Except String (Response VersionInfo)
  authUser : Bytes → Except String (Response AuthRequest)
  bool : Bytes → Except String (Response Bool)
  text : Bytes → Except String (Response String)
  byteSeq : Bytes → Except String (Response Bytes)
  byteBuf : Bytes → Except String (Response Bytes)
  commitments : Bytes → Except String (Response Commitments)
  base64 : String → Option Bytes
  debug : Option Value → String

/-- The worker's `State`, and whether its thread is running. -/
structure State where
  pendingRequests : Std.TreeMap Int PendingRequest
  lastRequestId : Int
  running : Bool

def State.init : State := ⟨{}, 25000, true⟩

/-- What the worker does: it sends a message to the device or calls back. -/
inductive Act where
  | send (message : DeviceRequest)
  | call (resp : WorkerResp)

/-- An `i32`, with wrapping arithmetic. -/
def i32 (x : Int) : Int := x.bmod (2 ^ 32)

/-- The digits of a number. -/
def parseDigits (digits : List Char) : Option Nat :=
  if digits.isEmpty then none
  else digits.foldlM (fun n c => if c.isDigit then some (10 * n + (c.toNat - '0'.toNat)) else none) 0

/-- `str::parse::<i32>`. -/
def parseI32 (s : String) : Option Int :=
  let n : Option Int := match s.toList with
    | '-' :: digits => (parseDigits digits).map fun n => -(n : Int)
    | '+' :: digits => (parseDigits digits).map fun n => (n : Int)
    | digits => (parseDigits digits).map fun n => (n : Int)
  n.filter fun n => decide (-2 ^ 31 ≤ n ∧ n < 2 ^ 31)

/-- A message is sent under the next number and becomes pending; `handle.send`
    fails if the thread of the port has ended. -/
def State.request (pending : PendingRequest) (method : String) (params : Option Value)
    (sendError : Option String) (state : State) : State × List Act :=
  let id := i32 (state.lastRequestId + 1)
  let state := { state with lastRequestId := id }
  match sendError with
  | some e => (state, [.call (.fatalError e)])
  | none =>
      ({ state with pendingRequests := state.pendingRequests.insert id pending },
        [.send ⟨id, method, params⟩])

/-- A request that was passed to the worker: older status requests are dropped
    by a new one, which is not sent while anything else is pending. -/
def State.handleReq (req : Req) (sendError : Option String) (state : State) : State × List Act :=
  match req with
  | .readStatus =>
      let state := { state with
        pendingRequests := state.pendingRequests.filter fun _ pending =>
          pending != PendingRequest.readStatus }
      if state.pendingRequests.isEmpty then
        state.request req.pending req.method req.params sendError
      else (state, [])
  | req => state.request req.pending req.method req.params sendError

/-- How most responses are answered. -/
def answer {α : Type} (name : String) (resp : Except String (Response α)) (wrap : α → Resp) :
    WorkerResp :=
  match resp with
  | .ok v =>
      match v.error, v.result with
      | some e, _ => .resp (.error ("request failed: " ++ e))
      | none, some v => .resp (.ok (wrap v))
      | none, none => .resp (.error "unexpected response")
  | .error e => .fatalError ("parsing " ++ name ++ " response failed: " ++ e)

/-- A signature comes as base64, as bytes, or not at all; `none` if the worker
    panics on the base64. -/
def answerSignature (libs : Libs) (resp : Except String (Response Value)) : Option WorkerResp :=
  match resp with
  | .ok v =>
      match v.error, v.result with
      | some e, _ => some (.resp (.error ("request failed: " ++ e)))
      | none, some (.text s) =>
          (libs.base64 s).map fun data => .resp (.ok (.getSignature (some data)))
      | none, some (.bytes data) => some (.resp (.ok (.getSignature (some data))))
      | none, some .null => some (.resp (.ok (.getSignature none)))
      | none, result => some (.resp (.error ("unexpected response: " ++ libs.debug result)))
  | .error e => some (.fatalError ("parsing GetSignature response failed: " ++ e))

/-- `handle_http_request`, with the server. -/
def handleHttpRequest (post : String → Json → Except String Json) (details : AuthRequest) :
    Except String Value := do
  let url ← details.urls.head?.elim (.error "empty urls array") .ok
  let data ← cborToJson details.data
  let response ← post url data
  jsonToCbor response

/-- A step of an authentication: the server's reply is sent to the device. -/
def State.authStep (libs : Libs) (post : String → Json → Except String Json)
    (sendError : Option String) (data : Bytes) (state : State) : State × List Act :=
  match libs.authUser data with
  | .ok v =>
      match v.error, v.result with
      | some e, _ => (state, [.call (.resp (.error ("request failed: " ++ e)))])
      | none, some v =>
          match handleHttpRequest post v with
          | .ok pin =>
              let nextStep := if v.onReply == "handshake_complete" then .authComplete
                else .httpRequest
              state.request nextStep v.onReply (some pin) sendError
          | .error e => (state, [.call (.resp (.error ("auth request failed: " ++ e)))])
      | none, none => (state, [.call (.resp (.error "unexpected response"))])
  | .error e => (state, [.call (.fatalError ("parsing AuthUser response failed: " ++ e))])

/-- A response to a request that was pending. -/
def State.handleResponse (libs : Libs) (post : String → Json → Except String Json)
    (sendError : Option String) (data : Bytes) (state : State) (pending : PendingRequest) :
    State × List Act :=
  match pending with
  | .readStatus => (state, [.call (answer "ReadStatus" (libs.versionInfo data) .readStatus)])
  | .httpRequest => state.authStep libs post sendError data
  | .authComplete => (state, [.call (answer "AuthComplete" (libs.bool data) .authUser)])
  | .getXPub => (state, [.call (answer "ReadStatus" (libs.text data) .resolveXpub)])
  | .getMasterBlindingKey =>
      (state, [.call (answer "ReadStatus" (libs.byteSeq data) .getMasterBlindingKey)])
  | .signMessage => (state, [.call (answer "SignMessage" (libs.byteBuf data) .signMessage)])
  | .getSignature =>
      match answerSignature libs (libs.value data) with
      | some resp => (state, [.call resp])
      | none => ({ state with running := false }, [])
  | .getSharedNonce =>
      (state, [.call (answer "GetSharedNonce" (libs.byteBuf data) .getSharedNonce)])
  | .getBlindingKey =>
      (state, [.call (answer "GetBlindingKey" (libs.byteBuf data) .getBlindingKey)])
  | .getBlindingFactor =>
      (state, [.call (answer "GetBlindingFactor" (libs.byteBuf data) .getBlindingFactor)])
  | .getCommitments =>
      (state, [.call (answer "GetCommitments" (libs.commitments data) .getCommitments)])
  | .signTx => (state, [.call (answer "SignTx" (libs.bool data) .signTx)])
  | .txInput => (state, [.call (answer "TxInput" (libs.byteBuf data) .txInput)])

/-- `handle_port_msg`: the number of a frame that cannot be parsed is 0. -/
def State.handlePortMsg (libs : Libs) (post : String → Json → Except String Json)
    (sendError : Option String) (data : Bytes) (state : State) : State × List Act :=
  match libs.value data with
  | .error e => (state, [.call (.fatalError ("unexpected response from Jade: " ++ e))])
  | .ok jadeResp =>
      let requestId := (parseI32 jadeResp.id).getD 0
      match state.pendingRequests[requestId]? with
      | none => (state, [])
      | some pending =>
          { state with pendingRequests := state.pendingRequests.erase requestId }.handleResponse
            libs post sendError data pending

/-- What arrives at the worker, with what the server and the port answer. -/
inductive Event where
  | req (req : Req) (sendError : Option String)
  | data (data : Bytes) (post : String → Json → Except String Json) (sendError : Option String)
  | fatalError (error : String)
  | quit

/-- One round of the loop of `worker`. -/
def State.handle (libs : Libs) (state : State) (event : Event) : State × List Act :=
  if state.running then
    match event with
    | .req req sendError => state.handleReq req sendError
    | .data data post sendError => state.handlePortMsg libs post sendError data
    | .fatalError e => (state, [.call (.fatalError e)])
    | .quit => ({ state with running := false }, [])
  else (state, [])

end Jade
