import SideSwap.Transition
import SideSwap.HeadlessWorker

/-! # The headless server as a system of threads

    The worker takes one message at a time: API requests, socket messages and
    the wallet thread's responses.  The wallet thread takes the `SignPset`
    requests off its channel in order, verifies and signs, and posts a response
    to the worker.  `step` is one of these moves; which one comes next, and
    what the socket delivers, is arbitrary.  A panic stops the process: no
    move changes a crashed system. -/

namespace Headless

open Api Program MachineInt Transition

/-- The process: the worker, the wallet thread's posted responses, the number
    of the next API request, and whether a thread has panicked. -/
structure System where
  data : Data
  walletResps : List WalletResp
  nextSender : Nat
  crashed : Bool

/-- What happens next. -/
inductive Input where
  /-- an API client asks for a new order -/
  | newOrder (newOrder : NewOrder)
  | orderStatus (orderId : OrderId)
  | listOrders
  /-- the socket thread delivers a message -/
  | ws (resp : WrappedResponse)
  /-- the wallet thread posts a snapshot of its coins -/
  | snapshot (swapInputs : SwapInputs)
  /-- the wallet thread handles the next `SignPset` request -/
  | walletSign
  /-- the worker handles the next response of the wallet thread -/
  | walletResp

/-- The amounts `wallet.rs` verifies a PSET against. -/
def signAmounts (policyAsset : AssetId) (details : Details) : Amounts :=
  if details.sendBitcoins then
    { sendAsset := policyAsset
      recvAsset := details.asset
      sendAmount := u64 (i64 (details.bitcoinAmount + details.serverFee))
      recvAmount := u64 details.assetAmount }
  else
    { sendAsset := details.asset
      recvAsset := policyAsset
      sendAmount := u64 details.assetAmount
      recvAmount := u64 (i64 (details.bitcoinAmount - details.serverFee)) }

/-- The worker receives `e` and runs a handler on it. -/
def receive (s : System) (e : Event) (handler : Data → Except Panic Data) : System :=
  match handler (s.data.emit e) with
  | .ok data => { s with data }
  | .error _ => { s with data := s.data.emit e, crashed := true }

/-- The response the wallet thread posts for a signing result. -/
def signResp (orderId : OrderId) : Except String String → WalletResp
  | .ok signedPset => .signedPset orderId signedPset
  | .error _ => .psetSignFailed orderId

/-- The wallet thread's `SignPset` arm. -/
def walletSignPset (world : World) (s : System) : System :=
  match s.data.walletQueue with
  | [] => s
  | sign :: rest =>
      let amounts := signAmounts s.data.policyAsset sign.details
      let res := (world.session s.data.log).verifyAndSignPset s.data.policyAsset amounts sign.pset
        (sign.nonces.getD [])
      { s with
        data := { s.data with
          walletQueue := rest
          log := s.data.log ++ [.verified sign amounts res] }
        walletResps := s.walletResps ++ [signResp sign.orderId res] }

/-- One move of the system. -/
def step (world : World) (s : System) (i : Input) : System :=
  if s.crashed then s
  else
    match i with
    | .newOrder newOrder =>
        { receive s (.newOrder s.nextSender newOrder)
            (fun data => .ok (processNewOrder data newOrder s.nextSender)) with
          nextSender := s.nextSender + 1 }
    | .orderStatus orderId =>
        receive s (.orderStatus orderId)
          (fun data => .ok (data.emit (.status orderId (getOrderStatus data orderId))))
    | .listOrders => receive s .listOrders .ok
    | .ws resp => receive s (.ws resp) (processWs world · resp)
    | .snapshot swapInputs =>
        { s with walletResps := s.walletResps ++ [.swapInputs swapInputs] }
    | .walletSign => walletSignPset world s
    | .walletResp =>
        match s.walletResps with
        | [] => s
        | resp :: rest =>
            receive { s with walletResps := rest } (.wallet resp) (processWallet · resp)

/-- `run`: the state before the first message. -/
def start (policyAsset : AssetId) (sessionId : SessionId) : System where
  data :=
    { policyAsset, sessionId
      wsConnected := false
      asyncRequests := ∅
      orders := ∅
      swapInputs := none
      uniqueOrders := ∅
      signRequestCount := 0
      nextRequestId := 1
      walletQueue := []
      log := [.connect] }
  walletResps := []
  nextSender := 0
  crashed := false

/-- The initial states: any policy asset and session id. -/
def Init (s : System) : Prop := ∃ policyAsset sessionId, s = start policyAsset sessionId

/-- The states of the runs whose moves all meet `ok`. -/
abbrev Reaches (world : World) (ok : System → Input → Prop) : System → Prop :=
  Reach Init (step world) ok

/-- The state a list of inputs leads to from the start. -/
def run (world : World) (policyAsset : AssetId) (inputs : List Input) : System :=
  Transition.run (step world) (start policyAsset 0) inputs

theorem reaches_run {world : World} {ok : System → Input → Prop} {policyAsset : AssetId}
    {inputs : List Input} (h : Allowed (step world) ok (start policyAsset 0) inputs) :
    Reaches world ok (run world policyAsset inputs) :=
  Reach.run (.start ⟨policyAsset, 0, rfl⟩) inputs h

/-! ## A small run

    One coin of 5000 satoshi, and one order that pays 3000 and a fee of 500
    for 7000 units of an asset.  The runs below end with its coin reserved,
    with its caller answered, and with the order done. -/

namespace Sample

def world : World where
  shuffle _ inputs := inputs
  shuffle_perm _ inputs := List.Perm.refl inputs
  session _ :=
    { unspentOutputs := .ok ∅
      psetDetails := fun _ _ => .ok ⟨((∅ : Std.TreeMap AssetId Int).insert 1 (-3500)).insert 2 7000,
        none⟩
      signPset := fun _ pset _ => .ok pset }

def bitcoin : AssetId := 1
def order : OrderId := 7
def txid : Txid := 9

def coin : UnspentOutput where
  txhash := 100
  vout := 0
  assetId := bitcoin
  satoshi := 5000
  assetBlinder := 0
  amountBlinder := 0
  redeemScript := ""

def snapshot : SwapInputs where
  recvAddress := "recv"
  changeAddress := "change"
  utxos := (∅ : Std.TreeMap AssetId (List UnspentOutput)).insert bitcoin [coin]

def details : Details where
  asset := 2
  bitcoinAmount := 3000
  assetAmount := 7000
  price := 2
  serverFee := 500
  side := .maker
  sendBitcoins := true
  orderType := .bitcoin
  market := .token
  twoStep := none

def newOrder : NewOrder where
  assetId := 2
  assetAmount := 1
  price := 1
  isPrivate := none
  ttlSeconds := none
  uniqueKey := some "key"

/-- Log in, receive a snapshot, take one API request and its `Submit` response. -/
def reserving : List Input :=
  [.ws .connected, .ws (.response (some (.string "1")) (.ok (.login ⟨0, []⟩))),
    .snapshot snapshot, .walletResp, .newOrder newOrder,
    .ws (.response (some (.string "2")) (.ok (.submit ⟨order, details⟩)))]

/-- The server accepts the order. -/
def answered : List Input := reserving ++ [.ws (.response (some (.string "3")) (.ok .psetMaker))]

/-- The order is done. -/
def completed : List Input :=
  answered ++ [.ws (.notification (.complete ⟨order, some txid⟩))]

end Sample

end Headless
