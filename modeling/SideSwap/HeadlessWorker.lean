import SideSwap.Api
import SideSwap.CoinSelection
import SideSwap.Table
import SideSwap.WalletSession

/-! # The headless order server's worker

    `sideswap_headless_server/src/worker.rs` as functions on its `Data`.  A
    handler takes the state and returns the next one, or panics.  The boxed
    callbacks of `async_requests` are named: `AsyncRequest` says which closure
    is stored and what it captured, and a `res_sender` is the number of the API
    request it answers.

    Everything the worker receives and sends is kept in `log`, oldest first:
    the messages are what the properties of a run are about. -/

namespace Headless

open Api Program MachineInt CoinSelection Wallet

/-- `OrderState`. -/
inductive OrderState where
  | active (inputs : List OutPoint)
  | succeed (inputs : List OutPoint) (txid : Txid)
  | failed
deriving DecidableEq, Repr

/-- `api_server::NewOrder`. -/
structure NewOrder where
  assetId : AssetId
  assetAmount : ℚ
  price : ℚ
  isPrivate : Option Bool
  ttlSeconds : Option Nat
  uniqueKey : Option String
deriving DecidableEq, Repr

/-- The errors of `api_server::Error` that the worker answers with. -/
inductive ApiError where
  | server (message : String)
  | notInputs
  | duplicatedOrder
  | tooManyRequest
deriving DecidableEq, Repr

/-- `api_server::OrderInfo`. -/
structure OrderInfo where
  orderId : OrderId
  assetId : AssetId
  bitcoinAmount : Int
  assetAmount : Int
  price : ℚ
  isPrivate : Bool
deriving DecidableEq, Repr

/-- `api_server::Status`. -/
inductive Status where
  | active
  | expired
  | succeed
deriving DecidableEq, Repr

/-- `api_server::OrderStatus`. -/
structure OrderStatus where
  status : Status
  txid : Option Txid
deriving DecidableEq, Repr

/-- `wallet::SwapInputs`: a snapshot of the wallet's coins. -/
structure SwapInputs where
  recvAddress : Address
  changeAddress : Address
  utxos : Std.TreeMap AssetId (List UnspentOutput)

/-- The requests the worker sends to the server. -/
inductive Request where
  | login (sessionId : Option SessionId)
  | submit (order : PriceOrder)
  | psetMaker (req : PsetMakerRequest)
  | sign (req : SignRequest)
  | cancel (orderId : OrderId)
deriving DecidableEq, Repr

/-- The server's responses; `other` is any response to a request the worker never sends. -/
inductive Response where
  | login (resp : LoginResponse)
  | submit (resp : SubmitResponse)
  | psetMaker
  | sign
  | cancel
  | other
deriving DecidableEq, Repr

/-- The server's notifications; `other` is any the worker ignores. -/
inductive Notification where
  | orderCreated (order : OrderCreatedNotification)
  | orderRemoved (orderId : OrderId)
  | complete (complete : CompleteNotification)
  | sign (sign : SignNotification)
  | other
deriving DecidableEq, Repr

/-- `ws::WrappedResponse`: what the socket thread passes on. -/
inductive WrappedResponse where
  | connected
  | disconnected
  | response (requestId : Option RequestId) (res : Except Error Response)
  | notification (notif : Notification)

/-- `wallet::Resp`: what the wallet thread posts. -/
inductive WalletResp where
  | swapInputs (swapInputs : SwapInputs)
  | signedPset (orderId : OrderId) (signedPset : String)
  | psetSignFailed (orderId : OrderId)

/-- The closures stored in `async_requests`, with what they captured. -/
inductive AsyncRequest where
  | sign (orderId : OrderId)
  | psetMaker (orderId : OrderId) (details : Details) (newOrder : NewOrder) (resSender : Nat)
  | submit (newOrder : NewOrder) (resSender : Nat)
  | login
deriving DecidableEq, Repr

/-- The API request a stored closure answers. -/
def AsyncRequest.resSender? : AsyncRequest → Option Nat
  | .psetMaker _ _ _ resSender => some resSender
  | .submit _ resSender => some resSender
  | .sign _ => none
  | .login => none

/-- What the worker and the wallet thread receive, send and call. -/
inductive Event where
  -- received
  | newOrder (resSender : Nat) (newOrder : NewOrder)
  | orderStatus (orderId : OrderId)
  | listOrders
  | wallet (resp : WalletResp)
  | ws (resp : WrappedResponse)
  -- sent
  | answer (resSender : Nat) (res : Except ApiError OrderInfo)
  | status (orderId : OrderId) (status : OrderStatus)
  | connect
  | sent (requestId : String) (req : Request) (callback : Option AsyncRequest)
  /-- a closure is called: one of the table, or one that could not be stored -/
  | called (requestId : Option String) (callback : AsyncRequest) (res : Except Error Response)
  | forwarded (sign : SignNotification) (state : Option OrderState)
  -- the `order created` log line, the reservation of inputs, the wallet thread's call
  | orderCreated (resSender : Nat) (resp : SubmitResponse)
  | reserved (orderId : OrderId) (details : Details) (swapInputs : SwapInputs)
      (inputs : List PsetInput)
  | verified (sign : SignNotification) (amounts : Amounts) (res : Except String String)

/-- What lies outside the worker: the random shuffle and the wallet's session,
    each of which may depend on everything that happened before. -/
structure World where
  shuffle : List Event → List UnspentOutput → List UnspentOutput
  shuffle_perm : ∀ history inputs, (shuffle history inputs).Perm inputs
  session : List Event → Session

/-- `Data`, with the global request counter, the wallet thread's request
    channel and the log. -/
structure Data where
  policyAsset : AssetId
  sessionId : SessionId
  wsConnected : Bool
  asyncRequests : Std.TreeMap String AsyncRequest
  orders : Std.TreeMap OrderId OrderState
  swapInputs : Option SwapInputs
  uniqueOrders : Std.TreeMap String OrderId
  signRequestCount : Nat
  nextRequestId : Nat
  walletQueue : List SignNotification
  log : List Event

/-- Record an event. -/
def Data.emit (data : Data) (e : Event) : Data := { data with log := data.log ++ [e] }

/-- `send_request`: a request whose response nobody waits for. -/
def sendRequest (data : Data) (req : Request) : Data :=
  if data.wsConnected then
    { data with
      nextRequestId := data.nextRequestId + 1
      log := data.log ++ [.sent (toString data.nextRequestId) req none] }
  else data

/-- `cancel_order`. -/
def cancelOrder (data : Data) (orderId : OrderId) : Data :=
  sendRequest { data with orders := data.orders.insert orderId .failed } (.cancel orderId)

/-- The `Err` arms of the stored closures. -/
def failCallback (data : Data) (callback : AsyncRequest) (err : Error) : Data :=
  match callback with
  | .sign orderId => cancelOrder data orderId
  | .psetMaker orderId _ _ resSender =>
      (cancelOrder data orderId).emit (.answer resSender (.error .notInputs))
  | .submit _ resSender => data.emit (.answer resSender (.error (.server err.message)))
  | .login => data

/-- The error a request gets that cannot be sent. -/
def notConnected : Error := ⟨.serverError, "Not connected"⟩

/-- `make_async_request`. -/
def makeAsyncRequest (data : Data) (req : Request) (callback : AsyncRequest) : Data :=
  if ¬ data.wsConnected then
    failCallback (data.emit (.called none callback (.error notConnected))) callback notConnected
  else
    { data with
      nextRequestId := data.nextRequestId + 1
      asyncRequests := data.asyncRequests.insert (toString data.nextRequestId) callback
      log := data.log ++ [.sent (toString data.nextRequestId) req (some callback)] }

/-- `get_order_status`. -/
def getOrderStatus (data : Data) (orderId : OrderId) : OrderStatus :=
  match data.orders[orderId]? with
  | some (.active _) => ⟨.active, none⟩
  | some (.succeed _ txid) => ⟨.succeed, some txid⟩
  | some .failed | none => ⟨.expired, none⟩

/-- The amount an order sends: the bitcoins and the fee, or the asset. -/
def sendAmount (details : Details) : Int :=
  if details.sendBitcoins then i64 (details.bitcoinAmount + details.serverFee)
  else details.assetAmount

/-- The asset an order sends. -/
def sendAsset (policyAsset : AssetId) (details : Details) : AssetId :=
  if details.sendBitcoins then policyAsset else details.asset

/-- The inputs an order state keeps reserved. -/
def OrderState.inputs : OrderState → List OutPoint
  | .active inputs => inputs
  | .succeed inputs _ => inputs
  | .failed => []

/-- The coins of all orders that are active or done. -/
def reserved (data : Data) : List OutPoint :=
  (Table.values data.orders).flatMap OrderState.inputs

/-- The coins of the snapshot that an order may use, shuffled. -/
def freeInputs (world : World) (data : Data) (swapInputs : SwapInputs) (asset : AssetId) :
    List UnspentOutput :=
  world.shuffle data.log
    (((swapInputs.utxos[asset]?).getD []).filter fun input => input.outPoint ∉ reserved data)

/-- `inputs.iter().map(|input| input.satoshi).sum::<u64>() as i64`. -/
def inputsAmount (inputs : List UnspentOutput) : Int :=
  i64 (u64 (inputs.map (·.satoshi)).sum)

/-- The pairs `select_utxo_values` chooses from. -/
def candidates (inputs : List UnspentOutput) : List (Int × PsetInput) :=
  inputs.map fun input => (i64 input.satoshi, convertToSwapUtxo input)

/-- There is no order without inputs. -/
def refuseInputs (data : Data) (orderId : OrderId) (resSender : Nat) : Data :=
  (cancelOrder data orderId).emit (.answer resSender (.error .notInputs))

/-- `data.orders.insert(order_id, OrderState::Active(utxos))`. -/
def reserveInputs (data : Data) (orderId : OrderId) (details : Details) (swapInputs : SwapInputs)
    (inputs : List PsetInput) : Data :=
  { data with
    orders := data.orders.insert orderId (.active (inputs.map (·.outPoint)))
    log := data.log ++ [.reserved orderId details swapInputs inputs] }

/-- The `PsetMaker` request of a new order. -/
def psetMakerRequest (submitResp : SubmitResponse) (newOrder : NewOrder) (swapInputs : SwapInputs)
    (inputs : List PsetInput) : PsetMakerRequest where
  orderId := submitResp.orderId
  price := submitResp.details.price
  inputs := inputs
  recvAddr := swapInputs.recvAddress
  changeAddr := swapInputs.changeAddress
  isPrivate := true
  ttlSeconds := newOrder.ttlSeconds
  signedHalf := none

/-- `process_submit_inputs`. -/
def processSubmitInputs (world : World) (data : Data) (submitResp : SubmitResponse)
    (newOrder : NewOrder) (resSender : Nat) : Except Panic Data :=
  let orderId := submitResp.orderId
  let details := submitResp.details
  let data := data.emit (.orderCreated resSender submitResp)
  match data.swapInputs with
  | none => .ok (refuseInputs data orderId resSender)
  | some swapInputs =>
      let inputs := freeInputs world data swapInputs (sendAsset data.policyAsset details)
      if inputsAmount inputs < sendAmount details then
        .ok (refuseInputs data orderId resSender)
      else do
        let inputs ← selectUtxoValues (candidates inputs) (sendAmount details)
        pure (makeAsyncRequest (reserveInputs data orderId details swapInputs inputs)
          (.psetMaker (psetMakerRequest submitResp newOrder swapInputs inputs))
          (.psetMaker orderId details newOrder resSender))

/-- Whether a unique key is taken by an order that is active or done. -/
def isDuplicate (data : Data) (uniqueKey : String) : Bool :=
  match data.uniqueOrders[uniqueKey]? with
  | none => false
  | some existing =>
      match data.orders[existing]? with
      | some (.active _) => true
      | some (.succeed _ _) => true
      | some .failed => false
      | none => false

/-- The `Ok(Response::PsetMaker(_))` arm of the `PsetMaker` closure. -/
def psetMakerAccepted (data : Data) (orderId : OrderId) (details : Details)
    (newOrder : NewOrder) (resSender : Nat) : Data :=
  let accept (data : Data) := data.emit (.answer resSender (.ok
    { orderId, assetId := details.asset, bitcoinAmount := details.bitcoinAmount
      assetAmount := details.assetAmount, price := details.price, isPrivate := true }))
  match newOrder.uniqueKey with
  | some uniqueKey =>
      if isDuplicate data uniqueKey then
        cancelOrder (data.emit (.answer resSender (.error .duplicatedOrder))) orderId
      else accept { data with uniqueOrders := data.uniqueOrders.insert uniqueKey orderId }
  | none => accept data

/-- A stored closure called with a response of the wrong type. -/
def unexpectedResponse : Panic := ⟨"unexpected response"⟩

/-- Call a stored closure with the server's response. -/
def runCallback (world : World) (data : Data) (callback : AsyncRequest)
    (res : Except Error Response) : Except Panic Data :=
  match res with
  | .error err => .ok (failCallback data callback err)
  | .ok resp =>
      match callback, resp with
      | .sign _, .sign => .ok data
      | .psetMaker orderId details newOrder resSender, .psetMaker =>
          .ok (psetMakerAccepted data orderId details newOrder resSender)
      | .submit newOrder resSender, .submit resp =>
          processSubmitInputs world data resp newOrder resSender
      | .login, .login resp => .ok (resp.orders.foldl (fun d o => cancelOrder d o.orderId) data)
      | _, _ => .error unexpectedResponse

/-- `process_new_order`. -/
def processNewOrder (data : Data) (newOrder : NewOrder) (resSender : Nat) : Data :=
  if data.signRequestCount > 5 then data.emit (.answer resSender (.error .tooManyRequest))
  else
    makeAsyncRequest data
      (.submit
        { asset := newOrder.assetId, bitcoinAmount := none
          assetAmount := some (-newOrder.assetAmount), price := some newOrder.price
          indexPrice := none, forcePrivate := none, disablePriceEdit := none })
      (.submit newOrder resSender)

/-- `data.sign_request_count -= 1`. -/
def decSignRequestCount (data : Data) : Except Panic Data :=
  match data.signRequestCount with
  | 0 => .error ⟨"attempt to subtract with overflow"⟩
  | n + 1 => .ok { data with signRequestCount := n }

/-- `process_wallet`. -/
def processWallet (data : Data) (resp : WalletResp) : Except Panic Data :=
  match resp with
  | .swapInputs swapInputs => .ok { data with swapInputs := some swapInputs }
  | .signedPset orderId signedPset => do
      let data ← decSignRequestCount data
      pure (makeAsyncRequest data (.sign ⟨orderId, signedPset, .maker⟩) (.sign orderId))
  | .psetSignFailed orderId => do
      let data ← decSignRequestCount data
      pure (cancelOrder data orderId)

/-- The `Complete` arm of `process_ws`. -/
def processComplete (data : Data) (complete : CompleteNotification) : Except Panic Data :=
  match complete.txid with
  | some txid =>
      match data.orders[complete.orderId]? with
      | none => .error ⟨"called `Option::unwrap()` on a `None` value"⟩
      | some (.active inputs) =>
          .ok { data with
            orders := (data.orders.erase complete.orderId).insert complete.orderId
              (.succeed inputs txid) }
      | some _ => .error ⟨"unexpected state"⟩
  | none => .ok { data with orders := data.orders.insert complete.orderId .failed }

/-- The `OrderRemoved` arm of `process_ws`. -/
def processOrderRemoved (data : Data) (orderId : OrderId) : Data :=
  match data.orders[orderId]? with
  | some (.active _) => data
  | some _ => { data with orders := data.orders.insert orderId .failed }
  | none => data

/-- The notification arms of `process_ws`. -/
def processNotification (data : Data) (notif : Notification) : Except Panic Data :=
  match notif with
  | .orderCreated _ => .ok data
  | .orderRemoved orderId => .ok (processOrderRemoved data orderId)
  | .complete complete => processComplete data complete
  | .sign sign =>
      .ok { data with
        walletQueue := data.walletQueue ++ [sign]
        log := data.log ++ [.forwarded sign data.orders[sign.orderId]?]
        signRequestCount := data.signRequestCount + 1 }
  | .other => .ok data

/-- The error a pending request gets when the connection drops. -/
def serverDisconnected : Error := ⟨.serverError, "Server disconnected"⟩

/-- The closure of a pending request is called when the connection drops. -/
def failLine (data : Data) (line : String × AsyncRequest) : Data :=
  failCallback (data.emit (.called (some line.1) line.2 (.error serverDisconnected))) line.2
    serverDisconnected

/-- The stored closure a response is for; only texts are ever stored. -/
def pendingRequest (data : Data) (requestId : RequestId) : Option (String × AsyncRequest) :=
  match requestId.text? with
  | none => none
  | some text => (data.asyncRequests[text]?).map fun callback => (text, callback)

/-- `process_ws`. -/
def processWs (world : World) (data : Data) (resp : WrappedResponse) : Except Panic Data :=
  match resp with
  | .connected =>
      .ok (makeAsyncRequest { data with wsConnected := true }
        (.login (some data.sessionId)) .login)
  | .disconnected =>
      let requests := data.asyncRequests.toList
      let data := { data with wsConnected := false, asyncRequests := ∅ }
      .ok ((requests.foldl failLine data).emit .connect)
  | .response none _ => .error ⟨"called `Option::unwrap()` on a `None` value"⟩
  | .response (some requestId) res =>
      match pendingRequest data requestId with
      | none => .ok data
      | some (text, callback) =>
          runCallback world
            ({ data with asyncRequests := data.asyncRequests.erase text }.emit
              (.called (some text) callback res))
            callback res
  | .notification notif => processNotification data notif

end Headless
