import SideSwap.DealerSigning
import SideSwap.Table

/-! # The order dealer, with its trades

    The whole loop of `worker` in `sideswap_dealer/src/dealer.rs`.  Beside the
    orders it keeps itself, the dealer takes the orders of others, signs what
    the server has matched, and reports each completed swap to the program that
    runs it.

    The handlers of the dealer's own orders are those of `OrderDealer`, run on
    their part of the state.  What the worker sends to itself (`Timer`,
    `ReloadUtxo`) arrives like any other message. -/

namespace OrderDealer

open Api Program Pricing Transition

/-! ## Data -/

/-- `Params`, with the assets of its environment. -/
structure TradeParams extends SignParams where
  assetUsdt : AssetId
  assetEurx : AssetId

/-- `To`. -/
inductive To where
  | price (ticker : DealerTicker) (price : Option PricePair)
  | limitBalance (ticker : DealerTicker) (recvLimit : Bool) (balance : Double)
  | resetPrices
deriving DecidableEq

/-- `SwapSucceed`. -/
structure SwapSucceed where
  txid : Txid
  ticker : DealerTicker
  bitcoinAmount : Int
  sendBitcoins : Bool
deriving DecidableEq, Repr

/-- `From`. -/
inductive From where
  | swap (swap : SwapSucceed)
  | walletBalanceUpdated
deriving DecidableEq

/-- `rpc::GetWalletInfo`. -/
structure WalletInfo where
  balance : List (String × Double)
  unconfirmedBalance : List (String × Double)
  immatureBalance : List (String × Double)
  privateKeysEnabled : Bool
deriving DecidableEq

/-- An input of a PSET: the coin it spends, and its final scripts. -/
structure PsetSlot where
  previousOutput : Txid × Nat
  finalScriptSig : Option String
  finalScriptWitness : Option (List String)
deriving DecidableEq

/-- The requests beside those of `update_price`. -/
inductive TradeRequest where
  | assets
  | login
  | subscribe (asset : AssetId)
  | psetTaker (req : PsetTakerRequest)
  | sign (req : SignRequest)
deriving DecidableEq

/-- Their responses. -/
inductive TradeResponse where
  | assets (assets : List Asset)
  | login (resp : LoginResponse)
  | subscribe (orders : List OrderCreatedNotification)
  | psetTaker
  | sign
  | other
deriving DecidableEq

/-- `Msg`. -/
inductive TradeMsg where
  | connected
  | disconnected
  | orderCreated (order : OrderCreatedNotification)
  | orderRemoved (orderId : OrderId)
  | sign (order : SignNotification)
  | complete (msg : CompleteNotification)
  | reloadUtxo (unspent : List UnspentItem)
  | msgTo (msg : To)
  | timer
  | other

/-- What the worker receives, asks and reports. -/
inductive TradeEvent where
  | received (msg : TradeMsg)
  | request (req : TradeRequest) (res : Option (Except String TradeResponse))
  | reported (msg : From)

/-- The server, the node and the encodings; `own` is what they are to the dealer's own
    orders after a history. -/
structure TradeWorld where
  own : List TradeEvent → World
  tradeReply : List TradeEvent → TradeRequest → Option (Except String TradeResponse)
  walletInfo : List TradeEvent → Except String WalletInfo
  /-- base64, `deserialize` and `extract_tx` -/
  decodePset : String → Except String (List PsetSlot)
  encodePset : List PsetSlot → String
  /-- `dumpprivkey` of the address of a coin -/
  dumpPrivKey : List TradeEvent → UnspentItem → Except String String
  /-- the signature of an input and the public key, by the private key -/
  signInput : List PsetSlot → Nat → String → List String
  /-- the script that pushes a redeem script -/
  pushScript : String → String
  /-- how a double is printed -/
  text : Double → String

/-- `orders`, in the order of their ids. -/
abbrev Orders := Std.TreeMap OrderId OrderCreatedNotification

/-- The state of the loop. -/
structure Worker where
  data : Data
  orders : Orders
  takenOrders : OrderId → Bool
  pendingSigns : OrderId → Option Details
  walletBalance : Option WalletInfo
  log : List TradeEvent

abbrev Trader (α : Type) := Prog Worker α

/-- Record an event. -/
def Worker.emit (w : Worker) (e : TradeEvent) : Worker := { w with log := w.log ++ [e] }

@[inherit_doc Worker.emit] def emitTrade (e : TradeEvent) : Trader Unit := modify fun w => w.emit e

/-- A handler of the dealer's own orders. -/
def own {α : Type} (p : Handler α) : Trader α := zoom Worker.data (fun data w => { w with data }) p

/-! ## Requests -/

/-- `send_request!`. -/
def tradeRequest {α : Type} (world : TradeWorld) (req : TradeRequest)
    (value : TradeResponse → Option α) : Trader (Except String α) :=
  request (fun w => world.tradeReply w.log req) (fun res w => w.emit (.request req res)) value

/-- `expect` on the result of a request. -/
def expectOk {α : Type} (res : Except String α) (msg : String) : Except Panic α :=
  res.mapError fun _ => ⟨msg⟩

theorem expectOk_ok {α : Type} {res : Except String α} {msg : String} {a : α}
    (h : expectOk res msg = .ok a) : res = .ok a := by
  cases res with
  | error e => exact nomatch h
  | ok b =>
      cases h
      rfl

def TradeResponse.assets? : TradeResponse → Option (List Asset)
  | .assets list => some list
  | _ => none

def TradeResponse.login? : TradeResponse → Option LoginResponse
  | .login resp => some resp
  | _ => none

def TradeResponse.subscribe? : TradeResponse → Option (List OrderCreatedNotification)
  | .subscribe list => some list
  | _ => none

/-! ## Signing -/

/-- An interest, by the asset of an order. -/
def TradeParams.interestOf (params : TradeParams) (usdt eurx : ℚ) (asset : AssetId) :
    Except Panic ℚ :=
  if asset = params.assetUsdt then .ok usdt
  else if asset = params.assetEurx then .ok eurx
  else .error ⟨"unexpected asset"⟩

/-- One input of `sign_pset`: the dealer's own coins are signed. -/
def signSlot (world : TradeWorld) (log : List TradeEvent) (utxos : Utxos) (slots : List PsetSlot)
    (index : Nat) (slot : PsetSlot) : Except String PsetSlot :=
  match utxos[slot.previousOutput]? with
  | none => .ok slot
  | some utxo => do
      let privKey ← world.dumpPrivKey log utxo
      pure
        { slot with
          finalScriptSig := utxo.redeemScript.map world.pushScript
          finalScriptWitness := some (world.signInput slots index privKey) }

/-- `sign_pset`. -/
def signPset (world : TradeWorld) (log : List TradeEvent) (utxos : Utxos)
    (order : SignNotification) : Except String SignRequest := do
  let slots ← world.decodePset order.pset
  let signed ← slots.zipIdx.mapM fun slot => signSlot world log utxos slots slot.2 slot.1
  pure ⟨order.orderId, world.encodePset signed, order.details.side⟩

/-- `Notification::Sign`. -/
def processSign (world : TradeWorld) (params : TradeParams) (order : SignNotification) :
    Trader Unit := do
  let w ← get
  let interestSign ← ofPanic
    (params.interestOf params.interestSignUsdt params.interestSignEurx order.details.asset)
  match ← attempt (ofStop (takeOrder world.text params.toSignParams w.data.assets order.details
      w.data.allBalances w.data.indexPrices interestSign)) with
  | .error _ => pure ()
  | .ok () => do
      let req ← ofPanic (expectOk (signPset world w.log w.data.utxos order)
        "called `Result::unwrap()` on an `Err` value")
      let res ← tradeRequest world (.sign req) fun resp => if resp = .sign then some () else none
      ofPanic (expectOk res "sending signed PSBT failed")
      modify fun w =>
        { w with
          pendingSigns := Function.update w.pendingSigns order.orderId (some order.details) }

/-- The report of a completed swap, with the amount that the dealer pays or gets. -/
def swapSucceed (txid : Txid) (ticker : DealerTicker) (details : Details) : SwapSucceed where
  txid := txid
  ticker := ticker
  bitcoinAmount := MachineInt.i64 (
    if details.sendBitcoins then details.bitcoinAmount + details.serverFee
    else details.bitcoinAmount - details.serverFee)
  sendBitcoins := details.sendBitcoins

/-- `Notification::Complete`. -/
def processCompletion (msg : CompleteNotification) : Trader Unit := do
  own (processComplete msg.orderId)
  let w ← get
  let details := w.pendingSigns msg.orderId
  modify fun w => { w with pendingSigns := Function.update w.pendingSigns msg.orderId none }
  match msg.txid with
  | none => pure ()
  | some txid => do
      let details ← ofPanic (expect details "details must exists")
      let asset ← ofPanic (expect (w.data.assets.find? fun asset => asset.assetId == details.asset)
        "called `Option::unwrap()` on a `None` value")
      let ticker ← ofPanic (expect (tickerFromAsset asset)
        "called `Result::unwrap()` on an `Err` value")
      emitTrade (.reported (.swap (swapSucceed txid ticker details)))

/-! ## Taking orders -/

/-- The coins and addresses of a `PsetTaker` request. -/
def takerRequest (req : PsetMakerRequest) : PsetTakerRequest :=
  ⟨req.orderId, req.price, req.inputs, req.recvAddr, req.changeAddr⟩

/-- One turn of the loop over the orders of others. -/
def takeOther (world : TradeWorld) (params : TradeParams) (order : OrderCreatedNotification) :
    Trader Unit := do
  let w ← get
  if w.takenOrders order.orderId then pure ()
  else do
    let interestSubmit ← ofPanic
      (params.interestOf params.interestSubmitUsdt params.interestSubmitEurx order.details.asset)
    match ← attempt (ofStop (takeOrder world.text params.toSignParams w.data.assets order.details
        w.data.allBalances w.data.indexPrices interestSubmit)) with
    | .error _ => pure ()
    | .ok () => do
        match ← attempt (ofStop (getPset (world.own w.log) w.data.log order.orderId order.details
            w.data.utxos params.toParams false)) with
        | .error _ => pure ()
        | .ok req => do
            match ← tradeRequest world (.psetTaker (takerRequest req)) fun resp =>
                if resp = .psetTaker then some () else none with
            | .error _ => pure ()
            | .ok () => modify fun w =>
                { w with takenOrders := Function.update w.takenOrders order.orderId true }

/-- The last part of `Timer` before the prices expire: a changed wallet is reported. -/
def checkWallet (world : TradeWorld) : Trader Unit := do
  let w ← get
  match world.walletInfo w.log with
  | .error _ => pure ()
  | .ok info =>
      if w.walletBalance = some info then pure ()
      else do
        modify fun w => { w with walletBalance := some info }
        emitTrade (.reported .walletBalanceUpdated)

/-- The first part of `Timer`: the dealer's own orders. -/
def updatePrices (world : World) (params : Params) : Handler Unit := do
  let data ← get
  let now := world.now data.log
  if data.serverConnected && decide (priceEditMinDelay ≤ now - data.lastPriceEdit) then
    params.keys.forM (updatePrice world params)
    modify fun data => { data with lastPriceEdit := now }

/-- Its end: expired prices are removed. -/
def expirePrices (world : World) : Handler Unit :=
  modify fun data =>
    { data with
      indexPrices := fun ticker => (data.indexPrices ticker).filter fun price =>
        decide (world.now data.log - price.timestamp ≤ priceExpirationTime) }

/-- `Msg::Timer`. -/
def processTick (world : TradeWorld) (params : TradeParams) : Trader Unit := do
  let w ← get
  own (updatePrices (world.own w.log) params.toParams)
  let w ← get
  (Table.values w.orders).forM (takeOther world params)
  checkWallet world
  let w ← get
  own (expirePrices (world.own w.log))

/-! ## The loop -/

/-- Orders are added under their ids. -/
def addOrders (orders : Orders) (list : List OrderCreatedNotification) : Orders :=
  list.foldl (fun orders order => orders.insert order.orderId order) orders

/-- The subscription of one asset. -/
def subscribeAsset (world : TradeWorld) (asset : AssetId) : Trader Unit := do
  let res ← tradeRequest world (.subscribe asset) TradeResponse.subscribe?
  let list ← ofPanic (expectOk res "subscribing to order list failed")
  modify fun w => { w with orders := addOrders w.orders list }

/-- `Msg::Connected`. -/
def processConnected (world : TradeWorld) (params : TradeParams) : Trader Unit := do
  let res ← tradeRequest world .assets TradeResponse.assets?
  let assets ← ofPanic (expectOk res "loading assets failed")
  modify fun w => { w with data := { w.data with assets } }
  let res ← tradeRequest world .login TradeResponse.login?
  let login ← ofPanic (expectOk res "subscribing to order list failed")
  ofPanic (if login.orders.isEmpty then .ok ()
    else .error ⟨"assertion failed: login_resp.orders.is_empty()"⟩)
  let subscribed := assets.filter fun asset =>
    params.tickers.any fun ticker => ticker.text == asset.ticker
  subscribed.forM fun asset => subscribeAsset world asset.assetId
  own (modify fun data => { data with serverConnected := true })

/-- `Msg::Disconnected`. -/
def processDisconnected : Trader Unit :=
  modify fun w =>
    { w with
      data := { w.data with serverConnected := false, ownOrders := fun _ => none }
      orders := ∅
      takenOrders := fun _ => false }

/-- `To` as a message of the part that keeps the dealer's own orders. -/
def To.msg : To → Msg
  | .price ticker pair => .price ticker pair
  | .limitBalance ticker recvLimit balance => .limitBalance ticker recvLimit balance
  | .resetPrices => .resetPrices

/-- The body of the loop of `worker`. -/
def processTrade (world : TradeWorld) (params : TradeParams) (msg : TradeMsg) : Trader Unit :=
  match msg with
  | .connected => processConnected world params
  | .disconnected => processDisconnected
  | .orderCreated order =>
      if order.own.isNone then
        modify fun w => { w with orders := w.orders.insert order.orderId order }
      else pure ()
  | .orderRemoved orderId => modify fun w => { w with orders := w.orders.erase orderId }
  | .sign order => processSign world params order
  | .complete msg => processCompletion msg
  | .reloadUtxo unspent => own (processReloadUtxo unspent)
  | .msgTo msg => do
      let w ← get
      own (processMsg (world.own w.log) params.toParams msg.msg)
  | .timer => processTick world params
  | .other => pure ()

/-- The worker, and whether it has panicked. -/
structure Trading where
  worker : Worker
  stopped : Bool

/-- Run a handler to its end. -/
def finishTrade (p : Trader Unit) (w : Worker) : Trading :=
  match exec p w with
  | (.error (.panic _), w) => ⟨w, true⟩
  | (.error (.error _), w) => ⟨w, false⟩
  | (.ok (), w) => ⟨w, false⟩

/-- The worker takes a message. -/
def trade (world : TradeWorld) (params : TradeParams) (s : Trading) (msg : TradeMsg) : Trading :=
  if s.stopped then s
  else finishTrade (processTrade world params msg) (s.worker.emit (.received msg))

/-- The state `worker` starts from. -/
def firstTrading (world : TradeWorld) : Trading where
  worker :=
    { data := (first (world.own [])).data
      orders := ∅
      takenOrders := fun _ => false
      pendingSigns := fun _ => none
      walletBalance := none
      log := [] }
  stopped := false

/-- The states of the worker's runs. -/
abbrev Trades (world : TradeWorld) (params : TradeParams) : Trading → Prop :=
  Reach (· = firstTrading world) (trade world params) fun _ _ => True

end OrderDealer
