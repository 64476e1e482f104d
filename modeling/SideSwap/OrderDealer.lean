import SideSwap.Api
import SideSwap.CoinSelection
import SideSwap.Handler
import SideSwap.History
import SideSwap.Pricing
import SideSwap.Transition

/-! # The order dealer

    `sideswap_dealer/src/dealer.rs`: for each ticker and each direction the
    dealer keeps one order on the server.  On a timer `update_price` submits,
    edits or cancels it, by the index price and the balances.

    The dealer also takes the orders of others and signs for its own.  That
    changes none of the orders it keeps, and is left out here, but for a panic
    there, which is the input `stop`. -/

namespace OrderDealer

open Api Program Pricing Transition

/-! ## Data -/

/-- `DealerTicker`: one of the known tickers. -/
inductive DealerTicker where
  | lbtc
  | usdt
  | eurx
  | lcad
  | audl
deriving DecidableEq, Repr

/-- The text of a ticker. -/
def DealerTicker.text : DealerTicker → String
  | .lbtc => "L-BTC"
  | .usdt => "USDt"
  | .eurx => "EURx"
  | .lcad => "LCAD"
  | .audl => "AUDL"

/-- `ticker_from_asset`. -/
def tickerFromAsset (asset : Asset) : Option DealerTicker :=
  [DealerTicker.lbtc, .usdt, .eurx, .lcad, .audl].find? fun ticker => ticker.text == asset.ticker

/-- `PricePair`. -/
structure PricePair where
  bid : Double
  ask : Double
deriving DecidableEq, Repr

/-- `PriceTimestamp`; the time is in milliseconds. -/
structure PriceTimestamp where
  price : PricePair
  timestamp : Nat
deriving DecidableEq, Repr

/-- `rpc::UnspentItem`, with its amount in satoshis. -/
structure UnspentItem where
  txid : Txid
  vout : Nat
  asset : AssetId
  amount : Int
  amountblinder : Option Hash32
  assetblinder : Option Hash32
  redeemScript : Option String
deriving DecidableEq, Repr

/-- `Utxos`, in the order of their outpoints. -/
abbrev Utxos :=
  Std.TreeMap (Txid × Nat) UnspentItem (compareLex (compareOn Prod.fst) (compareOn Prod.snd))

/-- `AllBalances`; the limits are any doubles. -/
structure AllBalances where
  wallet : DealerTicker → Option ℚ
  maxSend : DealerTicker → Option Double
  maxRecv : DealerTicker → Option Double

/-- `OwnOrder`. -/
structure OwnOrder where
  orderId : OrderId
  bitcoinAmount : Int
  price : Double
deriving DecidableEq, Repr

/-- `OwnOrderKey`: a market side. -/
structure OwnOrderKey where
  ticker : DealerTicker
  sendBitcoins : Bool
deriving DecidableEq, Repr

/-- `Params`, as far as `update_price` reads it; the worker asserts that the
    interests and amounts are positive numbers. -/
structure Params where
  policyAsset : AssetId
  interestSubmitUsdt : ℚ
  interestSubmitEurx : ℚ
  tickers : List DealerTicker
  bitcoinAmountSubmit : Int
  bitcoinAmountMin : Int

/-- The requests of `update_price`. -/
inductive Request where
  | submit (asset : AssetId) (bitcoinAmount : ℚ) (price : Double)
  | psetMaker (req : PsetMakerRequest)
  | edit (orderId : OrderId) (price : Double)
  | cancel (orderId : OrderId)
deriving DecidableEq

/-- `Response`. -/
inductive Response where
  | submit (resp : SubmitResponse)
  | psetMaker
  | edit
  | cancel
  | other
deriving DecidableEq

/-- `Msg`; the coins of `ReloadUtxo` are what `listunspent` reports. -/
inductive Msg where
  | connected (assets : List Asset)
  | disconnected
  | complete (orderId : OrderId)
  | reloadUtxo (unspent : List UnspentItem)
  | price (ticker : DealerTicker) (price : Option PricePair)
  | limitBalance (ticker : DealerTicker) (recvLimit : Bool) (balance : Double)
  | resetPrices
  | timer
  | other

/-- What the dealer receives, and its requests with their results: no result is a
    request that times out. -/
inductive Event where
  | received (msg : Msg)
  | request (key : OwnOrderKey) (req : Request) (res : Option (Except String Response))

/-- The server, the node and the clock. -/
structure World where
  reply : List Event → Request → Option (Except String Response)
  newAddress : List Event → Bool → Except String Address
  now : List Event → Nat

/-- The state of the loop. -/
structure Data where
  assets : List Asset
  serverConnected : Bool
  utxos : Utxos
  allBalances : AllBalances
  indexPrices : DealerTicker → Option PriceTimestamp
  ownOrders : OwnOrderKey → Option OwnOrder
  lastPriceEdit : Nat
  log : List Event

abbrev Handler (α : Type) := Prog Data α

/-- Record an event. -/
def Data.emit (data : Data) (e : Event) : Data := { data with log := data.log ++ [e] }

@[inherit_doc Data.emit] def emit (e : Event) : Handler Unit := modify fun data => data.emit e

/-! ## Constants -/

def extraAssetUtxoFraction : ℚ := 3 / 100
def recreateOrderAmountFraction : ℚ := 5 / 100
/-- milliseconds -/
def priceExpirationTime : Nat := 60000
/-- milliseconds -/
def priceEditMinDelay : Nat := 5000
/-- `f64::MAX`. -/
def maxDouble : Double := .fin (2 ^ 1024 - 2 ^ 971)

/-! ## Amounts -/

/-- `get_price`. -/
def getPrice (price : PricePair) (sendBitcoins : Bool) (interest : ℚ) : Double :=
  if sendBitcoins then price.ask.scale interest else price.bid.scale (1 / interest)

/-- `amount_change`. -/
def amountChange (new old : Int) : Double :=
  Double.div (toBitcoin new - toBitcoin old) (toBitcoin old)

/-- `get_bitcoin_amount`. -/
def getBitcoinAmount (all : AllBalances) (ticker : DealerTicker) (price : Double)
    (sendBitcoins maxAmount : Bool) : Int :=
  let walletAsset := (all.wallet ticker).getD 0
  let walletBitcoin := (all.wallet .lbtc).getD 0 / (1 + serverFeeRate)
  let bitcoinMaxSend := (all.maxSend .lbtc).getD maxDouble
  let bitcoinMaxRecv := (all.maxRecv .lbtc).getD maxDouble
  let assetMaxSend := (all.maxSend ticker).getD maxDouble
  let assetMaxRecv := (all.maxRecv ticker).getD maxDouble
  let extraAssetDownscale := if maxAmount then 1 else 1 / (1 + extraAssetUtxoFraction)
  if sendBitcoins then
    fromBitcoin (Double.minOf
      (Double.minOf (.fin walletBitcoin) ((assetMaxRecv.scale extraAssetDownscale).quot price))
      bitcoinMaxSend)
  else
    fromBitcoin (Double.minOf
      (Double.minOf ((Double.fin (walletAsset * extraAssetDownscale)).quot price) bitcoinMaxRecv)
      ((assetMaxSend.scale extraAssetDownscale).quot price))

/-- The interest of the orders that are submitted. -/
def Params.interestSubmit (params : Params) : DealerTicker → Except Panic ℚ
  | .usdt => .ok params.interestSubmitUsdt
  | .eurx => .ok params.interestSubmitEurx
  | _ => .error ⟨"unexpected asset"⟩

/-- `interest_take_ajusted`: the interest covers the server's fee. -/
def Params.interestTakeAjusted (params : Params) (interestSubmit : ℚ) : ℚ :=
  let submit := toBitcoin params.bitcoinAmountSubmit
  let expectedServerFee := fromBitcoin (.fin (max (serverFeeRate * submit) (toBitcoin minServerFee)))
  interestSubmit * (1 + toBitcoin expectedServerFee / submit)

/-! ## Requests -/

/-- `send_request!`. -/
def sendRequest {α : Type} (world : World) (key : OwnOrderKey) (req : Request)
    (value : Response → Option α) : Handler (Except String α) := do
  let data ← get
  let res := world.reply data.log req
  emit (.request key req res)
  match res with
  | none => ofPanic (.error ⟨"request timeout"⟩)
  | some (.error e) => pure (.error e)
  | some (.ok resp) => do
      let value ← ofPanic (expect (value resp) "unexpected response type")
      pure (.ok value)

/-- A request, by its result.  A request without a usable result ends the worker. -/
theorem sendRequest_leads {α β τ : Type} {view : Data → τ} {Move : τ → τ → Prop} {v : τ}
    {world : World} {key : OwnOrderKey} {req : Request} {value : Response → Option α}
    {f : Except String α → Handler β} {data : Data}
    (hpanic : ∀ res, (∀ resp a, res = some (.ok resp) → value resp ≠ some a) →
      Relation.ReflTransGen Move v (view (data.emit (.request key req res))))
    (herror : ∀ e, Leads view Move v (f (.error e))
      (data.emit (.request key req (some (.error e)))))
    (hok : ∀ resp a, value resp = some a →
      Leads view Move v (f (.ok a)) (data.emit (.request key req (some (.ok resp))))) :
    Leads view Move v (sendRequest world key req value >>= f) data := by
  show Relation.ReflTransGen Move v (view (exec (sendRequest world key req value >>= f) data).2)
  rw [exec_bind]
  unfold sendRequest emit
  rw [exec_get_bind, exec_modify_bind]
  cases world.reply data.log req with
  | none => exact hpanic none fun resp a h => nomatch h
  | some res =>
      cases res with
      | error e => exact herror e
      | ok resp =>
          dsimp only
          cases hvalue : value resp with
          | none =>
              rw [expect_none]
              refine hpanic (some (.ok resp)) fun resp' a h => ?_
              cases h
              rw [hvalue]
              rintro ⟨⟩
          | some a =>
              rw [expect_some]
              exact hok resp a hvalue

/-- The coins for the selected amounts. -/
def psetInputs (sendAsset : AssetId) : List Int → List UnspentItem → Except Panic (List PsetInput)
  | [], _ => .ok []
  | amount :: selected, utxos =>
      match utxos.findIdx? (fun utxo => utxo.amount == amount) with
      | none => .error ⟨"utxo must exists"⟩
      | some index =>
          match utxos[index]? with
          | none => .error ⟨"swap_remove index out of bounds"⟩
          | some utxo => do
              let assetBf ← expect utxo.assetblinder "called `Option::unwrap()` on a `None` value"
              let valueBf ← expect utxo.amountblinder "called `Option::unwrap()` on a `None` value"
              let rest ← psetInputs sendAsset selected (CoinSelection.swapRemove utxos index)
              pure (⟨utxo.txid, utxo.vout, sendAsset, assetBf, (amount % 2 ^ 64).toNat, valueBf,
                utxo.redeemScript⟩ :: rest)

/-- `get_pset`. -/
def getPset (world : World) (log : List Event) (orderId : OrderId) (details : Details)
    (utxos : Utxos) (params : Params) (extraAssetUtxo : Bool) : Except Stop PsetMakerRequest := do
  let (sendAsset, sendAmount) :=
    if details.sendBitcoins then
      (params.policyAsset, MachineInt.i64 (details.bitcoinAmount + details.serverFee))
    else (details.asset, details.assetAmount)
  let assetUtxos := utxos.values.filter fun utxo =>
    utxo.asset == sendAsset && utxo.amountblinder.isSome && utxo.assetblinder.isSome
  let utxosAmounts := assetUtxos.map (·.amount)
  let total := MachineInt.i64 utxosAmounts.sum
  (check (decide (sendAmount ≤ total)) "Condition failed: `send_amount <= total`").mapError .error
  let utxoAmount :=
    if extraAssetUtxo && !details.sendBitcoins then
      min total (Double.fin (sendAmount * (1 + extraAssetUtxoFraction))).roundI64
    else sendAmount
  let selected ← (CoinSelection.selectUtxo utxosAmounts utxoAmount).mapError .panic
  let inputs ← (psetInputs sendAsset selected assetUtxos).mapError .panic
  let recvAddr ← (world.newAddress log false).mapError
    fun _ => .panic ⟨"getting new address failed"⟩
  let changeAddr ← (world.newAddress log true).mapError
    fun _ => .panic ⟨"getting new address failed"⟩
  pure ⟨orderId, details.price, false, none, inputs, recvAddr, changeAddr, none⟩

/-! ## The orders -/

/-- The tracked order of a market side is set. -/
def setOwn (key : OwnOrderKey) (own : Option OwnOrder) : Handler Unit :=
  modify fun data => { data with ownOrders := Function.update data.ownOrders key own }

/-- `cancel_order`: the order stays tracked until it is reported complete. -/
def cancelOrder (world : World) (key : OwnOrderKey) (own : OwnOrder) : Handler Unit := do
  let _ ← sendRequest world key (.cancel own.orderId) fun resp =>
    if resp = .cancel then some () else none

/-- The payload of a submit response. -/
def Response.submit? : Response → Option SubmitResponse
  | .submit resp => some resp
  | _ => none

/-- The first case of `update_price`: an order is submitted. -/
def submitOrder (world : World) (params : Params) (key : OwnOrderKey) (asset : AssetId)
    (price : Double) (bitcoinAmount : Int) : Handler Unit := do
  let amount := if key.sendBitcoins then -toBitcoin bitcoinAmount else toBitcoin bitcoinAmount
  match ← sendRequest world key (.submit asset amount price) Response.submit? with
  | .error _ => pure ()
  | .ok submitResp => do
      let data ← get
      match ← attempt (ofStop
          (getPset world data.log submitResp.orderId submitResp.details data.utxos params true)) with
      | .error _ => pure ()
      | .ok psetMakerReq => do
          match ← sendRequest world key (.psetMaker psetMakerReq) fun resp =>
              if resp = .psetMaker then some () else none with
          | .error _ => pure ()
          | .ok () => setOwn key (some ⟨submitResp.orderId, bitcoinAmount, price⟩)

/-- The last case of `update_price`: the price of an order is edited.  If that
    fails the order is cancelled, and in any case not tracked any more. -/
def editOrder (world : World) (key : OwnOrderKey) (own : OwnOrder) (price : Double) :
    Handler Unit := do
  match ← sendRequest world key (.edit own.orderId price) fun resp =>
      if resp = .edit then some () else none with
  | .ok () => setOwn key (some { own with price })
  | .error _ => do
      let _ ← sendRequest world key (.cancel own.orderId) fun resp =>
        if resp = .cancel then some () else none
      setOwn key none

/-- `update_price`. -/
def updatePrice (world : World) (params : Params) (key : OwnOrderKey) : Handler Unit := do
  let data ← get
  let asset ← ofPanic (expect (data.assets.find? fun asset => asset.ticker == key.ticker.text)
    "called `Option::unwrap()` on a `None` value")
  let interestSubmit ← ofPanic (params.interestSubmit key.ticker)
  let interest := params.interestTakeAjusted interestSubmit
  let price := (data.indexPrices key.ticker).map fun price =>
    getPrice price.price key.sendBitcoins interest
  let newBitcoinAmountNormal := price.elim 0 fun price =>
    min (getBitcoinAmount data.allBalances key.ticker price key.sendBitcoins false)
      params.bitcoinAmountSubmit
  let newBitcoinAmountMax := price.elim 0 fun price =>
    getBitcoinAmount data.allBalances key.ticker price key.sendBitcoins true
  match data.ownOrders key, price with
  | none, some price =>
      if params.bitcoinAmountMin ≤ newBitcoinAmountNormal then
        submitOrder world params key asset.assetId price newBitcoinAmountNormal
      else pure ()
  | some own, some price =>
      if newBitcoinAmountMax = 0 ∨ newBitcoinAmountMax < own.bitcoinAmount ∨
          (amountChange newBitcoinAmountNormal own.bitcoinAmount).ge recreateOrderAmountFraction then
        cancelOrder world key own
      else if own.price.ne price then editOrder world key own price
      else pure ()
  | some own, none => cancelOrder world key own
  | none, none => pure ()

/-! ## The loop -/

/-- The keys of `own_orders`. -/
def Params.keys (params : Params) : List OwnOrderKey :=
  params.tickers.flatMap fun ticker => [⟨ticker, false⟩, ⟨ticker, true⟩]

/-- `Msg::Timer`. -/
def processTimer (world : World) (params : Params) : Handler Unit := do
  let data ← get
  let now := world.now data.log
  if data.serverConnected && decide (priceEditMinDelay ≤ now - data.lastPriceEdit) then
    params.keys.forM (updatePrice world params)
    modify fun data => { data with lastPriceEdit := now }
  modify fun data =>
    { data with
      indexPrices := fun ticker => (data.indexPrices ticker).filter fun price =>
        decide (world.now data.log - price.timestamp ≤ priceExpirationTime) }

/-- The bitcoins, or units, of an asset in the wallet. -/
def assetAmount (unspent : List UnspentItem) (assetId : AssetId) : Option ℚ :=
  let items := unspent.filter (·.asset == assetId)
  if items.isEmpty then none else some (items.map fun item => toBitcoin item.amount).sum

/-- The balances of the assets with a known ticker. -/
def walletBalances (assets : List Asset) (unspent : List UnspentItem) : DealerTicker → Option ℚ :=
  assets.foldl (fun balances asset =>
    match assetAmount unspent asset.assetId, tickerFromAsset asset with
    | some balance, some ticker => Function.update balances ticker (some balance)
    | _, _ => balances) fun _ => none

/-- New coins are added, spent coins removed, and known ones kept. -/
def reloadUtxos (utxos : Utxos) (unspent : List UnspentItem) : Utxos :=
  unspent.foldl (fun coins item =>
    coins.insertIfNew (item.txid, item.vout) ((utxos[(item.txid, item.vout)]?).getD item)) ∅

/-- `Msg::ReloadUtxo`. -/
def processReloadUtxo (unspent : List UnspentItem) : Handler Unit :=
  modify fun data =>
    { data with
      allBalances := { data.allBalances with wallet := walletBalances data.assets unspent }
      utxos := reloadUtxos data.utxos unspent }

/-- `Notification::Complete`: the order is not tracked any more. -/
def processComplete (orderId : OrderId) : Handler Unit :=
  modify fun data =>
    { data with
      ownOrders := fun key => (data.ownOrders key).filter fun own => own.orderId != orderId }

/-- The body of the loop of `worker`. -/
def processMsg (world : World) (params : Params) (msg : Msg) : Handler Unit :=
  match msg with
  | .connected assets => modify fun data => { data with assets, serverConnected := true }
  | .disconnected => modify fun data =>
      { data with serverConnected := false, ownOrders := fun _ => none }
  | .complete orderId => processComplete orderId
  | .reloadUtxo unspent => processReloadUtxo unspent
  | .price ticker price => modify fun data =>
      { data with
        indexPrices := Function.update data.indexPrices ticker
          (price.map fun price => ⟨price, world.now data.log⟩) }
  | .limitBalance ticker true balance => modify fun data =>
      { data with
        allBalances := { data.allBalances with
          maxRecv := Function.update data.allBalances.maxRecv ticker (some balance) } }
  | .limitBalance ticker false balance => modify fun data =>
      { data with
        allBalances := { data.allBalances with
          maxSend := Function.update data.allBalances.maxSend ticker (some balance) } }
  | .resetPrices => modify fun data => { data with indexPrices := fun _ => none }
  | .timer => processTimer world params
  | .other => pure ()

/-- The worker: its data, and whether it has panicked. -/
structure System where
  data : Data
  stopped : Bool

/-- What happens to the dealer. -/
inductive Input where
  | message (msg : Msg)
  /-- a panic in a part that is left out -/
  | stop

/-- Run a handler to its end. -/
def finish (p : Handler Unit) (data : Data) : System :=
  match exec p data with
  | (.error (.panic _), data) => ⟨data, true⟩
  | (.error (.error _), data) => ⟨data, false⟩
  | (.ok (), data) => ⟨data, false⟩

/-- The dealer takes a message. -/
def step (world : World) (params : Params) (s : System) : Input → System
  | .message msg =>
      if s.stopped then s
      else finish (processMsg world params msg) (s.data.emit (.received msg))
  | .stop => { s with stopped := true }

/-- The state `worker` starts from. -/
def first (world : World) : System where
  data :=
    { assets := []
      serverConnected := false
      utxos := ∅
      allBalances := ⟨fun _ => none, fun _ => none, fun _ => none⟩
      indexPrices := fun _ => none
      ownOrders := fun _ => none
      lastPriceEdit := world.now []
      log := [] }
  stopped := false

/-- The states of the dealer's runs. -/
abbrev Reaches (world : World) (params : Params) : System → Prop :=
  Reach (· = first world) (step world params) fun _ _ => True

end OrderDealer
