import SideSwap.ClientMessages
import SideSwap.DealerBalancing
import SideSwap.DealerRebalancing
import SideSwap.DealerTrading

/-! # The Bitfinex dealer

    The whole loop of `sideswap_dealer_bitfinex/src/main.rs`.  It feeds the order
    dealer with the prices of the exchange, broadcasts them to the server, takes
    part in instant swaps, and hedges every swap by an order on the exchange.

    Balancing is the machine of `DealerBalancing`, run on its part of the state.
    What the loop sends to itself is recorded, and arrives like any other
    message.  The ratio of the balances, which only the local log shows, and the
    table `orders`, which nothing reads, are left out. -/

namespace Exchange

open Api Program Pricing Transition
open OrderDealer (DealerTicker PricePair UnspentItem Utxos PsetSlot To From SwapSucceed
  tickerFromAsset reloadUtxos expectOk)

/-! ## Doubles -/

/-- `x + y`. -/
def plus (x y : Double) : Double :=
  match x, y with
  | .fin a, .fin b => .fin (a + b)
  | .fin _, .inf negative => .inf negative
  | .inf negative, .fin _ => .inf negative
  | .inf negative, .inf negative' => if negative = negative' then .inf negative else .nan
  | _, _ => .nan

/-- `-x`. -/
def negate (x : Double) : Double :=
  match x with
  | .fin a => .fin (-a)
  | .inf negative => .inf !negative
  | .nan => .nan

/-- `a * y` for a number `a`. -/
def times (a : ℚ) (y : Double) : Double :=
  match y with
  | .fin b => .fin (a * b)
  | .inf negative => if a = 0 then .nan else .inf (negative != decide (a < 0))
  | .nan => .nan

/-- `x as i64`. -/
def truncI64 (x : Double) : Int :=
  match x with
  | .fin q => max (-2 ^ 63) (min (if 0 ≤ q then q.floor else q.ceil) (2 ^ 63 - 1))
  | .inf false => 2 ^ 63 - 1
  | .inf true => -2 ^ 63
  | .nan => 0

/-- `x < q`. -/
def isBelow (x : Double) (q : ℚ) : Bool :=
  match x with
  | .fin a => decide (a < q)
  | .inf negative => negative
  | .nan => false

/-- The number, if it is one. -/
def finite? (x : Double) : Option ℚ :=
  match x with
  | .fin q => some q
  | _ => none

/-! ## Data -/

/-- `Args`, beside what balancing reads, with the assets of its environment. -/
structure Args extends Dealer.Args where
  apiKey : Option String
  policyAsset : AssetId
  assetUsdt : AssetId
  assetEurx : AssetId
  bitfinexBooknameUsdt : String
  bitfinexBooknameEurx : String
  bitfinexCurrencyEur : String
  balancingEnabled : Bool

/-- `Price`; the time is in milliseconds. -/
structure Price where
  bid : Double
  ask : Double
  timestamp : Nat
deriving DecidableEq, Repr

/-- The two sides of a price. -/
def Price.pair (price : Price) : PricePair := ⟨price.bid, price.ask⟩

/-- `PriceOffer`. -/
structure PriceOffer where
  clientSendBitcoins : Bool
  price : Double
  maxSendAmount : Int
deriving DecidableEq, Repr

/-- `SwapDoneNotification`. -/
structure SwapDoneNotification where
  orderId : OrderId
  status : Client.SwapDoneStatus
  txid : Option Txid
  sendAsset : AssetId
  sendAmount : Int
  recvAsset : AssetId
  recvAmount : Int
deriving DecidableEq, Repr

/-- A coin of `listunspent`. -/
structure WalletCoin where
  item : UnspentItem
  confirmations : Int
deriving DecidableEq, Repr

inductive Request where
  | loginDealer (apiKey : String)
  | assets
  | login
  | serverStatus
  | priceUpdateBroadcast (asset : AssetId) (price : PricePair)
  | broadcastPriceStream (asset : AssetId) (list : List PriceOffer) (balancing : Bool)
  | startSwapDealer (orderId : OrderId) (inputs : List PsetInput) (recvAddr changeAddr : Address)
  | signedSwapDealer (orderId : OrderId) (pset : String)
deriving DecidableEq

inductive Response where
  | loginDealer
  | assets (assets : List Asset)
  | login (resp : LoginResponse)
  | serverStatus
  | priceUpdateBroadcast
  | broadcastPriceStream
  | startSwapDealer
  | signedSwapDealer
  | other
deriving DecidableEq

/-- `Msg`, with the messages of the server, of the exchange module and of the order dealer. -/
inductive Msg where
  | timer
  | connected
  | disconnected
  | serverStatus
  | orderCreated (order : OrderCreatedNotification)
  | startSwapDealer (orderId : OrderId) (sendAsset : AssetId)
  | blindedSwapDealer (orderId : OrderId) (pset : String)
  | swapDone (swap : SwapDoneNotification)
  | moduleConnected
  | moduleDisconnected
  | bookUpdate (bookName : String) (price : PricePair)
  | orderConfirm (cid : Int)
  | walletUpdate (currency : String) (balance : Double)
  | withdraw (withdrawId : Int)
  | movements (msg : Dealer.Movements)
  | transfer (success : Bool)
  | moduleError (error : String)
  | reloadUtxo (unspent : Except String (List WalletCoin))
  | cli (req : Dealer.CliRequest)
  | checkExchange
  | dealer (msg : From)
  | exit
  | other
deriving DecidableEq

/-- What the loop sends to itself. -/
inductive Post where
  | timer
  | reloadUtxo
  | checkExchange
  | cli (req : Dealer.CliRequest)
deriving DecidableEq

/-- `proto::to::Msg`, beside what balancing sends; an order carries the time at which it
    is noted as pending. -/
inductive ToModule where
  | login (key secret : String)
  | subscribe (bookName : String)
  | orderSubmit (time : Nat) (cid : Int) (amount : ℚ) (bookName : String)
deriving DecidableEq

/-- The notifications with numbers in them. -/
inductive Notice where
  | priceRefreshed (ticker : DealerTicker) (price : PricePair)
  | walletBalances (balances : List (String × Double))
  | exchangeBalances (balances : List (String × Double))
  | swapComplete (bitcoinChange usdtChange eurChange : Double)
  /-- `:fire: bf order {} timeout` -/
  | orderTimeout (cid : Int)
deriving DecidableEq

/-- What the loop receives and does.  A message is recorded when the prices are
    broadcast and its own turn has come, with the time at which it was taken. -/
inductive Event where
  | received (now : Nat) (msg : Msg)
  | restarted
  | request (req : Request) (res : Option (Except String Response))
  | toDealer (msg : To)
  | toModule (msg : ToModule)
  | posted (msg : Post)
  | notification (text : String)
  | notice (notice : Notice)
deriving DecidableEq

/-- The server, the node, the clocks and the encodings. -/
structure World where
  balancing : Dealer.World
  reply : List Event → Request → Option (Except String Response)
  newAddress : List Event → Bool → Except String Address
  /-- `Instant::now` -/
  now : List Event → Nat
  /-- `timestamp_now` -/
  timestampNow : List Event → Int
  /-- `SystemTime::now` -/
  systemTime : List Event → Nat
  /-- what `get_balancing` finds where a balance is not a number -/
  oddBalancing : List Event → Dealer.AssetBalancing
  /-- base64, `deserialize` and `extract_tx` -/
  decodePset : String → Except String (List PsetSlot)
  encodePset : List PsetSlot → String
  /-- `dumpprivkey` of the address of a coin, and its value commitment -/
  dumpPrivKey : List Event → UnspentItem → Except String String
  signInput : List PsetSlot → Nat → String → List String
  pushScript : String → String

/-- `ProfitsReport`. -/
structure ProfitsReport where
  walletBalances : Std.TreeMap String Double
  exchangeBalances : Std.TreeMap String Double
  createdAt : Nat

/-- The state of the loop. -/
structure Data where
  balancing : Dealer.Data
  utxos : Utxos
  serverStatus : Bool
  instantSwaps : OrderId → Option AssetId
  serverConnected : Bool
  walletBalances : Std.TreeMap String Double
  exchangeBalancesReported : Std.TreeMap String Double
  profitReports : Option ProfitsReport
  modulePrices : DealerTicker → Option Price
  broadcastTimestamps : DealerTicker → Option Nat
  latestCheckExchange : Nat
  balancingBlocked : Nat
  pendingOrders : Std.TreeMap Int Nat
  healthText : Option String
  log : List Event

abbrev Handler (α : Type) := Prog Data α

/-- Record an event. -/
def Data.emit (data : Data) (e : Event) : Data := { data with log := data.log ++ [e] }

@[inherit_doc Data.emit] def emit (e : Event) : Handler Unit := modify fun data => data.emit e

/-- A message to the balancing. -/
def balance (world : World) (args : Args) (msg : Dealer.Msg) : Handler Unit :=
  zoom Data.balancing (fun balancing data => { data with balancing }) do
    Dealer.emit (.received msg)
    Dealer.processMsg world.balancing args.toArgs msg

/-! ## Constants -/

def dealerTickers : List DealerTicker := [.usdt, .eurx]
/-- the same in the order of a map -/
def sortedTickers : List DealerTicker := [.eurx, .usdt]
def minBalanceBitcoin : ℚ := 5 / 100
def minBalanceTether : ℚ := 2500
def bfReserve : ℚ := 99 / 100
/-- milliseconds -/
def priceExpired : Nat := 300000
def interestDefaultUsdt : ℚ := 10075 / 10000
def interestDefaultEurx : ℚ := 10040 / 10000
def minHedgeAmount : ℚ := 2 / 10000
def bitfinexFeeProd : ℚ := 17 / 10000
def bitfinexFeeTest : ℚ := 2 / 1000
def instantSwapWorkAmount : ℚ := 995 / 1000

/-- The fee of the exchange. -/
def Args.bitfinexFee (args : Args) : ℚ := if args.mainnet then bitfinexFeeProd else bitfinexFeeTest

/-- `book_names`. -/
def Args.bookName (args : Args) : DealerTicker → Option String
  | .usdt => some args.bitfinexBooknameUsdt
  | .eurx => some args.bitfinexBooknameEurx
  | _ => none

/-- `book_tickers`: of two equal names the last one counts. -/
def Args.bookTicker (args : Args) (bookName : String) : Option DealerTicker :=
  if bookName = args.bitfinexBooknameUsdt then some .usdt
  else if bookName = args.bitfinexBooknameEurx then some .eurx
  else none

/-- `get_exchange_ticker`. -/
def getExchangeTicker (args : Args) (currency : String) : Option DealerTicker :=
  if currency = args.bitfinexCurrencyBtc then some .lbtc
  else if currency = args.bitfinexCurrencyUsdt then some .usdt
  else if currency = args.bitfinexCurrencyEur then some .eurx
  else none

/-! ## Requests -/

/-- `send_request!`. -/
def sendRequest {α : Type} (world : World) (req : Request) (value : Response → Option α) :
    Handler (Except String α) :=
  request (fun data => world.reply data.log req) (fun res data => data.emit (.request req res)) value

def Response.assets? : Response → Option (List Asset)
  | .assets list => some list
  | _ => none

def Response.login? : Response → Option LoginResponse
  | .login resp => some resp
  | _ => none

/-! ## Prices -/

/-- `get_exchange_balance`. -/
def getExchangeBalance (balances : Std.TreeMap String Double) (name : String) : Int :=
  fromBitcoin ((Dealer.balanceOf balances name).scale bfReserve)

/-- The satoshis of an asset in the wallet. -/
def walletAmount (utxos : Utxos) (asset : AssetId) : Int :=
  MachineInt.i64 ((utxos.values.filter fun utxo => utxo.asset == asset).map (·.amount)).sum

/-- The currency of a ticker on the exchange. -/
def Args.exchangeCurrency (args : Args) : DealerTicker → Option String
  | .usdt => some args.bitfinexCurrencyUsdt
  | .eurx => some args.bitfinexCurrencyEur
  | _ => none

/-- `get_prices`. -/
def getPrices (args : Args) (ticker : DealerTicker) (prices : PricePair) (assets : List Asset)
    (utxos : Utxos) (balances : Std.TreeMap String Double) : Except Panic (List PriceOffer) := do
  let exchangeBtcAmount := getExchangeBalance balances args.bitfinexCurrencyBtc
  match args.exchangeCurrency ticker with
  | none => pure []
  | some currency => do
      -- any amount of EURx is bought
      let exchangeAssetAmount :=
        if ticker = .eurx then MachineInt.i64 (10 * coin * truncI64 prices.ask)
        else getExchangeBalance balances currency
      let btcAsset ← expect (assets.find? fun asset => asset.ticker == DealerTicker.lbtc.text)
        "called `Option::unwrap()` on a `None` value"
      let asset ← expect (assets.find? fun asset => asset.ticker == ticker.text)
        "called `Option::unwrap()` on a `None` value"
      let walletBtcAmount := walletAmount utxos btcAsset.assetId
      let walletAssetAmount := walletAmount utxos asset.assetId
      let maxSendAssetAmount := truncI64 ((Double.minOf (times walletBtcAmount prices.ask)
        (.fin exchangeAssetAmount)).scale instantSwapWorkAmount)
      let maxSendBitcoinAmount := truncI64 ((Double.minOf (.fin exchangeBtcAmount)
        ((Double.fin walletAssetAmount).quot prices.bid)).scale instantSwapWorkAmount)
      pure ((if 0 < maxSendAssetAmount then [⟨false, prices.ask, maxSendAssetAmount⟩] else []) ++
        if 0 < maxSendBitcoinAmount then [⟨true, prices.bid, maxSendBitcoinAmount⟩] else [])

/-- The interest of a broadcast price. -/
def Args.interestOf (args : Args) (asset : AssetId) : Except Panic ℚ :=
  if asset = args.assetUsdt then .ok interestDefaultUsdt
  else if asset = args.assetEurx then .ok interestDefaultEurx
  else .error ⟨"unexpected asset"⟩

/-- A price with an interest on both sides. -/
def withInterest (price : PricePair) (interest : ℚ) : PricePair :=
  ⟨price.bid.scale (1 / interest), price.ask.scale interest⟩

/-- One turn of the loop that broadcasts the prices. -/
def broadcastPrice (world : World) (args : Args) (now : Nat) (ticker : DealerTicker) :
    Handler Unit := do
  let data ← get
  match data.modulePrices ticker with
  | none => pure ()
  | some price => do
      let expired := (data.broadcastTimestamps ticker).elim true fun timestamp =>
        decide (1000 < now - timestamp)
      if expired && data.serverConnected then
        let asset ← ofPanic (expect
          (data.balancing.assets.find? fun asset => asset.ticker == ticker.text)
          "asset must be known")
        let interest ← ofPanic (args.interestOf asset.assetId)
        let priceNew := withInterest price.pair interest
        if args.apiKey.isSome && data.serverStatus then
          let _ ← sendRequest world (.priceUpdateBroadcast asset.assetId priceNew) fun resp =>
            if resp = .priceUpdateBroadcast then some () else none
          let list ← ofPanic (getPrices args ticker priceNew data.balancing.assets data.utxos
            data.balancing.exchangeBalances)
          let _ ← sendRequest world (.broadcastPriceStream asset.assetId list
              data.balancing.storage.balancing.isSome) fun resp =>
            if resp = .broadcastPriceStream then some () else none
        modify fun data =>
          { data with broadcastTimestamps := Function.update data.broadcastTimestamps ticker (some now) }

/-! ## Hedging -/

/-- What is ordered on the exchange for a swap; a buy includes the fee of the exchange. -/
def Args.signedBitcoinAmount (args : Args) (bitcoinAmount : Int) (sendBitcoins : Bool) : ℚ :=
  if sendBitcoins then toBitcoin (fromBitcoin (.fin (toBitcoin bitcoinAmount / (1 - args.bitfinexFee))))
  else -toBitcoin bitcoinAmount

/-- `hedge_order`. -/
def hedgeOrder (world : World) (args : Args) (ticker : DealerTicker) (bitcoinAmount : Int)
    (sendBitcoins : Bool) : Handler Unit := do
  let data ← get
  let now := world.now data.log
  modify fun data => { data with balancingBlocked := now }
  if minHedgeAmount ≤ toBitcoin bitcoinAmount then
    modify fun data =>
      { data with
        profitReports := some ⟨data.walletBalances, data.balancing.exchangeBalances, now⟩ }
    let cid := world.timestampNow data.log
    let bookName ← ofPanic (expect (args.bookName ticker) "bookname must be know")
    emit (.toModule (.orderSubmit now cid (args.signedBitcoinAmount bitcoinAmount sendBitcoins)
      bookName))
    modify fun data => { data with pendingOrders := data.pendingOrders.insert cid now }

/-! ## Instant swaps -/

/-- The coins that an instant swap may spend. -/
def isSwapCoin (sendAsset : AssetId) (utxo : UnspentItem) : Bool :=
  utxo.asset == sendAsset && utxo.amountblinder.isSome && utxo.assetblinder.isSome

/-- The input of a coin. -/
def psetInput (utxo : UnspentItem) : Except Panic PsetInput := do
  let assetBf ← expect utxo.assetblinder "called `Option::unwrap()` on a `None` value"
  let valueBf ← expect utxo.amountblinder "called `Option::unwrap()` on a `None` value"
  pure ⟨utxo.txid, utxo.vout, utxo.asset, assetBf, (utxo.amount % 2 ^ 64).toNat, valueBf,
    utxo.redeemScript⟩

/-- `Notification::StartSwapDealer`. -/
def startSwapDealer (world : World) (orderId : OrderId) (sendAsset : AssetId) : Handler Unit := do
  let data ← get
  let inputs ← ofPanic ((data.utxos.values.filter (isSwapCoin sendAsset)).mapM psetInput)
  let recvAddr ← ofPanic (expectOk (world.newAddress data.log false) "getting new address failed")
  let changeAddr ← ofPanic (expectOk (world.newAddress data.log true) "getting new address failed")
  let _ ← sendRequest world (.startSwapDealer orderId inputs recvAddr changeAddr) fun resp =>
    if resp = .startSwapDealer then some () else none
  modify fun data =>
    { data with instantSwaps := Function.update data.instantSwaps orderId (some sendAsset) }

/-- One input of a swap: the coins of the promised asset are signed. -/
def signSlot (world : World) (log : List Event) (utxos : Utxos) (sendAsset : AssetId)
    (slots : List PsetSlot) (index : Nat) (slot : PsetSlot) : Except Panic PsetSlot :=
  match (utxos[slot.previousOutput]?).filter (isSwapCoin sendAsset) with
  | none => .ok slot
  | some utxo => do
      let privKey ← expectOk (world.dumpPrivKey log utxo) "loading priv key failed"
      pure
        { slot with
          finalScriptSig := utxo.redeemScript.map world.pushScript
          finalScriptWitness := some (world.signInput slots index privKey) }

/-- `Notification::BlindedSwapDealer`. -/
def blindedSwapDealer (world : World) (orderId : OrderId) (pset : String) : Handler Unit := do
  let data ← get
  let slots ← ofPanic (expectOk (world.decodePset pset) "parsing pset failed")
  let sendAsset ← ofPanic (expect (data.instantSwaps orderId) "order not found")
  let signed ← ofPanic (slots.zipIdx.mapM fun slot =>
    signSlot world data.log data.utxos sendAsset slots slot.2 slot.1)
  let _ ← sendRequest world (.signedSwapDealer orderId (world.encodePset signed)) fun resp =>
    if resp = .signedSwapDealer then some () else none

/-- Whether the dealer has sent bitcoins; the amounts of a swap are the client's. -/
def SwapDoneNotification.sendBitcoins (swap : SwapDoneNotification) (policyAsset : AssetId) : Bool :=
  decide (swap.recvAsset = policyAsset)

/-- The other asset of a swap, and its bitcoins. -/
def SwapDoneNotification.amounts (swap : SwapDoneNotification) (policyAsset : AssetId) :
    AssetId × Int :=
  if swap.recvAsset = policyAsset then (swap.sendAsset, swap.recvAmount)
  else (swap.recvAsset, swap.sendAmount)

/-- `Notification::SwapDone`. -/
def swapDone (world : World) (args : Args) (swap : SwapDoneNotification) : Handler Unit := do
  let data ← get
  let _ ← ofPanic (expect (data.instantSwaps swap.orderId) "order not found")
  modify fun data =>
    { data with instantSwaps := Function.update data.instantSwaps swap.orderId none }
  if swap.status = .success then
    let _ ← ofPanic (expect swap.txid "called `Option::unwrap()` on a `None` value")
    let (assetId, bitcoinAmount) := swap.amounts args.policyAsset
    let asset ← ofPanic (expect (data.balancing.assets.find? fun asset => asset.assetId == assetId)
      "asset must be known")
    let ticker ← ofPanic (expect (dealerTickers.find? fun ticker => ticker.text == asset.ticker)
      "dealer ticker must known")
    hedgeOrder world args ticker bitcoinAmount (swap.sendBitcoins args.policyAsset)

/-! ## The wallet -/

/-- The amounts of the assets of the wallet; assets of coins that do not count have 0. -/
def assetAmounts (unspent : List WalletCoin) (counts : WalletCoin → Bool) : List (AssetId × Double) :=
  (unspent.map (·.item.asset)).dedup.map fun asset =>
    (asset, .fin (((unspent.filter fun coin => coin.item.asset == asset && counts coin).map
      fun coin => toBitcoin coin.item.amount).sum))

/-- `==` of two maps. -/
def sameBalances (a b : Std.TreeMap String Double) : Bool :=
  a.toList.length == b.toList.length && (a.toList.zip b.toList).all fun (x, y) =>
    x.1 == y.1 && !x.2.ne y.2

/-- `Msg::ReloadUtxo`. -/
def reloadUtxo (world : World) (args : Args) (res : Except String (List WalletCoin)) :
    Handler Unit := do
  let unspent ← ofPanic (expectOk res "list_unspent failed")
  let data ← get
  let balances := Dealer.convertBalances data.balancing.assets (assetAmounts unspent fun _ => true)
  balance world args (.reloadUtxo (assetAmounts unspent fun coin => decide (0 < coin.confirmations)))
  if !sameBalances data.walletBalances balances then
    modify fun data => { data with walletBalances := balances }
    emit (.notice (.walletBalances balances.toList))
  modify fun data => { data with utxos := reloadUtxos data.utxos (unspent.map (·.item)) }

/-! ## The timer -/

/-- The balances that `Msg::Timer` reads first. -/
structure TimerBalances where
  walletBitcoin : Double
  walletUsdt : Double
  walletEurx : Double
  exchangeBitcoin : Double
  exchangeUsdt : Double
  exchangeEur : Double

def timerBalances (args : Args) (wallet exchange : Std.TreeMap String Double) : TimerBalances where
  walletBitcoin := Dealer.balanceOf wallet DealerTicker.lbtc.text
  walletUsdt := Dealer.balanceOf wallet DealerTicker.usdt.text
  walletEurx := Dealer.balanceOf wallet DealerTicker.eurx.text
  exchangeBitcoin := Dealer.balanceOf exchange args.bitfinexCurrencyBtc
  exchangeUsdt := Dealer.balanceOf exchange args.bitfinexCurrencyUsdt
  exchangeEur := Dealer.balanceOf exchange args.bitfinexCurrencyEur

/-- Whether a transfer takes longer than half an hour. -/
def balancingExpired (systemTime : Nat) : Option Dealer.Transfer → Except Panic Bool
  | none => .ok false
  | some balancing =>
      if balancing.createdAt ≤ systemTime then
        .ok (decide (30 * 60 * 1000 < systemTime - balancing.createdAt))
      else .error ⟨"must succeed"⟩

/-- `health_text`. -/
def healthText (data : Data) (b : TimerBalances) (expired : Bool) : Option String :=
  let status := [(!data.balancing.moduleConnected, "ServerOffline"),
    (!data.serverConnected, "ModuleOffline"),
    (decide ((dealerTickers.filter fun ticker => (data.modulePrices ticker).isSome).length ≠
      dealerTickers.length), "PriceExpired"),
    (isBelow b.walletBitcoin minBalanceBitcoin, "WalletBitcoinLow"),
    (isBelow b.exchangeBitcoin minBalanceBitcoin, "ExchangeBitcoinLow"),
    (isBelow b.walletUsdt minBalanceTether, "WalletTetherLow"),
    (isBelow b.exchangeUsdt minBalanceTether, "ExchangeTetherLow"),
    (expired, "BalancingStuck")].filterMap fun (bad, text) => if bad then some text else none
  if status.isEmpty then none else some (",".intercalate status)

/-- `get_balancing` on doubles. -/
def proposal (odd : Dealer.AssetBalancing) (b : TimerBalances) (price : PricePair) :
    Dealer.AssetBalancing :=
  match finite? b.walletBitcoin, finite? b.exchangeBitcoin, finite? b.walletUsdt,
      finite? b.exchangeUsdt, finite? ((plus price.bid price.ask).scale (1 / 2)) with
  | some walletBitcoin, some exchangeBitcoin, some walletUsdt, some exchangeUsdt, some price =>
      Dealer.getBalancing ⟨walletBitcoin, exchangeBitcoin, walletUsdt, exchangeUsdt⟩ price
  | _, _, _, _, _ => odd

/-- The request of a proposed transfer. -/
def requestOf : Dealer.AssetBalancing → Option Dealer.CliRequest
  | .none => none
  | .recvBtc amount => some (.testRecvBtc (.fin amount))
  | .sendBtc amount => some (.testSendBtc (.fin amount))
  | .recvUsdt amount => some (.testRecvUsdt (.fin amount))
  | .sendUsdt amount => some (.testSendUsdt (.fin amount))

/-- A transfer is proposed, if none is active and there was no hedge for a minute. -/
def proposeBalancing (world : World) (args : Args) (now : Nat) (b : TimerBalances) :
    Handler Unit := do
  let data ← get
  match data.modulePrices .usdt with
  | none => pure ()
  | some price =>
      if data.balancing.storage.balancing.isNone && args.mainnet &&
          decide (60000 < now - data.balancingBlocked) && args.balancingEnabled then
        (requestOf (proposal (world.oddBalancing data.log) b price.pair)).toList.forM fun req =>
          emit (.posted (.cli req))
      else pure ()

/-- An expired price is withdrawn from the order dealer. -/
def expirePrice (args : Args) (now : Nat) (ticker : DealerTicker) : Handler Unit := do
  let data ← get
  match data.modulePrices ticker with
  | none => pure ()
  | some price =>
      if priceExpired < now - price.timestamp ∧ args.mainnet then
        emit (.notification ("module price expired for " ++ ticker.text))
        modify fun data => { data with modulePrices := Function.update data.modulePrices ticker none }
        emit (.toDealer (.price ticker none))
      else pure ()

/-- Changed balances of the exchange are reported. -/
def reportExchangeBalances : Handler Unit := do
  let data ← get
  if !sameBalances data.exchangeBalancesReported data.balancing.exchangeBalances then
    modify fun data => { data with exchangeBalancesReported := data.balancing.exchangeBalances }
    emit (.notice (.exchangeBalances data.balancing.exchangeBalances.toList))

/-- The change of a balance, in the wallet and on the exchange. -/
def balanceChange (wallet exchange walletOld exchangeOld : Double) : Double :=
  plus (plus (plus wallet exchange) (negate walletOld)) (negate exchangeOld)

/-- The balances after a hedged swap are reported, once both of them have changed. -/
def reportProfits (world : World) (args : Args) (b : TimerBalances) : Handler Unit := do
  let data ← get
  match data.profitReports with
  | none => pure ()
  | some report =>
      if 60000 < world.now data.log - report.createdAt then
        modify fun data => { data with profitReports := none }
      else
        let old := timerBalances args report.walletBalances report.exchangeBalances
        let bitcoinsUpdated := b.walletBitcoin.ne old.walletBitcoin &&
          b.exchangeBitcoin.ne old.exchangeBitcoin
        let usdtUpdated := b.walletUsdt.ne old.walletUsdt && b.exchangeUsdt.ne old.exchangeUsdt
        let eurUpdated := b.walletEurx.ne old.walletEurx && b.exchangeEur.ne old.exchangeEur
        if bitcoinsUpdated && (usdtUpdated || eurUpdated) then
          emit (.notice (.swapComplete
            (balanceChange b.walletBitcoin b.exchangeBitcoin old.walletBitcoin old.exchangeBitcoin)
            (balanceChange b.walletUsdt b.exchangeUsdt old.walletUsdt old.exchangeUsdt)
            (balanceChange b.walletEurx b.exchangeEur old.walletEurx old.exchangeEur)))
          modify fun data => { data with profitReports := none }
        else pure ()

/-- The orders that the exchange has not confirmed for half a minute. -/
def expiredOrders (now : Nat) (pending : Std.TreeMap Int Nat) : List Int :=
  (pending.toList.filter fun order => decide (30000 < now - order.2)).map (·.1)

/-- One of them is given up. -/
def dropOrder (cid : Int) : Handler Unit := do
  emit (.notice (.orderTimeout cid))
  modify fun data => { data with pendingOrders := data.pendingOrders.erase cid }

/-- `Msg::Timer`. -/
def processTimer (world : World) (args : Args) (now : Nat) : Handler Unit := do
  let data ← get
  let b := timerBalances args data.walletBalances data.balancing.exchangeBalances
  let expired ← ofPanic
    (balancingExpired (world.systemTime data.log) data.balancing.storage.balancing)
  modify fun data => { data with healthText := healthText data b expired }
  proposeBalancing world args now b
  dealerTickers.forM (expirePrice args now)
  reportExchangeBalances
  balance world args .timer
  let data ← get
  if 60000 < now - data.latestCheckExchange then
    emit (.posted .checkExchange)
    modify fun data => { data with latestCheckExchange := now }
  reportProfits world args b
  let data ← get
  (expiredOrders now data.pendingOrders).forM dropOrder

/-! ## The loop -/

/-- `Msg::Connected`. -/
def processConnected (world : World) (args : Args) : Handler Unit := do
  emit (.notification "connected to the server")
  args.apiKey.toList.forM fun apiKey => do
    let res ← sendRequest world (.loginDealer apiKey) fun resp =>
      if resp = .loginDealer then some () else none
    ofPanic (expectOk res "dealer login failed")
  let res ← sendRequest world .assets Response.assets?
  let assets ← ofPanic (expectOk res "loading assets failed")
  balance world args (.connected assets)
  let res ← sendRequest world .login Response.login?
  let _ ← ofPanic (expectOk res "subscribing to order list failed")
  let res ← sendRequest world .serverStatus fun resp =>
    if resp = .serverStatus then some () else none
  ofPanic (expectOk res "loading server status failed")
  modify fun data => { data with serverStatus := true, serverConnected := true }
  emit (.posted .reloadUtxo)

/-- `Msg::ModuleConnected`. -/
def processModuleConnected (world : World) (args : Args) : Handler Unit := do
  balance world args .moduleConnected
  emit (.notification "module connection online")
  emit (.toModule (.login args.bitfinexKey args.bitfinexSecret))
  (sortedTickers.filterMap args.bookName).forM fun bookName =>
    emit (.toModule (.subscribe bookName))
  emit (.posted .checkExchange)

/-- `Msg::ModuleDisconnected`. -/
def processModuleDisconnected (world : World) (args : Args) : Handler Unit := do
  balance world args .moduleDisconnected
  emit (.notification "module connection offline")
  modify fun data => { data with modulePrices := fun _ => none }
  sortedTickers.forM fun ticker => emit (.toDealer (.price ticker none))

/-- `BookUpdate`. -/
def processBookUpdate (args : Args) (now : Nat) (bookName : String) (pair : PricePair) :
    Handler Unit := do
  let ticker ← ofPanic (expect (args.bookTicker bookName) "book ticker must be known")
  let data ← get
  modify fun data =>
    { data with
      modulePrices := Function.update data.modulePrices ticker (some ⟨pair.bid, pair.ask, now⟩) }
  emit (.toDealer (.price ticker (some pair)))
  if (data.modulePrices ticker).isNone then emit (.notice (.priceRefreshed ticker pair))

/-- `WalletUpdate`. -/
def processWalletUpdate (world : World) (args : Args) (currency : String) (amount : Double) :
    Handler Unit := do
  let data ← get
  let old := data.balancing.exchangeBalances[currency]?
  if old.elim true fun old => old.ne amount then
    (getExchangeTicker args currency).toList.forM fun ticker =>
      emit (.toDealer (.limitBalance ticker true (amount.scale bfReserve)))
    balance world args (.walletUpdate currency amount)
    if old.isSome then emit (.posted .checkExchange)

/-- The match on the message in the loop of `main`. -/
def processMsg (world : World) (args : Args) (now : Nat) (msg : Msg) : Handler Unit :=
  match msg with
  | .timer => processTimer world args now
  | .connected => processConnected world args
  | .disconnected => do
      emit (.notification "disconnected from the server")
      modify fun data => { data with serverConnected := false }
  | .serverStatus => modify fun data => { data with serverStatus := true }
  | .orderCreated order => if order.own.isNone then emit (.posted .timer) else pure ()
  | .startSwapDealer orderId sendAsset => startSwapDealer world orderId sendAsset
  | .blindedSwapDealer orderId pset => blindedSwapDealer world orderId pset
  | .swapDone swap => swapDone world args swap
  | .moduleConnected => processModuleConnected world args
  | .moduleDisconnected => processModuleDisconnected world args
  | .bookUpdate bookName pair => processBookUpdate args now bookName pair
  | .orderConfirm cid =>
      modify fun data => { data with pendingOrders := data.pendingOrders.erase cid }
  | .walletUpdate currency amount => processWalletUpdate world args currency amount
  | .withdraw withdrawId => balance world args (.withdraw withdrawId)
  | .movements msg => balance world args (.movements msg)
  | .transfer success => balance world args (.transfer success)
  | .moduleError error => emit (.notification ("module failed: " ++ error))
  | .reloadUtxo res => reloadUtxo world args res
  | .cli req => balance world args (.cli req)
  | .checkExchange => balance world args .checkExchange
  | .dealer (.swap swap) => hedgeOrder world args swap.ticker swap.bitcoinAmount swap.sendBitcoins
  | .dealer .walletBalanceUpdated => emit (.posted .reloadUtxo)
  | .exit => pure ()
  | .other => pure ()

/-- The body of the loop of `main`. -/
def processLoop (world : World) (args : Args) (now : Nat) (msg : Msg) : Handler Unit := do
  sortedTickers.forM (broadcastPrice world args now)
  emit (.received now msg)
  processMsg world args now msg

/-- Whether the process ends with a message. -/
def Msg.ends : Msg → Bool
  | .exit => true
  | _ => false

/-- The process, and whether it has ended. -/
structure System where
  data : Data
  stopped : Bool

/-- Run the body of the loop to its end; no part of it passes an error up. -/
def finish (msg : Msg) (p : Handler Unit) (data : Data) : System :=
  match exec p data with
  | (.error _, data) => ⟨data, true⟩
  | (.ok (), data) => ⟨data, msg.ends⟩

inductive Input where
  | message (msg : Msg)
  | restart

/-- What a started process knows: the storage it loads. -/
def load (world : World) (balancing : Dealer.Data) (log : List Event) : Data where
  balancing := balancing
  utxos := ∅
  serverStatus := false
  instantSwaps := fun _ => none
  serverConnected := false
  walletBalances := ∅
  exchangeBalancesReported := ∅
  profitReports := none
  modulePrices := fun _ => none
  broadcastTimestamps := fun _ => none
  latestCheckExchange := world.now log
  balancingBlocked := world.now log
  pendingOrders := ∅
  healthText := none
  log := log

/-- The process takes a message, or is started again. -/
def step (world : World) (args : Args) (s : System) : Input → System
  | .message msg =>
      if s.stopped then s
      else
        let now := world.now s.data.log
        finish msg (processLoop world args now msg) s.data
  | .restart =>
      let balancing := Dealer.load s.data.balancing.saved (s.data.balancing.log ++ [.restarted])
      ⟨load world balancing (s.data.log ++ [.restarted]), false⟩

/-- The first start. -/
def first (world : World) : System := ⟨load world Dealer.first.data [], false⟩

/-- The states of the dealer's runs. -/
abbrev Reaches (world : World) (args : Args) : System → Prop :=
  Reach (· = first world) (step world args) fun _ _ => True

end Exchange
