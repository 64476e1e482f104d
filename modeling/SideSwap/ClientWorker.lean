import SideSwap.ClientTransactions
import SideSwap.CoinSelection
import SideSwap.WalletSession

/-! # The wallet worker's order book

    `sideswap_client/src/worker.rs`: how orders are submitted, reviewed,
    edited, signed and removed.  A handler is a `Prog` over `Data`; an error
    that a handler passes up with `?` leaves what it has already done to the
    state, and so does a panic.

    Blocking requests are answered by the `World`, as are the calls to the
    wallet sessions; both may depend on everything that has happened, which
    `log` keeps.  `process_pending_requests` and `process_sign` call each
    other, but only once around: the inner call finds `pending_signs` empty. -/

namespace Client

open Api Program MachineInt CoinSelection Pricing Wallet

/-- `SubmitData`: the worker's record of an order of the user. -/
structure SubmitData where
  orderId : OrderId
  side : OrderSide
  asset : AssetId
  assetPrecision : Nat
  orderType : Api.OrderType
  bitcoinAmount : Int
  assetAmount : Int
  price : ℚ
  serverFee : Int
  sellBitcoin : Bool
  txouts : List OutPoint
  autoSign : Bool
  txid : Option Txid
  indexPrice : Bool
  market : MarketType
  signed : Bool
deriving DecidableEq, Repr

/-- `ActiveSwap`: the instant swap the user asked for. -/
structure ActiveSwap where
  orderId : OrderId
  sendAsset : AssetId
  recvAsset : AssetId
  sendAmount : Nat
  recvAmount : Nat
deriving DecidableEq, Repr

/-- Who asks a wallet session to verify and sign a PSET. -/
inductive Signer where
  | trySign
  | blindedSwapClient
deriving DecidableEq, Repr

/-- What the socket thread is told. -/
inductive SocketCommand where
  | connect
  | disconnect
  | hint
deriving DecidableEq, Repr

/-- The sequences of addresses that are registered: the external and internal
    ones of the regular account, and those of the AMP account. -/
inductive Chain where
  | singleSig (isInternal : Bool)
  | multiSig
deriving DecidableEq, Repr

/-- The callbacks that are passed to `make_async_request`, with what they have
    captured. -/
inductive AsyncRequest where
  | cancelOrder
  | portfolioPrices
  | gaidStatus (gaid : String) (assetId : Text)
  | updatePushToken
  | registerAddresses (chain : Chain) (last : Nat)
deriving DecidableEq, Repr

/-- An extended public key, as text. -/
abbrev XPub := String

/-- `WatchOnly`, with the keys a login uses. -/
structure WatchOnly where
  singleSigAccountXpub : XPub
  multiSigUserXpub : XPub
deriving DecidableEq, Repr

/-- `RegInfo`: what the registration of a wallet has found out. -/
structure RegInfo where
  jadeWatchOnly : Option WatchOnly
  multiSigServiceXpub : String
  multiSigUserPath : List Nat
deriving DecidableEq, Repr

/-- `XPubInfo`: the keys a wallet's addresses are derived from. -/
structure XPubInfo where
  singleSigAccount : XPub
  multiSigServiceXpub : XPub
  multiSigUserXpub : XPub
deriving DecidableEq, Repr

/-- What the worker receives, sends, shows and has signed. -/
inductive Event where
  | received (msg : Message)
  /-- a blocking request, with what `send_request` returned -/
  | request (req : Request) (res : Except String Response)
  /-- a request whose callback has been stored -/
  | asyncRequest (requestId : String) (req : Request) (callback : AsyncRequest)
  /-- a callback is called: one of the table, or one that could not be stored -/
  | called (requestId : Option String) (callback : AsyncRequest) (res : Except Error Response)
  | socket (command : SocketCommand)
  | toUi (msg : FromMsg)
  | backgroundDone (sender : Nat)
  /-- an accepted decision has been recorded in `submit_data` -/
  | accepted (orderId : OrderId) (resp : LinkResponse) (precision : Nat)
  /-- a record has been made up for an order the server knows of -/
  | restored (orderId : OrderId)
  /-- a `Sign` message has passed the checks against the order's record -/
  | checked (msg : SignNotification) (entry : SubmitData) (precision : Nat)
  /-- a call of `verify_and_sign_pset` and its result -/
  | verified (signer : Signer) (orderId : OrderId) (amounts : Amounts) (pset : String)
      (res : Except String String)
  /-- a payment has been created and is kept in `unsigned_tx` -/
  | createdTx (tx : String)
  /-- a call of `send_tx`, which signs and broadcasts, and its result -/
  | sentTx (accountId : AccountId) (tx : String) (res : Except String Txid)

/-- `SigSingleMaker`: the maker's half of a two-step swap. -/
structure SigSingleMaker where
  proposal : String
  chainingTx : Option String
  unspentOutput : UnspentOutput

/-- What lies outside the worker: the server's responses, the asset registry
    and the wallet sessions. -/
structure World where
  response : List Event → Request → Except String Response
  registry : List Event → List AssetId → Except String (List Asset)
  utxos : List Event → AccountId → Except String (Std.TreeMap AssetId (List UnspentOutput))
  balance : List Event → AccountId → AssetId → Int
  changeAddress : List Event → AccountId → Except String Address
  receiveAddress : List Event → AccountId → Except String Address
  gaid : List Event → AccountId → Except String String
  /-- `find_own_address_info` -/
  ownAddress : List Event → Address → Except String Address
  unlockHww : List Event → AccountId → Except String Unit
  sigSingleMakerTx : List Event → AccountId → (sendAsset : AssetId) → (sendAmount : Nat) →
    (recvAsset : AssetId) → (recvAmount : Nat) → Address → Except String SigSingleMaker
  psetDetails : List Event → AccountId → List UnspentOutput → (pset : String) →
    Except String PsetDetails
  signPset : List Event → AccountId → List UnspentOutput → (pset : String) →
    (nonces : List String) → Except String String
  /-- starting the two sessions of a login: the inner result is the AMP session's -/
  startSessions : List Event → Except String (Except String Unit)
  /-- starting the session again on another network -/
  restartSession : List Event → Except String Unit
  /-- logging a session in after it has connected -/
  sessionLogin : List Event → AccountId → Except String Unit
  /-- whether the AMP session still answers -/
  ampAnswers : List Event → Bool
  /-- `get_transactions` -/
  transactions : List Event → AccountId → Except String (List Transaction)
  /-- `try_register` -/
  register : List Event → LoginWallet → Except String RegInfo
  /-- `ExtendedPubKey::from_str` -/
  parseXpub : String → Option XPub
  singleSigAccountPath : List Nat
  /-- the account key of a mnemonic at a path; the mnemonic may not be valid -/
  accountXpub : (mnemonic : String) → (path : List Nat) → Except String XPub
  /-- `derive_single_sig_address` below the bound on pointers -/
  singleSigAddress : XPub → (isInternal : Bool) → (pointer : Nat) → Option Address
  /-- `derive_multi_sig_address` below the bound on pointers -/
  multiSigAddress : (service user : XPub) → (pointer : Nat) → Option Address
  createTx : List Event → CreateTx → Except String String
  /-- `get_created_tx`: the summary of a created payment that is shown -/
  createdTx : CreateTx → (tx : String) → Except String String
  sendTx : List Event → AccountId → (tx : String) → Except String Txid
  /-- `get_tx_fee` -/
  txFee : List Event → AccountId → AssetId → (amount : Int) → Except String Nat
  /-- `make_pegout_payment` -/
  pegOutPayment : List Event → AccountId → (sendAmount : Int) → (pegAddr : String) →
    (serverAmount : Int) → Except String Unit

/-- `Data`, with the global request counter and the log. -/
structure Data where
  appActive : Bool
  ampActive : Bool
  ampConnected : Bool
  connected : Bool
  assets : Std.TreeMap AssetId Asset
  ampAssets : Std.TreeSet AssetId
  assetsOld : List Asset
  syncComplete : Bool
  walletLoadedSent : Bool
  ordersLast : Std.TreeMap OrderId Order
  ordersSent : Std.TreeMap OrderId Order
  forceAutoSignMaker : Bool
  serverStatus : Option ServerStatus
  wallets : Std.TreeMap AccountId XPubInfo
  confirmedTxids : Std.TreeMap AccountId (Std.TreeSet Txid)
  unconfirmedTxids : Std.TreeMap AccountId (Std.TreeSet Txid)
  unsignedTx : Option String
  lastBlocks : Std.TreeMap AccountId Nat
  usedAddresses : Chain → Nat
  sentTxhash : Option Txid
  pegOutServerAmounts : Option PegOutAmounts
  activeExternPeg : Option OrderId
  activeSwap : Option ActiveSwap
  succeedSwap : Option Txid
  activeSubmits : Std.TreeMap OrderId LinkResponse
  activeSign : Option SignNotification
  disableDeviceKey : Bool
  deviceKey : Option String
  /-- `single_sig_registered` and `multi_sig_registered` -/
  registered : Chain → Nat
  regInfo : Option RegInfo
  sessionId : Option SessionId
  pushToken : Option String
  liquidAssetId : AssetId
  submitData : Std.TreeMap OrderId SubmitData
  pendingSigns : Std.TreeMap OrderId (Option Nat)
  visibleSubmit : Option OrderId
  waitingSubmit : Option OrderId
  processedSigns : Std.TreeSet OrderId
  pendingSignRequests : List SignNotification
  pendingSignPrompts : List SignNotification
  pendingSubmits : List SubmitOrder
  pendingLinks : List Text
  downloadedLinks : List LinkResponse
  shownSucceed : Std.TreeSet OrderId
  pendingSucceed : List TransItem
  asyncRequests : Std.TreeMap String AsyncRequest
  nextRequestId : Nat
  log : List Event

/-- Record an event. -/
def Data.emit (data : Data) (e : Event) : Data := { data with log := data.log ++ [e] }

abbrev Handler (α : Type) := Prog Data α

/-- Record an event. -/
def emit (e : Event) : Handler Unit := modify fun data => data.emit e

/-- `UiData::send`. -/
def uiSend (msg : FromMsg) : Handler Unit := emit (.toUi msg)

/-- `show_message`. -/
def showMessage (text : String) : Handler Unit := uiSend (.showMessage text)

/-- `send_request`: wait for the response. -/
def sendRequest (world : World) (req : Request) : Handler Response := do
  let data ← get
  let res := world.response data.log req
  modify fun data =>
    { data with
      nextRequestId := data.nextRequestId + 1
      log := data.log ++ [.request req res] }
  ofResult res

/-- The macro `send_request!`: the response must be of the request's type. -/
def request {α : Type} (world : World) (req : Request) (select : Response → Option α) :
    Handler α := do
  let resp ← sendRequest world req
  okOr (select resp) "unexpected response type"

/-- The payload of a response of the expected type. -/
def Response.link? : Response → Option LinkResponse
  | .link resp => some resp
  | _ => none

@[inherit_doc Response.link?] def Response.submit? : Response → Option SubmitResponse
  | .submit resp => some resp
  | _ => none

@[inherit_doc Response.link?] def Response.resolveGaid? : Response → Option Address
  | .resolveGaid address => some address
  | _ => none

@[inherit_doc Response.link?] def Response.psetMaker? : Response → Option Unit
  | .psetMaker => some ()
  | _ => none

@[inherit_doc Response.link?] def Response.psetTaker? : Response → Option Unit
  | .psetTaker => some ()
  | _ => none

@[inherit_doc Response.link?] def Response.sign? : Response → Option Unit
  | .sign => some ()
  | _ => none

@[inherit_doc Response.link?] def Response.getSign? : Response → Option SignNotification
  | .getSign data => some data
  | _ => none

@[inherit_doc Response.link?] def Response.edit? : Response → Option Unit
  | .edit => some ()
  | _ => none

@[inherit_doc Response.link?] def Response.startSwapClient? : Response → Option OrderId
  | .startSwapClient orderId => some orderId
  | _ => none

@[inherit_doc Response.link?] def Response.signedSwapClient? : Response → Option Unit
  | .signedSwapClient => some ()
  | _ => none

/-! ## The asset registry -/

/-- `register_asset`. -/
def registerAsset (asset : Asset) (swapMarket ampMarket unregistered : Bool) : Handler Unit := do
  let _ ← ofPanic (expect asset.icon "asset icon must be embedded")
  modify fun data => { data with assets := data.assets.insert asset.assetId asset }
  uiSend (.newAsset asset swapMarket ampMarket unregistered)

/-- `try_add_asset`. -/
def tryAddAsset (world : World) (assetId : AssetId) : Handler Unit := do
  let data ← get
  if data.assets.contains assetId then pure ()
  else do
    let assets ← ofResult (world.registry data.log [assetId])
    let asset ← okOr assets.head?
      ("asset not found in gdk registry: " ++ String.ofList (toText assetId))
    registerAsset asset false false false

/-! ## The terms of an order -/

/-- `verify_amounts`: the amounts fit the price and the fee. -/
def verifyAmounts (data : Data) (details : Details) : Except String Unit := do
  check (details.asset != data.liquidAssetId)
    "Condition failed: `details.asset != self.liquid_asset_id`"
  check (decide (0 < details.price)) "Condition failed: `details.price > 0.0`"
  check (decide (minBitcoinAmount ≤ details.bitcoinAmount))
    "Condition failed: `details.bitcoin_amount >= types::MIN_BITCOIN_AMOUNT.to_sat()`"
  check (decide (minServerFee ≤ details.serverFee))
    "Condition failed: `details.server_fee >= types::MIN_SERVER_FEE.to_sat()`"
  check (decide (0 < details.assetAmount)) "Condition failed: `details.asset_amount > 0`"
  check (decide (details.serverFee < details.bitcoinAmount))
    "Condition failed: `details.server_fee < details.bitcoin_amount`"
  let asset ← (data.assets[details.asset]?).elim (.error "unknown asset") .ok
  check (decide (asset.precision ≤ 8)) "Condition failed: `asset.precision <= 8`"
  match details.orderType with
  | .bitcoin => do
      -- only assets of precision 8 when the bitcoin amount is fixed
      check (asset.precision == 8) "Condition failed: `asset.precision == 8`"
      check (assetAmount details.bitcoinAmount details.price asset.precision details.market
        == details.assetAmount) "unexpected asset amount"
  | .asset =>
      check (bitcoinAmount details.assetAmount details.price asset.precision details.market
        == details.bitcoinAmount) "unexpected bitcoin amount"
  check (details.serverFee == getServerFee details.bitcoinAmount)
    "Condition failed: `details.server_fee == server_fee.to_sat()`"

/-- The account an order of an asset is handled by. -/
def accountOf (data : Data) (asset : AssetId) : AccountId :=
  if data.ampAssets.contains asset then accountIdAmp else accountIdReg

/-- `get_wallet_ref` and `get_wallet_mut`. -/
def getWallet (accountId : AccountId) : Handler Unit := do
  let data ← get
  ensure (data.wallets.contains accountId) "wallet not found"

/-! ## Sign prompts and success notes -/

/-- The review a sign prompt shows. -/
def signReview (msg : SignNotification) (entry : SubmitData) : SubmitReview where
  orderId := msg.orderId
  asset := entry.asset
  bitcoinAmount := entry.bitcoinAmount
  assetAmount := entry.assetAmount
  price := entry.price
  serverFee := entry.serverFee
  sellBitcoin := entry.sellBitcoin
  step := .sign
  indexPrice := entry.indexPrice
  autoSign := entry.autoSign
  twoStep := none
  txChainingRequired := none

/-- The loop of `process_pending_sign_prompts` over the queue. -/
def showSignPrompts : List SignNotification → Handler Unit
  | [] => pure ()
  | msg :: rest => do
      let data ← get
      if data.visibleSubmit.isSome then pure ()
      else do
        modify fun data => { data with pendingSignPrompts := rest }
        match data.submitData[msg.orderId]? with
        | none => showSignPrompts rest
        | some entry => do
            modify fun data =>
              { data with
                visibleSubmit := some msg.orderId
                activeSign := some msg
                log := data.log ++ [.toUi (.submitReview (signReview msg entry))] }
            showSignPrompts rest

/-- `process_pending_sign_prompts`. -/
def processPendingSignPrompts : Handler Unit := do
  let data ← get
  showSignPrompts data.pendingSignPrompts

/-- `process_pending_succeed`. -/
def processPendingSucceed : Handler Unit := do
  let data ← get
  if data.visibleSubmit.isSome then pure ()
  else do
    modify fun data => { data with pendingSucceed := [] }
    data.pendingSucceed.forM fun item => uiSend (.submitResult (.swapSucceed item))

/-! ## Signing -/

/-- The session of an account. -/
def World.session (world : World) (log : List Event) (accountId : AccountId) : Session where
  unspentOutputs := world.utxos log accountId
  psetDetails := world.psetDetails log accountId
  signPset := world.signPset log accountId

/-- `wallet.verify_and_sign_pset`. -/
def verifyAndSignPset (world : World) (signer : Signer) (orderId : OrderId)
    (accountId : AccountId) (amounts : Amounts) (pset : String) (nonces : List String) :
    Handler String := do
  let data ← get
  let res := (world.session data.log accountId).verifyAndSignPset data.liquidAssetId amounts pset
    nonces
  emit (.verified signer orderId amounts pset res)
  ofResult res

/-- The amounts `try_sign` has a PSET verified against. -/
def signAmounts (liquidAssetId : AssetId) (entry : SubmitData) : Amounts :=
  if entry.sellBitcoin then
    { sendAsset := liquidAssetId
      recvAsset := entry.asset
      sendAmount := u64 (i64 (entry.bitcoinAmount + entry.serverFee))
      recvAmount := u64 entry.assetAmount }
  else
    { sendAsset := entry.asset
      recvAsset := liquidAssetId
      sendAmount := u64 entry.assetAmount
      recvAmount := u64 (i64 (entry.bitcoinAmount - entry.serverFee)) }

/-- The blinding nonces `try_sign` passes on. -/
def signNonces (data : Data) (entry : SubmitData) (msg : SignNotification) :
    Except String (List String) :=
  if data.ampAssets.contains entry.asset then
    msg.nonces.elim (.error "blinding keys should be known") .ok
  else .ok []

/-- `try_sign`. -/
def trySign (world : World) (msg : SignNotification) : Handler Bool := do
  let data ← get
  let entry ← okOr data.submitData[msg.orderId]? "submit_data not found"
  ensure (entry.orderId == msg.orderId) "unexpected order_id"
  let nonces ← ofResult (signNonces data entry msg)
  let accountId := accountOf data entry.asset
  getWallet accountId
  let signedPset ← verifyAndSignPset world .trySign msg.orderId accountId
    (signAmounts data.liquidAssetId entry) msg.pset nonces
  request world (.sign ⟨msg.orderId, signedPset, entry.side⟩) Response.sign?
  let data ← get
  let entry ← ofPanic
    (expect data.submitData[msg.orderId]? "called `Option::unwrap()` on a `None` value")
  modify fun data =>
    { data with submitData := data.submitData.insert msg.orderId { entry with signed := true } }
  if entry.side == .taker && !msg.details.twoStep.getD false then
    uiSend (.startTimer entry.orderId)
  pure false

/-- `AUTO_SIGN_ALLOWED_INDEX_PRICE_CHANGE`. -/
def autoSignAllowedIndexPriceChange : ℚ := 1 / 10

/-- The checks of `try_process_sign` against the order's record. -/
def checkSign (entry : SubmitData) (details : Details) : Except String Unit := do
  check (entry.sellBitcoin == details.sendBitcoins)
    "Condition failed: `submit_data.sell_bitcoin == msg.details.send_bitcoins`"
  check (entry.orderType == details.orderType)
    "Condition failed: `submit_data.order_type == msg.details.order_type`"
  check (entry.asset == details.asset)
    "Condition failed: `submit_data.asset == msg.details.asset`"
  match entry.orderType with
  | .bitcoin => do
      check (entry.serverFee == details.serverFee)
        "Condition failed: `submit_data.server_fee.to_sat() == msg.details.server_fee`"
      check (entry.bitcoinAmount == details.bitcoinAmount)
        "Condition failed: `submit_data.bitcoin_amount.to_sat() == msg.details.bitcoin_amount`"
  | .asset =>
      check (entry.assetAmount == details.assetAmount)
        "Condition failed: `submit_data.asset_amount.to_sat() == msg.details.asset_amount`"
  check (entry.side == details.side)
    "Condition failed: `submit_data.side == msg.details.side`"
  check ((priceChange details.price entry.price).isZero || entry.side != .taker)
    "Condition failed: `price_change == 0.0 || submit_data.side != OrderSide::Taker`"

/-- Whether `try_process_sign` signs without a prompt. -/
def autoSignAllowed (forceAutoSignMaker : Bool) (entry : SubmitData) (price : ℚ) : Bool :=
  let allowedPriceChange := if entry.indexPrice then autoSignAllowedIndexPriceChange else 0
  match entry.side with
  | .maker =>
      (entry.autoSign && (priceChange price entry.price).le allowedPriceChange)
        || forceAutoSignMaker
  | .taker => true

/-- The record after `try_process_sign` has taken over the selected amounts. -/
def SubmitData.select (entry : SubmitData) (details : Details) : SubmitData :=
  { entry with
    price := details.price
    assetAmount := details.assetAmount
    bitcoinAmount := details.bitcoinAmount
    serverFee := details.serverFee }

/-- The precision the registry has for an asset. -/
def precisionOf (data : Data) (asset : AssetId) : Nat :=
  (data.assets[asset]?).elim 0 (·.precision)

/-- `try_process_sign`. -/
def tryProcessSign (world : World) (msg : SignNotification) : Handler Unit := do
  let data ← get
  if data.processedSigns.contains msg.orderId then pure ()
  else do
    modify fun data => { data with processedSigns := data.processedSigns.insert msg.orderId }
    ofResult (verifyAmounts data msg.details)
    let entry ← okOr data.submitData[msg.orderId]? "no keys found"
    ensure (msg.orderId == entry.orderId) "Condition failed: `order_id == submit_data.order_id`"
    ofResult (checkSign entry msg.details)
    let checked := Event.checked msg entry (precisionOf data msg.details.asset)
    modify fun data =>
      { data with
        submitData := data.submitData.insert msg.orderId (entry.select msg.details)
        log := data.log ++ [checked] }
    if autoSignAllowed data.forceAutoSignMaker entry msg.details.price then do
      let _ ← trySign world msg
      pure ()
    else do
      modify fun data => { data with pendingSignPrompts := data.pendingSignPrompts ++ [msg] }
      processPendingSignPrompts

/-- A `Sign` message that fails is reported. -/
def processSignNow (world : World) (msg : SignNotification) : Handler Unit := do
  match ← attempt (tryProcessSign world msg) with
  | .ok () => pure ()
  | .error e => showMessage ("sign failed: " ++ e)

/-- `process_sign`, given `process_pending_requests`. -/
def processSignWith (world : World) (pendingRequests : Handler Unit) (msg : SignNotification) :
    Handler Unit :=
  if msg.details.side = .taker then processSignNow world msg
  else do
    modify fun data => { data with pendingSignRequests := data.pendingSignRequests ++ [msg] }
    pendingRequests

/-- `add_missing_submit_data`. -/
def addMissingSubmitData (orderId : OrderId) (details : Details) (twoStep : Bool) :
    Handler Unit := do
  let data ← get
  if (data.submitData[orderId]?).isNone then do
    let asset ← okOr data.assets[details.asset]? "unknown asset"
    ofResult (verifyAmounts data details)
    let entry : SubmitData :=
      { orderId
        side := .maker
        asset := details.asset
        assetPrecision := asset.precision
        orderType := details.orderType
        bitcoinAmount := details.bitcoinAmount
        assetAmount := details.assetAmount
        price := details.price
        serverFee := details.serverFee
        sellBitcoin := details.sendBitcoins == (details.side == .maker)
        txouts := []
        -- auto-sign is off after a restart, unless the swap is a two-step one
        autoSign := twoStep
        txid := none
        indexPrice := false
        market := details.market
        signed := false }
    modify fun data =>
      { data with
        submitData := data.submitData.insert orderId entry
        log := data.log ++ [.restored orderId] }

/-! ## Submitting an order -/

/-- The asset and the amount an order sends. -/
def sendSide (liquidAssetId : AssetId) (details : Details) : AssetId × Int :=
  if details.sendBitcoins then
    (liquidAssetId, i64 (details.bitcoinAmount + details.serverFee))
  else (details.asset, details.assetAmount)

/-- The asset and the amount an order receives. -/
def recvSide (liquidAssetId : AssetId) (details : Details) : AssetId × Int :=
  if details.sendBitcoins then (details.asset, details.assetAmount)
  else (liquidAssetId, i64 (details.bitcoinAmount - details.serverFee))

/-- `try_process_link_order`. -/
def tryProcessLinkOrder (world : World) (orderId : OrderId) : Handler Unit := do
  let resp ← request world (.link orderId) Response.link?
  modify fun data => { data with downloadedLinks := data.downloadedLinks ++ [resp] }

/-- The bitcoin amount `try_process_submit_order` asks for: selling the whole
    balance means the most the balance can pay for. -/
def submitBitcoinAmount (balance : Int) (v : ℚ) : Except Stop ℚ :=
  if toBitcoin balance = -v then do
    let amount ← getMaxBitcoinAmount balance
    pure (-toBitcoin amount)
  else pure v

/-- AMP assets are traded from the AMP account, the others from the regular one. -/
def checkSubmitAccount (data : Data) (asset : AssetId) (account : AccountId) :
    Except String Unit :=
  if data.ampAssets.contains asset then
    check (account == accountIdAmp) "AMP asset order is expected to be from AMP account"
  else
    check (account == accountIdReg) "Non AMP asset order is expected to be from non-AMP account"

/-- The bitcoin amount of a submission, if it fixes one. -/
def submitAmount (world : World) (req : SubmitOrder) : Handler (Option ℚ) :=
  match req.bitcoinAmount with
  | none => pure none
  | some v => do
      getWallet req.account
      let data ← get
      let amount ← ofStop
        (submitBitcoinAmount (world.balance data.log req.account data.liquidAssetId) v)
      pure (some amount)

/-- `try_process_submit_order`. -/
def tryProcessSubmitOrder (world : World) (req : SubmitOrder) : Handler Unit := do
  let asset ← ofPanic
    (expect (fromStr req.assetId) "called `Result::unwrap()` on an `Err` value")
  let data ← get
  ofResult (checkSubmitAccount data asset req.account)
  let bitcoinAmount ← submitAmount world req
  let order : PriceOrder :=
    { asset
      bitcoinAmount
      assetAmount := req.assetAmount
      price := some req.price
      indexPrice := req.indexPrice
      forcePrivate := none
      disablePriceEdit := none }
  let resp ← request world (.submit order) Response.submit?
  tryProcessLinkOrder world resp.orderId

/-- The review of a downloaded order. -/
def linkReview (resp : LinkResponse) (autoSign : Bool) (txChainingRequired : Option Bool) :
    SubmitReview where
  orderId := resp.orderId
  asset := resp.details.asset
  bitcoinAmount := resp.details.bitcoinAmount
  assetAmount := resp.details.assetAmount
  price := resp.details.price
  sellBitcoin := resp.details.sendBitcoins
  serverFee := resp.details.serverFee
  step := if resp.details.side = .maker then .submit else .quote
  indexPrice := resp.indexPrice
  autoSign := autoSign
  twoStep := resp.details.twoStep
  txChainingRequired := txChainingRequired

/-- The funds an order needs and those there are. -/
def linkFunds (world : World) (data : Data) (details : Details) (accountId : AccountId) :
    ShowInsufficientFunds where
  assetId := (sendSide data.liquidAssetId details).1
  available := world.balance data.log accountId (sendSide data.liquidAssetId details).1
  required := (sendSide data.liquidAssetId details).2

/-- Whether a maker must split a coin first: no coin is worth just the amount. -/
def txChainingRequired (world : World) (data : Data) (details : Details)
    (accountId : AccountId) : Except String (Option Bool) :=
  if details.side = .maker then do
    let (sendAsset, sendAmount) := sendSide data.liquidAssetId details
    let utxos ← world.utxos data.log accountId
    let inputs := (utxos[sendAsset]?).getD []
    pure (some (!inputs.any fun utxo =>
      utxo.assetId == sendAsset && i64 utxo.satoshi == sendAmount))
  else pure none

/-- `try_process_downloaded_link`; the message it may return is always this one. -/
def tryProcessDownloadedLink (world : World) (resp : LinkResponse) :
    Handler (Option ShowInsufficientFunds) := do
  tryAddAsset world resp.details.asset
  let data ← get
  let accountId := accountOf data resp.details.asset
  getWallet accountId
  let funds := linkFunds world data resp.details accountId
  if funds.available < funds.required then pure (some funds)
  else do
    let chaining ← ofResult (txChainingRequired world data resp.details accountId)
    let autoSign := (data.submitData[resp.orderId]?).elim false (·.autoSign)
    uiSend (.submitReview (linkReview resp autoSign chaining))
    modify fun data =>
      { data with
        visibleSubmit := some resp.orderId
        activeSubmits := data.activeSubmits.insert resp.orderId resp }
    pure none

/-- The coins of the orders in `submit_data`. -/
def reservedTxouts (data : Data) : List OutPoint :=
  (Table.values data.submitData).flatMap (·.txouts)

/-- The coins a submission chooses from: those no other order has, or all of
    them when these do not suffice and the user allows it. -/
def assetUtxos (data : Data) (inputs : List UnspentOutput) (sendAmount : Int)
    (onlyUnusedUtxos : Bool) : Except String (List UnspentOutput) :=
  let filtered := inputs.filter fun utxo => utxo.outPoint ∉ reservedTxouts data
  let filteredAmount := i64 (u64 (filtered.map (·.satoshi)).sum)
  if sendAmount ≤ filteredAmount then .ok filtered
  else if onlyUnusedUtxos then .error "not enough free UTXOs"
  else .ok inputs

/-- The selection of the inputs of a submission. -/
def selectInputs (utxos : List UnspentOutput) (sendAmount : Int) :
    Except Stop (List PsetInput) := do
  let amounts := utxos.map fun utxo => i64 utxo.satoshi
  if ¬ sendAmount ≤ i64 amounts.sum then
    throw (.error "Insufficient funds")
  let selected ← (selectUtxo amounts sendAmount).mapError .panic
  if ¬ sendAmount ≤ i64 selected.sum then
    throw (.panic ⟨"assertion failed: selected_amount >= send_amount"⟩)
  let inputs ← (takeValues selected (utxos.map fun utxo => (i64 utxo.satoshi, utxo))).mapError
    fun _ => .panic ⟨"utxo must exists"⟩
  pure (inputs.map convertToSwapUtxo)

/-- The receive address of a submission: bought AMP assets go to an address
    that the server resolves and the AMP account must know. -/
def recvAddress (world : World) (orderId : OrderId) (details : Details)
    (accountId : AccountId) : Handler Address := do
  let data ← get
  if details.sendBitcoins && data.ampAssets.contains details.asset then do
    let gaid ← ofResult (world.gaid data.log accountId)
    let resolved ← request world (.resolveGaid orderId gaid) Response.resolveGaid?
    let data ← get
    ofResult (world.ownAddress data.log resolved)
  else ofResult (world.receiveAddress data.log accountId)

/-- The maker's half of a two-step swap, signed by the wallet; splitting a coin
    first needs the user's permission. -/
def signHalf (world : World) (data : Data) (req : SubmitDecision) (details : Details)
    (autoSign : Bool) (accountId : AccountId) (recvAddr : Address) :
    Except String (MakerSignedHalf × PsetInput) := do
  check autoSign "Auto-sign must be enabled for two-step swap"
  let send := sendSide data.liquidAssetId details
  let recv := recvSide data.liquidAssetId details
  let makerTx ← world.sigSingleMakerTx data.log accountId send.1 (u64 send.2) recv.1 (u64 recv.2)
    recvAddr
  check (makerTx.chainingTx.isNone || req.txChainingAllowed.getD false)
    "Please allow tx chaining and try again"
  pure (⟨makerTx.chainingTx, makerTx.proposal⟩, convertToSwapUtxo makerTx.unspentOutput)

/-- The inputs a maker offers, and the signed half: in a two-step swap the input
    of the half takes the place of the selected ones. -/
def makerInputs (world : World) (data : Data) (req : SubmitDecision) (details : Details)
    (autoSign : Bool) (accountId : AccountId) (inputs : List PsetInput) (recvAddr : Address) :
    Except String (List PsetInput × Option MakerSignedHalf) :=
  if req.twoStep.getD false then do
    let (half, input) ← signHalf world data req details autoSign accountId recvAddr
    pure ([input], some half)
  else pure (inputs, none)

/-- The offer a submission makes to the server. -/
def sendPset (world : World) (req : SubmitDecision) (orderId : OrderId) (details : Details)
    (autoSign : Bool) (accountId : AccountId) (inputs : List PsetInput)
    (recvAddr changeAddr : Address) : Handler Unit := do
  let data ← get
  if details.side = .maker then do
    let offer ← ofResult
      (makerInputs world data req details autoSign accountId inputs recvAddr)
    request world
      (.psetMaker
        { orderId, price := details.price, isPrivate := req.isPrivate.getD false
          ttlSeconds := req.ttlSeconds, inputs := offer.1, recvAddr, changeAddr
          signedHalf := offer.2 })
      Response.psetMaker?
  else do
    ofResult (world.unlockHww data.log accountId)
    request world
      (.psetTaker { orderId, price := details.price, inputs, recvAddr, changeAddr })
      Response.psetTaker?

/-- The record of an accepted submission. -/
def acceptedEntry (orderId : OrderId) (resp : LinkResponse) (precision : Nat)
    (txouts : List OutPoint) (autoSign : Bool) : SubmitData where
  orderId := orderId
  side := resp.details.side
  asset := resp.details.asset
  assetPrecision := precision
  orderType := resp.details.orderType
  bitcoinAmount := resp.details.bitcoinAmount
  assetAmount := resp.details.assetAmount
  price := resp.details.price
  serverFee := resp.details.serverFee
  sellBitcoin := resp.details.sendBitcoins
  txouts := txouts
  autoSign := autoSign
  txid := none
  indexPrice := resp.indexPrice
  market := resp.details.market
  signed := false

/-- The part of `try_process_submit_decision` that submits a reviewed order. -/
def trySubmit (world : World) (req : SubmitDecision) (orderId : OrderId) (resp : LinkResponse) :
    Handler Bool := do
  let details := resp.details
  let data ← get
  let autoSign := req.autoSign.getD false && details.side == .maker
  let _ ← okOr data.assets[details.asset]? "unknown asset"
  ofResult (verifyAmounts data details)
  let send := sendSide data.liquidAssetId details
  let accountId := accountOf data details.asset
  getWallet accountId
  let changeAddr ← ofResult (world.changeAddress data.log accountId)
  let utxos ← ofResult (world.utxos data.log accountId)
  let recvAddr ← recvAddress world orderId details accountId
  let chosen ← ofResult (assetUtxos data ((utxos[send.1]?).getD []) send.2
    (req.onlyUnusedUtxos.getD false))
  let inputs ← ofStop (selectInputs chosen send.2)
  sendPset world req orderId details autoSign accountId inputs recvAddr changeAddr
  let data ← get
  let asset ← okOr data.assets[details.asset]? "unknown asset"
  let entry := acceptedEntry orderId resp asset.precision (inputs.map (·.outPoint)) autoSign
  modify fun data =>
    { data with
      submitData := data.submitData.insert orderId entry
      log := data.log ++ [.accepted orderId resp asset.precision] }
  pure (details.side == .maker)

/-- `try_process_submit_decision`. -/
def tryProcessSubmitDecision (world : World) (req : SubmitDecision) : Handler Bool :=
  if !req.accept then pure true
  else do
    let data ← get
    match data.activeSign.filter fun sign => toText sign.orderId == req.orderId with
    | some msg => do
        modify fun data => { data with activeSign := none }
        trySign world msg
    | none => do
        let orderId ← okOr (fromStr req.orderId) "Invalid string length"
        let resp ← okOr data.activeSubmits[orderId]? "data not found"
        modify fun data => { data with activeSubmits := data.activeSubmits.erase orderId }
        trySubmit world req orderId resp

/-- The text of the server's refusal of an unregistered account. -/
def unregisteredError : String :=
  "Your AMP ID must be registered with the issuer to trade this product. " ++
  "Please consult product details for further information."

/-- How a failed decision is reported. -/
def submitError (domainAgent : Option String) (e : String) : SubmitResult :=
  match domainAgent with
  | some domainAgent => if e = unregisteredError then .unregisteredGaid domainAgent else .error e
  | none => .error e

/-- `process_submit_decision`. -/
def processSubmitDecision (world : World) (req : SubmitDecision) : Handler Unit := do
  let data ← get
  let domainAgent := do
    let orderId ← fromStr req.orderId
    let resp ← data.activeSubmits[orderId]?
    let asset ← data.assets[resp.details.asset]?
    asset.domainAgent
  match ← attempt (tryProcessSubmitDecision world req) with
  | .ok false => do
      modify fun data => { data with waitingSubmit := data.visibleSubmit, visibleSubmit := none }
      processPendingSignPrompts
      processPendingSucceed
  | .ok true => do
      uiSend (.submitResult .submitSucceed)
      modify fun data => { data with visibleSubmit := none }
      processPendingSignPrompts
      processPendingSucceed
  | .error e => do
      uiSend (.submitResult (submitError domainAgent e))
      modify fun data => { data with visibleSubmit := none }
      processPendingSignPrompts
      processPendingSucceed

/-! ## Pending requests -/

/-- `download_sign_request`, given `process_pending_requests`. -/
def downloadSignRequestWith (world : World) (pendingRequests : Handler Unit) (orderId : OrderId) :
    Handler Unit := do
  let sign ← request world (.getSign orderId) Response.getSign?
  tryAddAsset world sign.details.asset
  addMissingSubmitData orderId sign.details false
  processSignWith world pendingRequests sign

/-- `pending_amp_sign_requests`. -/
def pendingAmpSignRequests (data : Data) : Bool :=
  (data.pendingSignRequests.any fun sign => data.ampAssets.contains sign.details.asset) ||
  data.pendingSigns.keys.all fun orderId =>
    (data.submitData[orderId]?).elim false fun submit => submit.market == .amp

/-- `update_amp_connection`. -/
def updateAmpConnection : Handler Unit :=
  modify fun data => { data with ampActive := data.appActive || pendingAmpSignRequests data }

/-- The loop over `pending_signs`; the result is the list of waiting background
    threads. -/
def downloadSigns (download : OrderId → Handler Unit) :
    List (OrderId × Option Nat) → Handler (List Nat)
  | [] => pure []
  | (orderId, pendingSign) :: rest => do
      let data ← get
      if data.processedSigns.contains orderId then downloadSigns download rest
      else do
        match ← attempt (download orderId) with
        | .ok () => pure ()
        | .error e => showMessage ("sign failed: " ++ e)
        let senders ← downloadSigns download rest
        pure (pendingSign.toList ++ senders)

/-- A pending submission is tried; failures are reported. -/
def processPendingSubmit (world : World) (req : SubmitOrder) : Handler Unit := do
  match ← attempt (tryProcessSubmitOrder world req) with
  | .ok () => pure ()
  | .error e => uiSend (.submitResult (.error e))

/-- A pending link is downloaded. -/
def processPendingLink (world : World) (orderId : Text) : Handler Unit := do
  let orderId ← ofPanic
    (expect (fromStr orderId) "called `Result::unwrap()` on an `Err` value")
  match ← attempt (tryProcessLinkOrder world orderId) with
  | .ok () => pure ()
  | .error e => showMessage e

/-- A downloaded link is put up for review. -/
def processDownloadedLink (world : World) (resp : LinkResponse) : Handler Unit := do
  match ← attempt (tryProcessDownloadedLink world resp) with
  | .ok (some msg) => uiSend (.insufficientFunds msg)
  | .ok none => pure ()
  | .error e => showMessage e

/-- The messages popped off `pending_sign_requests` one by one. -/
def processSignRequests (world : World) : List SignNotification → Handler Unit
  | [] => pure ()
  | msg :: rest => do
      modify fun data => { data with pendingSignRequests := rest }
      let data ← get
      if data.processedSigns.contains msg.orderId then processSignRequests world rest
      else do
        processSignNow world msg
        processSignRequests world rest

/-- The loop over `pending_submits`. -/
def processPendingSubmits (world : World) : Handler Unit := do
  let data ← get
  modify fun data => { data with pendingSubmits := [] }
  data.pendingSubmits.forM (processPendingSubmit world)

/-- The loop over `pending_links`. -/
def processPendingLinks (world : World) : Handler Unit := do
  let data ← get
  modify fun data => { data with pendingLinks := [] }
  data.pendingLinks.forM (processPendingLink world)

/-- The loop over `downloaded_links`. -/
def processDownloadedLinks (world : World) : Handler Unit := do
  let data ← get
  modify fun data => { data with downloadedLinks := [] }
  data.downloadedLinks.forM (processDownloadedLink world)

/-- The loop over `pending_sign_requests`, from its current content. -/
def processPendingSignRequests (world : World) : Handler Unit := do
  let data ← get
  processSignRequests world data.pendingSignRequests

/-- `process_pending_requests`, given `download_sign_request`. -/
def processPendingRequestsWith (world : World) (download : OrderId → Handler Unit) :
    Handler Unit := do
  let data ← get
  if !data.connected then pure ()
  else if !data.ampConnected && pendingAmpSignRequests data
      && data.wallets.contains accountIdAmp then
    updateAmpConnection
  else do
    modify fun data => { data with pendingSigns := ∅ }
    let backgroundRequests ← downloadSigns download data.pendingSigns.toList
    processPendingSubmits world
    processPendingLinks world
    processDownloadedLinks world
    processPendingSignPrompts
    processPendingSignRequests world
    updateAmpConnection
    backgroundRequests.forM fun sender => emit (.backgroundDone sender)

/-- The `process_pending_requests` that a download calls: `pending_signs` has
    been taken, so there is nothing left to download. -/
def processPendingRequestsAgain (world : World) : Handler Unit :=
  processPendingRequestsWith world fun _ => pure ()

/-- `process_pending_requests`. -/
def processPendingRequests (world : World) : Handler Unit :=
  processPendingRequestsWith world
    (downloadSignRequestWith world (processPendingRequestsAgain world))

/-- `process_sign`. -/
def processSign (world : World) (msg : SignNotification) : Handler Unit :=
  processSignWith world (processPendingRequests world) msg

end Client
