import SideSwap.ClientWorker
import SideSwap.Transition

/-! # The wallet worker's message loop

    The remaining handlers of `sideswap_client/src/worker.rs` that touch the
    order book, the wallets or the pending requests (the order list, edits,
    completions, instant swaps, peg-outs, payments, connections and sessions),
    and `start_processing`: the worker takes one message at a time.  Which message comes next, and what it says, is arbitrary.  A panic
    ends the worker's thread: a stopped worker handles nothing more. -/

namespace Client

open Api Program MachineInt CoinSelection Pricing Transition

/-! ## The order list -/

/-- A removed order is taken off the list that is shown. -/
def syncRemovedOrder (orderId : OrderId) : Handler Unit := do
  modify fun data => { data with ordersSent := data.ordersSent.erase orderId }
  uiSend (.orderRemoved orderId)

/-- A new or changed order is put on the list that is shown. -/
def syncOrder (orderId : OrderId) (order : Order) : Handler Unit := do
  let data ← get
  let orderSent := data.ordersSent[orderId]?
  if orderSent = some order then pure ()
  else do
    modify fun data => { data with ordersSent := data.ordersSent.insert orderId order }
    uiSend (.orderCreated order (orderSent.isNone && order.fromNotification))

/-- `sync_order_list`. -/
def syncOrderList : Handler Unit := do
  let data ← get
  let removed := data.ordersSent.keys.filter fun orderId => !data.ordersLast.contains orderId
  removed.forM syncRemovedOrder
  data.ordersLast.toList.forM fun line => syncOrder line.1 line.2

/-- The line of the order list for an order. -/
def orderLine (data : Data) (msg : OrderCreatedNotification) (fromNotification : Bool) :
    Order where
  orderId := msg.orderId
  assetId := msg.details.asset
  bitcoinAmount := msg.details.bitcoinAmount
  sendBitcoins := msg.details.sendBitcoins
  serverFee := msg.details.serverFee
  assetAmount := msg.details.assetAmount
  price := msg.details.price
  createdAt := msg.createdAt
  expiresAt := msg.expiresAt
  isPrivate := msg.own.elim false (·.isPrivate)
  twoStep := msg.twoStep
  autoSign := (data.submitData[msg.orderId]?).elim false (·.autoSign)
  own := msg.own.isSome
  tokenMarket := !data.assets.contains msg.details.asset
    && !data.ampAssets.contains msg.details.asset
  fromNotification := fromNotification
  indexPrice := msg.own.bind (·.indexPrice)

/-- `add_order`; the two failures it can meet are only logged. -/
def addOrder (world : World) (fromNotification : Bool) (msg : OrderCreatedNotification) :
    Handler Unit := do
  let _ ← attempt (tryAddAsset world msg.details.asset)
  if msg.own.isSome then do
    let _ ← attempt (addMissingSubmitData msg.orderId msg.details msg.twoStep)
  modify fun data =>
    { data with
      ordersLast := data.ordersLast.insert msg.orderId (orderLine data msg fromNotification) }

/-- `process_order_created`. -/
def processOrderCreated (world : World) (msg : OrderCreatedNotification) : Handler Unit := do
  addOrder world true msg
  syncOrderList

/-- `process_order_removed`. -/
def processOrderRemoved (orderId : OrderId) : Handler Unit := do
  modify fun data => { data with ordersLast := data.ordersLast.erase orderId }
  syncOrderList

/-- `process_subscribe_response`. -/
def processSubscribeResponse (world : World) (orders : List OrderCreatedNotification) :
    Handler Unit := do
  orders.forM (addOrder world false)
  syncOrderList

/-- `process_unsubscribe_response`: other people's orders of the market go. -/
def processUnsubscribeResponse (asset : Option AssetId) : Handler Unit := do
  modify fun data =>
    { data with
      ordersLast := data.ordersLast.filter fun _ order =>
        order.own || match asset with
          | some assetId => order.assetId != assetId
          | none => !order.tokenMarket }
  syncOrderList

/-! ## Asynchronous requests -/

/-- The error a request gets that cannot be sent. -/
def notConnected : Error := ⟨.serverError, "Not connected"⟩

/-- What a callback shows. -/
def callbackMsgs (res : Except Error Response) : AsyncRequest → List FromMsg
  | .cancelOrder => [.cancelOrder (match res with
      | .ok _ => .ok ()
      | .error e => .error e.message)]
  | .portfolioPrices => match res with
      | .ok (.portfolioPrices pricesUsd) => [.portfolioPrices pricesUsd]
      | _ => []
  | .gaidStatus gaid assetId => [.gaidStatus gaid assetId (match res with
      | .ok (.gaidStatus error) => error
      | .ok _ => some "Unexpected response"
      | .error e => some e.message)]
  | .updatePushToken => []
  | .registerAddresses _ _ => []

/-- The registered counters after a callback: an acknowledged range sets its
    counter to the end the callback has captured. -/
def callbackRegistered (res : Except Error Response) (callback : AsyncRequest)
    (registered : Chain → Nat) : Chain → Nat :=
  match callback, res with
  | .registerAddresses chain last, .ok _ => Function.update registered chain last
  | _, _ => registered

/-- Call a callback. -/
def runCallback (requestId : Option String) (res : Except Error Response)
    (callback : AsyncRequest) : Handler Unit :=
  modify fun data =>
    { data with
      registered := callbackRegistered res callback data.registered
      log := data.log ++ .called requestId callback res :: (callbackMsgs res callback).map .toUi }

/-- `make_async_request`. -/
def makeAsyncRequest (req : Request) (callback : AsyncRequest) : Handler Unit := do
  let data ← get
  if !data.connected then runCallback none (.error notConnected) callback
  else
    modify fun data =>
      { data with
        nextRequestId := data.nextRequestId + 1
        asyncRequests := data.asyncRequests.insert (toString data.nextRequestId) callback
        log := data.log ++ [.asyncRequest (toString data.nextRequestId) req callback] }

/-- `process_async_resp`. -/
def processAsyncResp (requestId : String) (res : Except Error Response) : Handler Unit := do
  let data ← get
  match data.asyncRequests[requestId]? with
  | none => pure ()
  | some callback => do
      modify fun data => { data with asyncRequests := data.asyncRequests.erase requestId }
      runCallback (some requestId) res callback

/-- `process_cancel_order`. -/
def processCancelOrder (orderId : Text) : Handler Unit := do
  let orderId ← ofPanic
    (expect (fromStr orderId) "called `Result::unwrap()` on an `Err` value")
  makeAsyncRequest (.cancel orderId) .cancelOrder

/-- `process_portfolio_prices`. -/
def processPortfolioPrices : Handler Unit := makeAsyncRequest .portfolioPrices .portfolioPrices

/-- `process_gaid_status_req`. -/
def processGaidStatusReq (gaid : String) (assetId : Text) : Handler Unit := do
  let asset ← ofPanic
    (expect (fromStr assetId) "called `Result::unwrap()` on an `Err` value")
  makeAsyncRequest (.gaidStatus gaid asset) (.gaidStatus gaid assetId)

/-- `update_push_token`. -/
def updatePushToken : Handler Unit := do
  let data ← get
  match data.pushToken, data.connected, data.deviceKey with
  | some pushToken, true, some deviceKey =>
      makeAsyncRequest (.updatePushToken deviceKey pushToken) .updatePushToken
  | _, _, _ => pure ()

/-- `process_update_push_token`. -/
def processUpdatePushToken (token : String) : Handler Unit := do
  modify fun data => { data with pushToken := some token }
  updatePushToken

/-! ## Registered addresses -/

/-- The account an address sequence belongs to. -/
def Chain.accountId : Chain → AccountId
  | .singleSig _ => accountIdReg
  | .multiSig => accountIdAmp

/-- An address of a wallet. -/
def World.address (world : World) (xpubs : XPubInfo) : Chain → (pointer : Nat) → Option Address
  | .singleSig isInternal, pointer =>
      world.singleSigAddress xpubs.singleSigAccount isInternal pointer
  | .multiSig, pointer =>
      world.multiSigAddress xpubs.multiSigServiceXpub xpubs.multiSigUserXpub pointer

/-- `derive_single_sig_address` and `derive_multi_sig_address`: both unwrap, and
    `from_normal_idx` refuses pointers from `2^31` on. -/
def deriveAddress (world : World) (xpubs : XPubInfo) (chain : Chain) (pointer : Nat) :
    Except Panic Address :=
  if pointer < 2 ^ 31 then
    expect (world.address xpubs chain pointer) "called `Result::unwrap()` on an `Err` value"
  else .error ⟨"called `Result::unwrap()` on an `Err` value"⟩

/-- The addresses of the pointers from `first` to just before `last`. -/
def deriveAddresses (world : World) (xpubs : XPubInfo) (chain : Chain) (first last : Nat) :
    Except Panic (List Address) :=
  (List.range' first (last - first)).mapM (deriveAddress world xpubs chain)

/-- The part of `update_address_registrations` about one sequence. -/
def registerChain (world : World) (chain : Chain) : Handler Unit := do
  let data ← get
  match data.connected, data.deviceKey, data.wallets[chain.accountId]? with
  | true, some deviceKey, some xpubs => do
      let first := data.registered chain
      let last := (data.usedAddresses chain + 100) % 2 ^ 32
      let addresses ← ofPanic (deriveAddresses world xpubs chain first last)
      makeAsyncRequest (.registerAddresses deviceKey addresses) (.registerAddresses chain last)
  | _, _, _ => pure ()

/-- `update_address_registrations`. -/
def updateAddressRegistrations (world : World) : Handler Unit := do
  registerChain world (.singleSig false)
  registerChain world (.singleSig true)
  registerChain world .multiSig

/-- The pointers in use after a resync of an account. -/
def usedAfter (accountId : AccountId) (transactions : List Transaction) (used : Chain → Nat) :
    Chain → Nat
  | .singleSig isInternal =>
      if accountId = accountIdReg then
        (transactions.map fun tx =>
          if isInternal then tx.maxPointerInternal else tx.maxPointerExternal).foldl max 0
      else used (.singleSig isInternal)
  | .multiSig =>
      if accountId = accountIdAmp then (transactions.map (·.maxPointerExternal)).foldl max 0
      else used .multiSig

/-- `update_used_addresses`. -/
def updateUsedAddresses (world : World) (accountId : AccountId)
    (transactions : List Transaction) : Handler Unit := do
  modify fun data =>
    { data with usedAddresses := usedAfter accountId transactions data.usedAddresses }
  updateAddressRegistrations world

/-! ## Edits and completions -/

/-- The record after an edited price. -/
def SubmitData.reprice (entry : SubmitData) (price : ℚ) : SubmitData :=
  match entry.orderType with
  | .bitcoin =>
      { entry with
        price
        assetAmount :=
          Pricing.assetAmount entry.bitcoinAmount price entry.assetPrecision entry.market }
  | .asset =>
      let bitcoinAmount :=
        Pricing.bitcoinAmount entry.assetAmount price entry.assetPrecision entry.market
      { entry with price, bitcoinAmount, serverFee := getServerFee bitcoinAmount }

/-- Change the record of an order, if there is one. -/
def updateEntry (orderId : OrderId) (f : SubmitData → SubmitData) : Handler Unit := do
  let data ← get
  match data.submitData[orderId]? with
  | none => pure ()
  | some entry =>
      modify fun data => { data with submitData := data.submitData.insert orderId (f entry) }

/-- `try_edit_order_price`. -/
def tryEditOrderPrice (world : World) (orderId : OrderId) (price indexPrice : Option ℚ) :
    Handler Unit := do
  request world (.edit ⟨orderId, price, indexPrice⟩) Response.edit?
  match price with
  | some price => updateEntry orderId fun entry => entry.reprice price
  | none => pure ()

/-- `try_edit_order_auto_sign`. -/
def tryEditOrderAutoSign (orderId : OrderId) (autoSign : Bool) : Handler Unit := do
  let data ← get
  let submit ← okOr data.submitData[orderId]? "submit data not found"
  let order ← okOr data.ordersLast[orderId]? "order not found"
  modify fun data =>
    { data with
      submitData := data.submitData.insert orderId { submit with autoSign }
      ordersLast := data.ordersLast.insert orderId { order with autoSign } }

/-- `process_edit_order`. -/
def processEditOrder (world : World) (req : EditOrder) : Handler Unit := do
  let orderId ← ofPanic
    (expect (fromStr req.orderId) "called `Result::unwrap()` on an `Err` value")
  let editData ← ofPanic (expect req.data "called `Option::unwrap()` on a `None` value")
  let res ← attempt (match editData with
    | .price v => tryEditOrderPrice world orderId (some v) none
    | .indexPrice v => tryEditOrderPrice world orderId none (some v)
    | .autoSign v => tryEditOrderAutoSign orderId v)
  uiSend (.editOrder res)
  syncOrderList

/-- How the removal of an order the user is waiting for is explained. -/
def removedText (submit : Option SubmitData) : String :=
  if submit.elim false (·.side == .maker) then "Failed to sign"
  else if !submit.elim false (·.signed) then "Order removed"
  else "Counterparty failed to sign"

/-- `process_complete`. -/
def processComplete (msg : CompleteNotification) : Handler Unit := do
  uiSend (.orderComplete msg.orderId msg.txid)
  match msg.txid with
  | some txid => updateEntry msg.orderId fun entry => { entry with txid := some txid }
  | none => do
      let data ← get
      modify fun data => { data with submitData := data.submitData.erase msg.orderId }
      if data.visibleSubmit = some msg.orderId
          ∨ (data.visibleSubmit = none ∧ data.waitingSubmit = some msg.orderId) then do
        uiSend (.submitResult (.error (removedText data.submitData[msg.orderId]?)))
        modify fun data => { data with visibleSubmit := none }
        processPendingSignPrompts
        processPendingSucceed

/-! ## Instant swaps -/

/-- `select_swap_inputs`. -/
def selectSwapInputs (inputs : List UnspentOutput) (amount : Int) :
    Except Stop (List UnspentOutput) :=
  if ¬ amount ≤ i64 (u64 (inputs.map (·.satoshi)).sum) then
    .error (.error "not enough UTXOs total amount")
  else
    (selectUtxoValues (inputs.map fun input => (i64 input.satoshi, input)) amount).mapError .panic

/-- The assets a swap request sends and receives. -/
def swapAssets (liquidAssetId asset : AssetId) (sendBitcoins : Bool) : AssetId × AssetId :=
  if sendBitcoins then (liquidAssetId, asset) else (asset, liquidAssetId)

/-- `try_process_swap_request`. -/
def tryProcessSwapRequest (world : World) (req : SwapRequest) : Handler Unit := do
  let data ← get
  ensure data.connected "not connected"
  let asset ← okOr (fromStr req.asset) ("invalid asset id: " ++ String.ofList req.asset)
  let (sendAsset, recvAsset) := swapAssets data.liquidAssetId asset req.sendBitcoins
  getWallet accountIdReg
  let utxos ← ofResult (world.utxos data.log accountIdReg)
  let inputs ← ofStop (selectSwapInputs ((utxos[sendAsset]?).getD []) req.sendAmount)
  let changeAddr ← ofResult (world.changeAddress data.log accountIdReg)
  let recvAddr ← ofResult (world.receiveAddress data.log accountIdReg)
  let orderId ← request world
    (.startSwapClient
      { price := req.price, asset, sendBitcoins := req.sendBitcoins
        sendAmount := req.sendAmount, recvAmount := req.recvAmount
        inputs := inputs.map convertToSwapUtxo, recvAddr, changeAddr })
    Response.startSwapClient?
  modify fun data =>
    { data with
      activeSwap := some
        { orderId, sendAsset, recvAsset
          sendAmount := u64 req.sendAmount, recvAmount := u64 req.recvAmount } }

/-- `process_swap_request`. -/
def processSwapRequest (world : World) (req : SwapRequest) : Handler Unit := do
  match ← attempt (tryProcessSwapRequest world req) with
  | .ok () => pure ()
  | .error e => uiSend (.swapFailed e)

/-- The amounts of an instant swap. -/
def ActiveSwap.amounts (swap : ActiveSwap) : Amounts where
  sendAsset := swap.sendAsset
  recvAsset := swap.recvAsset
  sendAmount := swap.sendAmount
  recvAmount := swap.recvAmount

/-- `try_process_blinded_swap_client`. -/
def tryProcessBlindedSwapClient (world : World) (msg : BlindedSwapClientNotification) :
    Handler Unit := do
  let data ← get
  let swap ← okOr data.activeSwap "unexpected swap request"
  ensure (swap.orderId == msg.orderId) "Condition failed: `active_swap.order_id == msg.order_id`"
  ensure (!data.ampAssets.contains swap.sendAsset && !data.ampAssets.contains swap.recvAsset)
    "AMP assets are not allowed"
  getWallet accountIdReg
  let signedPset ← verifyAndSignPset world .blindedSwapClient msg.orderId accountIdReg
    swap.amounts msg.pset []
  request world (.signedSwapClient msg.orderId signedPset) Response.signedSwapClient?

/-- `process_blinded_swap_client`. -/
def processBlindedSwapClient (world : World) (msg : BlindedSwapClientNotification) :
    Handler Unit := do
  match ← attempt (tryProcessBlindedSwapClient world msg) with
  | .ok () => pure ()
  | .error e => uiSend (.swapFailed e)

/-- The texts of the failures of a swap. -/
def SwapDoneStatus.error? : SwapDoneStatus → Option String
  | .success => none
  | .clientError => some "Transaction not signed in time"
  | .dealerError => some "Unexpected dealer error"
  | .serverError => some "Unexpected server error"

/-- `process_swap_done`. -/
def processSwapDone (msg : SwapDoneNotification) : Handler Unit := do
  let data ← get
  if (data.activeSwap.map (·.orderId)) = some msg.orderId then do
    modify fun data => { data with activeSwap := none }
    match msg.status.error?, msg.txid with
    | none, some txid => modify fun data => { data with succeedSwap := some txid }
    | some e, none => uiSend (.swapFailed e)
    | _, _ => uiSend (.swapFailed "server error")

/-! ## Peg-outs and payments -/

/-- The amount of a peg-out: a whole balance pays its network fee. -/
def pegOutSendAmount (world : World) (req : PegOutAmount) : Handler Int := do
  let data ← get
  let utxos ← ofResult (world.utxos data.log req.account)
  let utxos := ((utxos[data.liquidAssetId]?).getD []).filter (·.assetId == data.liquidAssetId)
  let balance := i64 (u64 (utxos.map (·.satoshi)).sum)
  if req.isSendEntered && balance == req.amount then do
    let networkFee ← ofResult
      (world.txFee data.log req.account data.liquidAssetId req.amount)
    pure (i64 (req.amount - i64 networkFee))
  else pure req.amount

/-- `try_process_pegout_amount`. -/
def tryProcessPegoutAmount (world : World) (req : PegOutAmount) :
    Handler (PegOutAmounts × AccountId) := do
  let data ← get
  ensure data.connected "not connected"
  getWallet req.account
  let amount ← pegOutSendAmount world req
  let status ← okOr data.serverStatus "server_status is not known"
  let amounts ← ofResult
    (pegOutAmount amount req.isSendEntered req.feeRate status.minPegOutAmount
      status.serverFeePercentPegOut status.pegOutBitcoinTxVsize)
  let amounts : PegOutAmounts := ⟨amounts.1, amounts.2, req.isSendEntered, req.feeRate⟩
  modify fun data => { data with pegOutServerAmounts := some amounts }
  pure (amounts, req.account)

/-- `process_pegout_amount`. -/
def processPegoutAmount (world : World) (req : PegOutAmount) : Handler Unit := do
  let res ← attempt (tryProcessPegoutAmount world req)
  uiSend (.pegOutAmount res)

/-- The payload of a peg response. -/
def Response.peg? : Response → Option PegResponse
  | .peg resp => some resp
  | _ => none

/-- The request of a peg-out. -/
def PegOutRequest.peg (req : PegOutRequest) (deviceKey : String) (amounts : PegOutAmounts) :
    PegRequest where
  recvAddr := req.recvAddr
  deviceKey := some deviceKey
  blocks := some req.blocks
  pegOutAmounts := some amounts

/-- `try_process_pegout_request`. -/
def tryProcessPegoutRequest (world : World) (req : PegOutRequest) : Handler OrderId := do
  let data ← get
  ensure data.connected "not connected"
  let status ← okOr data.serverStatus "server_status is not known"
  ensure (decide (status.minPegOutAmount ≤ req.sendAmount))
    ("min " ++ bitcoinText status.minPegOutAmount)
  let amounts ← okOr data.pegOutServerAmounts "peg_out_server_amounts is None"
  modify fun data => { data with pegOutServerAmounts := none }
  let deviceKey ← ofPanic (expect data.deviceKey "device_key must exists")
  let resp ← request world (.peg (req.peg deviceKey amounts)) Response.peg?
  getWallet req.account
  let data ← get
  ofResult
    (world.pegOutPayment data.log req.account req.sendAmount resp.pegAddr amounts.sendAmount)
  pure resp.orderId

/-- `process_pegout_request`. -/
def processPegoutRequest (world : World) (req : PegOutRequest) : Handler Unit := do
  match ← attempt (tryProcessPegoutRequest world req) with
  | .ok orderId => modify fun data => { data with activeExternPeg := some orderId }
  | .error e => uiSend (.swapFailed e)

/-- `try_process_create_tx`. -/
def tryProcessCreateTx (world : World) (req : CreateTx) : Handler (String × String) := do
  getWallet req.account
  let data ← get
  let unsignedTx ← ofResult (world.createTx data.log req)
  let info ← ofResult (world.createdTx req unsignedTx)
  pure (unsignedTx, info)

/-- `process_create_tx`. -/
def processCreateTx (world : World) (req : CreateTx) : Handler Unit := do
  match ← attempt (tryProcessCreateTx world req) with
  | .ok (unsignedTx, info) => do
      modify fun data =>
        { data with unsignedTx := some unsignedTx, log := data.log ++ [.createdTx unsignedTx] }
      uiSend (.createTxResult (.ok info))
  | .error e => uiSend (.createTxResult (.error e))

/-- `try_process_send_tx`: a payment that the session does not send stays. -/
def tryProcessSendTx (world : World) (account : AccountId) : Handler Txid := do
  let data ← get
  let unsignedTx ← okOr data.unsignedTx "transaction not found"
  modify fun data => { data with unsignedTx := none }
  getWallet account
  let res := world.sendTx data.log account unsignedTx
  emit (.sentTx account unsignedTx res)
  match res with
  | .ok txid => pure txid
  | .error e => do
      modify fun data => { data with unsignedTx := some unsignedTx }
      bail e

/-- `process_send_tx`. -/
def processSendTx (world : World) (account : AccountId) : Handler Unit := do
  match ← attempt (tryProcessSendTx world account) with
  | .ok txid => modify fun data => { data with sentTxhash := some txid }
  | .error e => uiSend (.sendResult (.error e))

/-! ## Connections -/

/-- `restart_websocket`. -/
def restartWebsocket : Handler Unit := do
  modify fun data => { data with connected := false }
  emit (.socket .disconnect)

/-- `check_ws_connection`. -/
def checkWsConnection (world : World) : Handler Unit := do
  let data ← get
  if !data.connected then emit (.socket .hint)
  else do
    match ← attempt (request world .ping fun resp => if resp = .ping then some () else none) with
    | .ok () => pure ()
    | .error _ => restartWebsocket

/-- `check_amp_connection`. -/
def checkAmpConnection (world : World) : Handler Unit :=
  modify fun data =>
    if data.ampConnected && data.wallets.contains accountIdAmp && !world.ampAnswers data.log then
      { data with ampConnected := false }
    else data

/-- `check_connections`. -/
def checkConnections (world : World) : Handler Unit := do
  checkWsConnection world
  checkAmpConnection world

/-- `process_push_message`: a `Sign` message marks its order for download. -/
def processPushMessage (world : World) (msg : Option FcmMessage) (pendingSign : Option Nat) :
    Handler Unit :=
  match msg with
  | some (.sign orderId) => do
      modify fun data =>
        { data with
          pendingSigns :=
            data.pendingSigns.insert orderId ((data.pendingSigns[orderId]?).getD pendingSign) }
      checkConnections world
      processPendingRequests world
  | some .other => pure ()
  | none => pure ()

/-- `register_assets`. -/
def registerAssets (assets : List Asset) (ampMarket : Bool) : Handler Unit := do
  let data ← get
  assets.forM fun asset =>
    registerAsset asset (!ampMarket && asset.assetId != data.liquidAssetId) ampMarket false

/-- A device key the server does not know is dropped. -/
def verifyDevice (world : World) (deviceKey : String) : Handler Unit := do
  let registered ← request world (.verifyDevice deviceKey) fun
    | .verifyDevice registered => some registered
    | _ => none
  if !registered then
    modify fun data => { data with deviceKey := none }

/-- Without a device key a new one is registered. -/
def registerDevice (world : World) : Handler Unit := do
  let data ← get
  if data.deviceKey.isNone then do
    let deviceKey ← request world .registerDevice fun
      | .registerDevice deviceKey => some deviceKey
      | _ => none
    modify fun data =>
      { data with deviceKey := some deviceKey, registered := fun _ => 0 }

/-- The part of `try_process_ws_connected` about the device key. -/
def checkDeviceKey (world : World) : Handler Unit := do
  let data ← get
  if data.disableDeviceKey then
    modify fun data => { data with deviceKey := none }
  else do
    data.deviceKey.toList.forM (verifyDevice world)
    registerDevice world

/-- The server's assets are registered if they are not those of the last run. -/
def updateAssets (world : World) : Handler Unit := do
  let assets ← request world .assets fun
    | .assets assets => some assets
    | _ => none
  let data ← get
  if assets ≠ data.assetsOld then
    registerAssets assets false

/-- The server's AMP assets are registered. -/
def updateAmpAssets (world : World) : Handler Unit := do
  let ampAssets ← request world .ampAssets fun
    | .ampAssets assets => some assets
    | _ => none
  uiSend (.ampAssets (ampAssets.map (·.assetId)))
  modify fun data => { data with ampAssets := .ofList (ampAssets.map (·.assetId)) }
  registerAssets ampAssets true

/-- The payload of a login response. -/
def Response.login? : Response → Option LoginResponse
  | .login resp => some resp
  | _ => none

/-- The login lists the user's orders. -/
def loginOrders (world : World) : Handler Unit := do
  let data ← get
  let resp ← request world (.login data.sessionId) Response.login?
  resp.orders.forM (addOrder world false)
  syncOrderList
  modify fun data => { data with sessionId := some resp.sessionId }

/-- `process_server_status`. -/
def processServerStatus (status : ServerStatus) : Handler Unit := do
  uiSend (.serverStatus status)
  modify fun data => { data with serverStatus := some status }

/-- The payload of a status response. -/
def Response.serverStatus? : Response → Option ServerStatus
  | .serverStatus status => some status
  | _ => none

/-- The server's fees and limits are taken over. -/
def updateServerStatus (world : World) : Handler Unit := do
  let status ← request world .serverStatus Response.serverStatus?
  processServerStatus status

/-- `try_process_ws_connected`. -/
def tryProcessWsConnected (world : World) : Handler Unit := do
  request world .loginClient fun resp => if resp = .loginClient then some () else none
  updateAssets world
  updateAmpAssets world
  updateServerStatus world
  checkDeviceKey world
  loginOrders world

/-- `process_ws_connected`. -/
def processWsConnected (world : World) : Handler Unit := do
  match ← attempt (tryProcessWsConnected world) with
  | .error _ => restartWebsocket
  | .ok () => do
      modify fun data => { data with connected := true }
      processPendingRequests world
      updatePushToken
      updateAddressRegistrations world
      uiSend .serverConnected

/-- The error a pending request gets when the connection drops. -/
def serverDisconnected : Error := ⟨.serverError, "Server disconnected"⟩

/-- `process_ws_disconnected`. -/
def processWsDisconnected : Handler Unit := do
  modify fun data => { data with connected := false, ordersLast := ∅ }
  syncOrderList
  uiSend .serverDisconnected
  let data ← get
  modify fun data => { data with asyncRequests := ∅ }
  data.asyncRequests.toList.forM fun line =>
    runCallback (some line.1) (.error serverDisconnected) line.2
  let data ← get
  if !data.wallets.isEmpty then
    emit (.socket .connect)

/-! ## Sessions -/

/-- `send_wallet_loaded`. -/
def sendWalletLoaded : Handler Unit := do
  let data ← get
  if !data.walletLoadedSent then do
    modify fun data => { data with walletLoadedSent := true }
    uiSend .walletLoaded

/-- The stored registration of the wallet, or a new one. -/
def registerWallet (world : World) (wallet : LoginWallet) : Handler RegInfo := do
  let data ← get
  match data.regInfo with
  | some regInfo => pure regInfo
  | none => do
      let regInfo ← ofResult (world.register data.log wallet)
      modify fun data => { data with regInfo := some regInfo }
      pure regInfo

/-- A hardware wallet is used through its watch-only keys. -/
def checkWatchOnly (regInfo : RegInfo) : LoginWallet → Except String Unit
  | .mnemonic _ => .ok ()
  | .jadeId _ => check regInfo.jadeWatchOnly.isSome "jade_watch_only is not set"

/-- The keys of a wallet that logs in. -/
def xpubInfo (world : World) (regInfo : RegInfo) (wallet : LoginWallet) :
    Except Stop XPubInfo := do
  let multiSigServiceXpub ←
    (expect (world.parseXpub regInfo.multiSigServiceXpub) "must be valid").mapError .panic
  match regInfo.jadeWatchOnly, wallet with
  | some watchOnly, _ =>
      pure ⟨watchOnly.singleSigAccountXpub, multiSigServiceXpub, watchOnly.multiSigUserXpub⟩
  | none, .jadeId _ => throw (.panic ⟨"mnemonic must be set"⟩)
  | none, .mnemonic mnemonic => do
      let singleSigAccount ←
        (world.accountXpub mnemonic world.singleSigAccountPath).mapError .error
      let multiSigUserXpub ←
        (world.accountXpub mnemonic regInfo.multiSigUserPath).mapError .error
      pure ⟨singleSigAccount, multiSigServiceXpub, multiSigUserXpub⟩

/-- `try_process_login_request`. -/
def tryProcessLoginRequest (world : World) (req : Login) : Handler Unit := do
  modify fun data => { data with forceAutoSignMaker := req.forceAutoSignMaker.getD false }
  let wallet ← ofPanic (expect req.wallet "called `Option::unwrap()` on a `None` value")
  let regInfo ← registerWallet world wallet
  ofResult (checkWatchOnly regInfo wallet)
  let data ← get
  let walletAmpRes ← ofResult (world.startSessions data.log)
  let xpubs ← ofStop (xpubInfo world regInfo wallet)
  modify fun data => { data with wallets := data.wallets.insert accountIdReg xpubs }
  match walletAmpRes with
  | .ok () => modify fun data => { data with wallets := data.wallets.insert accountIdAmp xpubs }
  | .error e => showMessage ("AMP connection failed: " ++ e)
  let data ← get
  if data.pendingSubmits.isEmpty && data.pendingLinks.isEmpty then
    sendWalletLoaded
  emit (.socket .connect)

/-- `process_login_request`. -/
def processLoginRequest (world : World) (req : Login) : Handler Unit := do
  let res ← attempt (tryProcessLoginRequest world req)
  uiSend (.login res)

/-- `process_logout_request`. -/
def processLogoutRequest : Handler Unit := do
  modify fun data =>
    { data with
      wallets := ∅
      syncComplete := false
      walletLoadedSent := false
      confirmedTxids := ∅
      unconfirmedTxids := ∅
      activeSwap := none
      succeedSwap := none
      activeExternPeg := none
      sentTxhash := none
      pegOutServerAmounts := none
      activeSubmits := ∅
      activeSign := none
      usedAddresses := fun _ => 0
      -- `Settings::default`
      deviceKey := none
      registered := fun _ => 0
      regInfo := none
      sessionId := none }
  uiSend .logout
  restartWebsocket

/-- `try_change_network`. -/
def tryChangeNetwork (world : World) : Handler Unit := do
  let data ← get
  let xpubs ← okOr data.wallets[accountIdReg]? "no wallet"
  modify fun data => { data with wallets := data.wallets.erase accountIdReg }
  ofResult (world.restartSession data.log)
  modify fun data => { data with wallets := data.wallets.insert accountIdReg xpubs }

/-- `process_change_network`. -/
def processChangeNetwork (world : World) : Handler Unit := do
  match ← attempt (tryChangeNetwork world) with
  | .ok () => pure ()
  | .error e => showMessage ("changing network failed: " ++ e)

/-- `process_app_state`. -/
def processAppState (world : World) (active : Bool) : Handler Unit := do
  modify fun data => { data with appActive := active }
  if active then
    checkConnections world
  updateAmpConnection

/-! ## Wallet notifications -/

/-- A reported transaction of an order is a success to show. -/
def noteOrderTransaction (item : TransItem) : Handler Unit := do
  let data ← get
  match (Table.values data.submitData).find? fun submit => submit.txid == some item.txid with
  | none => pure ()
  | some submit =>
      if data.shownSucceed.contains submit.orderId then pure ()
      else
        modify fun data =>
          { data with
            pendingSucceed := data.pendingSucceed ++ [item]
            shownSucceed := data.shownSucceed.insert submit.orderId }

/-- So is the transaction of a payment. -/
def noteSentTransaction (updated : Std.TreeMap Txid TransItem) : Handler (List FromMsg) := do
  let data ← get
  match data.sentTxhash.bind (updated[·]?) with
  | none => pure []
  | some item => do
      modify fun data => { data with sentTxhash := none }
      pure [.sendResult (.ok item)]

/-- And that of an instant swap. -/
def noteSwapTransaction (updated : Std.TreeMap Txid TransItem) : Handler (List FromMsg) := do
  let data ← get
  match data.succeedSwap.bind (updated[·]?) with
  | none => pure []
  | some item => do
      modify fun data => { data with succeedSwap := none }
      pure [.swapSucceed item]

/-- The entry an asset gets that the registry does not know. -/
def unregisteredAsset (assetId : AssetId) : Asset where
  assetId := assetId
  name := String.ofList ((toText assetId).take 8) ++ "..."
  ticker := String.ofList ((toText assetId).take 4)
  icon := some "DEFAULT_ICON"
  precision := 8
  iconUrl := none
  instantSwaps := some false
  domain := none
  domainAgent := none
  alwaysShow := none

/-- An asset seen in a transaction is registered. -/
def addTransactionAsset (known : List Asset) (assetId : AssetId) : Handler Unit :=
  match known.find? fun asset => asset.assetId == assetId with
  | some asset => registerAsset asset false false false
  | none => registerAsset (unregisteredAsset assetId) false false true

/-- The assets of the reported transactions that are not known yet. -/
def addTransactionAssets (world : World) (items : List TransItem) : Handler Unit := do
  let data ← get
  let assets := ((items.flatMap (·.balances)).map (·.asset)).dedup
  let newAssets := assets.filter fun asset => !data.assets.contains asset
  let known := match world.registry data.log newAssets with
    | .ok assets => assets
    | .error _ => []
  newAssets.forM (addTransactionAsset known)

/-- What has been reported of the transactions of an account. -/
def Data.reported (data : Data) (accountId : AccountId) : Reported where
  confirmed := (data.confirmedTxids[accountId]?).getD ∅
  unconfirmed := (data.unconfirmedTxids[accountId]?).getD ∅

/-- `send_new_transactions`. -/
def sendNewTransactions (world : World) (items : List Transaction) (accountId : AccountId)
    (topBlock : Nat) : Handler Unit := do
  let data ← get
  let reported := data.reported accountId
  let updated := reported.updated accountId topBlock items
  let removed := reported.removed updated
  (Table.values updated).forM noteOrderTransaction
  let sent ← noteSentTransaction updated
  let swapped ← noteSwapTransaction updated
  addTransactionAssets world (Table.values updated)
  let next := reported.next updated
  modify fun data =>
    { data with
      confirmedTxids := data.confirmedTxids.insert accountId next.confirmed
      unconfirmedTxids := data.unconfirmedTxids.insert accountId next.unconfirmed }
  (transactionMsgs updated removed ++ sent ++ swapped).forM uiSend
  processPendingSucceed

/-- `resync_wallet`, after the balances and coins have been shown. -/
def resyncWallet (world : World) (accountId : AccountId) : Handler Unit := do
  let data ← get
  match data.lastBlocks[accountId]? with
  | none => pure ()
  | some topBlock =>
      match world.transactions data.log accountId with
      | .ok items => do
          updateUsedAddresses world accountId items
          sendNewTransactions world items accountId topBlock
      | .error _ => pure ()

/-- `sync_complete`. -/
def syncComplete (world : World) (accountId : AccountId) : Handler Unit := do
  let data ← get
  if !data.syncComplete then do
    modify fun data => { data with syncComplete := true }
    sendWalletLoaded
    processPendingRequests world
    uiSend .syncComplete
  resyncWallet world accountId

/-- A session that has connected is logged in. -/
def walletConnected (world : World) (accountId : AccountId) : Handler Unit := do
  let data ← get
  match world.sessionLogin data.log accountId with
  | .ok () => do
      if accountId = accountIdAmp then do
        modify fun data => { data with ampConnected := true }
        processPendingRequests world
      resyncWallet world accountId
  | .error e => showMessage ("connection failed: " ++ e)

/-- A new block of an account: its transactions are looked at if one of them may
    have been confirmed by it, or if it is the first one. -/
def processBlock (world : World) (accountId : AccountId) (height : Option Nat) :
    Handler Unit := do
  let data ← get
  let unconfirmedTxs := (data.unconfirmedTxids[accountId]?).elim false (!·.isEmpty)
  let height ← ofPanic (expect height "called `Option::unwrap()` on a `None` value")
  modify fun data => { data with lastBlocks := data.lastBlocks.insert accountId height }
  if unconfirmedTxs || !data.lastBlocks.contains accountId then
    resyncWallet world accountId

/-- What a wallet event sets off. -/
def processWalletEvent (world : World) (accountId : AccountId) (event : WalletEvent) :
    Handler Unit :=
  match event with
  | .transaction => resyncWallet world accountId
  | .block height => processBlock world accountId height
  | .synced => syncComplete world accountId
  | .syncFailed => showMessage "electrs connection failed"
  | .other => pure ()

/-- What a change of a session's connection sets off. -/
def processWalletNetwork (world : World) (accountId : AccountId)
    (network : Option ConnectionState) : Handler Unit :=
  match network with
  | some .connected => walletConnected world accountId
  | some .disconnected =>
      if accountId = accountIdAmp then
        modify fun data => { data with ampConnected := false }
      else pure ()
  | none => pure ()

/-- `process_wallet_notif`. -/
def processWalletNotif (world : World) (accountId : AccountId) (notif : WalletNotif) :
    Handler Unit := do
  let data ← get
  if data.wallets.contains accountId then do
    processWalletEvent world accountId notif.event
    processWalletNetwork world accountId notif.network

/-! ## The loop -/

/-- `process_ui`. -/
def processUi (world : World) (msg : ToMsg) : Handler Unit :=
  match msg with
  | .login req => processLoginRequest world req
  | .logout => processLogoutRequest
  | .changeNetwork => processChangeNetwork world
  | .appState active => processAppState world active
  | .pushMessage msg => processPushMessage world msg none
  | .pegOutAmount req => processPegoutAmount world req
  | .pegOutRequest req => processPegoutRequest world req
  | .swapRequest req => processSwapRequest world req
  | .createTx req => processCreateTx world req
  | .sendTx account => processSendTx world account
  | .updatePushToken token => processUpdatePushToken token
  | .submitOrder req => do
      modify fun data => { data with pendingSubmits := data.pendingSubmits ++ [req] }
      processPendingRequests world
  | .linkOrder orderId => do
      modify fun data => { data with pendingLinks := data.pendingLinks ++ [orderId] }
      processPendingRequests world
  | .submitDecision req => processSubmitDecision world req
  | .editOrder req => processEditOrder world req
  | .cancelOrder orderId => processCancelOrder orderId
  | .portfolioPrices => processPortfolioPrices
  | .gaidStatus gaid assetId => processGaidStatusReq gaid assetId
  | .other => pure ()

/-- `process_ws_notification`. -/
def processWsNotification (world : World) (notif : Notification) : Handler Unit :=
  match notif with
  | .sign msg => processSign world msg
  | .complete msg => processComplete msg
  | .orderCreated msg => processOrderCreated world msg
  | .orderRemoved orderId => processOrderRemoved orderId
  | .blindedSwapClient msg => processBlindedSwapClient world msg
  | .swapDone msg => processSwapDone msg
  | .serverStatus status => processServerStatus status
  | .other => pure ()

/-- The body of the loop of `start_processing`. -/
def processMessage (world : World) (msg : Message) : Handler Unit :=
  match msg with
  | .ui msg => processUi world msg
  | .serverConnected => processWsConnected world
  | .serverDisconnected => processWsDisconnected
  | .serverNotification notif => processWsNotification world notif
  | .asyncResp requestId res => processAsyncResp requestId res
  | .notif accountId notif => processWalletNotif world accountId notif
  | .subscribe orders => processSubscribeResponse world orders
  | .unsubscribe asset => processUnsubscribeResponse asset
  | .backgroundMessage msg sender => processPushMessage world msg (some sender)
  | .idleTimer checkDue => if checkDue then checkConnections world else pure ()
  | .other => pure ()

/-- The worker's thread: its data, and whether it has panicked. -/
structure System where
  data : Data
  stopped : Bool

/-- Run a handler to its end. -/
def finish (p : Handler Unit) (data : Data) : System :=
  match exec p data with
  | (.error (.panic _), data) => ⟨data, true⟩
  | (.error (.error _), data) => ⟨data, false⟩
  | (.ok (), data) => ⟨data, false⟩

/-- The worker takes a message. -/
def step (world : World) (s : System) (msg : Message) : System :=
  if s.stopped then s else finish (processMessage world msg) (s.data.emit (.received msg))

/-- The settings of the last run, as far as the worker reads them. -/
structure Settings where
  deviceKey : Option String
  registered : Chain → Nat
  regInfo : Option RegInfo
  sessionId : Option SessionId

/-- `Settings::default`. -/
def Settings.default : Settings := ⟨none, fun _ => 0, none, none⟩

/-- The `Data` that `start_processing` builds. -/
def initialData (liquidAssetId : AssetId) (disableDeviceKey : Bool) (settings : Settings) :
    Data where
  appActive := true
  ampActive := true
  ampConnected := false
  connected := false
  assets := ∅
  ampAssets := ∅
  assetsOld := []
  syncComplete := false
  walletLoadedSent := false
  ordersLast := ∅
  ordersSent := ∅
  forceAutoSignMaker := false
  serverStatus := none
  wallets := ∅
  confirmedTxids := ∅
  unconfirmedTxids := ∅
  unsignedTx := none
  lastBlocks := ∅
  usedAddresses := fun _ => 0
  sentTxhash := none
  pegOutServerAmounts := none
  activeExternPeg := none
  activeSwap := none
  succeedSwap := none
  activeSubmits := ∅
  activeSign := none
  disableDeviceKey := disableDeviceKey
  deviceKey := settings.deviceKey
  registered := settings.registered
  regInfo := settings.regInfo
  sessionId := settings.sessionId
  pushToken := none
  liquidAssetId := liquidAssetId
  submitData := ∅
  pendingSigns := ∅
  visibleSubmit := none
  waitingSubmit := none
  processedSigns := ∅
  pendingSignRequests := []
  pendingSignPrompts := []
  pendingSubmits := []
  pendingLinks := []
  downloadedLinks := []
  shownSucceed := ∅
  pendingSucceed := []
  asyncRequests := ∅
  nextRequestId := 1
  log := []

/-- `load_assets`: the registry starts with the assets of the last run. -/
def loadAssets (assets : List Asset) : Handler Unit := do
  modify fun data => { data with assetsOld := assets }
  registerAssets assets false

/-- The states the worker can start in: whatever the settings and the asset
    file hold. -/
inductive Starts : System → Prop where
  | start (liquidAssetId : AssetId) (disableDeviceKey : Bool) (settings : Settings)
      (assets : List Asset) :
      Starts (finish (loadAssets assets) (initialData liquidAssetId disableDeviceKey settings))

/-- The states of the worker's runs in a world, over the messages `ok` allows. -/
abbrev Reaches (world : World) (ok : System → Message → Prop) : System → Prop :=
  Reach Starts (step world) ok

/-- A worker without settings, started with an asset file. -/
def start (liquidAssetId : AssetId) (assets : List Asset) : System :=
  finish (loadAssets assets) (initialData liquidAssetId false .default)

/-- The state a list of messages leads to from the start. -/
def run (world : World) (liquidAssetId : AssetId) (assets : List Asset) (msgs : List Message) :
    System :=
  Transition.run (step world) (start liquidAssetId assets) msgs

theorem reaches_run {world : World} {ok : System → Message → Prop} {liquidAssetId : AssetId}
    {assets : List Asset} {msgs : List Message}
    (h : Allowed (step world) ok (start liquidAssetId assets) msgs) :
    Reaches world ok (run world liquidAssetId assets msgs) :=
  Reach.run (.start (.start liquidAssetId false .default assets)) msgs h

/-! ## A small world

    The server has one order of a token with eight decimals: one unit of the
    token for two bitcoins.  The wallet has one such unit. -/

namespace Sample

def bitcoin : AssetId := 1
def token : AssetId := 2
def order : OrderId := 7
def swapOrder : OrderId := 8

def asset : Asset where
  assetId := token
  name := "Token"
  ticker := "TKN"
  icon := some ""
  precision := 8
  iconUrl := none
  instantSwaps := none
  domain := none
  domainAgent := none
  alwaysShow := none

def coin : UnspentOutput where
  txhash := 100
  vout := 0
  assetId := token
  satoshi := 100000000
  assetBlinder := 0
  amountBlinder := 0
  redeemScript := ""

/-- The user sells one token. -/
def details (side : OrderSide) : Details where
  asset := token
  bitcoinAmount := 200000000
  assetAmount := 100000000
  price := 2
  serverFee := 200000
  side := side
  sendBitcoins := false
  orderType := .asset
  market := .token
  twoStep := none

/-- The responses of a server that knows the order. -/
def response (side : OrderSide) : Request → Except String Response
  | .ping => .ok .ping
  | .loginClient => .ok .loginClient
  | .assets => .ok (.assets [asset])
  | .ampAssets => .ok (.ampAssets [])
  | .serverStatus => .ok (.serverStatus ⟨100000, 1 / 10, 200⟩)
  | .verifyDevice _ => .ok (.verifyDevice true)
  | .registerDevice => .ok (.registerDevice "device")
  | .login _ => .ok (.login ⟨0, []⟩)
  | .submit _ => .ok (.submit ⟨order, details side⟩)
  | .link orderId => .ok (.link ⟨orderId, details side, false⟩)
  | .resolveGaid _ _ => .ok (.resolveGaid "address")
  | .psetMaker _ => .ok .psetMaker
  | .psetTaker _ => .ok .psetTaker
  | .sign _ => .ok .sign
  | .getSign orderId => .ok (.getSign ⟨orderId, "pset", details side, none⟩)
  | .edit _ => .ok .edit
  | .cancel _ => .ok .other
  | .startSwapClient _ => .ok (.startSwapClient swapOrder)
  | .signedSwapClient _ _ => .ok .signedSwapClient
  | .peg _ => .ok (.peg ⟨9, "peg"⟩)
  | .updatePushToken _ _ => .ok .other
  | .registerAddresses _ _ => .ok .other
  | .portfolioPrices => .ok (.portfolioPrices [])
  | .gaidStatus _ _ => .ok (.gaidStatus none)

/-- What the PSETs of the samples give for one unit of the token: the price less
    the fee, a quarter of it, or the price. -/
def recvAmount (pset : String) : Int :=
  if pset = "pset" then 199800000 else if pset = "low pset" then 49950000 else 200000000

def world (side : OrderSide) : World where
  response _ := response side
  registry _ _ := .ok [asset]
  utxos _ _ := .ok ((∅ : Std.TreeMap AssetId (List UnspentOutput)).insert token [coin])
  balance _ _ _ := 100000000
  changeAddress _ _ := .ok "change"
  receiveAddress _ _ := .ok "receive"
  gaid _ _ := .ok "gaid"
  ownAddress _ address := .ok address
  unlockHww _ _ := .ok ()
  sigSingleMakerTx _ _ _ _ _ _ _ := .error "not supported"
  psetDetails _ _ _ pset := .ok
    ⟨((∅ : Std.TreeMap AssetId Int).insert token (-100000000)).insert bitcoin (recvAmount pset),
      none⟩
  signPset _ _ _ pset _ := .ok pset
  startSessions _ := .ok (.ok ())
  restartSession _ := .ok ()
  sessionLogin _ _ := .ok ()
  ampAnswers _ := true
  transactions _ _ := .ok []
  register _ _ := .ok ⟨none, "service", [3]⟩
  parseXpub := some
  singleSigAccountPath := [49]
  accountXpub mnemonic _ := .ok mnemonic
  singleSigAddress xpub isInternal pointer :=
    some (xpub ++ (if isInternal then "/1/" else "/0/") ++ toString pointer)
  multiSigAddress service user pointer := some (service ++ user ++ "/" ++ toString pointer)
  createTx _ req := .ok req.addr
  createdTx _ tx := .ok tx
  sendTx _ _ _ := .ok 101
  txFee _ _ _ _ := .ok 26
  pegOutPayment _ _ _ _ _ := .ok ()

/-- Log in and connect. -/
def connecting : List Message :=
  [.ui (.login ⟨some (.mnemonic "wallet"), none⟩), .serverConnected, .notif accountIdAmp ⟨.other, some .connected⟩]

/-- Accept an order, with auto-sign. -/
def decision (orderId : OrderId) : SubmitDecision where
  orderId := toText orderId
  accept := true
  autoSign := some true
  isPrivate := none
  twoStep := none
  ttlSeconds := none
  txChainingAllowed := none
  onlyUnusedUtxos := none

/-- Look the order up and accept it. -/
def accepting : List Message :=
  connecting ++ [.ui (.linkOrder (toText order)), .ui (.submitDecision (decision order))]

/-- The server's `Sign` message for the order. -/
def sign (side : OrderSide) : SignNotification := ⟨order, "pset", details side, none⟩

end Sample

end Client
