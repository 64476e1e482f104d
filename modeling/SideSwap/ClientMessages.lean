import SideSwap.HexText
import SideSwap.Pricing
import SideSwap.Table

/-! # What the wallet worker exchanges

    The messages of `sideswap_client/src/worker.rs`: commands of the user
    interface, requests to the server with their responses, notifications, and
    what is shown to the user.  The interface writes order and asset ids as hex
    text; everywhere else they are numbers.

    Commands and notifications whose handlers read and write none of the state
    modelled here (peg-ins, payjoins, price streams, contacts, device scans) are
    the constructors named `other`. -/

namespace Client

open Api

/-- Text is the list of its characters. -/
abbrev Text := List Char

abbrev AccountId := Int

def accountIdReg : AccountId := 0
def accountIdAmp : AccountId := 1

/-- `Hash32::from_str`, and `AssetId::from_str`. -/
def fromStr (text : Text) : Option Hash32 := (HexText.parse 64 text).map (BitVec.ofNat 256)

/-- `Display for Hash32`. -/
def toText (id : Hash32) : Text := HexText.print 64 id.toNat

/-- An id is read back from its own text. -/
theorem fromStr_toText (id : Hash32) : fromStr (toText id) = some id := by
  have hlt : id.toNat < 16 ^ 64 := by
    have hid := id.isLt
    norm_num at hid ⊢
    exact hid
  unfold fromStr toText
  rw [HexText.parse_print hlt, Option.map_some, BitVec.ofNat_toNat, BitVec.setWidth_eq]

/-! ## Commands of the user interface -/

/-- `login::Wallet`. -/
inductive LoginWallet where
  | mnemonic (mnemonic : String)
  | jadeId (jadeId : String)
deriving DecidableEq, Repr

/-- `to::Login`, with the fields the order book and the registered addresses
    depend on. -/
structure Login where
  wallet : Option LoginWallet
  forceAutoSignMaker : Option Bool
deriving DecidableEq, Repr

/-- `CreateTx`. -/
structure CreateTx where
  addr : String
  assetId : Text
  amount : Int
  isContact : Bool
  account : AccountId
deriving DecidableEq, Repr

/-- `to::PegOutAmount`. -/
structure PegOutAmount where
  amount : Int
  isSendEntered : Bool
  feeRate : ℚ
  account : AccountId
deriving DecidableEq, Repr

/-- `to::PegOutRequest`, with the fields its handler reads. -/
structure PegOutRequest where
  sendAmount : Int
  recvAddr : String
  blocks : Int
  account : AccountId
deriving DecidableEq, Repr

/-- `to::SwapRequest`. -/
structure SwapRequest where
  sendBitcoins : Bool
  asset : Text
  sendAmount : Int
  recvAmount : Int
  price : ℚ
deriving DecidableEq, Repr

/-- `to::SubmitOrder`. -/
structure SubmitOrder where
  account : AccountId
  assetId : Text
  bitcoinAmount : Option ℚ
  assetAmount : Option ℚ
  price : ℚ
  indexPrice : Option ℚ
deriving DecidableEq, Repr

/-- `to::SubmitDecision`. -/
structure SubmitDecision where
  orderId : Text
  accept : Bool
  autoSign : Option Bool
  isPrivate : Option Bool
  twoStep : Option Bool
  ttlSeconds : Option Nat
  txChainingAllowed : Option Bool
  onlyUnusedUtxos : Option Bool
deriving DecidableEq, Repr

/-- `to::edit_order::Data`. -/
inductive EditData where
  | price (price : ℚ)
  | indexPrice (price : ℚ)
  | autoSign (autoSign : Bool)
deriving DecidableEq, Repr

/-- `to::EditOrder`. -/
structure EditOrder where
  orderId : Text
  data : Option EditData
deriving DecidableEq, Repr

/-- `FcmMessage`, as `serde_json` reads it; `none` is text it cannot read. -/
inductive FcmMessage where
  | sign (orderId : OrderId)
  | other
deriving DecidableEq, Repr

/-- `to::Msg`. -/
inductive ToMsg where
  | login (req : Login)
  | logout
  | changeNetwork
  | appState (active : Bool)
  | pushMessage (msg : Option FcmMessage)
  | pegOutAmount (req : PegOutAmount)
  | pegOutRequest (req : PegOutRequest)
  | swapRequest (req : SwapRequest)
  | createTx (req : CreateTx)
  | sendTx (account : AccountId)
  | updatePushToken (token : String)
  | submitOrder (req : SubmitOrder)
  | linkOrder (orderId : Text)
  | submitDecision (req : SubmitDecision)
  | editOrder (req : EditOrder)
  | cancelOrder (orderId : Text)
  | portfolioPrices
  | gaidStatus (gaid : String) (assetId : Text)
  | other
deriving DecidableEq, Repr

/-! ## Requests and responses -/

/-- `ServerStatus`, with the fields of the peg-out handlers. -/
structure ServerStatus where
  minPegOutAmount : Int
  serverFeePercentPegOut : ℚ
  pegOutBitcoinTxVsize : Int
deriving DecidableEq, Repr

/-- `PegOutAmounts`. -/
structure PegOutAmounts where
  sendAmount : Int
  recvAmount : Int
  isSendEntered : Bool
  feeRate : ℚ
deriving DecidableEq, Repr

/-- `PegRequest` of a peg-out. -/
structure PegRequest where
  recvAddr : String
  deviceKey : Option String
  blocks : Option Int
  pegOutAmounts : Option PegOutAmounts
deriving DecidableEq, Repr

/-- `PegResponse`, with the fields `try_process_pegout_request` reads. -/
structure PegResponse where
  orderId : OrderId
  pegAddr : String
deriving DecidableEq, Repr

/-- `StartSwapClientRequest`. -/
structure StartSwapClientRequest where
  price : ℚ
  asset : AssetId
  sendBitcoins : Bool
  sendAmount : Int
  recvAmount : Int
  inputs : List PsetInput
  recvAddr : Address
  changeAddr : Address
deriving DecidableEq, Repr

/-- `EditRequest`. -/
structure EditRequest where
  orderId : OrderId
  price : Option ℚ
  indexPrice : Option ℚ
deriving DecidableEq, Repr

/-- The requests of the modelled handlers. -/
inductive Request where
  | ping
  | loginClient
  | assets
  | ampAssets
  | serverStatus
  | verifyDevice (deviceKey : String)
  | registerDevice
  | login (sessionId : Option SessionId)
  | submit (order : PriceOrder)
  | link (orderId : OrderId)
  | resolveGaid (orderId : OrderId) (gaid : String)
  | psetMaker (req : PsetMakerRequest)
  | psetTaker (req : PsetTakerRequest)
  | sign (req : SignRequest)
  | getSign (orderId : OrderId)
  | edit (req : EditRequest)
  | cancel (orderId : OrderId)
  | startSwapClient (req : StartSwapClientRequest)
  | signedSwapClient (orderId : OrderId) (pset : String)
  | peg (req : PegRequest)
  | updatePushToken (deviceKey pushToken : String)
  | registerAddresses (deviceKey : String) (addresses : List Address)
  | portfolioPrices
  | gaidStatus (gaid : String) (assetId : AssetId)
deriving DecidableEq, Repr

/-- The responses the handlers look at; `other` is any other one. -/
inductive Response where
  | ping
  | loginClient
  | assets (assets : List Asset)
  | ampAssets (assets : List Asset)
  | serverStatus (status : ServerStatus)
  | verifyDevice (registered : Bool)
  | registerDevice (deviceKey : String)
  | login (resp : LoginResponse)
  | submit (resp : SubmitResponse)
  | link (resp : LinkResponse)
  | resolveGaid (address : Address)
  | psetMaker
  | psetTaker
  | sign
  | getSign (data : SignNotification)
  | edit
  | startSwapClient (orderId : OrderId)
  | signedSwapClient
  | peg (resp : PegResponse)
  | portfolioPrices (pricesUsd : List (AssetId × ℚ))
  | gaidStatus (error : Option String)
  | other
deriving DecidableEq, Repr

/-- `BlindedSwapClientNotification`. -/
structure BlindedSwapClientNotification where
  orderId : OrderId
  pset : String
deriving DecidableEq, Repr

/-- `SwapDoneStatus`. -/
inductive SwapDoneStatus where
  | success
  | clientError
  | dealerError
  | serverError
deriving DecidableEq, Repr

/-- `SwapDoneNotification`, with the fields `process_swap_done` reads. -/
structure SwapDoneNotification where
  orderId : OrderId
  status : SwapDoneStatus
  txid : Option Txid
deriving DecidableEq, Repr

/-- `Notification`. -/
inductive Notification where
  | sign (msg : SignNotification)
  | complete (msg : CompleteNotification)
  | orderCreated (msg : OrderCreatedNotification)
  | orderRemoved (orderId : OrderId)
  | blindedSwapClient (msg : BlindedSwapClientNotification)
  | swapDone (msg : SwapDoneNotification)
  | serverStatus (status : ServerStatus)
  | other
deriving DecidableEq, Repr

/-! ## What a wallet session reports -/

/-- The `event` of a `gdk_json::Notification`. -/
inductive WalletEvent where
  | transaction
  /-- a new block, with its height; the code unwraps the block of the event -/
  | block (height : Option Nat)
  /-- a subaccount event of type `synced` -/
  | synced
  | syncFailed
  | other
deriving DecidableEq, Repr

/-- `gdk_json::ConnectionState`. -/
inductive ConnectionState where
  | connected
  | disconnected
deriving DecidableEq, Repr

/-- `gdk_json::Notification`. -/
structure WalletNotif where
  event : WalletEvent
  network : Option ConnectionState
deriving DecidableEq, Repr

/-- `models::Balance`, and `proto::Balance`. -/
structure Balance where
  asset : AssetId
  value : Int
deriving DecidableEq, Repr

/-- `models::Transaction`. -/
structure Transaction where
  txid : Txid
  networkFee : Nat
  size : Nat
  vsize : Nat
  memo : String
  balances : List Balance
  createdAt : Int
  blockHeight : Nat
  balancesAll : List Balance
  maxPointerExternal : Nat
  maxPointerInternal : Nat
deriving DecidableEq, Repr

/-- `worker::Message`. -/
inductive Message where
  | ui (msg : ToMsg)
  | serverConnected
  | serverDisconnected
  | serverNotification (notif : Notification)
  | asyncResp (requestId : String) (res : Except Error Response)
  | notif (accountId : AccountId) (notif : WalletNotif)
  | subscribe (orders : List OrderCreatedNotification)
  | unsubscribe (asset : Option AssetId)
  | backgroundMessage (msg : Option FcmMessage) (sender : Nat)
  | idleTimer (checkDue : Bool)
  | other

/-! ## What is shown to the user -/

/-- `submit_review::Step`. -/
inductive Step where
  | submit
  | quote
  | sign
deriving DecidableEq, Repr

/-- `from::SubmitReview`. -/
structure SubmitReview where
  orderId : OrderId
  asset : AssetId
  bitcoinAmount : Int
  assetAmount : Int
  price : ℚ
  sellBitcoin : Bool
  serverFee : Int
  step : Step
  indexPrice : Bool
  autoSign : Bool
  twoStep : Option Bool
  txChainingRequired : Option Bool
deriving DecidableEq, Repr

/-- `proto::Confs`. -/
structure Confs where
  count : Nat
  total : Nat
deriving DecidableEq, Repr

/-- `proto::TransItem` of a transaction, with its `proto::Tx`. -/
structure TransItem where
  id : String
  createdAt : Int
  confs : Option Confs
  account : AccountId
  balances : List Balance
  memo : String
  networkFee : Nat
  txid : Txid
  size : Nat
  vsize : Nat
  balancesAll : List Balance
deriving DecidableEq, Repr

/-- `submit_result::Result`. -/
inductive SubmitResult where
  | submitSucceed
  | swapSucceed (item : TransItem)
  | error (msg : String)
  | unregisteredGaid (domainAgent : String)
deriving DecidableEq, Repr

/-- `proto::Order`: a line of the order list. -/
structure Order where
  orderId : OrderId
  assetId : AssetId
  bitcoinAmount : Int
  sendBitcoins : Bool
  serverFee : Int
  assetAmount : Int
  price : ℚ
  createdAt : Int
  expiresAt : Option Int
  isPrivate : Bool
  twoStep : Bool
  autoSign : Bool
  own : Bool
  tokenMarket : Bool
  fromNotification : Bool
  indexPrice : Option ℚ
deriving DecidableEq, Repr

/-- `from::ShowInsufficientFunds`. -/
structure ShowInsufficientFunds where
  assetId : AssetId
  available : Int
  required : Int
deriving DecidableEq, Repr

/-- `from::Msg`. -/
inductive FromMsg where
  | showMessage (text : String)
  | insufficientFunds (msg : ShowInsufficientFunds)
  | submitReview (review : SubmitReview)
  | submitResult (result : SubmitResult)
  | startTimer (orderId : OrderId)
  | orderCreated (order : Order) (isNew : Bool)
  | orderRemoved (orderId : OrderId)
  | orderComplete (orderId : OrderId) (txid : Option Txid)
  | editOrder (res : Except String Unit)
  | cancelOrder (res : Except String Unit)
  | swapFailed (msg : String)
  | swapSucceed (item : TransItem)
  | pegOutAmount (res : Except String (PegOutAmounts × AccountId))
  | createTxResult (res : Except String String)
  | sendResult (res : Except String TransItem)
  | portfolioPrices (pricesUsd : List (AssetId × ℚ))
  | gaidStatus (gaid : String) (assetId : Text) (error : Option String)
  | serverStatus (status : ServerStatus)
  | updatedTxs (items : List TransItem)
  | removedTxs (txids : List String)
  | newAsset (asset : Asset) (swapMarket : Bool) (ampMarket : Bool) (unregistered : Bool)
  | ampAssets (assets : List AssetId)
  | login (res : Except String Unit)
  | logout
  | serverConnected
  | serverDisconnected
  | walletLoaded
  | syncComplete

end Client
