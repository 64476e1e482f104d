import Mathlib.Tactic

/-! # The server API

    The messages of `sideswap_api` that the two workers exchange with the
    server, with the fields their handlers read or send.  Order ids, asset ids
    and transaction ids are 256-bit hashes; `f64` prices are read as exact
    rationals; amounts are integers, reduced to their machine width where a
    handler computes with them. -/

namespace Api

/-- `Hash32`, `AssetId` and `Txid`: 32 bytes, compared as a number. -/
abbrev Hash32 := BitVec 256

abbrev OrderId := Hash32
abbrev SessionId := Hash32
abbrev AssetId := Hash32
abbrev Txid := Hash32
abbrev Address := String

/-- `MarketType`: what the price of an asset is quoted in. -/
inductive MarketType where
  | stablecoin
  | amp
  | token
deriving DecidableEq, Repr

/-- Every market but the stablecoin one quotes the price in bitcoins. -/
def MarketType.pricedInBitcoins (m : MarketType) : Bool := m != .stablecoin

inductive OrderSide where
  | maker
  | taker
deriving DecidableEq, Repr

/-- Which of the two amounts of an order is fixed. -/
inductive OrderType where
  | bitcoin
  | asset
deriving DecidableEq, Repr

/-- The terms of an order. -/
structure Details where
  asset : AssetId
  bitcoinAmount : Int
  assetAmount : Int
  price : ℚ
  serverFee : Int
  side : OrderSide
  sendBitcoins : Bool
  orderType : OrderType
  market : MarketType
  twoStep : Option Bool
deriving DecidableEq, Repr

/-- `Asset`: an entry of the asset registry. -/
structure Asset where
  assetId : AssetId
  name : String
  ticker : String
  icon : Option String
  precision : Nat
  iconUrl : Option String
  instantSwaps : Option Bool
  domain : Option String
  domainAgent : Option String
  alwaysShow : Option Bool
deriving DecidableEq, Repr

/-- An outpoint (`elements::OutPoint`, `TxOut`). -/
structure OutPoint where
  txid : Txid
  vout : Nat
deriving DecidableEq, Repr

/-- `gdk_json::UnspentOutput`, with the redeem script `get_redeem_script` makes of it. -/
structure UnspentOutput where
  txhash : Txid
  vout : Nat
  assetId : AssetId
  satoshi : Nat
  assetBlinder : Hash32
  amountBlinder : Hash32
  redeemScript : String
deriving DecidableEq, Repr

/-- `UnspentOutput` as the coin it names. -/
def UnspentOutput.outPoint (u : UnspentOutput) : OutPoint := ⟨u.txhash, u.vout⟩

/-- A swap input as it is sent to the server. -/
structure PsetInput where
  txid : Txid
  vout : Nat
  asset : AssetId
  assetBf : Hash32
  value : Nat
  valueBf : Hash32
  redeemScript : Option String
deriving DecidableEq, Repr

/-- `convert_to_swap_utxo`. -/
def convertToSwapUtxo (u : UnspentOutput) : PsetInput where
  txid := u.txhash
  vout := u.vout
  asset := u.assetId
  assetBf := u.assetBlinder
  value := u.satoshi
  valueBf := u.amountBlinder
  redeemScript := some u.redeemScript

/-- A swap input as the coin it names. -/
def PsetInput.outPoint (i : PsetInput) : OutPoint := ⟨i.txid, i.vout⟩

/-- `swaps::Amounts`: what a PSET is verified against before it is signed. -/
structure Amounts where
  sendAsset : AssetId
  sendAmount : Nat
  recvAsset : AssetId
  recvAmount : Nat
deriving DecidableEq, Repr

structure PriceOrder where
  asset : AssetId
  bitcoinAmount : Option ℚ
  assetAmount : Option ℚ
  price : Option ℚ
  indexPrice : Option ℚ
  forcePrivate : Option Bool
  disablePriceEdit : Option Bool
deriving DecidableEq, Repr

structure SubmitResponse where
  orderId : OrderId
  details : Details
deriving DecidableEq, Repr

/-- `Own`: set on the notifications of the client's own orders. -/
structure Own where
  indexPrice : Option ℚ
  isPrivate : Bool
  twoStep : Bool
deriving DecidableEq, Repr

structure OrderCreatedNotification where
  orderId : OrderId
  details : Details
  createdAt : Int
  expiresAt : Option Int
  twoStep : Bool
  own : Option Own
deriving DecidableEq, Repr

structure LoginResponse where
  sessionId : SessionId
  orders : List OrderCreatedNotification
deriving DecidableEq, Repr

structure LinkResponse where
  orderId : OrderId
  details : Details
  indexPrice : Bool
deriving DecidableEq, Repr

/-- `MakerSignedHalf`: the maker's half of a two-step swap, transactions as their text. -/
structure MakerSignedHalf where
  chainingTx : Option String
  proposal : String
deriving DecidableEq, Repr

structure PsetMakerRequest where
  orderId : OrderId
  price : ℚ
  isPrivate : Bool
  ttlSeconds : Option Nat
  inputs : List PsetInput
  recvAddr : Address
  changeAddr : Address
  signedHalf : Option MakerSignedHalf
deriving DecidableEq, Repr

structure PsetTakerRequest where
  orderId : OrderId
  price : ℚ
  inputs : List PsetInput
  recvAddr : Address
  changeAddr : Address
deriving DecidableEq, Repr

structure SignNotification where
  orderId : OrderId
  pset : String
  details : Details
  nonces : Option (List String)
deriving DecidableEq, Repr

structure SignRequest where
  orderId : OrderId
  signedPset : String
  side : OrderSide
deriving DecidableEq, Repr

structure CompleteNotification where
  orderId : OrderId
  txid : Option Txid
deriving DecidableEq, Repr

/-- `RequestId`: the wallet's blocking requests are numbered, the asynchronous
    ones carry the decimal text of the number. -/
inductive RequestId where
  | string (text : String)
  | int (n : Int)
deriving DecidableEq, Repr

/-- The text an asynchronous request is found again by. -/
def RequestId.text? : RequestId → Option String
  | .string text => some text
  | .int _ => none

/-- `ErrorCode`. -/
inductive ErrorCode where
  | parseError
  | invalidRequest
  | methodNotFound
  | invalidParams
  | internalError
  | serverError
deriving DecidableEq, Repr

/-- `Error`: how the server refuses a request. -/
structure Error where
  code : ErrorCode
  message : String
deriving DecidableEq, Repr

end Api
