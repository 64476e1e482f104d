import SideSwap.PayjoinPset
import SideSwap.Pricing

/-! # Creating a payjoin

    `sideswap_payjoin/src/lib.rs` and `network_fee.rs`, and how
    `sideswap_client/src/gdk_ses_impl.rs` sends one: the client pays in an
    asset of its own, and the server adds bitcoin inputs for the network fee,
    for which it is paid in the asset.

    Amounts are `u64` as in the code, so sums and differences wrap.  A double
    is read as the exact value of its expression; `as u64` saturates. -/

namespace Payjoin

open Api Program Pricing

/-! ## The network fee -/

def feeRate : ℚ := 1 / 10
def weightFixed : Nat := 44
def weightVinSingleSig : Nat := 367
def weightVinMultiSig : Nat := 526
def weightVout : Nat := 4810
def weightFee : Nat := 178

/-- A double `as u64`. -/
def asU64 (x : Int) : UInt64 := .ofNat (min x.toNat (2 ^ 64 - 1))

/-- `expected_network_fee`. -/
def expectedNetworkFee (singleSigInputs multiSigInputs blindedOutputs : Nat) : UInt64 :=
  let weight := weightFixed + weightVinSingleSig * singleSigInputs +
    weightVinMultiSig * multiSigInputs + weightVout * blindedOutputs + weightFee
  let vsize := (weight + 3) / 4
  asU64 ((vsize : ℚ) * feeRate).ceil

/-- `fixed_fee + (price * network_fee as f64).round() as u64`. -/
def assetFee (fixedFee : UInt64) (price : ℚ) (networkFee : UInt64) : UInt64 :=
  fixedFee + asU64 (Pricing.round (price * networkFee.toNat))

/-! ## The server -/

/-- `server_api::Utxo`. -/
structure Utxo where
  txid : Txid
  vout : Nat
  scriptPubKey : String
  assetId : AssetId
  value : UInt64
  assetBf : String
  valueBf : String
  assetCommitment : String
  valueCommitment : String
deriving DecidableEq, Repr

/-- `StartResponse`, without the two fields that are not read. -/
structure StartResponse where
  orderId : String
  price : ℚ
  fixedFee : UInt64
  feeAddress : Address
  changeAddress : Address
  utxos : List Utxo

/-- What the server answers; a signed PSET comes as a text that may not be one. -/
inductive Response where
  | acceptedAssets
  | start (resp : StartResponse)
  | sign (pset : Except String Pset)

/-- `make_server_request` for the two requests. -/
structure Server where
  start : (assetId : AssetId) → Except String Response
  sign : (orderId : String) → Pset → Except String Response

/-! ## The request -/

/-- `CreatePayjoin`. -/
structure CreatePayjoin where
  assetId : AssetId
  amount : UInt64
  address : Address
  subtractFeeFromAmount : Bool
  changeAddress : Address
  utxos : List Utxo

/-- `CreatedPayjoin`. -/
structure CreatedPayjoin where
  pset : Pset
  assetFee : UInt64

/-- The checks of the request. -/
def checkRequest (req : CreatePayjoin) : Except Stop Unit := do
  ensure (!req.utxos.isEmpty) "Condition failed: `!client_utxos.is_empty()`"
  ensure (req.utxos.all fun utxo => utxo.assetId == req.assetId)
    "Condition failed: `client_utxos.iter().all(|utxo| utxo.asset_id == req.asset_id)`"
  ensure req.address.blindingPubkey.isSome "Condition failed: `send_address.is_blinded()`"
  ensure req.changeAddress.blindingPubkey.isSome
    "Condition failed: `client_change_address.is_blinded()`"
  ensure (req.address.params == req.changeAddress.params)
    "Condition failed: `send_address.params == client_change_address.params`"
  ensure (decide (0 < req.amount)) "Condition failed: `send_amount > 0`"

/-- The checks of the server's offer. -/
def checkStart (req : CreatePayjoin) (resp : StartResponse) : Except Stop Unit := do
  ensure (req.address.params == resp.feeAddress.params)
    "Condition failed: `send_address.params == fee_address.params`"
  ensure (req.address.params == resp.changeAddress.params)
    "Condition failed: `send_address.params == server_change_address.params`"
  ensure resp.feeAddress.blindingPubkey.isSome "Condition failed: `fee_address.is_blinded()`"
  ensure resp.changeAddress.blindingPubkey.isSome
    "Condition failed: `server_change_address.is_blinded()`"
  ensure (!resp.utxos.isEmpty) "Condition failed: `!server_utxos.is_empty()`"

/-- The loops that select inputs: they stop when the running total reaches the
    target, or when there are no more. -/
def selectUtxos (target : UInt64) : UInt64 → List Utxo → List Utxo × UInt64
  | total, [] => ([], total)
  | total, utxo :: utxos =>
      let total := total + utxo.value
      if target ≤ total then ([utxo], total)
      else
        let (selected, total) := selectUtxos target total utxos
        (utxo :: selected, total)

/-- `ConstructPsetArgs`. -/
structure ConstructPsetArgs where
  selectedUtxos : List Utxo
  sendAddress : Address
  sendAssetId : AssetId
  sendAmount : UInt64
  feeAddress : Address
  fixedFee : UInt64
  price : ℚ
  clientChangeAddress : Address
  utxoAssetAmount : UInt64
  utxoLbtcAmount : UInt64
  serverChangeAddress : Address
  lbtcAssetId : AssetId
deriving DecidableEq

/-- The largest network fee: all inputs, and four outputs (the asset, its change,
    the asset fee and the server's change). -/
def maxNetworkFee (req : CreatePayjoin) (resp : StartResponse) : UInt64 :=
  expectedNetworkFee (req.utxos.length + resp.utxos.length) 0 4

/-- The fee the client is shown. -/
def maxAssetFee (req : CreatePayjoin) (resp : StartResponse) : UInt64 :=
  assetFee resp.fixedFee resp.price (maxNetworkFee req resp)

/-- The amount the recipient gets. -/
def sendAmount (req : CreatePayjoin) (resp : StartResponse) : Except Stop UInt64 :=
  if req.subtractFeeFromAmount then do
    ensure (decide (maxAssetFee req resp < req.amount))
      "Condition failed: `send_amount > max_asset_fee`"
    pure (req.amount - maxAssetFee req resp)
  else pure req.amount

/-- The part of `create_payjoin` that chooses amounts and inputs. -/
def preparePayjoin (req : CreatePayjoin) (resp : StartResponse) :
    Except Stop ConstructPsetArgs := do
  checkStart req resp
  let sendAmount ← sendAmount req resp
  let lbtcAssetId ← ((expect resp.utxos.head? "called `Option::unwrap()` on a `None` value").map
    (·.assetId)).mapError .panic
  let target := sendAmount + maxAssetFee req resp
  let (clientUtxos, utxoAssetAmount) := selectUtxos target 0 req.utxos
  let (serverUtxos, utxoLbtcAmount) := selectUtxos (maxNetworkFee req resp) 0 resp.utxos
  ensure (decide (target ≤ utxoAssetAmount))
    "Condition failed: `utxo_asset_amount >= send_amount + max_asset_fee`"
  ensure (decide (maxNetworkFee req resp ≤ utxoLbtcAmount))
    "Condition failed: `utxo_lbtc_amount >= max_network_fee`"
  pure
    { selectedUtxos := clientUtxos ++ serverUtxos
      sendAddress := req.address
      sendAssetId := req.assetId
      sendAmount
      feeAddress := resp.feeAddress
      fixedFee := resp.fixedFee
      price := resp.price
      clientChangeAddress := req.changeAddress
      utxoAssetAmount
      utxoLbtcAmount
      serverChangeAddress := resp.changeAddress
      lbtcAssetId }

/-! ## The PSET -/

def Utxo.input (utxo : Utxo) : Input :=
  psetInput ⟨utxo.txid, utxo.vout, utxo.scriptPubKey, utxo.assetCommitment, utxo.valueCommitment⟩

def Utxo.secrets (utxo : Utxo) : TxOutSecrets :=
  ⟨utxo.assetId, utxo.assetBf, utxo.value, utxo.valueBf⟩

/-- The network fee of the selected inputs. -/
def ConstructPsetArgs.networkFee (args : ConstructPsetArgs) : UInt64 :=
  expectedNetworkFee args.selectedUtxos.length 0 4

/-- The asset fee of the selected inputs. -/
def ConstructPsetArgs.assetFee (args : ConstructPsetArgs) : UInt64 :=
  Payjoin.assetFee args.fixedFee args.price args.networkFee

/-- An output for what is left, if anything is. -/
def changeOutput (address : Address) (asset : AssetId) (amount : UInt64) :
    Except Stop (List Output) :=
  if 0 < amount then do
    let output ← psetOutput ⟨address, asset, amount⟩
    pure [output]
  else pure []

/-- The part of `construct_pset` before the shuffling. -/
def buildPset (args : ConstructPsetArgs) : Except Stop Pset := do
  let send ← psetOutput ⟨args.sendAddress, args.sendAssetId, args.sendAmount⟩
  let fee ← psetOutput ⟨args.feeAddress, args.sendAssetId, args.assetFee⟩
  let assetChangeAmount := args.utxoAssetAmount - args.sendAmount - args.assetFee
  let assetChange ← changeOutput args.clientChangeAddress args.sendAssetId assetChangeAmount
  let lbtcChangeAmount := args.utxoLbtcAmount - args.networkFee
  let lbtcChange ← changeOutput args.serverChangeAddress args.lbtcAssetId lbtcChangeAmount
  pure
    { inputs := args.selectedUtxos.map Utxo.input
      outputs := [send, fee] ++ assetChange ++ lbtcChange ++
        [psetNetworkFee args.lbtcAssetId args.networkFee] }

/-- `construct_pset`. -/
def constructPset (crypto : Crypto) (shuffleInputs shuffleOutputs : Shuffle)
    (args : ConstructPsetArgs) : Except Stop Pset := do
  let pset ← buildPset args
  randomizeAndBlindPset crypto shuffleInputs shuffleOutputs pset
    (args.selectedUtxos.map Utxo.secrets)

/-- `create_payjoin`. -/
def createPayjoin (crypto : Crypto) (shuffleInputs shuffleOutputs : Shuffle) (server : Server)
    (req : CreatePayjoin) : Except Stop CreatedPayjoin := do
  checkRequest req
  match ← (server.start req.assetId).mapError .error with
  | .start resp => do
      let args ← preparePayjoin req resp
      let blindedPset ← constructPset crypto shuffleInputs shuffleOutputs args
      match ← (server.sign resp.orderId (removeExplicitValues blindedPset)).mapError .error with
      | .sign serverSignedPset => do
          let serverSignedPset ← serverSignedPset.mapError .error
          let pset ← copySignatures blindedPset serverSignedPset
          pure ⟨pset, maxAssetFee req resp⟩
      | _ => throw (.error "unexpected response")
  | _ => throw (.error "unexpected response")

/-! ## The transaction -/

structure TxIn where
  previousTxid : Txid
  previousOutputIndex : Nat
  scriptSig : String
  scriptWitness : List String
deriving DecidableEq, Repr

/-- An output, with the asset and the amount it commits to. -/
structure TxOut where
  scriptPubkey : String
  asset : AssetId
  amount : UInt64
deriving DecidableEq, Repr

/-- `elements::Transaction`. -/
structure Transaction where
  inputs : List TxIn
  outputs : List TxOut
deriving DecidableEq, Repr

/-- `final_tx`, with `extract_tx` of the library. -/
def finalTx (extractTx : Pset → Except String Transaction) (psetClient psetServer : Pset) :
    Except Stop Transaction := do
  let pset ← copySignatures psetClient psetServer
  (extractTx pset).mapError .error

/-- What `try_send_payjoin` broadcasts: the created PSET is signed by the wallet,
    and completed with the signatures it came with. -/
def sendPayjoin (signPset : Pset → Except String Pset)
    (extractTx : Pset → Except String Transaction) (created : Pset) :
    Except Stop Transaction := do
  let psetClient ← (signPset created).mapError .error
  finalTx extractTx psetClient created

end Payjoin
