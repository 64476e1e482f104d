import SideSwap.Api
import SideSwap.Handler

/-! # The PSETs of a payjoin

    `sideswap_payjoin/src/pset.rs`: how the inputs and outputs of a payjoin are
    made, shuffled and blinded, and how the signatures of one PSET are copied
    into another.

    The proofs and the blinding are cryptography of another library, given by
    `Crypto`; a shuffle is any function that returns a permutation of its list.
    Keys, scripts and commitments are texts here: the code only passes them on. -/

namespace Payjoin

open Api Program

/-- `elements::Address`. -/
structure Address where
  scriptPubkey : String
  blindingPubkey : Option String
  params : String
deriving DecidableEq, Repr

/-- `TxOutSecrets`. -/
structure TxOutSecrets where
  asset : AssetId
  assetBf : String
  value : UInt64
  valueBf : String
deriving DecidableEq, Repr

/-- The parts of an output that its spender signs for. -/
structure WitnessUtxo where
  asset : String
  value : String
  scriptPubkey : String
deriving DecidableEq, Repr

/-- `elements::pset::Input`: the proprietary fields are kept by their subtype. -/
structure Input where
  previousTxid : Txid
  previousOutputIndex : Nat
  witnessUtxo : Option WitnessUtxo
  proprietary : List (Nat × String)
  finalScriptSig : Option String
  finalScriptWitness : Option (List String)
deriving DecidableEq, Repr

/-- `elements::pset::Output`; `commitments` are set when it is blinded. -/
structure Output where
  scriptPubkey : String
  asset : AssetId
  amount : UInt64
  blindingKey : Option String
  blinderIndex : Option Nat
  commitments : Option String
deriving DecidableEq, Repr

/-- `PartiallySignedTransaction`. -/
structure Pset where
  inputs : List Input
  outputs : List Output
deriving DecidableEq, Repr

/-- `PsetInput`. -/
structure PsetInput where
  txid : Txid
  vout : Nat
  scriptPubKey : String
  assetCommitment : String
  valueCommitment : String

/-- `PsetOutput`. -/
structure PsetOutput where
  address : Address
  asset : AssetId
  amount : UInt64

def psetInExplicitValue : Nat := 0x11
def psetInValueProof : Nat := 0x12
def psetInExplicitAsset : Nat := 0x13
def psetInAssetProof : Nat := 0x14

/-- `pset_input`. -/
def psetInput (input : PsetInput) : Input where
  previousTxid := input.txid
  previousOutputIndex := input.vout
  witnessUtxo := some ⟨input.assetCommitment, input.valueCommitment, input.scriptPubKey⟩
  proprietary := []
  finalScriptSig := none
  finalScriptWitness := none

/-- `ensure!`. -/
def ensure (b : Bool) (msg : String) : Except Stop Unit :=
  if b then .ok () else .error (.error msg)

theorem ensure_ok {b : Bool} {msg : String} {u : Unit} (h : ensure b msg = .ok u) : b = true := by
  cases b with
  | false => cases h
  | true => rfl

/-- `pset_output`: only blinded addresses and amounts that are not zero. -/
def psetOutput (output : PsetOutput) : Except Stop Output := do
  let blindingPubkey ← (output.address.blindingPubkey).elim
    (.error (.error "only blinded addresses allowed")) .ok
  ensure (decide (0 < output.amount)) "Condition failed: `amount > 0`"
  pure
    { scriptPubkey := output.address.scriptPubkey
      asset := output.asset
      amount := output.amount
      blindingKey := some blindingPubkey
      blinderIndex := some 0
      commitments := none }

/-- `pset_network_fee`: the fee output has no script and is not blinded. -/
def psetNetworkFee (asset : AssetId) (amount : UInt64) : Output where
  scriptPubkey := ""
  asset := asset
  amount := amount
  blindingKey := none
  blinderIndex := none
  commitments := none

/-- What the cryptographic libraries do. -/
structure Crypto where
  /-- the asset and value proofs of an input -/
  explicitProofs : WitnessUtxo → TxOutSecrets → Except String (String × String)
  /-- `serialize` of a value and of an asset id -/
  valueText : UInt64 → String
  assetText : AssetId → String
  /-- `blind_last`, with the secrets of the inputs by their index -/
  blindLast : Pset → Std.TreeMap Nat TxOutSecrets → Except String Pset

/-- `BTreeMap::insert` into the proprietary fields. -/
def setField (fields : List (Nat × String)) (subtype : Nat) (value : String) :
    List (Nat × String) :=
  (subtype, value) :: fields.filter (·.1 != subtype)

/-- `add_input_explicit_proofs`. -/
def addInputExplicitProofs (crypto : Crypto) (input : Input) (secret : TxOutSecrets) :
    Except Stop Input := do
  let utxo ← (expect input.witnessUtxo "called `Option::unwrap()` on a `None` value").mapError
    .panic
  let (assetProof, valueProof) ← (crypto.explicitProofs utxo secret).mapError .error
  let fields := setField input.proprietary psetInExplicitValue (crypto.valueText secret.value)
  let fields := setField fields psetInExplicitAsset (crypto.assetText secret.asset)
  let fields := setField fields psetInValueProof valueProof
  let fields := setField fields psetInAssetProof assetProof
  pure { input with proprietary := fields }

/-- `remove_explicit_values`. -/
def removeExplicitValues (pset : Pset) : Pset :=
  { pset with
    inputs := pset.inputs.map fun input =>
      { input with
        proprietary := input.proprietary.filter fun field =>
          !([psetInExplicitValue, psetInExplicitAsset, psetInValueProof,
            psetInAssetProof].contains field.1) } }

/-- The round of `copy_signatures` for one input: a signed input is taken over. -/
def copySignature (dst src : Input) : Input :=
  if src.finalScriptWitness.isSome then
    { dst with
      finalScriptSig := src.finalScriptSig
      finalScriptWitness := src.finalScriptWitness }
  else dst

/-- `copy_signatures`. -/
def copySignatures (dst src : Pset) : Except Stop Pset := do
  ensure (dst.inputs.length == src.inputs.length)
    "Condition failed: `dst.inputs().len() == src.inputs().len()`"
  ensure (dst.outputs.length == src.outputs.length)
    "Condition failed: `dst.outputs().len() == src.outputs().len()`"
  pure { dst with inputs := dst.inputs.zipWith copySignature src.inputs }

/-- `slice::shuffle` with some state of the random number generator. -/
structure Shuffle where
  apply : (α : Type) → List α → List α
  perm : ∀ (α : Type) (l : List α), (apply α l).Perm l

/-- `slice::swap`, for indices in bounds. -/
def swap (outputs : List Output) (i j : Nat) : List Output :=
  match outputs[i]?, outputs[j]? with
  | some a, some b => (outputs.set i b).set j a
  | _, _ => outputs

/-- The shuffled outputs, with the network fee moved to the end. -/
def orderOutputs (shuffle : Shuffle) (outputs : List Output) : Except Stop (List Output) := do
  let outputs := shuffle.apply Output outputs
  let feeOutput ← (outputs.findIdx? fun output => output.blindingKey.isNone).elim
    (.error (.error "can't find network fee output")) .ok
  pure (swap outputs feeOutput (outputs.length - 1))

/-- The secrets of the inputs, by their index. -/
def secretsByIndex (secrets : List TxOutSecrets) : Std.TreeMap Nat TxOutSecrets :=
  .ofList (secrets.zipIdx.map fun (secret, index) => (index, secret))

/-- `randomize_and_blind_pset`. -/
def randomizeAndBlindPset (crypto : Crypto) (shuffleInputs shuffleOutputs : Shuffle) (pset : Pset)
    (inputSecrets : List TxOutSecrets) : Except Stop Pset := do
  ensure (pset.inputs.length == inputSecrets.length)
    "Condition failed: `pset.inputs().len() == input_secrets.len()`"
  let inputs := shuffleInputs.apply (Input × TxOutSecrets) (pset.inputs.zip inputSecrets)
  let outputs ← orderOutputs shuffleOutputs pset.outputs
  let proved ← inputs.mapM fun (input, secret) => addInputExplicitProofs crypto input secret
  (crypto.blindLast ⟨proved, outputs⟩ (secretsByIndex (inputs.map (·.2)))).mapError .error

end Payjoin
