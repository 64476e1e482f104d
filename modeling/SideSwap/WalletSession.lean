import SideSwap.Api
import SideSwap.MachineInt
import SideSwap.Program
import SideSwap.Table

/-! # The wallet session

    `verify_and_sign_pset` of `gdk_ses_impl.rs`, by which both workers have a
    PSET signed.  What GDK says about the wallet's coins and about a PSET, and
    its signature, are parameters; the comparison with the agreed amounts is
    the code's. -/

namespace Wallet

open Api MachineInt Program

/-- `PsetDetailsResult`: what a PSET does to the wallet's balances. -/
structure PsetDetails where
  satoshi : Std.TreeMap AssetId Int
  fee : Option Int

/-- The calls of GDK. -/
structure Session where
  unspentOutputs : Except String (Std.TreeMap AssetId (List UnspentOutput))
  psetDetails : List UnspentOutput → (pset : String) → Except String PsetDetails
  signPset : List UnspentOutput → (pset : String) → (nonces : List String) → Except String String

/-- What a PSET takes from the wallet, without the network fee that GDK counts
    for inputs in bitcoins. -/
def PsetDetails.sendAmount (details : PsetDetails) (policyAsset sendAsset : AssetId) : Int :=
  let sendAmount := i64 (-(details.satoshi[sendAsset]?).getD 0)
  if sendAsset = policyAsset ∧ sendAmount ≠ 0 then i64 (sendAmount + details.fee.getD 0)
  else sendAmount

/-- What a PSET gives to the wallet. -/
def PsetDetails.recvAmount (details : PsetDetails) (recvAsset : AssetId) : Int :=
  (details.satoshi[recvAsset]?).getD 0

/-- The checks of `verify_and_sign_pset`. -/
def verifyPset (policyAsset : AssetId) (amounts : Amounts) (details : PsetDetails) :
    Except String Unit := do
  check (details.satoshi.keys.all fun asset =>
      asset == amounts.sendAsset || asset == amounts.recvAsset)
    "Condition failed: `*asset == amounts.send_asset || *asset == amounts.recv_asset`"
  check (details.sendAmount policyAsset amounts.sendAsset == i64 amounts.sendAmount)
    "Condition failed: `send_amount == amounts.send_amount as i64`"
  check (details.recvAmount amounts.recvAsset == i64 amounts.recvAmount)
    "Condition failed: `recv_amount == amounts.recv_amount as i64`"

/-- `verify_and_sign_pset`. -/
def Session.verifyAndSignPset (session : Session) (policyAsset : AssetId) (amounts : Amounts)
    (pset : String) (nonces : List String) : Except String String := do
  let unspentOutputs ← session.unspentOutputs
  let utxos := (Table.values unspentOutputs).flatten
  let details ← session.psetDetails utxos pset
  verifyPset policyAsset amounts details
  if amounts.sendAmount = 0 then pure pset else session.signPset utxos pset nonces

/-- A PSET exchanges the amounts, and touches nothing else of the wallet. -/
structure Exchanges (policyAsset : AssetId) (amounts : Amounts) (details : PsetDetails) :
    Prop where
  assets : ∀ asset ∈ details.satoshi, asset = amounts.sendAsset ∨ asset = amounts.recvAsset
  sends : details.sendAmount policyAsset amounts.sendAsset = i64 amounts.sendAmount
  receives : details.recvAmount amounts.recvAsset = i64 amounts.recvAmount

theorem verifyPset_ok {policyAsset : AssetId} {amounts : Amounts} {details : PsetDetails}
    (h : verifyPset policyAsset amounts details = .ok ()) :
    Exchanges policyAsset amounts details := by
  unfold verifyPset at h
  simp only [check_bind, check_ok] at h
  obtain ⟨hassets, hsends, hreceives⟩ := h
  refine ⟨fun asset hasset => ?_, eq_of_beq hsends, eq_of_beq hreceives⟩
  have hkey := List.all_eq_true.mp hassets asset (Std.TreeMap.mem_keys.mpr hasset)
  simpa using hkey

/-- **VERIFIED**: what is signed exchanges the amounts it was verified against. -/
theorem verifyAndSignPset_ok {session : Session} {policyAsset : AssetId} {amounts : Amounts}
    {pset signedPset : String} {nonces : List String}
    (h : session.verifyAndSignPset policyAsset amounts pset nonces = .ok signedPset) :
    ∃ utxos details, session.psetDetails utxos pset = .ok details ∧
      Exchanges policyAsset amounts details := by
  unfold Session.verifyAndSignPset at h
  obtain ⟨unspentOutputs, _, h⟩ := bind_returns h
  obtain ⟨details, hdetails, h⟩ := bind_returns h
  -- the signature comes after the checks
  obtain ⟨_, hverify, _⟩ := bind_returns h
  exact ⟨_, details, hdetails, verifyPset_ok hverify⟩

end Wallet
