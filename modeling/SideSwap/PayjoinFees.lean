import Mathlib.Data.UInt
import SideSwap.PayjoinBalance
import SideSwap.Rounding

/-! # The fee a payjoin client is shown

    `create_payjoin` shows the fee for all inputs and pays the fee for the
    selected ones.  More inputs never make the network fee smaller, and a
    larger network fee never makes its price smaller, so the fee that is shown
    bounds the one that is paid while the additions of `u64` do not wrap. -/

namespace Payjoin

open Api Program Pricing

/-! ## Monotonicity -/

theorem toNat_asU64 (x : Int) : (asU64 x).toNat = min x.toNat (2 ^ 64 - 1) := by
  unfold asU64
  rw [UInt64.toNat_ofNat']
  omega

theorem asU64_mono {x y : Int} (h : x ≤ y) : (asU64 x).toNat ≤ (asU64 y).toNat := by
  rw [toNat_asU64, toNat_asU64]
  omega

theorem expectedNetworkFee_mono {m n : Nat} (h : m ≤ n) :
    (expectedNetworkFee m 0 4).toNat ≤ (expectedNetworkFee n 0 4).toNat := by
  unfold expectedNetworkFee
  refine asU64_mono ?_
  have hsize : (weightFixed + weightVinSingleSig * m + weightVinMultiSig * 0 + weightVout * 4 +
      weightFee + 3) / 4 ≤ (weightFixed + weightVinSingleSig * n + weightVinMultiSig * 0 +
      weightVout * 4 + weightFee + 3) / 4 := by
    unfold weightVinSingleSig
    omega
  rw [Rat.ceil_le_iff]
  refine le_trans (mul_le_mul_of_nonneg_right ?_ (by decide +kernel)) Rat.le_ceil
  exact_mod_cast hsize

/-- What a network fee costs in the asset. -/
def priced (price : ℚ) (networkFee : UInt64) : Nat :=
  (asU64 (Pricing.round (price * networkFee.toNat))).toNat

theorem priced_mono (price : ℚ) {fee fee' : UInt64} (h : fee.toNat ≤ fee'.toNat) :
    priced price fee ≤ priced price fee' := by
  have hcast : (fee.toNat : ℚ) ≤ fee'.toNat := by exact_mod_cast h
  have hzero : (0 : ℚ) ≤ fee.toNat := Nat.cast_nonneg _
  unfold priced
  by_cases hprice : 0 ≤ price
  · exact asU64_mono (round_mono (mul_le_mul_of_nonneg_left hcast hprice))
  · -- a negative price saturates at zero
    have hneg : price * fee.toNat ≤ 0 := mul_nonpos_of_nonpos_of_nonneg (by linarith) hzero
    have hround : Pricing.round (price * fee.toNat) ≤ 0 := round_le_of_le (by exact_mod_cast hneg)
    rw [toNat_asU64]
    omega

theorem toNat_assetFee (fixedFee : UInt64) (price : ℚ) (networkFee : UInt64) :
    (assetFee fixedFee price networkFee).toNat =
      (fixedFee.toNat + priced price networkFee) % 2 ^ 64 := by
  rw [assetFee, UInt64.toNat_add, priced]

theorem priced_lt (price : ℚ) (networkFee : UInt64) : priced price networkFee < 2 ^ 64 :=
  UInt64.toNat_lt _

/-- No more inputs are selected than there are. -/
theorem selectedNetworkFee_le (req : CreatePayjoin) (resp : StartResponse) :
    (selectedNetworkFee req resp).toNat ≤ (maxNetworkFee req resp).toNat := by
  refine expectedNetworkFee_mono ?_
  rw [List.length_append]
  exact Nat.add_le_add (selectUtxos_isPrefix _ _ _).length_le (selectUtxos_isPrefix _ _ _).length_le

/-! ## What is paid -/

/-- The client pays what it is shown: the fee is at most the one shown, the
    recipient gets the amount asked for, less the fee shown if that is to be
    subtracted, and the change is all the rest.  Neither change is computed by
    a subtraction below zero. -/
structure PaysAsShown (req : CreatePayjoin) (resp : StartResponse) {args : ConstructPsetArgs}
    {pset : Pset} (layout : Layout args pset) : Prop where
  fee : layout.fee.amount ≤ maxAssetFee req resp
  recipient : layout.send.amount.toNat +
    (if req.subtractFeeFromAmount then (maxAssetFee req resp).toNat else 0) = req.amount.toNat
  change : (layout.assetChange.map (·.amount.toNat)).sum + layout.send.amount.toNat +
    layout.fee.amount.toNat = total (clientSelected req resp)
  covered : args.sendAmount.toNat + args.assetFee.toNat ≤ args.utxoAssetAmount.toNat
  lbtcCovered : args.networkFee ≤ args.utxoLbtcAmount

/-- The sums of `u64` that `create_payjoin` relies on do not wrap: the fee that
    is shown only if the fee that is paid wraps as well, the client's total not
    at all, and the amount the coins are selected for only if they are enough
    for what is paid all the same. -/
structure Unwrapped (req : CreatePayjoin) (resp : StartResponse) : Prop where
  fee : resp.fixedFee.toNat + priced resp.price (maxNetworkFee req resp) < 2 ^ 64 ∨
    2 ^ 64 ≤ resp.fixedFee.toNat + priced resp.price (selectedNetworkFee req resp)
  coins : total (clientSelected req resp) < 2 ^ 64
  target : (recipientAmount req resp).toNat + (maxAssetFee req resp).toNat < 2 ^ 64 ∨
    (recipientAmount req resp).toNat + (selectedAssetFee req resp).toNat ≤
      total (clientSelected req resp)

/-- The fee that is paid is at most the one shown unless only the latter wraps. -/
theorem selectedAssetFee_le_iff (req : CreatePayjoin) (resp : StartResponse) :
    selectedAssetFee req resp ≤ maxAssetFee req resp ↔
      (resp.fixedFee.toNat + priced resp.price (maxNetworkFee req resp) < 2 ^ 64 ∨
        2 ^ 64 ≤ resp.fixedFee.toNat + priced resp.price (selectedNetworkFee req resp)) := by
  have hmono := priced_mono resp.price (selectedNetworkFee_le req resp)
  have hmax := priced_lt resp.price (maxNetworkFee req resp)
  have hfixed := resp.fixedFee.toNat_lt
  rw [UInt64.le_iff_toNat_le, selectedAssetFee, maxAssetFee, toNat_assetFee, toNat_assetFee]
  omega

/-- The recipient gets what was asked for in any case. -/
theorem recipientAmount_exact {req : CreatePayjoin} {resp : StartResponse}
    (h : req.subtractFeeFromAmount = true → maxAssetFee req resp < req.amount) :
    (recipientAmount req resp).toNat +
      (if req.subtractFeeFromAmount then (maxAssetFee req resp).toNat else 0) =
        req.amount.toNat := by
  unfold recipientAmount
  by_cases hsubtract : req.subtractFeeFromAmount = true
  · have hlt := UInt64.lt_iff_toNat_lt.mp (h hsubtract)
    rw [if_pos hsubtract, if_pos hsubtract,
      UInt64.toNat_sub_of_le _ _ (UInt64.le_of_lt (h hsubtract))]
    omega
  · rw [if_neg hsubtract, if_neg hsubtract, Nat.add_zero]

/-- Enough bitcoin for the larger network fee is enough for the smaller one. -/
theorem Prepared.lbtcCovered {req : CreatePayjoin} {resp : StartResponse}
    {args : ConstructPsetArgs} (h : Prepared req resp args) :
    args.networkFee ≤ args.utxoLbtcAmount := by
  rw [h.networkFee, UInt64.le_iff_toNat_le]
  exact (selectedNetworkFee_le req resp).trans (UInt64.le_iff_toNat_le.mp h.lbtcEnough)

theorem paysAsShown_iff {req : CreatePayjoin} {resp : StartResponse} {args : ConstructPsetArgs}
    {pset : Pset} (hargs : Prepared req resp args) (layout : Layout args pset) :
    PaysAsShown req resp layout ↔ Unwrapped req resp := by
  obtain ⟨_, hsend, _⟩ := psetOutput_ok layout.sendOk
  obtain ⟨_, hfee, _⟩ := psetOutput_ok layout.feeOk
  obtain ⟨_, hchange⟩ := changeOutput_ok layout.assetChangeOk
  have hsend' : layout.send.amount = recipientAmount req resp := hsend.trans hargs.amount
  have hfee' : layout.fee.amount = selectedAssetFee req resp := hfee.trans hargs.assetFee
  have hle := selectedAssetFee_le_iff req resp
  have htotal := hargs.assetTotal
  have hamount : args.sendAmount.toNat = (recipientAmount req resp).toNat :=
    congrArg UInt64.toNat hargs.amount
  have hassetFee : args.assetFee.toNat = (selectedAssetFee req resp).toNat :=
    congrArg UInt64.toNat hargs.assetFee
  -- a change that does not go below zero is what is left of the running total
  have hexact : args.sendAmount.toNat + args.assetFee.toNat ≤ args.utxoAssetAmount.toNat →
      (layout.assetChange.map (·.amount.toNat)).sum =
        args.utxoAssetAmount.toNat - args.sendAmount.toNat - args.assetFee.toNat := by
    intro hcovered
    have hfirst := UInt64.toNat_sub_of_le args.utxoAssetAmount args.sendAmount
      (UInt64.le_iff_toNat_le.mpr (by omega))
    rw [hchange, UInt64.toNat_sub_of_le _ _ (UInt64.le_iff_toNat_le.mpr (by omega)), hfirst]
  constructor
  · rintro ⟨hshown, _, hsum, hcovered, _⟩
    have hexact' := hexact hcovered
    rw [hsend', hfee'] at hsum
    refine ⟨hle.mp (hfee' ▸ hshown), ?_, .inr ?_⟩
    · have := args.utxoAssetAmount.toNat_lt
      omega
    · omega
  · rintro ⟨hunwrapped, hcoins, htarget⟩
    have hshown := hle.mpr hunwrapped
    have hshown' := UInt64.le_iff_toNat_le.mp hshown
    have henough := UInt64.le_iff_toNat_le.mp hargs.assetEnough
    rw [UInt64.toNat_add] at henough
    have hcovered : args.sendAmount.toNat + args.assetFee.toNat ≤ args.utxoAssetAmount.toNat := by
      rcases htarget with htarget | htarget
      · omega
      · omega
    refine ⟨hfee' ▸ hshown, hsend' ▸ recipientAmount_exact hargs.subtract, ?_, hcovered,
      hargs.lbtcCovered⟩
    rw [hexact hcovered, hsend', hfee']
    omega

/-- **THE FEE SHOWN**: a payjoin that is constructed pays what the client is
    shown exactly when the sums it relies on do not wrap. -/
theorem payjoin_pays_as_shown_iff (crypto : Crypto) (shuffleInputs shuffleOutputs : Shuffle)
    {req : CreatePayjoin} {resp : StartResponse} {args : ConstructPsetArgs} {blinded : Pset}
    (hprepare : preparePayjoin req resp = .ok args)
    (hconstruct : constructPset crypto shuffleInputs shuffleOutputs args = .ok blinded) :
    ∃ pset, buildPset args = .ok pset ∧ Nonempty (Layout args pset) ∧
      ∀ layout : Layout args pset, PaysAsShown req resp layout ↔ Unwrapped req resp := by
  obtain ⟨pset, hbuild, _⟩ := bind_returns hconstruct
  exact ⟨pset, hbuild, buildPset_layout hbuild, paysAsShown_iff (preparePayjoin_ok hprepare)⟩

/-- An offer at the price 1. -/
theorem offered_fee_is_paid : ∃ pset,
    ∃ layout : Layout (sampleArgs [sampleUtxo 2 1 10000] 10000) pset,
      PaysAsShown sampleRequest (sampleOffer [sampleUtxo 2 1 10000]) layout := by
  have hprepare : preparePayjoin sampleRequest (sampleOffer [sampleUtxo 2 1 10000]) =
      .ok (sampleArgs [sampleUtxo 2 1 10000] 10000) := by
    decide +kernel
  have hconstruct : (constructPset sampleCrypto unshuffled unshuffled
      (sampleArgs [sampleUtxo 2 1 10000] 10000)).isOk = true := by
    decide +kernel
  obtain ⟨blinded, hblinded⟩ := returns_of_isOk hconstruct
  obtain ⟨pset, _, ⟨layout⟩, hiff⟩ := payjoin_pays_as_shown_iff sampleCrypto unshuffled unshuffled
    hprepare hblinded
  refine ⟨pset, layout, (hiff layout).mpr ⟨.inl ?_, ?_, .inl ?_⟩⟩
  · decide +kernel
  · decide +kernel
  · decide +kernel

/-- A client with one large coin and many small ones. -/
def wealthyRequest : CreatePayjoin :=
  { sampleRequest with
    utxos := sampleUtxo 1 2 (2 ^ 63 - 1) :: (List.range 57).map fun i =>
      sampleUtxo (.ofNat 256 (10 + i)) 2 1 }

/-- A price at which the fee for all inputs saturates. -/
def steepOffer : StartResponse :=
  { sampleOffer [sampleUtxo 2 1 10000] with
    price := 2 ^ 54
    fixedFee := 1 }

def steepArgs : ConstructPsetArgs :=
  { sampleArgs [sampleUtxo 2 1 10000] 10000 with
    selectedUtxos := [sampleUtxo 1 2 (2 ^ 63 - 1), sampleUtxo 2 1 10000]
    fixedFee := 1
    price := 2 ^ 54
    utxoAssetAmount := 2 ^ 63 - 1 }

/-- The fee that is shown wraps to nothing; the fee for the two selected inputs
    is almost the whole coin. -/
theorem fee_shown_as_nothing :
    checkRequest wealthyRequest = .ok () ∧
    preparePayjoin wealthyRequest steepOffer = .ok steepArgs ∧
    maxAssetFee wealthyRequest steepOffer = 0 ∧
    (constructPset sampleCrypto unshuffled unshuffled steepArgs).map
      (fun pset => (pset.outputs.filter (·.scriptPubkey == "fee")).map (·.amount)) =
        .ok [505 * 2 ^ 54 + 1] := by
  refine ⟨by decide +kernel, by decide +kernel, by decide +kernel, by decide +kernel⟩

end Payjoin
