import SideSwap.HedgedSwaps
import SideSwap.Rounding

/-! # What is left of a hedge

    A swap changes the dealer's bitcoins, and its order on the exchange changes
    them back.  A buy loses the fee of the exchange, which its amount makes up
    for, up to half a satoshi; a swap that is too small for an order stays as it
    is.  Over a whole run these remainders add up, and nothing else does. -/

namespace Exchange

open Api Program Pricing Transition MachineInt
open OrderDealer (DealerTicker PricePair UnspentItem Utxos PsetSlot To From SwapSucceed)

/-- What a swap changes. -/
def Hedge.change (h : Hedge) : ℚ :=
  if h.sendBitcoins then -toBitcoin h.bitcoinAmount else toBitcoin h.bitcoinAmount

/-- What an order changes when it is filled: the fee is taken from what is bought. -/
def Args.filled (args : Args) (amount : ℚ) : ℚ :=
  if 0 < amount then amount * (1 - args.bitfinexFee) else amount

/-- The bitcoins of the swaps and of the orders together. -/
def Account.exposure (args : Args) (a : Account) : ℚ :=
  (a.hedges.map Hedge.change).sum + (a.submits.map fun order => args.filled order.1).sum

/-- What a swap and its order may leave. -/
def Hedge.remainder (h : Hedge) : ℚ :=
  if h.isBig then if h.sendBitcoins then 1 / 2 / coin else 0 else |toBitcoin h.bitcoinAmount|

/-- The satoshis that there are. -/
def maxMoney : Int := 21000000 * coin

section Exposure

variable {args : Args}

theorem fee_pos (args : Args) : 0 < args.bitfinexFee := by
  simp only [Args.bitfinexFee, bitfinexFeeProd, bitfinexFeeTest]
  split
  · norm_num
  · norm_num

theorem fee_le (args : Args) : args.bitfinexFee ≤ 2 / 1000 := by
  simp only [Args.bitfinexFee, bitfinexFeeProd, bitfinexFeeTest]
  split
  · norm_num
  · norm_num

theorem Hedge.isBig_pos {h : Hedge} (hbig : h.isBig = true) : 0 < toBitcoin h.bitcoinAmount := by
  have hmin : minHedgeAmount ≤ toBitcoin h.bitcoinAmount := of_decide_eq_true hbig
  have hpos : (0 : ℚ) < minHedgeAmount := by
    norm_num [minHedgeAmount]
  exact hpos.trans_le hmin

/-- The satoshis that are bought for a swap. -/
theorem signedBitcoinAmount_send {amount : Int} (hpos : 0 < amount) (hmax : amount ≤ maxMoney) :
    args.signedBitcoinAmount amount true = toBitcoin (Pricing.round (amount / (1 - args.bitfinexFee))) := by
  have hfee := fee_le args
  have hfee' := fee_pos args
  have hscale : toBitcoin amount / (1 - args.bitfinexFee) * coin = amount / (1 - args.bitfinexFee) := by
    have hcoin := coin_pos.ne'
    simp only [toBitcoin]
    field_simp
  simp only [Args.signedBitcoinAmount, if_true, fromBitcoin, Double.scale, roundI64_fin]
  rw [hscale, clamp_of_isI64]
  have hle : (amount : ℚ) / (1 - args.bitfinexFee) ≤ (2 * amount : Int) := by
    rw [div_le_iff₀ (by linarith)]
    have hamount : (0 : ℚ) < amount := by exact_mod_cast hpos
    push_cast
    nlinarith
  have hnonneg : ((0 : Int) : ℚ) ≤ amount / (1 - args.bitfinexFee) := by
    have hamount : (0 : ℚ) < amount := by exact_mod_cast hpos
    push_cast
    exact div_nonneg hamount.le (by linarith)
  have hupper := round_le_of_le hle
  have hlower := le_round_of_le hnonneg
  simp only [maxMoney, coin] at hmax
  constructor
  · omega
  · omega

/-- **ONE HEDGE**: what a swap and its order leave. -/
theorem hedge_remainder {h : Hedge} {order : ℚ × String} (hhedges : Hedges args h order)
    (hbig : h.isBig = true) (hmax : h.bitcoinAmount ≤ maxMoney) :
    |h.change + args.filled order.1| ≤ h.remainder := by
  have hpos := h.isBig_pos hbig
  have hamount := toBitcoin_pos.mp hpos
  simp only [Hedge.change, Hedge.remainder, hbig, if_true]
  rw [hhedges.amount]
  cases hsend : h.sendBitcoins with
  | false =>
      simp only [Args.signedBitcoinAmount, Args.filled, Bool.false_eq_true, if_false]
      rw [if_neg (by linarith), add_neg_cancel, abs_zero]
  | true =>
      simp only [if_true]
      rw [signedBitcoinAmount_send hamount hmax]
      have hfee := fee_le args
      have hfee' := fee_pos args
      set x : ℚ := h.bitcoinAmount / (1 - args.bitfinexFee) with hx
      have hone : (0 : ℚ) < 1 - args.bitfinexFee := by linarith
      have hxge : (h.bitcoinAmount : ℚ) ≤ x := by
        rw [hx, le_div_iff₀ hone]
        have hcast : (0 : ℚ) < h.bitcoinAmount := by exact_mod_cast hamount
        nlinarith
      have hround : 0 < Pricing.round x := hamount.trans_le (le_round_of_le hxge)
      have hcoin := coin_pos
      have hup := Pricing.round_le_add_half x
      have hdown := Pricing.sub_half_le_round x
      rw [Args.filled, if_pos (toBitcoin_pos.mpr hround)]
      have hsum : -toBitcoin h.bitcoinAmount + toBitcoin (Pricing.round x) * (1 - args.bitfinexFee) =
          (Pricing.round x - x) * (1 - args.bitfinexFee) / coin := by
        simp only [toBitcoin]
        rw [hx]
        field_simp
        ring
      rw [hsum, abs_div, abs_of_pos hcoin, abs_mul, abs_of_pos hone]
      have hdiff : |(Pricing.round x : ℚ) - x| ≤ 1 / 2 := abs_le.mpr ⟨by linarith, by linarith⟩
      gcongr
      calc |(Pricing.round x : ℚ) - x| * (1 - args.bitfinexFee) ≤ 1 / 2 * 1 :=
            mul_le_mul hdiff (by linarith) hone.le (by norm_num)
        _ = 1 / 2 := mul_one _

/-- **ALL HEDGES**: what is left adds up. -/
theorem exposure_le : ∀ {hedges : List Hedge} {submits : List (ℚ × String)},
    List.Forall₂ (Hedges args) (hedges.filter Hedge.isBig) submits →
    (∀ h ∈ hedges, h.bitcoinAmount ≤ maxMoney) →
    |(hedges.map Hedge.change).sum + (submits.map fun order => args.filled order.1).sum| ≤
      (hedges.map Hedge.remainder).sum
  | [], submits, hall, _ => by
      cases hall
      simp
  | h :: hedges, submits, hall, hmax => by
      have hmax' : ∀ h ∈ hedges, h.bitcoinAmount ≤ maxMoney := fun h' hmem =>
        hmax h' (List.mem_cons_of_mem h hmem)
      cases hbig : h.isBig with
      | false =>
          rw [List.filter_cons_of_neg (by simp [hbig])] at hall
          have ih := exposure_le hall hmax'
          have hone : |h.change| = h.remainder := by
            simp only [Hedge.change, Hedge.remainder, hbig, Bool.false_eq_true, if_false]
            split
            · exact abs_neg _
            · rfl
          simp only [List.map_cons, List.sum_cons]
          rw [add_assoc, ← hone]
          exact (abs_add_le _ _).trans (add_le_add_right ih _)
      | true =>
          rw [List.filter_cons_of_pos hbig] at hall
          cases hall with
          | @cons _ order _ submits hhedges hall =>
              have ih := exposure_le hall hmax'
              have hone := hedge_remainder hhedges hbig (hmax h List.mem_cons_self)
              simp only [List.map_cons, List.sum_cons]
              calc |h.change + (hedges.map Hedge.change).sum + (args.filled order.1 +
                    (submits.map fun order => args.filled order.1).sum)|
                  = |h.change + args.filled order.1 + ((hedges.map Hedge.change).sum +
                    (submits.map fun order => args.filled order.1).sum)| := by
                      congr 1
                      ring
                _ ≤ |h.change + args.filled order.1| + |(hedges.map Hedge.change).sum +
                    (submits.map fun order => args.filled order.1).sum| := abs_add_le _ _
                _ ≤ h.remainder + (hedges.map Hedge.remainder).sum := add_le_add hone ih

/-- **THE EXPOSURE IS BOUNDED**: while the process runs, its swaps and their orders have
    changed the dealer's bitcoins by no more than half a satoshi for each amount that was
    bought and the small swaps, which are not hedged. -/
theorem exposure_bounded {world : World} {s : System} (h : Reaches world args s)
    (hrun : s.stopped = false)
    (hmax : ∀ hedge ∈ (account args s.data.log).hedges, hedge.bitcoinAmount ≤ maxMoney) :
    |(account args s.data.log).exposure args| ≤
      ((account args s.data.log).hedges.map Hedge.remainder).sum :=
  exposure_le ((reaches_sound h).tables hrun).hedged hmax

end Exposure

/-- One amount was bought, and one swap was too small. -/
theorem instant_swap_exposure :
    let s := run (step Sample.world Sample.args) (first Sample.world) Sample.inputs
    ((account Sample.args s.data.log).hedges.map Hedge.remainder).sum = 20001 / 200000000 ∧
      |(account Sample.args s.data.log).exposure Sample.args| ≤
        ((account Sample.args s.data.log).hedges.map Hedge.remainder).sum := by
  have hstart : Reaches Sample.world Sample.args (first Sample.world) := .start rfl
  refine ⟨by decide +kernel, exposure_bounded (hstart.run Sample.inputs ?_) ?_ ?_⟩
  · decide +kernel
  · decide +kernel
  · decide +kernel

end Exchange
