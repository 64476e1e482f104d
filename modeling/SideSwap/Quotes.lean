import SideSwap.Rounding

/-! # Quotes

    The amounts the wallet shows are computed forwards and backwards: what a
    balance can buy against what that costs, what is sent against what is
    received, an amount of bitcoin against its worth in an asset.  Each
    direction rounds once, and the other one undoes it. -/

namespace Pricing

open Api Program MachineInt

/-! ## The server's fee -/

/-- The fee is a thousandth, but not less than the minimum. -/
theorem getServerFee_eq {amount : Int} (h : IsI64 amount) :
    getServerFee amount = max (round (amount / (1000 : Int))) 500 := by
  have hvalue : toBitcoin amount * serverFeeRate * (coin : Int) = amount / (1000 : Int) := by
    unfold toBitcoin serverFeeRate coin
    push_cast
    ring
  obtain ⟨hlow, hhigh⟩ := h
  have hlow' : (-2 ^ 63 : ℚ) ≤ amount := by exact_mod_cast hlow
  have hhigh' : (amount : ℚ) ≤ 2 ^ 63 - 1 := by exact_mod_cast Int.le_sub_one_of_lt hhigh
  have hround : IsI64 (round (amount / (1000 : Int))) :=
    isI64_round_div ⟨hlow, hhigh⟩ (by norm_num)
  show max (Double.fin (toBitcoin amount * serverFeeRate * coin)).roundI64 500 = _
  rw [hvalue, roundI64_fin, clamp_of_isI64 hround]

/-- A part of an amount that is above its minimum, in whole numbers. -/
theorem le_max_round_iff {amount d k : Int} (hd : 0 < d) (hk : 500 < k) :
    k ≤ max (round (amount / d)) 500 ↔ d * (2 * k - 1) ≤ 2 * amount := by
  rw [← le_round_div_iff hd (by omega)]
  constructor
  · intro hle
    exact (le_max_iff.mp hle).resolve_right (by omega)
  · intro hle
    exact le_max_of_le_left hle

theorem le_getServerFee_iff {amount k : Int} (h : IsI64 amount) (hk : 500 < k) :
    k ≤ getServerFee amount ↔ 1000 * (2 * k - 1) ≤ 2 * amount := by
  rw [getServerFee_eq h]
  exact le_max_round_iff (by decide) hk

theorem minServerFee_le (amount : Int) : 500 ≤ getServerFee amount := le_max_right _ _

theorem getServerFee_mono {a b : Int} (ha : IsI64 a) (hb : IsI64 b) (h : a ≤ b) :
    getServerFee a ≤ getServerFee b := by
  have hmin := minServerFee_le b
  by_contra hnot
  have hfee := (le_getServerFee_iff (k := getServerFee a) ha (by omega)).mp le_rfl
  have hother := (le_getServerFee_iff hb (k := getServerFee a) (by omega)).mpr (by omega)
  omega

/-! ## The largest amount a balance pays for -/

/-- `network_fee`: the part of the balance that is kept for the fee. -/
def reservedFee (balance : Int) : Int := max (round (balance / (1001 : Int))) 500

theorem le_reservedFee_iff {balance k : Int} (hk : 500 < k) :
    k ≤ reservedFee balance ↔ 1001 * (2 * k - 1) ≤ 2 * balance :=
  le_max_round_iff (by decide) hk

theorem minServerFee_le_reservedFee (balance : Int) : 500 ≤ reservedFee balance := le_max_right _ _

/-- What `get_max_bitcoin_amount` computes. -/
theorem getMaxBitcoinAmount_eq {balance : Int} (hi64 : IsI64 balance) (h : 2500 ≤ balance) :
    getMaxBitcoinAmount balance =
      .ok (if balance < balance - reservedFee balance + getServerFee (balance - reservedFee balance)
        then balance - reservedFee balance - 1 else balance - reservedFee balance) := by
  have hvalue : toBitcoin balance * (1 - 1 / (1 + serverFeeRate)) * (coin : Int) =
      balance / (1001 : Int) := by
    unfold toBitcoin serverFeeRate coin
    push_cast
    ring
  have hround : IsI64 (round (balance / (1001 : Int))) := isI64_round_div hi64 (by norm_num)
  have hfee : max (fromBitcoin (.fin (toBitcoin balance * (1 - 1 / (1 + serverFeeRate)))))
      minServerFee = reservedFee balance := by
    show max (Double.fin (toBitcoin balance * (1 - 1 / (1 + serverFeeRate)) * coin)).roundI64
      minServerFee = _
    rw [hvalue, roundI64_fin, clamp_of_isI64 hround]
    rfl
  unfold getMaxBitcoinAmount
  rw [if_neg (by omega), if_neg (by unfold minBitcoinAmount minServerFee; omega)]
  dsimp only
  rw [hfee]
  split
  · rfl
  · rfl

/-- What is left of a balance after the fee is reserved. -/
theorem isI64_sub_reservedFee {balance : Int} (hi64 : IsI64 balance) (h : 2500 ≤ balance) :
    IsI64 (balance - reservedFee balance) ∧ 2000 ≤ balance - reservedFee balance := by
  have hmin := minServerFee_le_reservedFee balance
  have hmost : reservedFee balance ≤ balance - 2000 := by
    by_contra hnot
    have hfee := (@le_reservedFee_iff balance (balance - 1999) (by omega)).mp (by omega)
    omega
  unfold IsI64 at hi64 ⊢
  omega

/-- The real fee is the reserved one, give or take a satoshi. -/
theorem getServerFee_near {balance : Int} (hi64 : IsI64 balance) (h : 2500 ≤ balance) :
    reservedFee balance - 1 ≤ getServerFee (balance - reservedFee balance) ∧
      getServerFee (balance - reservedFee balance) ≤ reservedFee balance + 1 := by
  have hmin := minServerFee_le_reservedFee balance
  have hfee := minServerFee_le (balance - reservedFee balance)
  have hamount := (isI64_sub_reservedFee hi64 h).1
  constructor
  · by_contra hnot
    have hreserved := (@le_reservedFee_iff balance (reservedFee balance) (by omega)).mp le_rfl
    have hreach := (le_getServerFee_iff hamount (k := reservedFee balance - 1) (by omega)).mpr
      (by omega)
    omega
  · by_contra hnot
    have hreach := (le_getServerFee_iff hamount (k := reservedFee balance + 2) (by omega)).mp
      (by omega)
    have hnext := mt (@le_reservedFee_iff balance (reservedFee balance + 1) (by omega)).mpr
      (by omega)
    omega

/-- **AFFORDABLE**: the largest amount can be paid for together with its fee,
    and two satoshis more can not. -/
theorem max_amount_affordable (balance : Int) (hi64 : IsI64 balance) :
    (2500 ≤ balance → ∃ amount, getMaxBitcoinAmount balance = .ok amount ∧ 2000 ≤ amount ∧
      amount + getServerFee amount ≤ balance ∧
      ∀ a, amount + 2 ≤ a → balance < a + getServerFee a) ∧
    (0 ≤ balance → balance < 2500 →
      ∃ msg, getMaxBitcoinAmount balance = .error (.error msg)) := by
  constructor
  · intro h
    obtain ⟨hamount, hleast⟩ := isI64_sub_reservedFee hi64 h
    obtain ⟨hlow, hhigh⟩ := getServerFee_near hi64 h
    have hreserved := minServerFee_le_reservedFee balance
    -- an amount above the balance cannot be paid for at all
    have hgrows : ∀ a, balance - reservedFee balance ≤ a → a ≤ balance →
        getServerFee (balance - reservedFee balance) ≤ getServerFee a := by
      intro a hle hmost
      refine getServerFee_mono hamount ?_ hle
      unfold IsI64 at hi64 ⊢
      omega
    rw [getMaxBitcoinAmount_eq hi64 h]
    split
    · next hcostly =>
        -- the fee of the amount is one more than what was reserved
        have hless : IsI64 (balance - reservedFee balance - 1) := by
          unfold IsI64 at hamount ⊢
          omega
        have hfee := getServerFee_mono hless hamount (by omega)
        have hreach := (le_getServerFee_iff hamount (k := 501) (by omega)).mp (by omega)
        refine ⟨_, rfl, by omega, by omega, fun a ha => ?_⟩
        have hmin := minServerFee_le a
        by_cases hmost : a ≤ balance
        · have hgrow := hgrows a (by omega) hmost
          omega
        · omega
    · refine ⟨_, rfl, hleast, by omega, fun a ha => ?_⟩
      have hmin := minServerFee_le a
      by_cases hmost : a ≤ balance
      · have hgrow := hgrows a (by omega) hmost
        omega
      · omega
  · intro hnonneg hlow
    unfold getMaxBitcoinAmount
    rw [if_neg (by omega), if_pos (by unfold minBitcoinAmount minServerFee; omega)]
    exact ⟨_, rfl⟩

theorem max_amount_of_half_million :
    ∃ amount, getMaxBitcoinAmount 501000 = .ok amount ∧ 2000 ≤ amount ∧
      amount + getServerFee amount ≤ 501000 ∧ ∀ a, amount + 2 ≤ a → 501000 < a + getServerFee a :=
  (max_amount_affordable 501000 ⟨by decide, by decide⟩).1 (by decide)

example : getMaxBitcoinAmount 501000 = .ok 500499 := by decide +kernel

/-! ## Peg-outs -/

/-- The amounts `peg_out_amount` computes on the way are all `i64`. -/
structure PegOutFits (amount : Int) (isSendEntered : Bool) (feeRate percent : ℚ) (vsize : Int) :
    Prop where
  entered : IsI64 amount
  fixedFee : IsI64 (round (vsize * feeRate))
  recv : isSendEntered = true → IsI64 (round (amount * (1 - percent / 100))) ∧
    IsI64 (round (amount * (1 - percent / 100)) - round (vsize * feeRate))
  send : isSendEntered = false → IsI64 (amount + round (vsize * feeRate)) ∧
    IsI64 (round ((amount + round (vsize * feeRate) : Int) / (1 - percent / 100)))

section PegOut

variable {amount minAmount vsize sendAmount recvAmount : Int} {feeRate percent : ℚ}

/-- The quote for an amount that is sent. -/
theorem pegOutAmount_send_iff (hfits : PegOutFits amount true feeRate percent vsize) :
    pegOutAmount amount true feeRate minAmount percent vsize = .ok (sendAmount, recvAmount) ↔
      0 < amount ∧ minAmount ≤ sendAmount ∧ 0 < recvAmount ∧ sendAmount = amount ∧
      recvAmount = round (amount * (1 - percent / 100)) - round (vsize * feeRate) := by
  have hrecv : i64 ((Double.fin (amount * (1 - percent / 100))).roundI64 -
      (Double.fin (vsize * feeRate)).roundI64) =
      round (amount * (1 - percent / 100)) - round (vsize * feeRate) := by
    rw [roundI64_fin, roundI64_fin, clamp_of_isI64 hfits.fixedFee,
      clamp_of_isI64 (hfits.recv rfl).1, i64_of_isI64 (hfits.recv rfl).2]
  unfold pegOutAmount
  simp only [check_bind, if_true, hrecv, decide_eq_true_eq]
  constructor
  · rintro ⟨hpos, hmin, hget, hpair⟩
    cases hpair
    exact ⟨hpos, hmin, hget, rfl, rfl⟩
  · rintro ⟨hpos, hmin, hget, rfl, rfl⟩
    exact ⟨hpos, hmin, hget, rfl⟩

/-- The quote for an amount that is received. -/
theorem pegOutAmount_recv_iff (hpercent : percent < 100)
    (hfits : PegOutFits amount false feeRate percent vsize) :
    pegOutAmount amount false feeRate minAmount percent vsize = .ok (sendAmount, recvAmount) ↔
      0 < amount ∧ minAmount ≤ sendAmount ∧ 0 < recvAmount ∧
      sendAmount = round ((amount + round (vsize * feeRate) : Int) / (1 - percent / 100)) ∧
      recvAmount = amount := by
  have hrate : 1 - percent / 100 ≠ 0 := by
    have hpos : 0 < 1 - percent / 100 := by linarith
    exact hpos.ne'
  have hsend : (Double.div (i64 (amount + (Double.fin (vsize * feeRate)).roundI64))
      (1 - percent / 100)).roundI64 =
      round ((amount + round (vsize * feeRate) : Int) / (1 - percent / 100)) := by
    rw [roundI64_fin, clamp_of_isI64 hfits.fixedFee, i64_of_isI64 (hfits.send rfl).1, Double.div,
      if_pos hrate, roundI64_fin, clamp_of_isI64 (hfits.send rfl).2]
  unfold pegOutAmount
  simp only [check_bind, Bool.false_eq_true, if_false, hsend, decide_eq_true_eq]
  constructor
  · rintro ⟨hpos, hmin, hget, hpair⟩
    cases hpair
    exact ⟨hpos, hmin, hget, rfl, rfl⟩
  · rintro ⟨hpos, hmin, hget, rfl, rfl⟩
    exact ⟨hpos, hmin, hget, rfl⟩

/-- Dividing by a rate of at most one and multiplying by it again finds the
    amount. -/
theorem round_mul_of_round_div {x : Int} {rate : ℚ} (hpos : 0 < rate) (hle : rate ≤ 1) :
    round (round (x / rate) * rate) = x := by
  have hk : 1 ≤ rate⁻¹ := (one_le_inv₀ hpos).mpr hle
  have hback := round_div_of_round_mul (x := x) hk
  rwa [div_inv_eq_mul, ← div_eq_mul_inv] at hback

/-- **QUOTES AGREE**: the amount to send that is quoted for an amount to receive
    is itself quoted that amount to receive; and no quote promises more than is
    sent. -/
theorem peg_out_quotes_agree (hzero : 0 ≤ percent) (hpercent : percent < 100)
    (hrate : 0 ≤ feeRate) (hvsize : 0 ≤ vsize) :
    (∀ recv send, PegOutFits recv false feeRate percent vsize →
      pegOutAmount recv false feeRate minAmount percent vsize = .ok (send, recv) →
      pegOutAmount send true feeRate minAmount percent vsize = .ok (send, recv)) ∧
    ∀ amount isSendEntered send recv, PegOutFits amount isSendEntered feeRate percent vsize →
      pegOutAmount amount isSendEntered feeRate minAmount percent vsize = .ok (send, recv) →
      minAmount ≤ send ∧ 0 < recv ∧ recv ≤ send := by
  have hpos : 0 < 1 - percent / 100 := by linarith
  have hle : 1 - percent / 100 ≤ 1 := by linarith
  have hfee : 0 ≤ round (vsize * feeRate) := by
    refine le_round_of_le ?_
    have hcast : (0 : ℚ) ≤ vsize := by exact_mod_cast hvsize
    exact_mod_cast mul_nonneg hcast hrate
  -- more is sent than is received and paid for the transaction
  have hmore : ∀ x : Int, 0 < x → x ≤ round (x / (1 - percent / 100)) := by
    intro x hx
    refine le_round_of_le ?_
    rw [le_div_iff₀ hpos]
    have hcast : (0 : ℚ) < x := by exact_mod_cast hx
    exact mul_le_of_le_one_right hcast.le hle
  constructor
  · intro recv send hfits hquote
    obtain ⟨hrecv, hmin, _, hsend, _⟩ := (pegOutAmount_recv_iff hpercent hfits).mp hquote
    have hback : round (send * (1 - percent / 100)) = recv + round (vsize * feeRate) := by
      rw [hsend]
      exact round_mul_of_round_div hpos hle
    have hleast := hmore (recv + round (vsize * feeRate)) (by omega)
    rw [← hsend] at hleast
    have hfits' : PegOutFits send true feeRate percent vsize := by
      refine ⟨hsend ▸ (hfits.send rfl).2, hfits.fixedFee, fun _ => ?_, nofun⟩
      rw [hback, add_sub_cancel_right]
      exact ⟨(hfits.send rfl).1, hfits.entered⟩
    refine (pegOutAmount_send_iff hfits').mpr ⟨by omega, hmin, hrecv, rfl, ?_⟩
    rw [hback, add_sub_cancel_right]
  · intro amount isSendEntered send recv hfits hquote
    cases isSendEntered with
    | true =>
        obtain ⟨hamount, hmin, hget, rfl, hrecv⟩ := (pegOutAmount_send_iff hfits).mp hquote
        have hcast : (0 : ℚ) < send := by exact_mod_cast hamount
        have hless : round (send * (1 - percent / 100)) ≤ send :=
          round_le_of_le (mul_le_of_le_one_right hcast.le hle)
        exact ⟨hmin, hget, by omega⟩
    | false =>
        obtain ⟨hamount, hmin, hget, hsend, rfl⟩ := (pegOutAmount_recv_iff hpercent hfits).mp hquote
        have hleast := hmore (recv + round (vsize * feeRate)) (by omega)
        exact ⟨hmin, hget, by omega⟩

/-- A receive amount of a hundredth of a bitcoin, with a fee of a tenth of a
    percent. -/
theorem peg_out_quoted_back :
    pegOutAmount 1001201 true 1 100000 (1 / 10) 200 = .ok (1001201, 1000000) := by
  have hfits : PegOutFits 1000000 false 1 (1 / 10) 200 := by
    refine ⟨?_, ?_, nofun, fun _ => ?_⟩ <;> unfold IsI64 <;> decide +kernel
  exact (peg_out_quotes_agree (by norm_num) (by norm_num) (by norm_num) (by norm_num)).1
    1000000 1001201 hfits (by decide +kernel)

end PegOut

/-! ## Prices -/

/-- `pset::get_recv_amount`. -/
def getRecvAmount (clientSendBitcoins : Bool) (sendAmount : Int) (rawPrice : ℚ) (fixedFee : Int) :
    Int :=
  if clientSendBitcoins then (Double.fin (i64 (sendAmount - fixedFee) * rawPrice)).roundI64
  else i64 ((Double.div sendAmount rawPrice).roundI64 - fixedFee)

/-- `pset::get_send_amount`. -/
def getSendAmount (clientSendBitcoins : Bool) (recvAmount : Int) (rawPrice : ℚ) (fixedFee : Int) :
    Int :=
  if clientSendBitcoins then i64 ((Double.div recvAmount rawPrice).roundI64 + fixedFee)
  else (Double.fin (i64 (recvAmount + fixedFee) * rawPrice)).roundI64

/-- How many units of the asset a satoshi is worth. -/
def satoshiWorth (price : ℚ) (precision : Nat) (market : MarketType) : ℚ :=
  if market.pricedInBitcoins then assetScale precision / (coin * price)
  else price * assetScale precision / coin

theorem assetAmount_eq {amount : Int} {price : ℚ} {precision : Nat} {market : MarketType}
    (hprice : 0 < price) :
    assetAmount amount price precision market =
      clamp (round (amount * satoshiWorth price precision market)) := by
  unfold assetAmount satoshiWorth toBitcoin
  cases market.pricedInBitcoins with
  | true =>
      simp only [if_true]
      rw [Double.div, if_pos hprice.ne', Double.scale, roundI64_fin]
      congr 2
      field_simp
  | false =>
      simp only [Bool.false_eq_true, if_false]
      rw [Double.scale, roundI64_fin]
      congr 2
      ring

theorem bitcoinAmount_eq {amount : Int} {price : ℚ} {precision : Nat} {market : MarketType}
    (hprice : 0 < price) :
    bitcoinAmount amount price precision market =
      clamp (round (amount / satoshiWorth price precision market)) := by
  have hscale : assetScale precision ≠ 0 := by
    unfold assetScale
    positivity
  have hcoin : ((coin : Int) : ℚ) ≠ 0 := by
    unfold coin
    norm_num
  unfold bitcoinAmount satoshiWorth assetFloatAmount
  cases market.pricedInBitcoins with
  | true =>
      simp only [if_true]
      rw [fromBitcoin, Double.scale, roundI64_fin]
      congr 2
      field_simp
  | false =>
      simp only [Bool.false_eq_true, if_false]
      rw [fromBitcoin, Double.div, if_pos hprice.ne', Double.scale, roundI64_fin]
      congr 2
      field_simp

/-- The same round trip for an amount that is shifted by a fee, with the shift
    undone afterwards: both wrap around alike. -/
theorem shifted_round_trip_iff {amount fee : Int} {price : ℚ} (hamount : IsI64 amount)
    (hprice : 1 ≤ price) :
    i64 (clamp (round (clamp (round (i64 (amount + fee) * price)) / price)) - fee) = amount ↔
      FitsScaled (i64 (amount + fee)) price := by
  rw [← round_trip_iff hprice]
  have hshift : i64 (i64 (amount + fee) - fee) = amount := by
    rw [i64_i64_sub, add_sub_cancel_right, i64_of_isI64 hamount]
  constructor
  · intro h
    -- two `i64` values that agree after the same shift are equal
    have hsame : i64 (clamp (round (clamp (round (i64 (amount + fee) * price)) / price)) - fee + fee)
        = i64 (amount + fee) := by
      rw [← i64_i64_add, h]
    rw [sub_add_cancel, i64_of_isI64 (isI64_clamp _)] at hsame
    exact hsame
  · intro h
    rw [h, hshift]

/-- **NOTHING LOST** on the side of the bitcoins: a conversion into an asset of
    which a satoshi buys a unit or more, and back, finds the amount exactly when
    the converted amount is at most half a satoshi's worth outside of `i64`. -/
theorem conversions_undone :
    (∀ (amount : Int) (price : ℚ) (precision : Nat) (market : MarketType), 0 < price →
      precision ≤ 8 → 1 ≤ satoshiWorth price precision market →
      (bitcoinAmount (assetAmount amount price precision market) price precision market = amount ↔
        FitsScaled amount (satoshiWorth price precision market))) ∧
    (∀ (amount fixedFee : Int) (rawPrice : ℚ), IsI64 amount → 1 ≤ rawPrice →
      (getSendAmount true (getRecvAmount true amount rawPrice fixedFee) rawPrice fixedFee = amount ↔
        FitsScaled (i64 (amount - fixedFee)) rawPrice)) ∧
    (∀ (amount fixedFee : Int) (rawPrice : ℚ), IsI64 amount → 1 ≤ rawPrice →
      (getRecvAmount false (getSendAmount false amount rawPrice fixedFee) rawPrice fixedFee =
          amount ↔
        FitsScaled (i64 (amount + fixedFee)) rawPrice)) := by
  refine ⟨?_, ?_, ?_⟩
  · intro amount price precision market hprice _ hworth
    rw [bitcoinAmount_eq hprice, assetAmount_eq hprice]
    exact round_trip_iff hworth
  · intro amount fixedFee rawPrice hamount hprice
    have hne : rawPrice ≠ 0 := by linarith
    simp only [getSendAmount, getRecvAmount, if_true, Double.div, if_pos hne, roundI64_fin]
    have htrip := @shifted_round_trip_iff amount (-fixedFee) rawPrice hamount hprice
    rwa [← sub_eq_add_neg, sub_neg_eq_add] at htrip
  · intro amount fixedFee rawPrice hamount hprice
    have hne : rawPrice ≠ 0 := by linarith
    simp only [getSendAmount, getRecvAmount, Bool.false_eq_true, if_false, Double.div, if_pos hne,
      roundI64_fin]
    exact shifted_round_trip_iff hamount hprice

/-- A bitcoin at a usual price, both ways. -/
theorem usual_price_undone :
    bitcoinAmount (assetAmount 100000000 (30000 + 1 / 3) 8 .stablecoin) (30000 + 1 / 3) 8
      .stablecoin = 100000000 := by
  refine (conversions_undone.1 100000000 (30000 + 1 / 3) 8 .stablecoin (by norm_num) le_rfl
    (by decide +kernel)).mpr ⟨?_, ?_⟩ <;> decide +kernel

/-- A bitcoin is worth more than `2^63` units of an asset, and the conversion
    saturates. -/
theorem saturated_price_not_undone :
    1 ≤ satoshiWorth 1000000000000 8 .stablecoin ∧
      bitcoinAmount (assetAmount 100000000 1000000000000 8 .stablecoin) 1000000000000 8
        .stablecoin ≠ 100000000 := by
  refine ⟨?_, ?_⟩ <;> decide +kernel

end Pricing
