import SideSwap.Pricing

/-! # Rounding

    `f64::round` takes halves away from zero.  Whether a rounded value reaches
    an integer is decided half a unit below that integer: at the half itself
    above zero, past it below.  All bounds follow from these two equivalences,
    and an `as i64` changes nothing while the rounded value is an `i64`.

    Amounts are rounded as satoshis and compared as bitcoins, which is the same. -/

namespace Pricing

open MachineInt

/-! ## Satoshis and bitcoins -/

theorem coin_pos : (0 : ℚ) < coin := by
  unfold coin
  norm_num

theorem toBitcoin_le_iff {m n : Int} : toBitcoin m ≤ toBitcoin n ↔ m ≤ n := by
  unfold toBitcoin
  rw [div_le_div_iff_of_pos_right coin_pos, Int.cast_le]

@[simp] theorem toBitcoin_zero : toBitcoin 0 = 0 := zero_div _

theorem toBitcoin_nonneg {n : Int} : 0 ≤ toBitcoin n ↔ 0 ≤ n := by
  rw [← toBitcoin_zero, toBitcoin_le_iff]

theorem toBitcoin_pos {n : Int} : 0 < toBitcoin n ↔ 0 < n := by
  rw [← toBitcoin_zero, ← not_le, toBitcoin_le_iff, not_le]

theorem toBitcoin_injective {m n : Int} (h : toBitcoin m = toBitcoin n) : m = n :=
  le_antisymm (toBitcoin_le_iff.mp h.le) (toBitcoin_le_iff.mp h.ge)

theorem toBitcoin_add (m n : Int) : toBitcoin m + toBitcoin n = toBitcoin (m + n) := by
  unfold toBitcoin
  push_cast
  ring

theorem toBitcoin_sub (m n : Int) : toBitcoin m - toBitcoin n = toBitcoin (m - n) := by
  unfold toBitcoin
  push_cast
  ring

/-! ## The two thresholds -/

/-- A positive integer is reached from its lower half on. -/
theorem le_round_iff_of_pos {q : ℚ} {n : Int} (hn : 0 < n) : n ≤ round q ↔ n - 1 / 2 ≤ q := by
  have hcast : (1 : ℚ) ≤ n := by exact_mod_cast hn
  unfold round
  split
  · rw [Rat.le_floor_iff, sub_le_iff_le_add]
  · next hq =>
      have hceil : (q - 1 / 2).ceil ≤ 0 := by
        rw [Rat.ceil_le_iff]
        push_cast
        linarith
      constructor
      · intro h
        omega
      · intro h
        linarith

/-- Any other integer is reached above its lower half. -/
theorem le_round_iff_of_nonpos {q : ℚ} {n : Int} (hn : n ≤ 0) : n ≤ round q ↔ n - 1 / 2 < q := by
  have hcast : (n : ℚ) ≤ 0 := by exact_mod_cast hn
  unfold round
  split
  · next hq =>
      have hfloor : 0 ≤ (q + 1 / 2).floor := by
        rw [Rat.le_floor_iff]
        push_cast
        linarith
      constructor
      · intro _
        linarith
      · intro _
        omega
  · rw [← Int.sub_one_lt_iff, Rat.lt_ceil_iff]
    push_cast
    constructor
    · intro h
      linarith
    · intro h
      linarith

/-! ## Bounds -/

/-- **THE ERROR** of rounding is at most a half. -/
theorem sub_half_le_of_le_round {q : ℚ} {n : Int} (h : n ≤ round q) : n - 1 / 2 ≤ q := by
  rcases lt_or_ge 0 n with hpos | hneg
  · exact (le_round_iff_of_pos hpos).mp h
  · exact ((le_round_iff_of_nonpos hneg).mp h).le

theorem le_round_of_sub_half_lt {q : ℚ} {n : Int} (h : n - 1 / 2 < q) : n ≤ round q := by
  rcases lt_or_ge 0 n with hpos | hneg
  · exact (le_round_iff_of_pos hpos).mpr h.le
  · exact (le_round_iff_of_nonpos hneg).mpr h

theorem round_le_add_half (q : ℚ) : round q ≤ q + 1 / 2 := by
  have h := sub_half_le_of_le_round (le_refl (round q))
  linarith

theorem sub_half_le_round (q : ℚ) : q - 1 / 2 ≤ round q := by
  by_contra h
  have hnext : round q + 1 ≤ round q := by
    refine le_round_of_sub_half_lt ?_
    push_cast
    linarith
  omega

@[simp] theorem round_intCast (n : Int) : round n = n := by
  have hlow := round_le_add_half n
  have hhigh := sub_half_le_round n
  refine le_antisymm ?_ (le_round_of_sub_half_lt (by linarith))
  have hlt : (round n : ℚ) < n + 1 := by linarith
  have hlt' : round n < n + 1 := by exact_mod_cast hlt
  omega

theorem round_mono {p q : ℚ} (h : p ≤ q) : round p ≤ round q := by
  rcases lt_or_ge 0 (round p) with hpos | hneg
  · exact (le_round_iff_of_pos hpos).mpr (((le_round_iff_of_pos hpos).mp le_rfl).trans h)
  · exact (le_round_iff_of_nonpos hneg).mpr
      (lt_of_lt_of_le ((le_round_iff_of_nonpos hneg).mp le_rfl) h)

/-- A value less than a half away from an integer is rounded to it. -/
theorem round_eq_of_abs_lt {q : ℚ} {n : Int} (h : |q - n| < 1 / 2) : round q = n := by
  obtain ⟨hlow, hhigh⟩ := abs_lt.mp h
  refine le_antisymm ?_ (le_round_of_sub_half_lt (by linarith))
  by_contra hnot
  have hnext : ((n + 1 : Int) : ℚ) - 1 / 2 ≤ q := sub_half_le_of_le_round (by omega)
  push_cast at hnext
  linarith

/-- Rounding is the same on both sides of zero. -/
theorem round_neg (q : ℚ) : round (-q) = -round q := by
  unfold round
  rcases lt_trichotomy q 0 with hneg | rfl | hpos
  · rw [if_pos (by linarith), if_neg (by linarith), Rat.ceil_eq_neg_floor_neg, neg_neg]
    congr 1
    ring
  · decide +kernel
  · rw [if_neg (by linarith), if_pos hpos.le, Rat.ceil_eq_neg_floor_neg]
    congr 2
    ring

theorem round_le_of_le {q : ℚ} {n : Int} (h : q ≤ n) : round q ≤ n := by
  have hround := round_mono h
  rwa [round_intCast] at hround

theorem le_round_of_le {q : ℚ} {n : Int} (h : (n : ℚ) ≤ q) : n ≤ round q := by
  have hround := round_mono h
  rwa [round_intCast] at hround

/-- In whole numbers: when a rounded quotient reaches a positive integer. -/
theorem le_round_div_iff {x d k : Int} (hd : 0 < d) (hk : 0 < k) :
    k ≤ round (x / d) ↔ d * (2 * k - 1) ≤ 2 * x := by
  have hpos : (0 : ℚ) < d := by exact_mod_cast hd
  rw [le_round_iff_of_pos hk, le_div_iff₀ hpos]
  constructor
  · intro h
    have hcast : ((d * (2 * k - 1) : Int) : ℚ) ≤ ((2 * x : Int) : ℚ) := by
      push_cast
      linarith
    exact_mod_cast hcast
  · intro h
    have hcast : ((d * (2 * k - 1) : Int) : ℚ) ≤ ((2 * x : Int) : ℚ) := by exact_mod_cast h
    push_cast at hcast
    linarith

theorem round_half {x : Int} (h : 0 ≤ x) : round (x / (2 : Int)) = (x + 1) / 2 := by
  refine le_antisymm ?_ ?_
  · rcases lt_or_ge 0 (round (x / (2 : Int))) with hpos | hneg
    · have hle := (le_round_div_iff (x := x) (by decide) hpos).mp le_rfl
      omega
    · omega
  · rcases lt_or_ge 0 ((x + 1) / 2) with hpos | hneg
    · refine (le_round_div_iff (by decide) hpos).mpr ?_
      omega
    · refine le_trans hneg (le_round_of_le ?_)
      have hcast : (0 : ℚ) ≤ x := by exact_mod_cast h
      push_cast
      positivity

/-! ## `as i64` -/

/-- The `i64` closest to an integer. -/
def clamp (x : Int) : Int := max (-2 ^ 63) (min x (2 ^ 63 - 1))

theorem roundI64_fin (q : ℚ) : (Double.fin q).roundI64 = clamp (round q) := rfl

theorem clamp_of_isI64 {x : Int} (h : IsI64 x) : clamp x = x := by
  obtain ⟨hlow, hhigh⟩ := h
  unfold clamp
  omega

theorem isI64_clamp (x : Int) : IsI64 (clamp x) := by
  unfold IsI64 clamp
  omega

/-- What fits half a unit of `k` beside the `i64` range, counted in `k`. -/
structure FitsScaled (x : Int) (k : ℚ) : Prop where
  low : -2 ^ 63 ≤ x * k + k / 2
  high : x * k - k / 2 ≤ 2 ^ 63 - 1

/-- A value rounded after scaling is found again by scaling back. -/
theorem round_div_of_round_mul {x : Int} {k : ℚ} (hk : 1 ≤ k) :
    round (round (x * k) / k) = x := by
  rcases hk.eq_or_lt with rfl | hlt
  · rw [mul_one, round_intCast, div_one, round_intCast]
  · have hpos : 0 < k := by linarith
    have hlow := sub_half_le_round (x * k)
    have hhigh := round_le_add_half (x * k)
    refine round_eq_of_abs_lt (abs_lt.mpr ⟨?_, ?_⟩)
    · rw [neg_lt_sub_iff_lt_add, ← sub_lt_iff_lt_add', lt_div_iff₀ hpos]
      linarith
    · rw [sub_lt_iff_lt_add', div_lt_iff₀ hpos]
      linarith

/-- A scaled value that was cut off at `m`. -/
theorem round_div_of_cut {x m : Int} {k : ℚ} (hx : 0 < x) (hk : 1 ≤ k) (hcut : m + 1 ≤ round (x * k)) :
    round (m / k) = x ↔ x * k - k / 2 ≤ m := by
  have hpos : 0 < k := by linarith
  have hmore : m + 1 - 1 / 2 ≤ x * k := by exact_mod_cast sub_half_le_of_le_round hcut
  have hreach : x ≤ round (m / k) ↔ x * k - k / 2 ≤ m := by
    rw [le_round_iff_of_pos hx, le_div_iff₀ hpos]
    constructor <;> intro h <;> linarith
  constructor
  · intro heq
    exact hreach.mp heq.ge
  · intro h
    refine le_antisymm ?_ (hreach.mpr h)
    by_contra hnot
    have hnext : ((x + 1 : Int) : ℚ) - 1 / 2 ≤ m / k := sub_half_le_of_le_round (by omega)
    rw [le_div_iff₀ hpos] at hnext
    push_cast at hnext
    linarith

/-- Rounding after scaling keeps the sign. -/
theorem pos_of_pos_round {x : Int} {k : ℚ} (hk : 0 < k) (h : 0 < round (x * k)) : 0 < x := by
  by_contra hneg
  have hcast : (x : ℚ) ≤ 0 := by exact_mod_cast not_lt.mp hneg
  have hround : round (x * k) ≤ 0 :=
    round_le_of_le (by exact_mod_cast mul_nonpos_of_nonpos_of_nonneg hcast hk.le)
  omega

/-- Scaling down keeps an `i64` an `i64`. -/
theorem isI64_round_div {y : Int} {k : ℚ} (hy : IsI64 y) (hk : 1 ≤ k) : IsI64 (round (y / k)) := by
  have hpos : 0 < k := by linarith
  obtain ⟨hlow, hhigh⟩ := hy
  have hlow' : (-2 ^ 63 : ℚ) ≤ y := by exact_mod_cast hlow
  have hhigh' : (y : ℚ) ≤ 2 ^ 63 - 1 := by exact_mod_cast Int.le_sub_one_of_lt hhigh
  refine ⟨le_round_of_le ?_, Int.lt_of_le_sub_one (round_le_of_le ?_)⟩
  · rw [le_div_iff₀ hpos]
    push_cast
    linarith
  · rw [div_le_iff₀ hpos]
    push_cast
    linarith

/-- Nothing is cut off. -/
theorem FitsScaled.of_isI64 {x : Int} {k : ℚ} (hk : 1 ≤ k) (h : IsI64 (round (x * k))) :
    FitsScaled x k := by
  have hlow := round_le_add_half (x * k)
  have hhigh := sub_half_le_round (x * k)
  obtain ⟨hmin, hmax⟩ := h
  have hmin' : (-2 ^ 63 : ℚ) ≤ round (x * k) := by exact_mod_cast hmin
  have hmax' : (round (x * k) : ℚ) ≤ 2 ^ 63 - 1 := by exact_mod_cast Int.le_sub_one_of_lt hmax
  constructor <;> linarith

/-- **THERE AND BACK**: an integer that is scaled up by at least one and
    rounded is found again exactly when it fits. -/
theorem round_trip_iff {x : Int} {k : ℚ} (hk : 1 ≤ k) :
    clamp (round (clamp (round (x * k)) / k)) = x ↔ FitsScaled x k := by
  have hpos : 0 < k := by linarith
  rw [clamp_of_isI64 (isI64_round_div (isI64_clamp _) hk)]
  rcases lt_or_ge (2 ^ 63 - 1) (round (x * k)) with hover | hle
  · -- cut off at the upper end
    have hx0 : 0 < x := pos_of_pos_round hpos (by omega)
    have hcast : (0 : ℚ) < x := by exact_mod_cast hx0
    have hclamp : clamp (round (x * k)) = 2 ^ 63 - 1 := by
      unfold clamp
      omega
    rw [hclamp, round_div_of_cut hx0 hk (by omega)]
    push_cast
    have hmul : 0 < x * k := mul_pos hcast hpos
    constructor
    · intro h
      exact ⟨by linarith, by linarith⟩
    · intro h
      have hhigh := h.high
      linarith
  · rcases lt_or_ge (round (x * k)) (-2 ^ 63) with hunder | hge
    · -- cut off at the lower end, which is the upper one of `-x`
      have hclamp : clamp (round (x * k)) = -2 ^ 63 := by
        unfold clamp
        omega
      have hround : round (((-x : Int) : ℚ) * k) = -round (x * k) := by
        rw [← round_neg]
        push_cast
        rw [neg_mul]
      have hx0 : 0 < -x := pos_of_pos_round hpos (by omega)
      have hcast : (x : ℚ) < 0 := by exact_mod_cast (show x < 0 by omega)
      have hcut := round_div_of_cut (m := 2 ^ 63) hx0 hk (by omega)
      have hflip : round (((-2 ^ 63 : Int) : ℚ) / k) = -round (((2 ^ 63 : Int) : ℚ) / k) := by
        rw [← round_neg]
        push_cast
        rw [neg_div]
      rw [hclamp, hflip, neg_eq_iff_eq_neg, hcut]
      push_cast
      have hmul : x * k < 0 := mul_neg_of_neg_of_pos hcast hpos
      constructor
      · intro h
        exact ⟨by linarith, by linarith⟩
      · intro h
        have hlow := h.low
        linarith
    · -- not cut off at all
      have hi64 : IsI64 (round (x * k)) := ⟨hge, by omega⟩
      rw [clamp_of_isI64 hi64, round_div_of_round_mul hk]
      exact iff_of_true rfl (.of_isI64 hk hi64)

end Pricing
