import Mathlib.Tactic

/-! # Wrap-around machine integers

    Rust's `i64` and `u64` in a release build: sums, differences and `as`
    casts reduce modulo `2^64`.  Values are kept as `Int` and `Nat`; the two
    reductions below are applied exactly where the program computes or casts.

    The lemmas say when a reduction does nothing, that it may be pushed through
    sums, and what a wrapped value that is still positive tells us. -/

namespace MachineInt

/-- Reduction of an integer to the `i64` it is stored as. -/
def i64 (x : Int) : Int := x.bmod (2 ^ 64)

/-- Reduction of an integer to the `u64` it is stored as. -/
def u64 (x : Int) : Nat := (x % 2 ^ 64).toNat

/-- The integers an `i64` can hold. -/
def IsI64 (x : Int) : Prop := -2 ^ 63 ≤ x ∧ x < 2 ^ 63

/-- Every reduced value is an `i64`. -/
theorem isI64_i64 (x : Int) : IsI64 (i64 x) := by
  unfold IsI64 i64
  have h1 := Int.le_bmod (x := x) (m := 2 ^ 64) (by norm_num)
  have h2 := Int.bmod_lt (x := x) (m := 2 ^ 64) (by norm_num)
  constructor
  · norm_num at h1 ⊢; omega
  · norm_num at h2 ⊢; omega

/-- Reduction is the identity on `i64` values. -/
theorem i64_of_isI64 {x : Int} (h : IsI64 x) : i64 x = x := by
  obtain ⟨h1, h2⟩ := h
  unfold i64
  refine Int.bmod_eq_of_le ?_ ?_
  · norm_num at h1 ⊢; omega
  · norm_num at h2 ⊢; omega

/-- A positive number that is at most some `i64` is an `i64`. -/
theorem isI64_of_le_i64 {x y : Int} (hpos : 0 < x) (h : x ≤ i64 y) : IsI64 x := by
  have hy := isI64_i64 y
  unfold IsI64 at hy ⊢
  constructor
  · norm_num; omega
  · omega

/-- A number below `2^63` is the same number as `i64`. -/
theorem i64_natCast {n : Nat} (h : n < 2 ^ 63) : i64 n = n := by
  refine i64_of_isI64 ⟨?_, ?_⟩
  · norm_num
  · norm_num at h ⊢; omega

/-- A reduced left operand may be reduced later. -/
theorem i64_i64_sub (x y : Int) : i64 (i64 x - y) = i64 (x - y) := by
  unfold i64; exact Int.bmod_sub_bmod

/-- A reduced right operand may be reduced later. -/
theorem i64_sub_i64 (x y : Int) : i64 (x - i64 y) = i64 (x - y) := by
  unfold i64; exact Int.sub_bmod_bmod

theorem i64_i64_add (x y : Int) : i64 (i64 x + y) = i64 (x + y) := by
  unfold i64; exact Int.bmod_add_bmod

/-- The terms of a sum may be reduced first. -/
theorem i64_sum_map_i64 (l : List Int) : i64 (l.map i64).sum = i64 l.sum := by
  induction l with
  | nil => rfl
  | cons x l ih =>
      rw [List.map_cons, List.sum_cons, List.sum_cons]
      unfold i64 at ih ⊢
      rw [Int.bmod_add_bmod, ← Int.add_bmod_bmod, ih, Int.add_bmod_bmod]

/-- A `u64` cast to `i64` is the number it was reduced from, reduced to `i64`. -/
theorem i64_u64 (x : Int) : i64 (u64 x) = i64 x := by
  unfold i64 u64
  rw [Int.toNat_of_nonneg (Int.emod_nonneg x (by norm_num))]
  exact Int.emod_bmod x (2 ^ 64)

/-- Below `2^64`, a reduced value that is not negative is the value itself. -/
theorem i64_eq_of_nonneg {x : Int} (h : 0 ≤ x) (hlt : x < 2 ^ 64) (hw : 0 ≤ i64 x) :
    i64 x = x := by
  unfold i64 at hw ⊢
  rw [Int.bmod_def] at hw ⊢
  have hx : x % ((2 ^ 64 : Nat) : Int) = x := Int.emod_eq_of_lt h (by norm_num at hlt ⊢; omega)
  rw [hx] at hw ⊢
  split
  · rfl
  · rename_i hc
    rw [if_neg hc] at hw
    norm_num at hw hlt; omega

end MachineInt
