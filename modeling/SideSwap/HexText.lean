import Mathlib.Tactic

/-! # Numbers written in hexadecimal

    A number of `k` hex digits as text, most significant digit first and in
    lower case, and the reader that takes both cases.  What is printed is read
    back (`parse_print`); upper-case text is read too, so the converse fails. -/

namespace HexText

/-- The lower-case digit of a value below 16. -/
def digit (d : Nat) : Char := if d < 10 then Char.ofNat (48 + d) else Char.ofNat (87 + d)

/-- The value of a hex digit of either case. -/
def value (c : Char) : Option Nat :=
  if '0' ≤ c ∧ c ≤ '9' then some (c.toNat - 48)
  else if 'a' ≤ c ∧ c ≤ 'f' then some (c.toNat - 87)
  else if 'A' ≤ c ∧ c ≤ 'F' then some (c.toNat - 55)
  else none

/-- The `k` low hex digits of a number, the lowest first. -/
def digits : Nat → Nat → List Nat
  | 0, _ => []
  | k + 1, n => n % 16 :: digits k (n / 16)

/-- The number a list of digits stands for, the lowest first. -/
def number : List Nat → Nat
  | [] => 0
  | d :: ds => d + 16 * number ds

/-- The `k`-digit text of a number. -/
def print (k n : Nat) : List Char := ((digits k n).map digit).reverse

/-- The number a `k`-digit text stands for. -/
def parse (k : Nat) (text : List Char) : Option Nat :=
  if text.length = k then (text.reverse.mapM value).map number else none

@[simp] theorem length_digits (k n : Nat) : (digits k n).length = k := by
  induction k generalizing n with
  | zero => rfl
  | succ k ih => rw [digits, List.length_cons, ih]

theorem value_digit {d : Nat} (h : d < 16) : value (digit d) = some d := by
  interval_cases d <;> decide

/-- Reading the digits of a number one by one gives the digits. -/
theorem mapM_value_digits (k n : Nat) : ((digits k n).map digit).mapM value = some (digits k n) := by
  induction k generalizing n with
  | zero => rfl
  | succ k ih =>
      rw [digits, List.map_cons, List.mapM_cons, value_digit (Nat.mod_lt n (by decide)), ih]
      rfl

/-- The low digits of a number stand for the number below `16 ^ k`. -/
theorem number_digits (k n : Nat) : number (digits k n) = n % 16 ^ k := by
  induction k generalizing n with
  | zero => rw [digits, number, pow_zero, Nat.mod_one]
  | succ k ih =>
      rw [digits, number, ih, pow_succ', Nat.mod_mul]

/-- **ROUND TRIP**: a number that fits is read back from its text. -/
theorem parse_print {k n : Nat} (h : n < 16 ^ k) : parse k (print k n) = some n := by
  unfold parse print
  rw [if_pos (by simp), List.reverse_reverse, mapM_value_digits, Option.map_some, number_digits,
    Nat.mod_eq_of_lt h]

end HexText
