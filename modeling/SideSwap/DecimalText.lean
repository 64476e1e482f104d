import Mathlib.Data.Rat.Floor
import Mathlib.Tactic
import SideSwap.MachineInt
import SideSwap.HexText
import SideSwap.DartText

/-! # Numbers written in decimal

    The text of a whole number, the text of a number with a fixed number of
    decimals, and `decimalValue`, the number that a text denotes: a sign, digits
    with at most one dot among them, and an exponent, where sign, dot and
    exponent may be missing.  The two printed forms denote the number they were
    printed from (`unsignedValue_digits`, `unsignedValue_fixedText`), and a whole
    number is read back from its text (`intTryParse_intText`). -/

namespace DecimalText

open MachineInt DartText

/-- The digits of a natural number. -/
def digits (n : Nat) : List Char := Nat.toDigits 10 n

/-- A whole number as text. -/
def intText (n : Int) : List Char := if n < 0 then '-' :: digits n.natAbs else digits n.natAbs

/-- The text of `n / 10 ^ p` with `p` decimals. -/
def fixedText (n p : Nat) : List Char :=
  digits (n / 10 ^ p) ++ '.' :: (digits (n % 10 ^ p)).leftpad p '0'

/-- The number that a list of digits stands for. -/
def value (ds : List Char) : Nat := Nat.ofDigitChars 10 ds 0

/-- Whether there is a minus sign, and what follows the sign. -/
def readSign : List Char → Bool × List Char
  | '-' :: s => (true, s)
  | '+' :: s => (false, s)
  | s => (false, s)

/-- A signed number as its sign and its absolute value. -/
def applySign (negative : Bool) (x : ℚ) : ℚ := if negative then -x else x

/-- The digits behind the dot, if there is one, and what follows them. -/
def readFraction : List Char → List Char × List Char
  | '.' :: s => (s.takeWhile Char.isDigit, s.dropWhile Char.isDigit)
  | s => ([], s)

/-- The exponent at the end of a number; a missing one is zero. -/
def readExponent : List Char → Option Int
  | [] => some 0
  | c :: s =>
      let (negative, ds) := readSign s
      if (c = 'e' ∨ c = 'E') ∧ ds ≠ [] ∧ ds.all Char.isDigit then
        some (if negative then -(value ds : Int) else value ds)
      else none

/-- The number an unsigned text denotes. -/
def unsignedValue (s : List Char) : Option ℚ :=
  let whole := s.takeWhile Char.isDigit
  let (fraction, rest) := readFraction (s.dropWhile Char.isDigit)
  if whole ++ fraction = [] then none
  else (readExponent rest).map fun e =>
    (value (whole ++ fraction) : ℚ) / 10 ^ fraction.length * (10 : ℚ) ^ e

/-- The number a text denotes, if it denotes one. -/
def decimalValue (text : List Char) : Option ℚ :=
  let (negative, s) := readSign text
  (unsignedValue s).map (applySign negative)

/-- The number that a list of hex digits stands for. -/
def hexNumber (ds : List Char) : Nat :=
  ds.foldl (fun n c => 16 * n + (HexText.value c).getD 0) 0

/-- `int.tryParse`: a sign and decimal digits that make a 64-bit number, or up to
    64 bits in hexadecimal, with white space around. -/
def intTryParse (text : List Char) : Option Int :=
  let (negative, ds) := readSign (trim text)
  let hex := ds.drop 2
  if ds.take 2 = ['0', 'x'] ∨ ds.take 2 = ['0', 'X'] then
    if hex ≠ [] ∧ hex.all (fun c => (HexText.value c).isSome) ∧ hexNumber hex < 2 ^ 64 then
      some (i64 (if negative then -(hexNumber hex : Int) else hexNumber hex))
    else none
  else if ds ≠ [] ∧ ds.all Char.isDigit then
    let n : Int := if negative then -(value ds : Int) else value ds
    if -2 ^ 63 ≤ n ∧ n < 2 ^ 63 then some n else none
  else none

/-! ## Digits -/

theorem isDigit_digits {n : Nat} {c : Char} (h : c ∈ digits n) : c.isDigit = true :=
  Nat.isDigit_of_mem_toDigits (by decide) (by decide) h

theorem digits_ne_nil (n : Nat) : digits n ≠ [] := Nat.toDigits_ne_nil

@[simp] theorem value_digits (n : Nat) : value (digits n) = n := Nat.ofDigitChars_ten_toDigits

/-- Digits set behind others shift these. -/
theorem value_append (a b : List Char) : value (a ++ b) = value a * 10 ^ b.length + value b := by
  unfold value
  rw [Nat.ofDigitChars_append, Nat.ofDigitChars_eq_ofDigitChars_zero, Nat.mul_comm]

/-- Leading zeros do not count. -/
theorem value_leftpad (p : Nat) (ds : List Char) : value (ds.leftpad p '0') = value ds := by
  unfold List.leftpad
  rw [value_append]
  unfold value
  rw [Nat.ofDigitChars_replicate_zero, Nat.mul_zero, Nat.zero_mul, Nat.zero_add]

theorem isDigit_leftpad {p : Nat} {ds : List Char} (h : ∀ c ∈ ds, c.isDigit = true) :
    ∀ c ∈ ds.leftpad p '0', c.isDigit = true := by
  intro c hc
  rcases List.mem_append.mp hc with hc | hc
  · rw [List.eq_of_mem_replicate hc]
    decide
  · exact h c hc

/-- Digits that fit are padded to the width. -/
theorem length_leftpad_digits {p n : Nat} (hp : 0 < p) (h : n < 10 ^ p) :
    ((digits n).leftpad p '0').length = p := by
  have hlen : (digits n).length ≤ p := (Nat.length_toDigits_le_iff (by decide) hp).mpr h
  rw [List.length_leftpad]
  omega

/-! ## What the printed texts denote -/

/-- A text that starts with a digit has no sign. -/
theorem readSign_digit {c : Char} (h : c.isDigit = true) (s : List Char) :
    readSign (c :: s) = (false, c :: s) := by
  unfold readSign
  split
  · rename_i heq
    cases heq
    exact absurd h (by decide)
  · rename_i heq
    cases heq
    exact absurd h (by decide)
  · rfl

theorem takeWhile_digits {a : List Char} (h : ∀ c ∈ a, c.isDigit = true) {b : List Char}
    (hb : ∀ c, b.head? = some c → c.isDigit = false) :
    (a ++ b).takeWhile Char.isDigit = a ∧ (a ++ b).dropWhile Char.isDigit = b := by
  have hfirst : b.takeWhile Char.isDigit = [] ∧ b.dropWhile Char.isDigit = b := by
    cases b with
    | nil => exact ⟨rfl, rfl⟩
    | cons c s =>
        have hc := hb c rfl
        rw [List.takeWhile_cons, List.dropWhile_cons, hc]
        exact ⟨rfl, rfl⟩
  rw [List.takeWhile_append_of_pos h, List.dropWhile_append_of_pos h, hfirst.1, hfirst.2]
  exact ⟨List.append_nil a, rfl⟩

/-- Digits alone denote their value. -/
theorem unsignedValue_digits {ds : List Char} (hne : ds ≠ []) (h : ∀ c ∈ ds, c.isDigit = true) :
    unsignedValue ds = some (value ds : ℚ) := by
  obtain ⟨htake, hdrop⟩ := takeWhile_digits h (b := []) (fun c hc => nomatch hc)
  rw [List.append_nil] at htake hdrop
  unfold unsignedValue
  rw [htake, hdrop]
  simp [readFraction, readExponent, hne]

/-- Digits with a dot among them denote their value scaled down. -/
theorem unsignedValue_fraction {a b : List Char} (hne : a ++ b ≠ [])
    (ha : ∀ c ∈ a, c.isDigit = true) (hb : ∀ c ∈ b, c.isDigit = true) :
    unsignedValue (a ++ '.' :: b) = some ((value (a ++ b) : ℚ) / 10 ^ b.length) := by
  obtain ⟨htake, hdrop⟩ := takeWhile_digits ha (b := '.' :: b)
    (fun c hc => by rw [← Option.some.inj hc]; decide)
  obtain ⟨htake', hdrop'⟩ := takeWhile_digits hb (b := []) (fun c hc => nomatch hc)
  rw [List.append_nil] at htake' hdrop'
  unfold unsignedValue
  rw [htake, hdrop]
  simp only [readFraction, htake', hdrop', readExponent, if_neg hne, Option.map_some, zpow_zero,
    mul_one]

/-- A sign before an unsigned text that starts with a digit. -/
theorem decimalValue_unsigned {s : List Char} {x : ℚ} (hs : ∀ c, s.head? = some c → c.isDigit = true)
    (h : unsignedValue s = some x) : decimalValue s = some x := by
  unfold decimalValue
  cases s with
  | nil => exact nomatch h
  | cons c s =>
      rw [readSign_digit (hs c rfl)]
      show (unsignedValue (c :: s)).map _ = _
      rw [h]
      rfl

theorem decimalValue_minus {s : List Char} {x : ℚ} (h : unsignedValue s = some x) :
    decimalValue ('-' :: s) = some (-x) := by
  show (unsignedValue s).map _ = _
  rw [h]
  rfl

theorem decimalValue_plus {s : List Char} {x : ℚ} (h : unsignedValue s = some x) :
    decimalValue ('+' :: s) = some x := by
  show (unsignedValue s).map _ = _
  rw [h]
  rfl

/-- A number with fixed decimals starts with a digit. -/
theorem isDigit_head_fixedText {n p : Nat} {c : Char} (h : (fixedText n p).head? = some c) :
    c.isDigit = true := by
  rw [fixedText, List.head?_append_of_ne_nil _ (digits_ne_nil _)] at h
  exact isDigit_digits (List.mem_of_head? h)

/-- A number with fixed decimals denotes what it was printed from. -/
theorem unsignedValue_fixedText {n p : Nat} (hp : 0 < p) :
    unsignedValue (fixedText n p) = some ((n : ℚ) / 10 ^ p) := by
  have hlt : n % 10 ^ p < 10 ^ p := Nat.mod_lt n (by positivity)
  unfold fixedText
  rw [unsignedValue_fraction (by simp [digits_ne_nil]) (fun c hc => isDigit_digits hc)
      (isDigit_leftpad fun c hc => isDigit_digits hc), value_append, value_leftpad, value_digits,
    value_digits, length_leftpad_digits hp hlt, Nat.div_add_mod']

/-! ## Whole numbers -/

theorem isWhitespace_digit {c : Char} (h : c.isDigit = true) : isWhitespace c = false := by
  have hrange : 48 ≤ c.toNat ∧ c.toNat ≤ 57 := by
    simp only [Char.isDigit, Bool.and_eq_true, decide_eq_true_eq, UInt32.le_iff_toNat_le,
      ge_iff_le] at h
    exact h
  obtain ⟨hlow, hhigh⟩ := hrange
  unfold isWhitespace
  generalize c.toNat = k at hlow hhigh
  interval_cases k <;> decide

/-- The text of a whole number is digits and perhaps a minus sign. -/
theorem mem_intText {n : Int} {c : Char} (h : c ∈ intText n) : c = '-' ∨ c.isDigit = true := by
  unfold intText at h
  by_cases hneg : n < 0
  · rw [if_pos hneg] at h
    rcases List.mem_cons.mp h with h | h
    · exact .inl h
    · exact .inr (isDigit_digits h)
  · rw [if_neg hneg] at h
    exact .inr (isDigit_digits h)

/-- The digits of a number are read back behind either sign. -/
theorem intTryParse_signed {text : List Char} {negative : Bool} {m : Nat} (htrim : trim text = text)
    (hsign : readSign text = (negative, digits m)) {n : Int}
    (hn : (if negative then -(m : Int) else m) = n) (hrange : IsI64 n) :
    intTryParse text = some n := by
  have hhex : ¬ ((digits m).take 2 = ['0', 'x'] ∨ (digits m).take 2 = ['0', 'X']) := by
    have hnot : ∀ x : Char, x.isDigit = false → (digits m).take 2 ≠ ['0', x] := by
      intro x hx he
      have htake : x ∈ (digits m).take 2 := by
        rw [he]
        exact List.mem_cons_of_mem _ List.mem_cons_self
      have hmem : x ∈ digits m := List.mem_of_mem_take htake
      exact absurd (isDigit_digits hmem) (by rw [hx]; exact Bool.false_ne_true)
    rintro (h | h)
    · exact hnot 'x' (by decide) h
    · exact hnot 'X' (by decide) h
  have hall : digits m ≠ [] ∧ (digits m).all Char.isDigit = true :=
    ⟨digits_ne_nil m, List.all_eq_true.mpr fun c hc => isDigit_digits hc⟩
  unfold intTryParse
  simp only [htrim, hsign]
  rw [if_neg hhex, if_pos hall]
  simp only [value_digits, hn]
  exact if_pos hrange

/-- **ROUND TRIP**: a 64-bit number is read back from its text. -/
theorem intTryParse_intText {n : Int} (h : IsI64 n) : intTryParse (intText n) = some n := by
  have hspace : ∀ c ∈ intText n, isWhitespace c = false := by
    intro c hc
    rcases mem_intText hc with rfl | hc
    · decide
    · exact isWhitespace_digit hc
  refine intTryParse_signed (trim_id hspace) (?_ : _ = (decide (n < 0), digits n.natAbs)) ?_ h
  · unfold intText
    by_cases hneg : n < 0
    · rw [if_pos hneg, decide_eq_true hneg]
      rfl
    · rw [if_neg hneg, decide_eq_false hneg]
      obtain ⟨c, s, hcs⟩ := List.exists_cons_of_ne_nil (digits_ne_nil n.natAbs)
      rw [hcs]
      exact readSign_digit (isDigit_digits (hcs ▸ List.mem_cons_self)) s
  · by_cases hneg : n < 0
    · rw [decide_eq_true hneg, if_pos rfl]
      omega
    · rw [decide_eq_false hneg, if_neg Bool.false_ne_true]
      omega

end DecimalText
