import Mathlib.Tactic

/-! # Base64

    Three bytes are four symbols of an alphabet of 64; the last group is filled
    up with `=`.  The decoder takes both alphabets and the escaped padding
    `%3D`, wants the padding in full and the bits before it zero, and refuses
    everything else.  What is encoded is decoded again (`decode_encode`), and a
    text with a space in it is refused (`decode_space`). -/

namespace Base64

/-- The symbol of a value below 64. -/
def symbol (n : Nat) : Char :=
  if n < 26 then Char.ofNat (65 + n)
  else if n < 52 then Char.ofNat (71 + n)
  else if n < 62 then Char.ofNat (n - 4)
  else if n = 62 then '+'
  else '/'

/-- The value of a symbol of either alphabet. -/
def value (c : Char) : Option Nat :=
  if 'A' ≤ c ∧ c ≤ 'Z' then some (c.toNat - 65)
  else if 'a' ≤ c ∧ c ≤ 'z' then some (c.toNat - 71)
  else if '0' ≤ c ∧ c ≤ '9' then some (c.toNat + 4)
  else if c = '+' ∨ c = '-' then some 62
  else if c = '/' ∨ c = '_' then some 63
  else none

def encode : List UInt8 → List Char
  | [] => []
  | [a] => [symbol (a.toNat / 4), symbol (a.toNat % 4 * 16), '=', '=']
  | [a, b] =>
      [symbol (a.toNat / 4), symbol (a.toNat % 4 * 16 + b.toNat / 16),
        symbol (b.toNat % 16 * 4), '=']
  | a :: b :: c :: s =>
      symbol (a.toNat / 4) :: symbol (a.toNat % 4 * 16 + b.toNat / 16) ::
        symbol (b.toNat % 16 * 4 + c.toNat / 64) :: symbol (c.toNat % 64) :: encode s

/-- One padding character, plain or escaped, and what follows it. -/
def readPadding : List Char → Option (List Char)
  | '=' :: s => some s
  | '%' :: '3' :: 'D' :: s => some s
  | '%' :: '3' :: 'd' :: s => some s
  | _ => none

/-- The last group: two symbols and two paddings, or three and one. -/
def decodeLast : List Char → Option (List UInt8)
  | a :: b :: c :: s =>
      match value a, value b, value c with
      | some w, some x, some y =>
          if readPadding s = some [] ∧ y % 4 = 0 then
            some [UInt8.ofNat (w * 4 + x / 16), UInt8.ofNat (x % 16 * 16 + y / 4)]
          else none
      | some w, some x, none =>
          if (readPadding (c :: s)).bind readPadding = some [] ∧ x % 16 = 0 then
            some [UInt8.ofNat (w * 4 + x / 16)]
          else none
      | _, _, _ => none
  | _ => none

def decode : List Char → Option (List UInt8)
  | [] => some []
  | a :: b :: c :: d :: s =>
      match value a, value b, value c, value d with
      | some w, some x, some y, some z =>
          (decode s).map fun bytes =>
            UInt8.ofNat (w * 4 + x / 16) :: UInt8.ofNat (x % 16 * 16 + y / 4) ::
              UInt8.ofNat (y % 4 * 64 + z) :: bytes
      | _, _, _, _ => decodeLast (a :: b :: c :: d :: s)
  | s => decodeLast s

theorem value_symbol {n : Nat} (h : n < 64) : value (symbol n) = some n := by
  interval_cases n <;> decide

theorem value_padding : value '=' = none := by decide

theorem ofNat_toNat {a : UInt8} {n : Nat} (h : n = a.toNat) : UInt8.ofNat n = a := by
  rw [h, UInt8.ofNat_toNat]

/-- **ROUND TRIP**: bytes are read back from their text. -/
theorem decode_encode (bytes : List UInt8) : decode (encode bytes) = some bytes := by
  induction bytes using encode.induct with
  | case1 => rfl
  | case2 a =>
      have ha := a.toNat_lt
      have h₁ := value_symbol (n := a.toNat / 4) (by omega)
      have h₂ := value_symbol (n := a.toNat % 4 * 16) (by omega)
      simp only [encode, decode, h₁, h₂, value_padding, decodeLast, readPadding, Option.bind_some]
      rw [if_pos ⟨trivial, by omega⟩, ofNat_toNat (a := a) (by omega)]
  | case3 a b =>
      have ha := a.toNat_lt
      have hb := b.toNat_lt
      have h₁ := value_symbol (n := a.toNat / 4) (by omega)
      have h₂ := value_symbol (n := a.toNat % 4 * 16 + b.toNat / 16) (by omega)
      have h₃ := value_symbol (n := b.toNat % 16 * 4) (by omega)
      simp only [encode, decode, h₁, h₂, h₃, value_padding, decodeLast, readPadding]
      rw [if_pos ⟨trivial, by omega⟩, ofNat_toNat (a := a) (by omega), ofNat_toNat (a := b) (by omega)]
  | case4 a b c s ih =>
      have ha := a.toNat_lt
      have hb := b.toNat_lt
      have hc := c.toNat_lt
      have h₁ := value_symbol (n := a.toNat / 4) (by omega)
      have h₂ := value_symbol (n := a.toNat % 4 * 16 + b.toNat / 16) (by omega)
      have h₃ := value_symbol (n := b.toNat % 16 * 4 + c.toNat / 64) (by omega)
      have h₄ := value_symbol (n := c.toNat % 64) (by omega)
      simp only [encode, decode, h₁, h₂, h₃, h₄, ih, Option.map_some]
      rw [ofNat_toNat (a := a) (by omega), ofNat_toNat (a := b) (by omega),
        ofNat_toNat (a := c) (by omega)]

/-- The characters of an encoded text. -/
def isPlain (c : Char) : Bool := c.isAlphanum || c == '+' || c == '/' || c == '='

theorem isPlain_symbol {n : Nat} (h : n < 64) : isPlain (symbol n) = true := by
  interval_cases n <;> decide

theorem encode_chars (bytes : List UInt8) : ∀ c ∈ encode bytes, isPlain c = true := by
  have hpad : isPlain '=' = true := by decide
  induction bytes using encode.induct with
  | case1 => exact fun c hc => nomatch hc
  | case2 a =>
      have ha := a.toNat_lt
      simp only [encode, List.forall_mem_cons]
      exact ⟨isPlain_symbol (by omega), isPlain_symbol (by omega), hpad, hpad,
        fun c hc => nomatch hc⟩
  | case3 a b =>
      have ha := a.toNat_lt
      have hb := b.toNat_lt
      simp only [encode, List.forall_mem_cons]
      exact ⟨isPlain_symbol (by omega), isPlain_symbol (by omega), isPlain_symbol (by omega), hpad,
        fun c hc => nomatch hc⟩
  | case4 a b c s ih =>
      have ha := a.toNat_lt
      have hb := b.toNat_lt
      have hc := c.toNat_lt
      simp only [encode, List.forall_mem_cons]
      exact ⟨isPlain_symbol (by omega), isPlain_symbol (by omega), isPlain_symbol (by omega),
        isPlain_symbol (by omega), ih⟩

/-! ## A space is refused -/

theorem ne_space_of_value {c : Char} {n : Nat} (h : value c = some n) : c ≠ ' ' := by
  rintro rfl
  have hspace : value ' ' = none := by decide
  exact nomatch hspace.symm.trans h

/-- Padding has no space in it. -/
theorem readPadding_space {s t : List Char} (h : readPadding s = some t) (ht : ' ' ∉ t) :
    ' ' ∉ s := by
  unfold readPadding at h
  split at h
  · cases h
    exact fun hc => ht ((List.mem_cons.mp hc).resolve_left (by decide))
  · cases h
    simpa using ht
  · cases h
    simpa using ht
  · exact nomatch h

theorem decodeLast_space {s : List Char} {bytes : List UInt8} (h : decodeLast s = some bytes) :
    ' ' ∉ s := by
  unfold decodeLast at h
  split at h
  · rename_i a b c s
    split at h
    · rename_i w x y ha hb hc
      by_cases hpad : readPadding s = some [] ∧ y % 4 = 0
      · have hs := readPadding_space hpad.1 List.not_mem_nil
        simp only [List.mem_cons, not_or]
        exact ⟨(ne_space_of_value ha).symm, (ne_space_of_value hb).symm,
          (ne_space_of_value hc).symm, hs⟩
      · rw [if_neg hpad] at h
        exact nomatch h
    · rename_i w x ha hb hc
      by_cases hpad : (readPadding (c :: s)).bind readPadding = some [] ∧ x % 16 = 0
      · obtain ⟨t, ht, ht'⟩ := Option.bind_eq_some_iff.mp hpad.1
        have hs := readPadding_space ht (readPadding_space ht' List.not_mem_nil)
        rw [List.mem_cons, List.mem_cons, not_or, not_or]
        exact ⟨(ne_space_of_value ha).symm, (ne_space_of_value hb).symm, hs⟩
      · rw [if_neg hpad] at h
        exact nomatch h
    · exact nomatch h
  · exact nomatch h

theorem decode_not_space {s : List Char} {bytes : List UInt8} (h : decode s = some bytes) :
    ' ' ∉ s := by
  fun_induction decode s generalizing bytes with
  | case1 => exact List.not_mem_nil
  | case2 a b c d s w x y z hd hc hb ha ih =>
      obtain ⟨rest, hrest, -⟩ := Option.map_eq_some_iff.mp h
      simp only [List.mem_cons, not_or]
      exact ⟨(ne_space_of_value ha).symm, (ne_space_of_value hb).symm,
        (ne_space_of_value hc).symm, (ne_space_of_value hd).symm, ih hrest⟩
  | case3 a b c d s hnot => exact decodeLast_space h
  | case4 s hnil hfour => exact decodeLast_space h

/-- **SPACES ARE REFUSED**: a text with a space in it is not decoded. -/
theorem decode_space {s : List Char} (h : ' ' ∈ s) : decode s = none := by
  cases hdec : decode s with
  | none => rfl
  | some bytes => exact absurd h (decode_not_space hdec)

end Base64
