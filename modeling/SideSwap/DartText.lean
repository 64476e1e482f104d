import Mathlib.Tactic

/-! # Text operations of the Dart core library

    A text is a list of Unicode scalar values.  Lengths are counted in UTF-16
    code units as Dart counts them; removal of a pattern, trimming, searching
    and padding work on whole characters, which agrees with Dart on every text
    without a lone surrogate.

    `removeAll pattern` is `replaceAll(pattern, '')`: a scan from the left that
    drops each match and goes on behind it.  The lemmas say what it does to a
    text that shares no character with the pattern (`removeAll_append_disjoint`),
    to a text that starts with it (`removeAll_pattern_append`) and to a pattern
    of one character (`removeAll_singleton`). -/

namespace DartText

section Removal

variable {α : Type} [DecidableEq α]

/-- The scan of `removeAll`; the number counts the characters of a match that
    are still to be dropped. -/
def removeFrom (pattern : List α) : Nat → List α → List α
  | _, [] => []
  | k + 1, _ :: s => removeFrom pattern k s
  | 0, c :: s =>
      if pattern.isPrefixOf (c :: s) then removeFrom pattern (pattern.length - 1) s
      else c :: removeFrom pattern 0 s

/-- `text.replaceAll(pattern, '')`.  The empty pattern matches between the
    characters only, so it removes nothing. -/
def removeAll (pattern text : List α) : List α :=
  if pattern = [] then text else removeFrom pattern 0 text

/-- Inside a match the scan drops what is left of it. -/
theorem removeFrom_skip (pattern s t : List α) :
    removeFrom pattern s.length (s ++ t) = removeFrom pattern 0 t := by
  induction s with
  | nil => rfl
  | cons c s ih => exact ih

/-- A character outside the pattern starts no match. -/
theorem removeFrom_miss {pattern : List α} {c : α} (hne : pattern ≠ []) (hc : c ∉ pattern)
    (s : List α) : removeFrom pattern 0 (c :: s) = c :: removeFrom pattern 0 s := by
  have hmiss : ¬ pattern.isPrefixOf (c :: s) = true := by
    intro h
    obtain ⟨d, p, rfl⟩ := List.exists_cons_of_ne_nil hne
    have hd : d = c := (List.cons_prefix_cons.mp (List.isPrefixOf_iff_prefix.mp h)).1
    exact hc (hd ▸ List.mem_cons_self)
  rw [removeFrom, if_neg hmiss]

@[simp] theorem removeAll_empty (text : List α) : removeAll [] text = text := if_pos rfl

@[simp] theorem removeAll_nil (pattern : List α) : removeAll pattern [] = [] := by
  unfold removeAll
  split <;> rfl

/-- What shares no character with the pattern is kept, whatever follows it. -/
theorem removeAll_append_disjoint {pattern s : List α} (h : ∀ c ∈ s, c ∉ pattern) (t : List α) :
    removeAll pattern (s ++ t) = s ++ removeAll pattern t := by
  by_cases hp : pattern = []
  · rw [hp, removeAll_empty, removeAll_empty]
  unfold removeAll
  rw [if_neg hp, if_neg hp]
  induction s with
  | nil => rfl
  | cons c s ih =>
      rw [List.cons_append, removeFrom_miss hp (h c List.mem_cons_self),
        ih fun d hd => h d (List.mem_cons_of_mem _ hd), List.cons_append]

theorem removeAll_disjoint {pattern s : List α} (h : ∀ c ∈ s, c ∉ pattern) :
    removeAll pattern s = s := by
  have happ := removeAll_append_disjoint h []
  rwa [List.append_nil, removeAll_nil, List.append_nil] at happ

/-- A match at the start is dropped and the scan goes on behind it. -/
theorem removeAll_pattern_append (pattern s : List α) :
    removeAll pattern (pattern ++ s) = removeAll pattern s := by
  by_cases hp : pattern = []
  · rw [hp, List.nil_append]
  obtain ⟨c, p, rfl⟩ := List.exists_cons_of_ne_nil hp
  unfold removeAll
  have hit : (c :: p).isPrefixOf (c :: (p ++ s)) = true :=
    List.isPrefixOf_iff_prefix.mpr (List.prefix_append (c :: p) s)
  rw [if_neg hp, if_neg hp, List.cons_append, removeFrom, if_pos hit]
  exact removeFrom_skip (c :: p) p s

theorem removeAll_pattern (pattern : List α) : removeAll pattern pattern = [] := by
  have happ := removeAll_pattern_append pattern []
  rwa [List.append_nil, removeAll_nil] at happ

/-- Removing one character is filtering it out. -/
theorem removeAll_singleton (a : α) (s : List α) : removeAll [a] s = s.filter (· ≠ a) := by
  induction s with
  | nil => exact removeAll_nil [a]
  | cons c s ih =>
      by_cases hc : c = a
      · rw [hc, List.filter_cons_of_neg (by simp), ← ih]
        exact removeAll_pattern_append [a] s
      · rw [List.filter_cons_of_pos (by simpa using hc), ← ih]
        exact removeAll_append_disjoint (s := [c]) (by simpa using hc) s

end Removal

section Joining

variable {α β : Type}

/-- What a joined text is made of. -/
theorem mem_intercalate {x c : α} {fields : List (List α)} (h : c ∈ [x].intercalate fields) :
    c = x ∨ ∃ field ∈ fields, c ∈ field := by
  induction fields with
  | nil => exact nomatch h
  | cons f rest ih =>
      cases rest with
      | nil =>
          rw [List.intercalate_singleton] at h
          exact .inr ⟨f, List.mem_cons_self, h⟩
      | cons g rest =>
          rw [List.intercalate_cons_cons, List.mem_append, List.mem_append,
            List.mem_singleton] at h
          rcases h with (h | h) | h
          · exact .inr ⟨f, List.mem_cons_self, h⟩
          · exact .inl h
          · exact (ih h).imp_right fun ⟨field, hfield, hc⟩ =>
              ⟨field, List.mem_cons_of_mem _ hfield, hc⟩

/-- Joining commutes with a change of characters. -/
theorem map_intercalate (f : α → β) (x : α) (fields : List (List α)) :
    ([x].intercalate fields).map f = [f x].intercalate (fields.map (List.map f)) := by
  induction fields with
  | nil => rfl
  | cons g rest ih =>
      cases rest with
      | nil => rw [List.intercalate_singleton, List.map_singleton, List.intercalate_singleton]
      | cons h rest =>
          rw [List.map_cons, List.map_cons, List.intercalate_cons_cons, List.intercalate_cons_cons,
            List.map_append, List.map_append, ih]
          rfl

end Joining

/-- The UTF-16 code units of a character. -/
def utf16Size (c : Char) : Nat := if c.toNat < 0x10000 then 1 else 2

/-- `text.length`. -/
def utf16Length (text : List Char) : Nat := (text.map utf16Size).sum

/-- A text of the basic plane is as long as it has characters. -/
theorem utf16Length_basic {text : List Char} (h : ∀ c ∈ text, utf16Size c = 1) :
    utf16Length text = text.length := by
  unfold utf16Length
  induction text with
  | nil => rfl
  | cons c s ih =>
      rw [List.map_cons, List.sum_cons, h c List.mem_cons_self,
        ih fun d hd => h d (List.mem_cons_of_mem _ hd), List.length_cons, Nat.add_comm]

/-- `text.indexOf(c)` for one character: `-1` when there is none. -/
def indexOf (text : List Char) (c : Char) : Int :=
  match text.idxOf? c with
  | some i => (i : Int)
  | none => -1

theorem indexOf_absent {text : List Char} {c : Char} (h : c ∉ text) : indexOf text c = -1 := by
  unfold indexOf
  rw [List.idxOf?_eq_none_iff.mpr h]

/-- The first occurrence lies behind everything that has none. -/
theorem idxOf?_append {s : List Char} {c : Char} (h : c ∉ s) (t : List Char) :
    (s ++ c :: t).idxOf? c = some s.length := by
  induction s with
  | nil => simp [List.idxOf?_cons]
  | cons d s ih =>
      have hd : ¬ d = c := fun e => h (e ▸ List.mem_cons_self)
      rw [List.cons_append, List.idxOf?_cons, if_neg (by simpa using hd),
        ih fun hc => h (List.mem_cons_of_mem _ hc)]
      rfl

theorem indexOf_append {s : List Char} {c : Char} (h : c ∉ s) (t : List Char) :
    indexOf (s ++ c :: t) c = s.length := by
  unfold indexOf
  rw [idxOf?_append h t]

/-- The characters that `trim` takes off. -/
def isWhitespace (c : Char) : Bool :=
  (9 ≤ c.toNat && c.toNat ≤ 13) || (0x2000 ≤ c.toNat && c.toNat ≤ 0x200A) ||
    [0x20, 0x85, 0xA0, 0x1680, 0x2028, 0x2029, 0x202F, 0x205F, 0x3000, 0xFEFF].contains c.toNat

/-- A text without the leading and trailing characters of a kind. -/
def stripEnds (drop : Char → Bool) (text : List Char) : List Char :=
  ((text.dropWhile drop).reverse.dropWhile drop).reverse

/-- `text.trim()`. -/
def trim (text : List Char) : List Char := stripEnds isWhitespace text

/-- A text without such characters loses nothing. -/
theorem stripEnds_id {drop : Char → Bool} {text : List Char} (h : ∀ c ∈ text, drop c = false) :
    stripEnds drop text = text := by
  have hkeep : ∀ s : List Char, (∀ c ∈ s, drop c = false) → s.dropWhile drop = s := by
    intro s hs
    cases s with
    | nil => rfl
    | cons c s => rw [List.dropWhile_cons, hs c List.mem_cons_self]; rfl
  unfold stripEnds
  rw [hkeep text h, hkeep text.reverse fun c hc => h c (List.mem_reverse.mp hc),
    List.reverse_reverse]

theorem trim_id {text : List Char} (h : ∀ c ∈ text, isWhitespace c = false) : trim text = text :=
  stripEnds_id h

/-! ## UTF-8 -/

/-- `utf8.encode`. -/
def utf8Encode (text : List Char) : List UInt8 := text.flatMap String.utf8EncodeChar

/-- The byte order mark. -/
def bom : Char := Char.ofNat 0xFEFF

/-- `utf8.decode`: malformed bytes are refused, a leading byte order mark is
    dropped. -/
def utf8Decode (bytes : List UInt8) : Option (List Char) :=
  bytes.toByteArray.utf8Decode?.map fun text =>
    if text.toList.head? = some bom then text.toList.tail else text.toList

/-- What is encoded is decoded again, but for a leading byte order mark. -/
theorem utf8Decode_encode {text : List Char} (h : text.head? ≠ some bom) :
    utf8Decode (utf8Encode text) = some text := by
  have hdecode : (utf8Encode text).toByteArray.utf8Decode? = some text.toArray :=
    List.utf8Decode?_utf8Encode
  unfold utf8Decode
  rw [hdecode, Option.map_some, if_neg h]

@[simp] theorem utf8Encode_cons (c : Char) (s : List Char) :
    utf8Encode (c :: s) = String.utf8EncodeChar c ++ utf8Encode s := List.flatMap_cons

/-- A character of ASCII is its own byte. -/
theorem utf8EncodeChar_ascii {c : Char} (h : c.toNat < 128) :
    String.utf8EncodeChar c = [UInt8.ofNat c.toNat] := by
  have hsize : c.utf8Size = 1 := by
    rw [Char.utf8Size_eq_one_iff, UInt32.le_iff_toNat_le]
    show c.toNat ≤ 127
    omega
  rw [String.utf8EncodeChar_eq_singleton hsize]
  congr 1

end DartText
