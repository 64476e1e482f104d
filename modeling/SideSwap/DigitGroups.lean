import SideSwap.Program
import SideSwap.DartText

/-! # Grouping the digits of a number

    `replaceCharacterOnPosition` of `common/helpers.dart` sets a space between
    groups of digits and puts a currency text beside the number.  It cuts the
    number at its dot, groups the part before it from the right and, if asked,
    the part behind it from the left, and joins the parts again.

    Grouping a part only adds spaces (`groupLoop_spec`).  The parts are cut at a
    dot that has something before it (`dotIndex > 0`) but joined by a dot
    whenever there is one (`dotIndex == -1` is the other case), so a number that
    starts with its dot gets a second one: the number is kept exactly when it
    does not start with the dot (`grouping_keeps_number_iff`). -/

namespace DigitGroups

open Program DartText

inductive CurrencyCharAlignment where
  | atBegin
  | atEnd
deriving DecidableEq, Repr

/-- The optional arguments of `replaceCharacterOnPosition` with their defaults;
    its argument `char` is read nowhere. -/
structure Grouping where
  position : Int := 3
  currencyChar : List Char := []
  currencyCharAlignment : CurrencyCharAlignment := .atBegin
  useDecimal : Bool := false
  stripLeadingZeros : Bool := false

/-- `strip`: the characters are taken off both ends, then white space is. -/
def strip (str charactersToRemove : List Char) : List Char :=
  trim (stripEnds (fun c => charactersToRemove.contains c) str)

/-- `i != 0 && i % position == 0`; `%` throws on zero. -/
def atBoundary (position : Int) (i : Nat) : Except Panic Bool :=
  if i = 0 then .ok false
  else if position = 0 then .error ⟨"IntegerDivisionByZeroException"⟩
  else .ok (decide ((i : Int) % position = 0))

/-- One turn of a grouping loop. -/
def groupStep (position : Int) (part buffer : List Char) (i : Nat) :
    Except Panic (List Char) := do
  let boundary ← atBoundary position i
  let buffer := if boundary then ' ' :: buffer else buffer
  let c ← expect part[i]? "RangeError"
  pure (c :: buffer)

/-- The loop over a part: it counts UTF-16 units and reads code points. -/
def groupLoop (position : Int) (part : List Char) : Except Panic (List Char) :=
  (List.range (utf16Length part)).foldlM (groupStep position part) []

/-- The currency text beside a number that is not empty. -/
def addCurrency (o : Grouping) (value : List Char) : List Char :=
  if value = [] ∨ o.currencyChar = [] then value
  else match o.currencyCharAlignment with
    | .atBegin => o.currencyChar ++ ' ' :: value
    | .atEnd => value ++ ' ' :: o.currencyChar

/-- The text without its spaces and without the currency text. -/
def bare (o : Grouping) (text : List Char) : List Char :=
  removeAll o.currencyChar (removeAll [' '] text)

/-- The part before the dot and the part behind it.  The second part loses its
    other dots; the cascade `..replaceAll('0', '')` on it drops its own result. -/
def cutAtDot (o : Grouping) (newValue : List Char) (dotIndex : Int) : List Char × List Char :=
  let firstPart := if o.stripLeadingZeros then strip newValue ['0'] else newValue
  if 0 < dotIndex then
    (newValue.take dotIndex.toNat, removeAll ['.'] (newValue.drop (dotIndex.toNat + 1)))
  else (firstPart, removeAll ['.'] [])

/-- The second part, grouped from its start, but only with `useDecimal`. -/
def groupDecimals (o : Grouping) (secondPart : List Char) : Except Panic (List Char) :=
  if o.useDecimal && !secondPart.isEmpty then (groupLoop o.position secondPart).map List.reverse
  else .ok secondPart

/-- The number made of its parts. -/
def joinParts (dotIndex : Int) (firstPart secondPart : List Char) : List Char :=
  if secondPart.isEmpty && dotIndex == -1 then firstPart else firstPart ++ '.' :: secondPart

/-- `replaceCharacterOnPosition`. -/
def replaceCharacterOnPosition (input : List Char) (o : Grouping) :
    Except Panic (List Char) := do
  let newValue := bare o input
  let dotIndex := indexOf newValue '.'
  let (firstPart, secondPart) := cutAtDot o newValue dotIndex
  let firstPart ← groupLoop o.position firstPart.reverse
  let secondPart ← groupDecimals o secondPart
  pure (addCurrency o (joinParts dotIndex firstPart secondPart))

/-- A string of digits with at most one dot. -/
structure IsNumber (input : List Char) : Prop where
  chars : ∀ c ∈ input, c.isDigit = true ∨ c = '.'
  oneDot : input.count '.' ≤ 1

theorem isNumber_iff_check {input : List Char} :
    (input.all (fun c => c.isDigit || c == '.') = true ∧ input.count '.' ≤ 1) ↔ IsNumber input := by
  simp only [List.all_eq_true, Bool.or_eq_true, beq_iff_eq]
  exact ⟨fun h => ⟨h.1, h.2⟩, fun h => ⟨h.chars, h.oneDot⟩⟩

instance (input : List Char) : Decidable (IsNumber input) := decidable_of_iff _ isNumber_iff_check

/-- A currency text without digit, dot or space. -/
def IsCurrency (text : List Char) : Prop :=
  ∀ c ∈ text, c.isDigit = false ∧ c ≠ '.' ∧ c ≠ ' '

theorem isCurrency_iff_check {text : List Char} :
    text.all (fun c => !c.isDigit && c != '.' && c != ' ') = true ↔ IsCurrency text := by
  unfold IsCurrency
  simp only [List.all_eq_true, Bool.and_eq_true, Bool.not_eq_true', bne_iff_ne, and_assoc]

instance (text : List Char) : Decidable (IsCurrency text) :=
  decidable_of_iff _ isCurrency_iff_check

/-! ## One part -/

/-- A part with spaces set in: nothing else is added, and nothing to an empty part. -/
structure Grouped (part buffer : List Char) : Prop where
  text : buffer.filter (· ≠ ' ') = part
  chars : ∀ c ∈ buffer, c = ' ' ∨ c ∈ part
  empty : part = [] → buffer = []

theorem atBoundary_returns {position : Int} (hpos : 1 ≤ position) (i : Nat) :
    ∃ b, atBoundary position i = .ok b := by
  unfold atBoundary
  by_cases hi : i = 0
  · exact ⟨false, if_pos hi⟩
  · rw [if_neg hi, if_neg (by omega)]
    exact ⟨_, rfl⟩

/-- A turn puts the next character, and perhaps a space, before the buffer. -/
theorem groupStep_grouped {position : Int} (hpos : 1 ≤ position) {part buffer : List Char}
    (hspace : ' ' ∉ part) {i : Nat} (hi : i < part.length)
    (hb : Grouped (part.take i).reverse buffer) :
    ∃ buffer', groupStep position part buffer i = .ok buffer' ∧
      Grouped (part.take (i + 1)).reverse buffer' := by
  obtain ⟨b, hbound⟩ := atBoundary_returns hpos i
  have hc : part[i] ≠ ' ' := fun h => hspace (h ▸ List.getElem_mem hi)
  have htake : (part.take (i + 1)).reverse = part[i] :: (part.take i).reverse := by
    rw [List.take_succ_eq_append_getElem hi, List.reverse_append]
    rfl
  refine ⟨part[i] :: (if b then ' ' :: buffer else buffer), ?_, ?_⟩
  · unfold groupStep
    rw [hbound, List.getElem?_eq_getElem hi]
    rfl
  · rw [htake]
    constructor
    · rw [List.filter_cons_of_pos (by simpa using hc)]
      cases b with
      | false => exact congrArg _ hb.text
      | true =>
          rw [if_pos rfl, List.filter_cons_of_neg (by simp)]
          exact congrArg _ hb.text
    · intro c hmem
      rcases List.mem_cons.mp hmem with rfl | hmem
      · exact .inr List.mem_cons_self
      -- the space of a group boundary, or a character that was there before
      have hold : c = ' ' ∨ c ∈ buffer := by
        cases b with
        | false => exact .inr hmem
        | true => exact List.mem_cons.mp hmem
      rcases hold with rfl | hold
      · exact .inl rfl
      · exact (hb.chars c hold).imp_right (List.mem_cons_of_mem _)
    · exact fun h => absurd h (List.cons_ne_nil _ _)

/-- **GROUPING A PART**: the loop returns the reversed part with spaces set in. -/
theorem groupLoop_spec {position : Int} (hpos : 1 ≤ position) {part : List Char}
    (hsize : ∀ c ∈ part, utf16Size c = 1) (hspace : ' ' ∉ part) :
    ∃ buffer, groupLoop position part = .ok buffer ∧ Grouped part.reverse buffer := by
  have hrun : ∀ n ≤ part.length, ∃ buffer,
      (List.range n).foldlM (groupStep position part) [] = .ok buffer ∧
        Grouped (part.take n).reverse buffer := by
    intro n
    -- the invariant of the loop after `n` turns
    induction n with
    | zero =>
        intro _
        exact ⟨[], rfl, ⟨rfl, fun c hc => (nomatch hc), fun _ => rfl⟩⟩
    | succ n ih =>
        intro hn
        obtain ⟨buffer, hfold, hgrouped⟩ := ih (by omega)
        obtain ⟨buffer', hstep, hgrouped'⟩ := groupStep_grouped hpos hspace (by omega) hgrouped
        refine ⟨buffer', ?_, hgrouped'⟩
        rw [List.range_succ, List.foldlM_append, hfold]
        simp only [List.foldlM_cons, List.foldlM_nil, bind_pure]
        exact hstep
  obtain ⟨buffer, hfold, hgrouped⟩ := hrun part.length le_rfl
  rw [List.take_length] at hgrouped
  refine ⟨buffer, ?_, hgrouped⟩
  unfold groupLoop
  rw [utf16Length_basic hsize]
  exact hfold

/-- Grouping in the other direction. -/
theorem Grouped.reverse {part buffer : List Char} (h : Grouped part buffer) :
    Grouped part.reverse buffer.reverse := by
  constructor
  · rw [List.filter_reverse, h.text]
  · intro c hc
    exact (h.chars c (List.mem_reverse.mp hc)).imp_right List.mem_reverse.mpr
  · intro hpart
    rw [h.empty (List.reverse_eq_nil_iff.mp hpart), List.reverse_nil]

/-- A part that is left as it is. -/
theorem Grouped.refl {part : List Char} (h : ' ' ∉ part) : Grouped part part := by
  constructor
  · refine List.filter_eq_self.mpr fun c hc => ?_
    have hne : c ≠ ' ' := fun e => h (e ▸ hc)
    simpa using hne
  · exact fun c hc => .inr hc
  · exact id

theorem Grouped.nil_iff {part buffer : List Char} (h : Grouped part buffer) :
    buffer = [] ↔ part = [] := by
  constructor
  · intro hb
    rw [← h.text, hb, List.filter_nil]
  · exact h.empty

/-- The first part is reversed before its loop, so its groups count from its end. -/
theorem groupLoop_reverse_spec {position : Int} (hpos : 1 ≤ position) {part : List Char}
    (hsize : ∀ c ∈ part, utf16Size c = 1) (hspace : ' ' ∉ part) :
    ∃ buffer, groupLoop position part.reverse = .ok buffer ∧ Grouped part buffer := by
  have hsize' : ∀ c ∈ part.reverse, utf16Size c = 1 := fun c hc => hsize c (List.mem_reverse.mp hc)
  obtain ⟨buffer, hrun, hgrouped⟩ := groupLoop_spec hpos hsize'
    (fun hc => hspace (List.mem_reverse.mp hc))
  rw [List.reverse_reverse] at hgrouped
  exact ⟨buffer, hrun, hgrouped⟩

theorem groupDecimals_spec {o : Grouping} (hpos : 1 ≤ o.position) {part : List Char}
    (hsize : ∀ c ∈ part, utf16Size c = 1) (hspace : ' ' ∉ part) :
    ∃ buffer, groupDecimals o part = .ok buffer ∧ Grouped part buffer := by
  unfold groupDecimals
  by_cases hdec : (o.useDecimal && !part.isEmpty) = true
  · obtain ⟨buffer, hrun, hgrouped⟩ := groupLoop_spec hpos hsize hspace
    have hgrouped := hgrouped.reverse
    rw [List.reverse_reverse] at hgrouped
    rw [if_pos hdec, hrun]
    exact ⟨buffer.reverse, rfl, hgrouped⟩
  · rw [if_neg hdec]
    exact ⟨part, rfl, Grouped.refl hspace⟩

/-! ## The number -/

/-- The characters of a grouped number. -/
def NumberChars (text : List Char) : Prop := ∀ c ∈ text, c = ' ' ∨ c.isDigit = true ∨ c = '.'

theorem IsNumber.not_space {input : List Char} (h : IsNumber input) : ' ' ∉ input := by
  intro hc
  rcases h.chars ' ' hc with hd | hd
  · exact absurd hd (by decide)
  · exact absurd hd (by decide)

theorem utf16Size_digit {c : Char} (h : c.isDigit = true ∨ c = '.') : utf16Size c = 1 := by
  rcases h with h | rfl
  · have hle : c.toNat ≤ 57 := by
      simp only [Char.isDigit, Bool.and_eq_true, decide_eq_true_eq] at h
      exact h.2
    unfold utf16Size
    rw [if_pos (by omega)]
  · decide

/-- A number is its digits, or starts with its dot, or has digits before it. -/
theorem IsNumber.shapes {input : List Char} (h : IsNumber input) :
    '.' ∉ input ∨ (∃ b, input = '.' :: b ∧ '.' ∉ b) ∨
      ∃ d a b, input = d :: a ++ '.' :: b ∧ '.' ∉ d :: a ∧ '.' ∉ b := by
  by_cases hdot : '.' ∈ input
  · obtain ⟨a, b, rfl, ha⟩ := List.eq_append_cons_of_mem hdot
    have hb : '.' ∉ b := by
      have hcount := h.oneDot
      rw [List.count_append, List.count_cons_self] at hcount
      exact List.count_eq_zero.mp (by omega)
    cases a with
    | nil => exact .inr (.inl ⟨b, rfl, hb⟩)
    | cons d a => exact .inr (.inr ⟨d, a, b, rfl, ha, hb⟩)
  · exact .inl hdot

/-- A number has nothing to take off. -/
theorem IsNumber.bare_eq {input : List Char} (h : IsNumber input) {o : Grouping}
    (hcur : IsCurrency o.currencyChar) : bare o input = input := by
  have hspaces : removeAll [' '] input = input := removeAll_disjoint fun c hc hmem =>
    h.not_space (List.mem_singleton.mp hmem ▸ hc)
  unfold bare
  rw [hspaces]
  refine removeAll_disjoint fun c hc hmem => ?_
  rcases h.chars c hc with hd | rfl
  · exact absurd hd (by rw [(hcur c hmem).1]; exact Bool.false_ne_true)
  · exact (hcur _ hmem).2.1 rfl

/-- The currency text beside a number is taken off again. -/
theorem bare_addCurrency {o : Grouping} (hcur : IsCurrency o.currencyChar) {value : List Char}
    (hvalue : NumberChars value) : bare o (addCurrency o value) = value.filter (· ≠ ' ') := by
  have hcurSpace : ∀ c ∈ o.currencyChar, c ∉ [' '] := fun c hc h =>
    (hcur c hc).2.2 (List.mem_singleton.mp h)
  have hdisjoint : ∀ c ∈ value.filter (· ≠ ' '), c ∉ o.currencyChar := by
    intro c hc hmem
    obtain ⟨hc, hne⟩ := List.mem_filter.mp hc
    rcases hvalue c hc with rfl | hd | rfl
    · exact (hcur _ hmem).2.2 rfl
    · exact absurd hd (by rw [(hcur c hmem).1]; exact Bool.false_ne_true)
    · exact (hcur _ hmem).2.1 rfl
  unfold bare addCurrency
  by_cases hnone : value = [] ∨ o.currencyChar = []
  · rw [if_pos hnone, removeAll_singleton, removeAll_disjoint hdisjoint]
  rw [if_neg hnone]
  cases o.currencyCharAlignment with
  | atBegin =>
      show removeAll _ (removeAll [' '] (o.currencyChar ++ ([' '] ++ value))) = _
      rw [removeAll_append_disjoint hcurSpace, removeAll_pattern_append,
        removeAll_pattern_append, removeAll_singleton, removeAll_disjoint hdisjoint]
  | atEnd =>
      show removeAll _ (removeAll [' '] (value ++ ' ' :: o.currencyChar)) = _
      rw [removeAll_singleton, List.filter_append, ← removeAll_singleton ' ' (' ' :: _)]
      show removeAll _ (_ ++ removeAll [' '] ([' '] ++ o.currencyChar)) = _
      rw [removeAll_pattern_append, removeAll_disjoint hcurSpace,
        removeAll_append_disjoint hdisjoint, removeAll_pattern, List.append_nil]

/-- Joining grouped parts is grouping the joined parts. -/
theorem Grouped.join {first second first' second' : List Char} (dotIndex : Int)
    (h₁ : Grouped first first') (h₂ : Grouped second second') :
    Grouped (joinParts dotIndex first second) (joinParts dotIndex first' second') := by
  have hempty : second'.isEmpty = second.isEmpty := by
    rw [Bool.eq_iff_iff, List.isEmpty_iff, List.isEmpty_iff]
    exact h₂.nil_iff
  unfold joinParts
  rw [hempty]
  by_cases hdot : (second.isEmpty && dotIndex == -1) = true
  · rw [if_pos hdot, if_pos hdot]
    exact h₁
  rw [if_neg hdot, if_neg hdot]
  constructor
  · rw [List.filter_append, h₁.text, List.filter_cons_of_pos (by decide), h₂.text]
  · intro c hc
    rcases List.mem_append.mp hc with hc | hc
    · exact (h₁.chars c hc).imp_right (List.mem_append_left _)
    rcases List.mem_cons.mp hc with rfl | hc
    · exact .inr (List.mem_append_right _ List.mem_cons_self)
    · exact (h₂.chars c hc).imp_right fun h =>
        List.mem_append_right _ (List.mem_cons_of_mem _ h)
  · intro h
    exact absurd (List.append_eq_nil_iff.mp h).2 (List.cons_ne_nil _ _)

/-- What the parts of a number are joined to: a leading dot is doubled. -/
theorem IsNumber.join_cut {input : List Char} (h : IsNumber input) {o : Grouping}
    (hstrip : o.stripLeadingZeros = false) :
    joinParts (indexOf input '.') (cutAtDot o input (indexOf input '.')).1
        (cutAtDot o input (indexOf input '.')).2 =
      if input.head? = some '.' then input ++ ['.'] else input := by
  unfold cutAtDot joinParts
  rw [hstrip]
  rcases h.shapes with hnone | ⟨b, rfl, hb⟩ | ⟨d, a, b, rfl, ha, hb⟩
  · -- no dot: the first part is the number
    have hhead : input.head? ≠ some '.' := fun e => hnone (List.mem_of_head? e)
    rw [indexOf_absent hnone, if_neg hhead]
    simp
  · -- a dot with nothing before it is not cut at, and set again
    rw [show indexOf ('.' :: b) '.' = 0 from indexOf_append (s := []) List.not_mem_nil b]
    simp
  · -- digits before the dot: both parts are cut out and joined by it
    have hd : ¬ (d :: a ++ '.' :: b).head? = some '.' := fun e =>
      ha (Option.some.inj e ▸ List.mem_cons_self)
    have hdrop : (d :: a ++ '.' :: b).drop ((d :: a).length + 1) = b := by simp
    have hkeep : removeAll ['.'] b = b := removeAll_disjoint fun c hc hm =>
      hb (List.mem_singleton.mp hm ▸ hc)
    have hpos : (0 : Int) < (d :: a).length := by
      rw [List.length_cons]
      omega
    rw [indexOf_append ha b, if_neg hd, if_pos hpos, Int.toNat_natCast, List.take_left, hdrop,
      hkeep, if_neg (by simp; omega)]

/-- The parts of a number have its characters. -/
theorem cutAtDot_mem {input : List Char} {o : Grouping} (hstrip : o.stripLeadingZeros = false)
    {dotIndex : Int} {c : Char}
    (hc : c ∈ (cutAtDot o input dotIndex).1 ∨ c ∈ (cutAtDot o input dotIndex).2) : c ∈ input := by
  unfold cutAtDot at hc
  rw [hstrip] at hc
  by_cases hdot : 0 < dotIndex
  · rw [if_pos hdot] at hc
    rcases hc with hc | hc
    · exact List.mem_of_mem_take hc
    · rw [removeAll_singleton] at hc
      exact List.mem_of_mem_drop (List.mem_of_mem_filter hc)
  · rw [if_neg hdot] at hc
    rcases hc with hc | hc
    · exact hc
    · exact nomatch hc

/-- What `replaceCharacterOnPosition` makes of a number: the number, with its
    leading dot doubled, with spaces set in and the currency beside it. -/
theorem replaceCharacterOnPosition_number {o : Grouping} (hpos : 1 ≤ o.position)
    (hstrip : o.stripLeadingZeros = false) (hcur : IsCurrency o.currencyChar)
    {input : List Char} (hnum : IsNumber input) :
    ∃ value, replaceCharacterOnPosition input o = .ok (addCurrency o value) ∧
      Grouped (if input.head? = some '.' then input ++ ['.'] else input) value := by
  obtain ⟨dotIndex, hdot⟩ : ∃ dotIndex, dotIndex = indexOf input '.' := ⟨_, rfl⟩
  have hpart : ∀ c, c ∈ (cutAtDot o input dotIndex).1 ∨ c ∈ (cutAtDot o input dotIndex).2 →
      c ∈ input := fun c hc => cutAtDot_mem hstrip hc
  have hmem := fun c hc => hnum.chars c (hpart c hc)
  have hspace := fun hc => hnum.not_space (hpart ' ' hc)
  obtain ⟨first, hrun₁, hfirst⟩ := groupLoop_reverse_spec hpos
    (fun c hc => utf16Size_digit (hmem c (.inl hc))) (fun hc => hspace (.inl hc))
  obtain ⟨second, hrun₂, hsecond⟩ := groupDecimals_spec hpos
    (fun c hc => utf16Size_digit (hmem c (.inr hc))) (fun hc => hspace (.inr hc))
  have hjoin := hfirst.join dotIndex hsecond
  rw [hdot, hnum.join_cut hstrip] at hjoin
  refine ⟨_, ?_, hjoin⟩
  unfold replaceCharacterOnPosition
  rw [hdot] at hrun₁ hrun₂
  simp only [hnum.bare_eq hcur, hrun₁, hrun₂]
  rfl

/-- **GROUPING KEEPS THE NUMBER**: without its spaces and the currency text the
    result is the input, exactly if the input does not start with its dot. -/
theorem grouping_keeps_number_iff {o : Grouping} (hpos : 1 ≤ o.position)
    (hstrip : o.stripLeadingZeros = false) (hcur : IsCurrency o.currencyChar)
    {input : List Char} (hnum : IsNumber input) :
    (∃ result, replaceCharacterOnPosition input o = .ok result ∧ bare o result = input) ↔
      input.head? ≠ some '.' := by
  obtain ⟨value, hrun, hvalue⟩ := replaceCharacterOnPosition_number hpos hstrip hcur hnum
  have hchars : NumberChars value := by
    intro c hc
    refine (hvalue.chars c hc).imp_right fun hmem => ?_
    by_cases hdot : input.head? = some '.'
    · rw [if_pos hdot] at hmem
      rcases List.mem_append.mp hmem with hmem | hmem
      · exact hnum.chars c hmem
      · exact .inr (List.mem_singleton.mp hmem)
    · rw [if_neg hdot] at hmem
      exact hnum.chars c hmem
  have hbare := (bare_addCurrency hcur hchars).trans hvalue.text
  constructor
  · rintro ⟨result, hres, hback⟩ hdot
    cases hrun.symm.trans hres
    rw [hback, if_pos hdot] at hbare
    -- the result has one dot more than the input
    have hlen := congrArg List.length hbare
    rw [List.length_append, List.length_singleton] at hlen
    omega
  · intro hdot
    rw [if_neg hdot] at hbare
    exact ⟨_, hrun, hbare⟩

theorem grouping_keeps_price :
    (∃ result, replaceCharacterOnPosition "1234567.8901".toList
        { currencyChar := ['$'], useDecimal := true } = .ok result ∧
      bare { currencyChar := ['$'], useDecimal := true } result = "1234567.8901".toList) ↔
    "1234567.8901".toList.head? ≠ some '.' :=
  grouping_keeps_number_iff (by decide) rfl (by decide +kernel) (by decide +kernel)

/-- A number that starts with its dot gets a second one at its end. -/
theorem grouping_doubles_leading_dot :
    replaceCharacterOnPosition ".5".toList {} = .ok ".5.".toList ∧
    IsNumber ".5".toList ∧ IsCurrency [] ∧
    ¬ ∃ result, replaceCharacterOnPosition ".5".toList {} = .ok result ∧
      bare {} result = ".5".toList := by
  have hrun : replaceCharacterOnPosition ".5".toList {} = .ok ".5.".toList := by decide +kernel
  refine ⟨hrun, by decide +kernel, by decide +kernel, ?_⟩
  rintro ⟨result, hres, hback⟩
  cases hrun.symm.trans hres
  exact absurd hback (by decide +kernel)

end DigitGroups
