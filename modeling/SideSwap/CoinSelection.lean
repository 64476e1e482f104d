import Mathlib.Data.List.Sort
import SideSwap.MachineInt
import SideSwap.Program

/-! # Coin selection

    `select_utxo` and `select_utxo_values` of `sideswap_common/src/types.rs`.
    The greedy loop sorts the remaining inputs by their distance to the amount
    still missing and takes the nearest; afterwards the smallest picks are
    dropped while the rest still exceeds the amount.  The items are then found
    again by their amounts.

    Three facts carry the callers' proofs.  The selection panics only on an
    amount that is not positive (`selectUtxo_ok`); the items it returns, with
    those it leaves, are the items it was given (`selectUtxoValues_perm`); and
    with amounts that are not negative they are worth at least the requested amount
    (`selectUtxo_sum`). -/

namespace CoinSelection

open MachineInt Program

/-- The sort key `-(value - amount_remain).abs()`. -/
def pickKey (remain value : Int) : Int := i64 (-i64 |i64 (value - remain)|)

/-- The inputs in the order `sort_by_key` leaves them. -/
def sortByKey (remain : Int) (inputs : List Int) : List Int :=
  inputs.insertionSort (fun a b => pickKey remain a ≤ pickKey remain b)

/-- The greedy loop: the picks, in order.  It takes one input per round, so
    `fuel` is the number of inputs left. -/
def pickLoop : Nat → List Int → Int → Except Panic (List Int)
  | 0, _, remain =>
      if 0 < remain then .error ⟨"not enough available inputs"⟩ else .ok []
  | fuel + 1, inputs, remain =>
      if 0 < remain then
        match (sortByKey remain inputs).getLast? with
        | none => .error ⟨"not enough available inputs"⟩
        | some selected => do
            let picks ← pickLoop fuel (sortByKey remain inputs).dropLast (i64 (remain - selected))
            pure (selected :: picks)
      else .ok []

/-- Drop the smallest picks while the others exceed the amount.  The list is
    ascending, so `result.pop()` takes its head. -/
def trim (amount : Int) : List Int → Except Panic (List Int)
  | [] => .error ⟨"called `Option::unwrap()` on a `None` value"⟩
  | last :: rest =>
      if amount < i64 (i64 (last :: rest).sum - last) then trim amount rest
      else .ok (last :: rest)

/-- `select_utxo`. -/
def selectUtxo (inputs : List Int) (amount : Int) : Except Panic (List Int) := do
  if ¬ 0 < amount then
    throw ⟨"assertion failed: amount > 0"⟩
  let picks ← pickLoop inputs.length inputs amount
  let result ← trim amount (picks.insertionSort (· ≤ ·))
  pure result.reverse

/-- `Vec::swap_remove`: the last element takes the place of the removed one. -/
def swapRemove {α : Type} (l : List α) (i : Nat) : List α :=
  match l.getLast? with
  | none => l
  | some last => (l.set i last).dropLast

/-- The loop of `select_utxo_values`: find each selected amount again. -/
def takeValues {α : Type} : List Int → List (Int × α) → Except Panic (List α)
  | [], _ => .ok []
  | amount :: selected, inputs =>
      match inputs.findIdx? (fun input => input.1 == amount) with
      | none => .error ⟨"called `Option::unwrap()` on a `None` value"⟩
      | some index =>
          match inputs[index]? with
          | none => .error ⟨"swap_remove index out of bounds"⟩
          | some value => do
              let rest ← takeValues selected (swapRemove inputs index)
              pure (value.2 :: rest)

/-- `select_utxo_values`. -/
def selectUtxoValues {α : Type} (inputs : List (Int × α)) (amount : Int) :
    Except Panic (List α) := do
  let selected ← selectUtxo (inputs.map (·.1)) amount
  takeValues selected inputs

/-! ## What is selected is taken from the inputs -/

theorem sortByKey_perm (remain : Int) (inputs : List Int) :
    (sortByKey remain inputs).Perm inputs :=
  List.perm_insertionSort _ inputs

/-- A round of the greedy loop takes one element off the sorted inputs. -/
theorem getLast_dropLast_perm {remain selected : Int} {inputs : List Int}
    (h : (sortByKey remain inputs).getLast? = some selected) :
    (selected :: (sortByKey remain inputs).dropLast).Perm inputs := by
  have happ := List.dropLast_append_getLast? selected h
  have hcons := List.perm_append_singleton selected (sortByKey remain inputs).dropLast
  rw [happ] at hcons
  exact hcons.symm.trans (sortByKey_perm remain inputs)

/-- A greedy loop that returns: each round takes one of the inputs and leaves
    the others. -/
inductive Picks : List Int → Int → List Int → Prop
  | done {inputs : List Int} {remain : Int} : ¬ 0 < remain → Picks inputs remain []
  | pick {inputs left rest : List Int} {remain selected : Int} : 0 < remain →
      (selected :: left).Perm inputs → Picks left (i64 (remain - selected)) rest →
      Picks inputs remain (selected :: rest)

theorem picks_of_pickLoop : ∀ {fuel : Nat} {inputs picks : List Int} {remain : Int},
    pickLoop fuel inputs remain = .ok picks → Picks inputs remain picks := by
  intro fuel
  induction fuel with
  | zero =>
      intro inputs picks remain h
      rw [pickLoop] at h
      split at h
      · exact nomatch h
      · next hdone =>
          cases h
          exact .done hdone
  | succ fuel ih =>
      intro inputs picks remain h
      rw [pickLoop] at h
      split at h
      · next hpos =>
          split at h
          · exact nomatch h
          · next selected hlast =>
              obtain ⟨rest, hrest, hpicks⟩ := bind_returns h
              cases hpicks
              exact .pick hpos (getLast_dropLast_perm hlast) (ih hrest)
      · next hdone =>
          cases h
          exact .done hdone

/-- The picks, with some inputs left over, are the inputs. -/
theorem Picks.subperm {inputs picks : List Int} {remain : Int} (h : Picks inputs remain picks) :
    picks.Subperm inputs := by
  induction h with
  | done _ => exact List.nil_subperm
  | pick _ hperm _ ih => exact ((List.subperm_cons _).mpr ih).trans hperm.subperm

/-- Trimming drops a prefix of the ascending picks. -/
theorem trim_suffix (amount : Int) : ∀ (l r : List Int), trim amount l = .ok r → r <:+ l := by
  intro l
  induction l with
  | nil => intro r h; exact nomatch h
  | cons last rest ih =>
      intro r h
      rw [trim] at h
      split at h
      · exact (ih r h).trans (List.suffix_cons last rest)
      · cases h
        exact List.suffix_refl _

/-- How a successful `select_utxo` ran: the picks and the trimmed picks. -/
theorem selectUtxo_inv {inputs selected : List Int} {amount : Int}
    (h : selectUtxo inputs amount = .ok selected) :
    0 < amount ∧ ∃ picks result, pickLoop inputs.length inputs amount = .ok picks
      ∧ trim amount (picks.insertionSort (· ≤ ·)) = .ok result ∧ selected = result.reverse := by
  unfold selectUtxo at h
  by_cases hpos : 0 < amount
  · refine ⟨hpos, ?_⟩
    rw [if_neg (not_not_intro hpos)] at h
    obtain ⟨picks, hp, h⟩ := bind_returns h
    obtain ⟨result, ht, h⟩ := bind_returns h
    cases h
    exact ⟨picks, result, hp, ht, rfl⟩
  · rw [if_pos hpos] at h
    exact nomatch h

/-- **SELECTION IS A SUB-MULTISET** of the inputs. -/
theorem selectUtxo_subperm {inputs selected : List Int} {amount : Int}
    (h : selectUtxo inputs amount = .ok selected) : selected.Subperm inputs := by
  obtain ⟨-, picks, result, hp, ht, rfl⟩ := selectUtxo_inv h
  have h1 : result.reverse.Subperm result := (List.reverse_perm result).subperm
  have h2 : result.Subperm (picks.insertionSort (· ≤ ·)) :=
    (trim_suffix amount _ _ ht).sublist.subperm
  have h3 : (picks.insertionSort (· ≤ ·)).Subperm picks :=
    (List.perm_insertionSort _ picks).subperm
  exact ((h1.trans h2).trans h3).trans (picks_of_pickLoop hp).subperm

/-! ## The items behind the amounts -/

/-- Removing an element by swapping keeps all the others. -/
theorem swapRemove_perm {α : Type} {l : List α} {i : Nat} {a : α} (h : l[i]? = some a) :
    (a :: swapRemove l i).Perm l := by
  obtain ⟨hi, ha⟩ := List.getElem?_eq_some_iff.mp h
  have hne : l ≠ [] := by rintro rfl; exact nomatch hi
  have hlast : l.getLast? = some (l.getLast hne) := List.getLast?_eq_some_getLast hne
  unfold swapRemove
  rw [hlast]
  show (a :: (l.set i (l.getLast hne)).dropLast).Perm l
  by_cases hend : i + 1 = l.length
  · -- the last element itself is removed
    have hset : (l.set i (l.getLast hne)).dropLast = l.dropLast := by
      apply List.ext_getElem
      · simp
      · intro n h1 h2
        simp only [List.length_dropLast, List.length_set] at h1
        rw [List.getElem_dropLast, List.getElem_dropLast, List.getElem_set_of_ne (by omega)]
    have hlasta : l.getLast hne = a := by
      rw [List.getLast_eq_getElem, ← ha]
      congr 1; omega
    rw [hset]
    have happ := List.dropLast_append_getLast hne
    rw [hlasta] at happ
    have hcons := List.perm_append_singleton a l.dropLast
    rw [happ] at hcons
    exact hcons.symm
  · have hlt : i < l.dropLast.length := by rw [List.length_dropLast]; omega
    have hset : (l.set i (l.getLast hne)).dropLast = l.dropLast.set i (l.getLast hne) := by
      apply List.ext_getElem
      · simp
      · intro n h1 h2
        simp only [List.length_dropLast, List.length_set] at h1
        rw [List.getElem_dropLast]
        by_cases hni : i = n
        · subst hni
          rw [List.getElem_set_self, List.getElem_set_self]
        · rw [List.getElem_set_ne hni, List.getElem_set_ne hni, List.getElem_dropLast]
    rw [hset]
    have hdrop : l.dropLast.drop i = a :: l.dropLast.drop (i + 1) := by
      rw [List.drop_eq_getElem_cons hlt, List.getElem_dropLast, ha]
    have hsplit : l.dropLast = l.dropLast.take i ++ a :: l.dropLast.drop (i + 1) := by
      rw [← hdrop, List.take_append_drop]
    have happ := List.dropLast_append_getLast hne
    rw [List.set_eq_take_append_cons_drop, if_pos hlt]
    have hl : l = l.dropLast.take i ++ a :: l.dropLast.drop (i + 1) ++ [l.getLast hne] := by
      rw [← hsplit, happ]
    generalize l.dropLast.take i = front at *
    generalize l.dropLast.drop (i + 1) = back at *
    generalize l.getLast hne = last at *
    rw [hl, List.append_assoc]
    have hperm : (last :: back).Perm (back ++ [last]) := (List.perm_append_singleton last back).symm
    exact (List.Perm.cons a (List.Perm.append_left front hperm)).trans List.perm_middle.symm

/-- What the loop of `select_utxo_values` takes: pairs at distinct positions
    whose amounts are the selected ones. -/
theorem takeValues_inv {α : Type} : ∀ (selected : List Int) (inputs : List (Int × α))
    (items : List α), takeValues selected inputs = .ok items →
    ∃ taken rest : List (Int × α), (taken ++ rest).Perm inputs ∧ taken.map (·.1) = selected
      ∧ taken.map (·.2) = items := by
  intro selected
  induction selected with
  | nil =>
      intro inputs items h
      cases h
      exact ⟨[], inputs, List.Perm.refl _, rfl, rfl⟩
  | cons amount selected ih =>
      intro inputs items h
      rw [takeValues] at h
      split at h
      · exact nomatch h
      · rename_i index hidx
        split at h
        · exact nomatch h
        · rename_i value hval
          cases hrec : takeValues selected (swapRemove inputs index) with
          | error p => rw [hrec] at h; exact nomatch h
          | ok vs =>
              rw [hrec] at h
              cases h
              obtain ⟨taken, rest, hperm, hfst, hsnd⟩ := ih _ _ hrec
              obtain ⟨hlt, hgood, -⟩ := List.findIdx?_eq_some_iff_getElem.mp hidx
              obtain ⟨_, hget⟩ := List.getElem?_eq_some_iff.mp hval
              rw [hget] at hgood
              refine ⟨value :: taken, rest, ?_, ?_, ?_⟩
              · exact (List.Perm.cons value hperm).trans (swapRemove_perm hval)
              · rw [List.map_cons, hfst, beq_iff_eq.mp hgood]
              · rw [List.map_cons, hsnd]

/-- Amounts that occur among the inputs are always found again. -/
theorem takeValues_ok {α : Type} : ∀ (selected : List Int) (inputs : List (Int × α)),
    selected.Subperm (inputs.map (·.1)) → ∃ items, takeValues selected inputs = .ok items := by
  intro selected
  induction selected with
  | nil => intro inputs _; exact ⟨[], rfl⟩
  | cons amount selected ih =>
      intro inputs hsub
      have hmem : amount ∈ inputs.map (·.1) := hsub.subset (List.mem_cons_self ..)
      obtain ⟨pair, hpair, hamount⟩ := List.mem_map.mp hmem
      cases hidx : inputs.findIdx? (fun input => input.1 == amount) with
      | none =>
          have hno := List.findIdx?_eq_none_iff.mp hidx pair hpair
          rw [hamount, beq_self_eq_true] at hno
          exact nomatch hno
      | some index =>
          obtain ⟨hlt, hgood, -⟩ := List.findIdx?_eq_some_iff_getElem.mp hidx
          have hval : inputs[index]? = some inputs[index] := List.getElem?_eq_getElem hlt
          have hperm := (swapRemove_perm hval).map (·.1)
          rw [List.map_cons, beq_iff_eq.mp hgood] at hperm
          obtain ⟨items, hitems⟩ := ih (swapRemove inputs index)
            ((List.subperm_cons amount).mp (hsub.trans hperm.symm.subperm))
          refine ⟨inputs[index].2 :: items, ?_⟩
          rw [takeValues, hidx]
          show (match inputs[index]? with
            | none => _
            | some value => _) = _
          rw [hval, hitems]
          rfl

/-- **ITEMS AT DISTINCT POSITIONS**: the returned items and some items left
    over are the items given, and the amounts they carry are those
    `select_utxo` returned. -/
theorem selectUtxoValues_inv {α : Type} {inputs : List (Int × α)} {amount : Int}
    {items : List α} (h : selectUtxoValues inputs amount = .ok items) :
    ∃ taken rest : List (Int × α), (taken ++ rest).Perm inputs
      ∧ selectUtxo (inputs.map (·.1)) amount = .ok (taken.map (·.1))
      ∧ taken.map (·.2) = items := by
  obtain ⟨selected, hselected, hitems⟩ := bind_returns h
  obtain ⟨taken, rest, hperm, hfst, hsnd⟩ := takeValues_inv selected inputs items hitems
  exact ⟨taken, rest, hperm, by rw [hfst, hselected], hsnd⟩

/-! ## When the selection returns -/

/-- The greedy loop finds the amount when the inputs, in wrapped arithmetic,
    cover it: the invariant is what is missing after all inputs are taken. -/
theorem pickLoop_ok : ∀ (fuel : Nat) (inputs : List Int) (remain : Int),
    inputs.length = fuel → IsI64 remain → i64 (remain - inputs.sum) ≤ 0 →
    ∃ picks, pickLoop fuel inputs remain = .ok picks ∧ (0 < remain → picks ≠ []) := by
  intro fuel
  induction fuel with
  | zero =>
      intro inputs remain hlen hr hcov
      have hnil := List.length_eq_zero_iff.mp hlen
      rw [hnil, List.sum_nil, sub_zero, i64_of_isI64 hr] at hcov
      refine ⟨[], ?_, fun h => absurd h (not_lt.mpr hcov)⟩
      rw [pickLoop, if_neg (not_lt.mpr hcov)]
  | succ fuel ih =>
      intro inputs remain hlen hr hcov
      by_cases hpos : 0 < remain
      · have hsorted : (sortByKey remain inputs).length = fuel + 1 := by
          rw [(sortByKey_perm remain inputs).length_eq, hlen]
        have hne : sortByKey remain inputs ≠ [] := by
          intro h; rw [h] at hsorted; exact nomatch hsorted
        have hlast := List.getLast?_eq_some_getLast hne
        have hperm := getLast_dropLast_perm hlast
        have hsum : (sortByKey remain inputs).getLast hne + (sortByKey remain inputs).dropLast.sum
            = inputs.sum := by
          rw [← List.sum_cons, hperm.sum_eq]
        obtain ⟨picks, hpicks, -⟩ := ih (sortByKey remain inputs).dropLast
          (i64 (remain - (sortByKey remain inputs).getLast hne))
          (by rw [List.length_dropLast, hsorted]; rfl) (isI64_i64 _)
          (by rw [i64_i64_sub, sub_sub, hsum]; exact hcov)
        refine ⟨(sortByKey remain inputs).getLast hne :: picks, ?_, fun _ h => nomatch h⟩
        rw [pickLoop, if_pos hpos, hlast]
        show (pickLoop fuel _ _ >>= _) = _
        rw [hpicks]
        rfl
      · exact ⟨[], by rw [pickLoop, if_neg hpos], fun h => absurd h hpos⟩

/-- Trimming never empties a list that is not empty. -/
theorem trim_ok {amount : Int} (hpos : 0 < amount) :
    ∀ l : List Int, l ≠ [] → ∃ r, trim amount l = .ok r := by
  intro l
  induction l with
  | nil => intro h; exact absurd rfl h
  | cons last rest ih =>
      intro _
      rw [trim]
      split
      · rename_i hc
        refine ih ?_
        rintro rfl
        rw [List.sum_singleton, i64_i64_sub, sub_self, i64_of_isI64 ⟨by norm_num, by norm_num⟩] at hc
        omega
      · exact ⟨_, rfl⟩

/-- **NO PANIC**: a positive amount that the inputs cover is selected, also
    when their sum wraps. -/
theorem selectUtxo_ok {inputs : List Int} {amount : Int} (hpos : 0 < amount)
    (hcov : amount ≤ i64 inputs.sum) : ∃ selected, selectUtxo inputs amount = .ok selected := by
  have hsum := isI64_i64 inputs.sum
  have hamount : IsI64 amount := isI64_of_le_i64 hpos hcov
  have hrest : i64 (amount - inputs.sum) ≤ 0 := by
    rw [← i64_sub_i64, i64_of_isI64]
    · omega
    · unfold IsI64 at hsum ⊢
      constructor <;> omega
  obtain ⟨picks, hpicks, hne⟩ := pickLoop_ok inputs.length inputs amount rfl hamount hrest
  have hsorted : picks.insertionSort (· ≤ ·) ≠ [] := by
    intro h
    have hperm := List.perm_insertionSort (· ≤ ·) picks
    rw [h] at hperm
    exact hne hpos hperm.symm.eq_nil
  obtain ⟨result, hresult⟩ := trim_ok hpos _ hsorted
  refine ⟨result.reverse, ?_⟩
  unfold selectUtxo
  rw [if_neg (not_not_intro hpos), hpicks]
  show (trim amount (picks.insertionSort (· ≤ ·)) >>= fun result => pure result.reverse) = _
  rw [hresult]
  rfl

/-- `select_utxo_values` returns whenever `select_utxo` does. -/
theorem selectUtxoValues_ok {α : Type} {inputs : List (Int × α)} {amount : Int}
    (hpos : 0 < amount) (hcov : amount ≤ i64 (inputs.map (·.1)).sum) :
    ∃ items, selectUtxoValues inputs amount = .ok items := by
  obtain ⟨selected, hs⟩ := selectUtxo_ok hpos hcov
  obtain ⟨items, hitems⟩ := takeValues_ok selected inputs (selectUtxo_subperm hs)
  refine ⟨items, ?_⟩
  unfold selectUtxoValues
  rw [hs]
  exact hitems

/-- An amount that is not positive hits the assertion. -/
theorem selectUtxoValues_panics {α : Type} {inputs : List (Int × α)} {amount : Int}
    (h : ¬ 0 < amount) : Panics (selectUtxoValues inputs amount) := by
  unfold selectUtxoValues selectUtxo
  rw [if_pos h]
  exact ⟨_, rfl⟩

/-! ## What is selected covers the amount -/

/-- The greedy loop overshoots by less than one input. -/
theorem Picks.sum {inputs picks : List Int} {remain : Int} (h : Picks inputs remain picks)
    (hin : ∀ v ∈ inputs, 0 ≤ v ∧ v < 2 ^ 63) (hr : IsI64 remain) :
    remain ≤ picks.sum ∧ (0 < remain → picks.sum < remain + 2 ^ 63) := by
  induction h with
  | done hdone =>
      rw [List.sum_nil]
      omega
  | @pick inputs left rest remain selected hpos hperm hrest ih =>
      have hsel := hin selected (hperm.subset List.mem_cons_self)
      have hleft : ∀ v ∈ left, 0 ≤ v ∧ v < 2 ^ 63 :=
        fun v hv => hin v (hperm.subset (List.mem_cons_of_mem _ hv))
      -- what remains is positive and the pick is not negative, so nothing wraps
      have hexact : i64 (remain - selected) = remain - selected := by
        refine i64_of_isI64 ?_
        unfold IsI64 at hr ⊢
        constructor <;> omega
      obtain ⟨hlow, hhigh⟩ := ih hleft (isI64_i64 _)
      rw [hexact] at hlow hhigh hrest
      rw [List.sum_cons]
      refine ⟨by omega, fun _ => ?_⟩
      by_cases hmore : 0 < remain - selected
      · have hrest := hhigh hmore
        omega
      · -- the last pick overshoots, by less than itself
        have hstop : rest.sum = 0 := by
          cases hrest with
          | done _ => rfl
          | pick hpos _ _ => exact absurd hpos hmore
        omega

/-- Trimming keeps the amount covered, also when the running sum wraps. -/
theorem trim_sum {amount : Int} (hpos : 0 < amount) : ∀ (l r : List Int),
    (∀ v ∈ l, 0 ≤ v) → l.sum < 2 ^ 64 → amount ≤ l.sum → trim amount l = .ok r →
    amount ≤ r.sum := by
  intro l
  induction l with
  | nil => intro r _ _ _ h; exact nomatch h
  | cons last rest ih =>
      intro r hv hlt hle h
      have hlast := hv last (List.mem_cons_self ..)
      have hrest : ∀ v ∈ rest, 0 ≤ v := fun v hm => hv v (List.mem_cons_of_mem _ hm)
      have hnn : 0 ≤ rest.sum := List.sum_nonneg hrest
      rw [List.sum_cons] at hlt hle
      rw [trim] at h
      split at h
      · rename_i hc
        rw [List.sum_cons, i64_i64_sub, add_sub_cancel_left] at hc
        have hexact : i64 rest.sum = rest.sum :=
          i64_eq_of_nonneg hnn (by omega) (by omega)
        rw [hexact] at hc
        exact ih r hrest (by omega) hc.le h
      · cases h
        rw [List.sum_cons]
        exact hle

/-- **THE AMOUNT IS COVERED** by what `select_utxo` returns. -/
theorem selectUtxo_sum {inputs selected : List Int} {amount : Int}
    (hin : ∀ v ∈ inputs, 0 ≤ v ∧ v < 2 ^ 63) (hamount : IsI64 amount)
    (h : selectUtxo inputs amount = .ok selected) : amount ≤ selected.sum := by
  obtain ⟨hpos, picks, result, hp, ht, rfl⟩ := selectUtxo_inv h
  obtain ⟨hlow, hhigh⟩ := (picks_of_pickLoop hp).sum hin hamount
  have hsort := List.perm_insertionSort (· ≤ ·) picks
  have hhigh' := hhigh hpos
  rw [List.sum_reverse]
  refine trim_sum hpos _ _ ?_ ?_ ?_ ht
  · intro v hv
    exact (hin v ((picks_of_pickLoop hp).subperm.subset (hsort.subset hv))).1
  · rw [hsort.sum_eq]
    unfold IsI64 at hamount
    omega
  · rw [hsort.sum_eq]
    exact hlow

/-! ## The selection as a whole -/

/-- The selected amounts are descending. -/
theorem selectUtxo_sorted {inputs selected : List Int} {amount : Int}
    (h : selectUtxo inputs amount = .ok selected) : selected.Pairwise (· ≥ ·) := by
  obtain ⟨-, picks, result, -, ht, rfl⟩ := selectUtxo_inv h
  have hsorted : (picks.insertionSort (· ≤ ·)).Pairwise (· ≤ ·) := List.pairwise_insertionSort _ picks
  rw [List.pairwise_reverse]
  exact hsorted.sublist (trim_suffix amount _ _ ht).sublist

/-- Elements that are taken off a list stand at different positions of it. -/
theorem exists_positions {β : Type} {taken rest l : List β} (h : (taken ++ rest).Perm l) :
    ∃ positions : List (Fin l.length), positions.Nodup ∧ taken = positions.map l.get := by
  have hsub : taken.Subperm l := (List.sublist_append_left taken rest).subperm.trans h.subperm
  obtain ⟨found, hperm, hfound⟩ := hsub
  obtain ⟨ordered, hmap, hordered⟩ := List.sublist_eq_map_getElem hfound
  have hget : List.Forall₂ (fun b i => b = l.get i) found ordered := by
    rw [hmap, List.forall₂_map_left_iff]
    exact List.forall₂_same.mpr fun i _ => rfl
  obtain ⟨positions, htaken, hpositions⟩ := List.perm_comp_forall₂ hperm.symm hget
  refine ⟨positions, hpositions.nodup_iff.mpr (hordered.imp ne_of_lt), ?_⟩
  rwa [← List.forall₂_map_right_iff, List.forall₂_eq_eq_eq] at htaken

/-- The amounts are those of coins, and their sum is one too. -/
structure Coins (amounts : List Int) : Prop where
  nonneg : ∀ v ∈ amounts, 0 ≤ v
  total : amounts.sum < 2 ^ 63

theorem Coins.bounded {amounts : List Int} (h : Coins amounts) :
    ∀ v ∈ amounts, 0 ≤ v ∧ v < 2 ^ 63 := by
  intro v hv
  have hle : v ≤ amounts.sum := List.single_le_sum h.nonneg v hv
  have htotal := h.total
  exact ⟨h.nonneg v hv, by omega⟩

theorem Coins.i64_sum {amounts : List Int} (h : Coins amounts) : i64 amounts.sum = amounts.sum := by
  have hnn : 0 ≤ amounts.sum := List.sum_nonneg h.nonneg
  have htotal := h.total
  refine i64_of_isI64 ⟨by omega, htotal⟩

/-- **SELECTION**: a positive amount that the coins cover is selected.  The
    selected amounts are some of the coins', in descending order, and cover the
    amount; and the items are found again, each at a position of its own. -/
theorem selection_covers_amount :
    (∀ (inputs : List Int) (amount : Int), Coins inputs → 0 < amount → amount ≤ inputs.sum →
      ∃ selected, selectUtxo inputs amount = .ok selected ∧ selected.Subperm inputs ∧
        selected.Pairwise (· ≥ ·) ∧ amount ≤ selected.sum) ∧
    (∀ (α : Type) (inputs : List (Int × α)) (amount : Int), Coins (inputs.map (·.1)) →
      0 < amount → amount ≤ (inputs.map (·.1)).sum →
      ∃ (selected : List Int) (items : List α) (positions : List (Fin inputs.length)),
        selectUtxo (inputs.map (·.1)) amount = .ok selected ∧
        selectUtxoValues inputs amount = .ok items ∧ positions.Nodup ∧
        selected = positions.map (fun i => (inputs.get i).1) ∧
        items = positions.map (fun i => (inputs.get i).2)) := by
  constructor
  · intro inputs amount hcoins hpos hcov
    have hi64 : amount ≤ i64 inputs.sum := by
      rw [hcoins.i64_sum]
      exact hcov
    obtain ⟨selected, hselected⟩ := selectUtxo_ok hpos hi64
    refine ⟨selected, hselected, selectUtxo_subperm hselected, selectUtxo_sorted hselected, ?_⟩
    exact selectUtxo_sum hcoins.bounded (isI64_of_le_i64 hpos hi64) hselected
  · intro α inputs amount hcoins hpos hcov
    have hi64 : amount ≤ i64 (inputs.map (·.1)).sum := by
      rw [hcoins.i64_sum]
      exact hcov
    obtain ⟨items, hitems⟩ := selectUtxoValues_ok hpos hi64
    obtain ⟨taken, rest, hperm, hselected, hsnd⟩ := selectUtxoValues_inv hitems
    obtain ⟨positions, hnodup, htaken⟩ := exists_positions hperm
    refine ⟨taken.map (·.1), items, positions, hselected, hitems, hnodup, ?_, ?_⟩
    · rw [htaken, List.map_map]
      rfl
    · rw [← hsnd, htaken, List.map_map]
      rfl

/-- Two coins of the same amount are told apart. -/
theorem equal_coins_selected :
    ∃ positions : List (Fin 3), positions.Nodup ∧
      ([10, 10] : List Int) =
        positions.map (fun i => ([(10, 'a'), (10, 'b'), (1, 'c')].get i).1) := by
  obtain ⟨selected, items, positions, hselected, _, hnodup, hamounts, _⟩ :=
    selection_covers_amount.2 Char [(10, 'a'), (10, 'b'), (1, 'c')] 15
      ⟨by decide, by decide⟩ (by decide) (by decide)
  have hcomputed : selectUtxo ([(10, 'a'), (10, 'b'), (1, 'c')].map (·.1)) 15 = .ok [10, 10] := by
    decide +kernel
  cases hcomputed.symm.trans hselected
  exact ⟨positions, hnodup, hamounts⟩

example : selectUtxo [5000, 10, 5] 16 = .ok [5000] := by decide +kernel
example : selectUtxo [1000, 100, 10, 1] 102 = .ok [100, 10] := by decide +kernel

end CoinSelection
