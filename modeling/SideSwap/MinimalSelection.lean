import SideSwap.CoinSelection

/-! # No unnecessary coin

    `select_utxo` drops the smallest pick only while the others exceed the
    amount, so a selection from which one coin could be dropped with nothing to
    spare would be left as it is.  The greedy order excludes it: a coin that is
    picked while the last pick would still have fit was nearer to what was
    missing, hence is no smaller than the last pick.  No part of the picks is
    worth exactly what they exceed the amount by.

    The sum of the picks is an `i64` and may wrap, which ends the trimming; the
    condition under which it does not is exact. -/

namespace CoinSelection

open MachineInt Program

/-- The amounts of inputs: positive `i64` values. -/
def Amounts (inputs : List Int) : Prop := ∀ v ∈ inputs, 0 < v ∧ v < 2 ^ 63

theorem Amounts.subperm {inputs part : List Int} (h : Amounts inputs) (hsub : part.Subperm inputs) :
    Amounts part := by
  intro v hv
  exact h v (hsub.subset hv)

/-! ## The greedy loop in exact numbers -/

/-- The sort key of a coin, when neither it nor what remains is negative. -/
theorem pickKey_eq {remain value : Int} (hremain : 0 < remain ∧ remain < 2 ^ 63)
    (hvalue : 0 < value ∧ value < 2 ^ 63) : pickKey remain value = -|value - remain| := by
  have hsub : i64 (value - remain) = value - remain := i64_of_isI64 ⟨by omega, by omega⟩
  have habs : i64 |value - remain| = |value - remain| := by
    refine i64_of_isI64 ⟨?_, ?_⟩
    · have hnn := abs_nonneg (value - remain)
      omega
    · rw [abs_lt]
      omega
  have hlt : |value - remain| < 2 ^ 63 := by
    rw [abs_lt]
    omega
  have hnn := abs_nonneg (value - remain)
  rw [pickKey, hsub, habs]
  exact i64_of_isI64 ⟨by omega, by omega⟩

/-- The last of the sorted inputs is the one nearest to what remains. -/
theorem getLast_nearest {remain selected : Int} {inputs : List Int} (hin : Amounts inputs)
    (hremain : 0 < remain ∧ remain < 2 ^ 63)
    (h : (sortByKey remain inputs).getLast? = some selected) :
    ∀ v ∈ inputs, |selected - remain| ≤ |v - remain| := by
  intro v hv
  have hsorted : (sortByKey remain inputs).Pairwise
      (fun a b => pickKey remain a ≤ pickKey remain b) := by
    refine @List.pairwise_insertionSort _ _ _ ⟨?_⟩ ⟨?_⟩ inputs
    · intro a b
      exact le_total _ _
    · intro a b c hab hbc
      exact hab.trans hbc
  have hsplit := List.dropLast_append_getLast? selected h
  have hselected := hin selected ((getLast_dropLast_perm h).subset List.mem_cons_self)
  have hkey : pickKey remain v ≤ pickKey remain selected := by
    have hmem := (getLast_dropLast_perm h).symm.subset hv
    rcases List.mem_cons.mp hmem with rfl | hleft
    · exact le_rfl
    · rw [← hsplit] at hsorted
      exact (List.pairwise_append.mp hsorted).2.2 v hleft selected (List.mem_singleton.mpr rfl)
  rw [pickKey_eq hremain (hin v hv), pickKey_eq hremain hselected] at hkey
  omega

/-- The greedy loop on amounts: each round takes a coin nearest to what
    remains, and nothing wraps. -/
inductive Greedy : List Int → Int → List Int → Prop
  | done {inputs : List Int} {remain : Int} : remain ≤ 0 → Greedy inputs remain []
  | pick {inputs left rest : List Int} {remain selected : Int} : 0 < remain →
      (selected :: left).Perm inputs → (∀ v ∈ inputs, |selected - remain| ≤ |v - remain|) →
      Greedy left (remain - selected) rest → Greedy inputs remain (selected :: rest)

/-- Inputs that cover what remains are enough for the greedy loop. -/
theorem pickLoop_greedy : ∀ (fuel : Nat) (inputs : List Int) (remain : Int),
    inputs.length = fuel → Amounts inputs → IsI64 remain → remain ≤ inputs.sum →
    ∃ picks, pickLoop fuel inputs remain = .ok picks ∧ Greedy inputs remain picks := by
  intro fuel
  induction fuel with
  | zero =>
      intro inputs remain hlen _ _ hcov
      rw [List.length_eq_zero_iff.mp hlen, List.sum_nil] at hcov
      exact ⟨[], by rw [pickLoop, if_neg (by omega)], .done hcov⟩
  | succ fuel ih =>
      intro inputs remain hlen hin hremain hcov
      by_cases hpos : 0 < remain
      · have hsorted : (sortByKey remain inputs).length = fuel + 1 := by
          rw [(sortByKey_perm remain inputs).length_eq, hlen]
        obtain ⟨selected, hlast⟩ : ∃ selected, (sortByKey remain inputs).getLast? = some selected := by
          cases hl : sortByKey remain inputs with
          | nil =>
              rw [hl, List.length_nil] at hsorted
              omega
          | cons a l => exact ⟨_, List.getLast?_eq_some_getLast (List.cons_ne_nil a l)⟩
        have hperm := getLast_dropLast_perm hlast
        have hselected := hin selected (hperm.subset List.mem_cons_self)
        have hsum : selected + (sortByKey remain inputs).dropLast.sum = inputs.sum := by
          rw [← List.sum_cons, hperm.sum_eq]
        have hexact : i64 (remain - selected) = remain - selected := by
          unfold IsI64 at hremain
          exact i64_of_isI64 ⟨by omega, by omega⟩
        obtain ⟨rest, hrest, hgreedy⟩ := ih (sortByKey remain inputs).dropLast (i64 (remain - selected))
          (by rw [List.length_dropLast, hsorted]; rfl)
          (hin.subperm ((List.sublist_cons_self _ _).subperm.trans hperm.subperm))
          (isI64_i64 _) (by omega)
        rw [hexact] at hgreedy
        refine ⟨selected :: rest, ?_, .pick hpos hperm
          (getLast_nearest hin ⟨hpos, hremain.2⟩ hlast) hgreedy⟩
        rw [pickLoop, if_pos hpos, hlast]
        show (pickLoop fuel _ _ >>= _) = _
        rw [hrest]
        rfl
      · exact ⟨[], by rw [pickLoop, if_neg hpos], .done (by omega)⟩

theorem Greedy.subperm {inputs picks : List Int} {remain : Int} (h : Greedy inputs remain picks) :
    picks.Subperm inputs := by
  induction h with
  | done _ => exact List.nil_subperm
  | pick _ hperm _ _ ih => exact ((List.subperm_cons _).mpr ih).trans hperm.subperm

/-- The picks cover what remains, and all but the last one do not. -/
theorem Greedy.last {inputs picks : List Int} {remain : Int} (h : Greedy inputs remain picks) :
    0 < remain → ∃ front last, picks = front ++ [last] ∧ front.sum < remain ∧
      remain ≤ front.sum + last := by
  induction h with
  | done hdone =>
      intro hpos
      omega
  | @pick inputs left rest remain selected hpos hperm _ hrest ih =>
      intro _
      by_cases hmore : 0 < remain - selected
      · obtain ⟨front, last, rfl, hfront, hcover⟩ := ih hmore
        refine ⟨selected :: front, last, rfl, ?_, ?_⟩
        · rw [List.sum_cons]
          omega
        · rw [List.sum_cons]
          omega
      · cases hrest with
        | done _ =>
            refine ⟨[], selected, rfl, ?_, ?_⟩
            · exact hpos
            · rw [List.sum_nil]
              omega
        | pick hpos' _ _ _ => exact absurd hpos' hmore

/-- Some of the coins are worth no more than those before the last one, unless
    the last one is among them. -/
theorem sum_le_of_sublist_concat {part front : List Int} {last : Int}
    (hpart : part.Sublist (front ++ [last])) (hfront : ∀ v ∈ front, 0 < v) :
    part.sum ≤ front.sum ∨ last ≤ part.sum := by
  obtain ⟨inFront, inLast, rfl, hsub, hend⟩ := List.sublist_append_iff.mp hpart
  have hpos : 0 ≤ inFront.sum := by
    refine List.sum_nonneg ?_
    intro v hv
    exact (hfront v (hsub.subset hv)).le
  rw [List.sum_append]
  rcases List.sublist_singleton.mp hend with rfl | rfl
  · left
    rw [List.sum_nil, add_zero]
    exact hsub.sum_le_sum fun v hv => (hfront v hv).le
  · right
    rw [List.sum_singleton]
    omega

/-- **NO EXACT PART**: no part of the picks is worth what they exceed the
    amount by. -/
theorem Greedy.no_exact_part {inputs picks : List Int} {remain : Int}
    (h : Greedy inputs remain picks) : Amounts inputs → 0 < remain →
    ∀ part : List Int, part.Sublist picks → part ≠ [] → part.sum ≠ picks.sum - remain := by
  induction h with
  | done hdone =>
      intro _ hpos
      omega
  | @pick inputs left rest remain selected hpos hperm hnear hrest ih =>
      intro hin _ part hpart hne hexact
      have hleft : Amounts left :=
        hin.subperm ((List.sublist_cons_self _ _).subperm.trans hperm.subperm)
      rw [List.sum_cons] at hexact
      by_cases hmore : 0 < remain - selected
      · cases hpart with
        | cons _ hpart =>
            -- the first pick is not among them: the same part of the later picks
            exact ih hleft hmore part hpart hne (by omega)
        | @cons_cons part _ _ hpart =>
            -- it is: then the last pick was further away although it would have fit
            obtain ⟨front, last, rfl, hfront, hcover⟩ := hrest.last hmore
            have hrestin : Amounts (front ++ [last]) := hleft.subperm hrest.subperm
            have hlast : last ∈ inputs := hperm.subset (List.mem_cons_of_mem _
              (hrest.subperm.subset (List.mem_append_right _ (List.mem_singleton.mpr rfl))))
            have hselected := hin selected (hperm.subset List.mem_cons_self)
            have hpos : 0 ≤ part.sum := by
              refine List.sum_nonneg ?_
              intro v hv
              exact (hrestin v (hpart.subset hv)).1.le
            have hnearer := hnear last hlast
            rw [List.sum_cons, List.sum_append, List.sum_singleton] at hexact
            rcases sum_le_of_sublist_concat hpart
              (fun v hv => (hrestin v (List.mem_append_left _ hv)).1) with hle | hge
            · rw [abs_of_nonpos (by omega), abs_of_nonpos (by omega)] at hnearer
              omega
            · omega
      · cases hrest with
        | done _ =>
            -- the first pick is the only one
            rcases List.sublist_singleton.mp hpart with rfl | rfl
            · exact hne rfl
            · rw [List.sum_singleton, List.sum_nil] at hexact
              omega
        | pick hpos' _ _ _ => exact absurd hpos' hmore

/-! ## Trimming -/

/-- No coin of the selection is unnecessary: the others do not cover the
    amount. -/
def Minimal (amount : Int) (selected : List Int) : Prop :=
  ∀ i < selected.length, (selected.eraseIdx i).sum < amount

theorem sum_eraseIdx {l : List Int} {i : Nat} (hi : i < l.length) :
    (l.eraseIdx i).sum = l.sum - l[i] := by
  have hperm := (List.getElem_cons_eraseIdx_perm hi).sum_eq
  rw [List.sum_cons] at hperm
  omega

/-- The smallest coin is the one whose loss matters least. -/
theorem minimal_reverse_iff {amount smallest : Int} {others : List Int}
    (hsorted : (smallest :: others).Pairwise (· ≤ ·)) :
    Minimal amount (smallest :: others).reverse ↔ others.sum < amount := by
  have hsum : (smallest :: others).reverse.sum = smallest + others.sum := by
    rw [List.sum_reverse, List.sum_cons]
  constructor
  · intro h
    have hi : others.length < (smallest :: others).reverse.length := by
      rw [List.length_reverse]
      exact Nat.lt_succ_self _
    have hlast := h others.length hi
    have hget : (smallest :: others).reverse[others.length] = smallest := by simp
    rw [sum_eraseIdx hi, hsum, hget] at hlast
    omega
  · intro h i hi
    rw [sum_eraseIdx hi, hsum]
    have hmem := List.mem_reverse.mp (List.getElem_mem hi)
    have hle : smallest ≤ (smallest :: others).reverse[i] := by
      rcases List.mem_cons.mp hmem with heq | hother
      · exact heq.ge
      · exact (List.pairwise_cons.mp hsorted).1 _ hother
    omega

/-- What the trimming compares the amount with. -/
theorem i64_others (last : Int) (rest : List Int) :
    i64 (i64 (last :: rest).sum - last) = i64 rest.sum := by
  rw [i64_i64_sub, List.sum_cons, add_sub_cancel_left]

/-- Trimming in exact numbers stops where the others are worth less than the
    amount, not just no more. -/
theorem trim_stops {amount : Int} : ∀ (l : List Int), (∀ v ∈ l, 0 < v) → l ≠ [] →
    l.tail.sum < 2 ^ 63 → 0 < amount →
    (∀ part : List Int, part <+: l → part ≠ [] → part.sum ≠ l.sum - amount) →
    ∃ smallest others, trim amount l = .ok (smallest :: others) ∧ others.sum < amount := by
  intro l
  induction l with
  | nil =>
      intro _ hne
      exact absurd rfl hne
  | cons last rest ih =>
      intro hpos _ hlt hamount hpart
      have hrest : ∀ v ∈ rest, 0 < v := fun v hv => hpos v (List.mem_cons_of_mem _ hv)
      have hnn : 0 ≤ rest.sum := List.sum_nonneg fun v hv => (hrest v hv).le
      rw [List.tail_cons] at hlt
      rw [trim, i64_others, i64_of_isI64 ⟨by omega, hlt⟩]
      split
      · next hmore =>
          have hne : rest ≠ [] := by
            rintro rfl
            rw [List.sum_nil] at hmore
            omega
          refine ih hrest hne ?_ hamount ?_
          · have hle : rest.tail.sum ≤ rest.sum :=
              (List.tail_sublist rest).sum_le_sum fun v hv => (hrest v hv).le
            omega
          · -- a part of the rest would be a part of the whole, with the dropped coin
            intro part hprefix _ hexact
            refine hpart (last :: part) ((List.prefix_cons_inj last).mpr hprefix)
              (List.cons_ne_nil _ _) ?_
            rw [List.sum_cons, List.sum_cons]
            omega
      · next hstop =>
          refine ⟨last, rest, rfl, ?_⟩
          have hexact := hpart [last] ⟨rest, rfl⟩ (List.cons_ne_nil _ _)
          rw [List.sum_singleton, List.sum_cons] at hexact
          omega

/-- Picks whose sum wraps even without the smallest are not trimmed at all. -/
theorem trim_wrapped {amount last : Int} {rest : List Int} (hamount : 0 < amount)
    (hwraps : 2 ^ 63 ≤ rest.sum) (hlt : rest.sum < 2 ^ 64) :
    trim amount (last :: rest) = .ok (last :: rest) := by
  have hneg : i64 rest.sum < amount := by
    by_contra hnot
    have hi64 := isI64_i64 rest.sum
    have hsame := i64_eq_of_nonneg (by omega) hlt (by omega : 0 ≤ i64 rest.sum)
    unfold IsI64 at hi64
    omega
  rw [trim, i64_others, if_neg (by omega)]

/-! ## The selection -/

/-- An input that is the amount is the only pick. -/
theorem Greedy.exact {inputs picks : List Int} {amount : Int} (h : Greedy inputs amount picks)
    (hpos : 0 < amount) (hmem : amount ∈ inputs) : picks = [amount] := by
  cases h with
  | done hdone => omega
  | pick _ _ hnear hrest =>
      have hzero := hnear amount hmem
      rw [sub_self, abs_zero] at hzero
      have hsame := abs_nonpos_iff.mp hzero
      obtain rfl := sub_eq_zero.mp hsame
      cases hrest with
      | done _ => rfl
      | pick hmore _ _ _ => omega

/-- The sum of some coins without any one of them fits exactly when it does
    without the smallest. -/
theorem fits_without_iff {picks others : List Int} {smallest : Int}
    (hperm : (smallest :: others).Perm picks) (hsorted : (smallest :: others).Pairwise (· ≤ ·)) :
    (∀ v ∈ picks, picks.sum - v < 2 ^ 63) ↔ others.sum < 2 ^ 63 := by
  have hsum : picks.sum = smallest + others.sum := by rw [← hperm.sum_eq, List.sum_cons]
  constructor
  · intro h
    have hsmallest := h smallest (hperm.subset List.mem_cons_self)
    omega
  · intro h v hv
    have hle : smallest ≤ v := by
      rcases List.mem_cons.mp (hperm.symm.subset hv) with rfl | hother
      · exact le_rfl
      · exact (List.pairwise_cons.mp hsorted).1 v hother
    omega

/-- The picks, in ascending order and trimmed. -/
theorem trim_picks {inputs picks : List Int} {amount : Int} (hin : Amounts inputs)
    (hamount : 0 < amount ∧ amount < 2 ^ 63) (h : Greedy inputs amount picks) :
    ∃ result, trim amount (picks.insertionSort (· ≤ ·)) = .ok result ∧
      (Minimal amount result.reverse ↔ ∀ v ∈ picks, picks.sum - v < 2 ^ 63) := by
  have hperm := List.perm_insertionSort (· ≤ ·) picks
  have hsorted : (picks.insertionSort (· ≤ ·)).Pairwise (· ≤ ·) :=
    List.pairwise_insertionSort _ picks
  have hpicks := hin.subperm h.subperm
  obtain ⟨front, last, heq, hfront, hcover⟩ := h.last hamount.1
  have hlast := hpicks last (heq ▸ List.mem_append_right _ (List.mem_singleton.mpr rfl))
  have htotal : picks.sum = front.sum + last := by rw [heq, List.sum_append, List.sum_singleton]
  cases hlist : picks.insertionSort (· ≤ ·) with
  | nil =>
      rw [hlist] at hperm
      rw [hperm.symm.eq_nil] at heq
      exact absurd heq.symm (List.append_ne_nil_of_right_ne_nil _ (List.cons_ne_nil _ _))
  | cons smallest others =>
      rw [hlist] at hperm hsorted
      have hpos : ∀ v ∈ smallest :: others, 0 < v := fun v hv => (hpicks v (hperm.subset hv)).1
      have hsum : picks.sum = smallest + others.sum := by rw [← hperm.sum_eq, List.sum_cons]
      have hsmallest := hpos smallest List.mem_cons_self
      rw [fits_without_iff hperm hsorted]
      by_cases hfits : others.sum < 2 ^ 63
      · have hpart : ∀ part : List Int, part <+: smallest :: others → part ≠ [] →
            part.sum ≠ (smallest :: others).sum - amount := by
          intro part hprefix hne hexact
          obtain ⟨found, hfound, hsub⟩ := hprefix.sublist.subperm.trans hperm.subperm
          refine h.no_exact_part hin hamount.1 found hsub ?_ ?_
          · rintro rfl
            exact hne hfound.symm.eq_nil
          · rw [hfound.sum_eq, hexact, List.sum_cons, hsum]
        obtain ⟨least, rest, htrim, hless⟩ := trim_stops (smallest :: others) hpos
          (List.cons_ne_nil _ _) hfits hamount.1 hpart
        have hkept := hsorted.sublist (trim_suffix amount _ _ htrim).sublist
        exact ⟨_, htrim, iff_of_true ((minimal_reverse_iff hkept).mpr hless) hfits⟩
      · -- the sum wraps, and the smallest pick stays although the others suffice
        refine ⟨_, trim_wrapped hamount.1 (by omega) (by omega), ?_⟩
        rw [minimal_reverse_iff hsorted]
        exact iff_of_false (by omega) hfits

/-- **NO UNNECESSARY COIN**: the selection exists; an input that is the amount
    is selected alone; and no coin of the selection can be spared, exactly when
    the picks without any one of them are an `i64`, as they are when all the
    inputs together are. -/
theorem selection_minimal (inputs : List Int) (amount : Int) (hin : Amounts inputs)
    (hamount : 0 < amount ∧ amount < 2 ^ 63) (hcov : amount ≤ inputs.sum) :
    ∃ picks selected, pickLoop inputs.length inputs amount = .ok picks ∧
      selectUtxo inputs amount = .ok selected ∧
      (amount ∈ inputs → selected = [amount]) ∧
      (Minimal amount selected ↔ ∀ v ∈ picks, picks.sum - v < 2 ^ 63) ∧
      (inputs.sum < 2 ^ 63 → Minimal amount selected) := by
  obtain ⟨picks, hpicks, hgreedy⟩ := pickLoop_greedy inputs.length inputs amount rfl hin
    ⟨by omega, hamount.2⟩ hcov
  obtain ⟨result, htrim, hminimal⟩ := trim_picks hin hamount hgreedy
  have hselected : selectUtxo inputs amount = .ok result.reverse := by
    unfold selectUtxo
    rw [if_neg (not_not_intro hamount.1), hpicks]
    show (trim amount (picks.insertionSort (· ≤ ·)) >>= fun result => pure result.reverse) = _
    rw [htrim]
    rfl
  refine ⟨picks, result.reverse, hpicks, hselected, ?_, hminimal, ?_⟩
  · intro hmem
    obtain rfl := hgreedy.exact hamount.1 hmem
    have hone : trim amount [amount] = .ok [amount] := by
      rw [trim, i64_others, List.sum_nil, i64_of_isI64 ⟨by omega, by omega⟩, if_neg (by omega)]
    cases hone.symm.trans htrim
    rfl
  · intro hsum
    refine hminimal.mpr ?_
    intro v hv
    obtain ⟨part, hpart, hsub⟩ := hgreedy.subperm
    have hle : picks.sum ≤ inputs.sum := by
      rw [← hpart.sum_eq]
      exact hsub.sum_le_sum fun u hu => (hin u hu).1.le
    have hpos := (hin v (hgreedy.subperm.subset hv)).1
    omega

/-- A coin of a hundred and a coin of ten, and neither can be spared. -/
theorem two_coins_needed : Minimal 102 [100, 10] := by
  obtain ⟨picks, selected, -, hselected, -, -, hminimal⟩ :=
    selection_minimal [1000, 100, 10, 1] 102 (by unfold Amounts; decide) (by decide) (by decide)
  have hcomputed : selectUtxo [1000, 100, 10, 1] 102 = .ok [100, 10] := by decide +kernel
  cases hcomputed.symm.trans hselected
  exact hminimal (by decide)

/-- The sum of the picks wraps, and a coin of ten stays although the other two
    suffice. -/
theorem wrapped_sum_keeps_coin :
    selectUtxo [2 ^ 62, 10, 2 ^ 63 - 1] (2 ^ 62 + 20) = .ok [2 ^ 63 - 1, 2 ^ 62, 10] ∧
      Amounts [2 ^ 62, 10, 2 ^ 63 - 1] ∧
      (2 ^ 62 + 20 : Int) ≤ ([2 ^ 62, 10, 2 ^ 63 - 1] : List Int).sum ∧
      (2 ^ 62 + 20 : Int) ≤ (([2 ^ 63 - 1, 2 ^ 62, 10] : List Int).eraseIdx 2).sum := by
  refine ⟨by decide +kernel, ?_, by decide +kernel, by decide +kernel⟩
  unfold Amounts
  decide

end CoinSelection
