import Mathlib.Tactic

/-! # Ordered tables

    `Std.TreeMap` over keys whose order is lawful, with its lookup rules
    restated by equality of keys, which is how the models use them. -/

namespace Table

open Std

variable {κ β : Type} [Ord κ]

/-- `BTreeMap::values`: what the keys are bound to, in the order of the keys. -/
def values (t : TreeMap κ β) : List β := t.toList.map (·.2)

variable [TransOrd κ] [LawfulEqOrd κ]

/-- Looking up after an insertion. -/
@[simp] theorem getElem?_insert_eq [DecidableEq κ] (t : TreeMap κ β) (k a : κ) (v : β) :
    (t.insert k v)[a]? = if k = a then some v else t[a]? := by
  rw [TreeMap.getElem?_insert]
  by_cases h : k = a
  · rw [if_pos h, if_pos (Std.compare_eq_iff_eq.mpr h)]
  · rw [if_neg h, if_neg (fun hc => h (Std.compare_eq_iff_eq.mp hc))]

/-- Looking up after a removal. -/
@[simp] theorem getElem?_erase_eq [DecidableEq κ] (t : TreeMap κ β) (k a : κ) :
    (t.erase k)[a]? = if k = a then none else t[a]? := by
  rw [TreeMap.getElem?_erase]
  by_cases h : k = a
  · rw [if_pos h, if_pos (Std.compare_eq_iff_eq.mpr h)]
  · rw [if_neg h, if_neg (fun hc => h (Std.compare_eq_iff_eq.mp hc))]

/-- An insertion is an update of the lookup. -/
theorem getElem?_insert_update [DecidableEq κ] (t : TreeMap κ β) (k : κ) (v : β) :
    (fun a => (t.insert k v)[a]?) = Function.update (fun a => t[a]?) k (some v) := by
  funext a
  rw [getElem?_insert_eq, Function.update_apply]
  simp only [eq_comm]

/-- And a removal. -/
theorem getElem?_erase_update [DecidableEq κ] (t : TreeMap κ β) (k : κ) :
    (fun a => (t.erase k)[a]?) = Function.update (fun a => t[a]?) k none := by
  funext a
  rw [getElem?_erase_eq, Function.update_apply]
  simp only [eq_comm]

omit [LawfulEqOrd κ] in
/-- The lines of a table have different keys. -/
theorem nodup_keys_toList (t : TreeMap κ β) : (t.toList.map (·.1)).Nodup := by
  rw [TreeMap.map_fst_toList_eq_keys]
  exact TreeMap.nodup_keys

/-- Without its lines a table binds nothing. -/
theorem without_toList [DecidableEq κ] (t : TreeMap κ β) :
    (fun a => if a ∈ t.toList.map (·.1) then none else t[a]?) = fun _ => none := by
  funext a
  split
  · rfl
  · next hnot =>
      cases hv : t[a]? with
      | none => rfl
      | some v =>
          refine absurd (List.mem_map.mpr ⟨(a, v), ?_, rfl⟩) hnot
          exact TreeMap.mem_toList_iff_getElem?_eq_some.mpr hv

/-- The values of a table are what its keys are bound to. -/
theorem mem_values_iff {t : TreeMap κ β} {v : β} :
    v ∈ values t ↔ ∃ k : κ, t[k]? = some v := by
  unfold values
  rw [List.mem_map]
  constructor
  · rintro ⟨⟨k, w⟩, hmem, rfl⟩
    exact ⟨k, TreeMap.mem_toList_iff_getElem?_eq_some.mp hmem⟩
  · rintro ⟨k, hk⟩
    exact ⟨(k, v), TreeMap.mem_toList_iff_getElem?_eq_some.mpr hk, rfl⟩

/-- A new key adds its value. -/
theorem values_insert_perm [DecidableEq κ] {t : TreeMap κ β} {k : κ} (h : t[k]? = none) (v : β) :
    (values (t.insert k v)).Perm (v :: values t) := by
  have hperm := (TreeMap.toList_insert_perm (t := t) (k := k) (v := v)).map (·.2)
  have hfilter : t.toList.filter (fun p => decide ¬(k == p.1) = true) = t.toList := by
    refine List.filter_eq_self.mpr ?_
    rintro ⟨a, w⟩ hmem
    have ha := TreeMap.mem_toList_iff_getElem?_eq_some.mp hmem
    refine decide_eq_true ?_
    intro hka
    rw [beq_iff_eq.mp hka, ha] at h
    exact nomatch h
  rw [hfilter] at hperm
  exact hperm

/-- A removed key takes its value away. -/
theorem values_erase_perm [DecidableEq κ] {t : TreeMap κ β} {k : κ} {v : β} (h : t[k]? = some v) :
    (v :: values (t.erase k)).Perm (values t) := by
  have hsame : ((t.erase k).insert k v).Equiv t := by
    refine TreeMap.Equiv.of_forall_constGet?_eq ?_
    intro a
    rw [getElem?_insert_eq, getElem?_erase_eq]
    by_cases hka : k = a
    · rw [if_pos hka, ← hka, h]
    · rw [if_neg hka, if_neg hka]
  have hnone : (t.erase k)[k]? = none := by rw [getElem?_erase_eq, if_pos rfl]
  have hperm := values_insert_perm hnone v
  unfold values at hperm ⊢
  rw [hsame.toList_eq] at hperm
  exact hperm.symm

/-! ## Many insertions and removals -/

/-- Insert the pairs of a list, one after the other. -/
def insertAll (t : TreeMap κ β) (pairs : List (κ × β)) : TreeMap κ β :=
  pairs.foldl (fun t pair => t.insert pair.1 pair.2) t

/-- Remove the keys of a list. -/
def eraseAll (t : TreeMap κ β) (keys : List κ) : TreeMap κ β := keys.foldl (·.erase ·) t

theorem mem_insertAll {t : TreeMap κ β} {pairs : List (κ × β)} {k : κ} :
    k ∈ insertAll t pairs ↔ k ∈ t ∨ ∃ pair ∈ pairs, pair.1 = k := by
  induction pairs generalizing t with
  | nil => simp [insertAll]
  | cons pair pairs ih =>
      show k ∈ insertAll (t.insert pair.1 pair.2) pairs ↔ _
      rw [ih, TreeMap.mem_insert, Std.compare_eq_iff_eq, List.exists_mem_cons_iff]
      tauto

/-- What is found was there or has been inserted. -/
theorem getElem?_insertAll [DecidableEq κ] {t : TreeMap κ β} {pairs : List (κ × β)} {k : κ} {v : β}
    (h : (insertAll t pairs)[k]? = some v) : t[k]? = some v ∨ (k, v) ∈ pairs := by
  induction pairs generalizing t with
  | nil => exact .inl h
  | cons pair pairs ih =>
      rcases ih (t := t.insert pair.1 pair.2) h with hinsert | hmem
      · rw [getElem?_insert_eq] at hinsert
        split at hinsert
        · next hk =>
            cases hinsert
            exact .inr (List.mem_cons.mpr (.inl (Prod.ext hk.symm rfl)))
        · exact .inl hinsert
      · exact .inr (List.mem_cons_of_mem pair hmem)

theorem mem_eraseAll {t : TreeMap κ β} {keys : List κ} {k : κ} :
    k ∈ eraseAll t keys ↔ k ∈ t ∧ k ∉ keys := by
  induction keys generalizing t with
  | nil => simp [eraseAll]
  | cons key keys ih =>
      show k ∈ eraseAll (t.erase key) keys ↔ _
      rw [ih, TreeMap.mem_erase, Std.compare_ne_eq_iff_ne, List.mem_cons]
      tauto

/-- What is left was there. -/
theorem getElem?_eraseAll [DecidableEq κ] {t : TreeMap κ β} {keys : List κ} {k : κ} {v : β}
    (h : (eraseAll t keys)[k]? = some v) : t[k]? = some v := by
  induction keys generalizing t with
  | nil => exact h
  | cons key keys ih =>
      have herase := ih (t := t.erase key) h
      rw [getElem?_erase_eq] at herase
      split at herase
      · cases herase
      · exact herase

end Table
