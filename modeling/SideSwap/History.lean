import Mathlib.Tactic

/-! # Reading a history

    A log of events, oldest first, is the history of a run.  `latest f log` is
    what the last event that `f` recognises says, and `since f log` what has
    happened after it.  A history is `Justified` when each of its events is
    allowed by the events before it, and a property holds `Always` when it
    holds of the history up to any point.  The rules tell how these change
    when the log grows, which is all an invariant proof asks. -/

namespace History

variable {ε α : Type}

/-- What the last event recognised by `f` says. -/
def latest (f : ε → Option α) (log : List ε) : Option α := (log.filterMap f).getLast?

@[simp] theorem latest_nil (f : ε → Option α) : latest f [] = none := rfl

/-- A recognised event is the latest. -/
theorem latest_concat_some {f : ε → Option α} {e : ε} {a : α} (h : f e = some a)
    (log : List ε) : latest f (log ++ [e]) = some a := by
  unfold latest
  rw [List.filterMap_append, List.filterMap_cons_some h, List.filterMap_nil,
    List.getLast?_append, List.getLast?_singleton]
  rfl

/-- An event that is not recognised changes nothing. -/
theorem latest_concat_none {f : ε → Option α} {e : ε} (h : f e = none)
    (log : List ε) : latest f (log ++ [e]) = latest f log := by
  unfold latest
  rw [List.filterMap_append, List.filterMap_cons_none h, List.filterMap_nil, List.append_nil]

/-- Nor do several of them. -/
theorem latest_append_none {f : ε → Option α} {es : List ε} (h : es.filterMap f = [])
    (log : List ε) : latest f (log ++ es) = latest f log := by
  unfold latest
  rw [List.filterMap_append, h, List.append_nil]

/-- The latest word was said by some event of the log. -/
theorem latest_mem {f : ε → Option α} {log : List ε} {a : α} (h : latest f log = some a) :
    ∃ e ∈ log, f e = some a :=
  List.mem_filterMap.mp (List.mem_of_getLast? h)

/-- What has happened since the last event recognised by `f`. -/
def since (f : ε → Option α) (log : List ε) : List ε :=
  (log.reverse.takeWhile fun e => (f e).isNone).reverse

/-- After a recognised event nothing has happened yet. -/
theorem since_concat_some {f : ε → Option α} {e : ε} {a : α} (h : f e = some a)
    (log : List ε) : since f (log ++ [e]) = [] := by
  unfold since
  rw [List.reverse_append, List.reverse_singleton, List.singleton_append,
    List.takeWhile_cons_of_neg (by rw [h]; simp), List.reverse_nil]

/-- Any other event has happened since. -/
theorem since_concat_none {f : ε → Option α} {e : ε} (h : f e = none) (log : List ε) :
    since f (log ++ [e]) = since f log ++ [e] := by
  unfold since
  rw [List.reverse_append, List.reverse_singleton, List.singleton_append,
    List.takeWhile_cons_of_pos (by rw [h]; rfl), List.reverse_cons]

/-- What `f` recognises in a log that has grown out of an older one. -/
def news (f : ε → Option α) (old log : List ε) : List α := (log.drop old.length).filterMap f

/-- The old news and the new ones are all of them. -/
theorem filterMap_news (f : ε → Option α) {old log : List ε} (h : old <+: log) :
    log.filterMap f = old.filterMap f ++ news f old log := by
  obtain ⟨es, rfl⟩ := h
  rw [List.filterMap_append, news, List.drop_left]

/-- The property holds of the history up to any point. -/
def Always (P : List ε → Prop) (log : List ε) : Prop := ∀ n, P (log.take n)

theorem always_nil {P : List ε → Prop} (h : P []) : Always P [] := by
  intro n
  rw [List.take_nil]
  exact h

theorem Always.now {P : List ε → Prop} {log : List ε} (h : Always P log) : P log := by
  have hall := h log.length
  rwa [List.take_length] at hall

theorem Always.concat {P : List ε → Prop} {log : List ε} (h : Always P log) {e : ε}
    (he : P (log ++ [e])) : Always P (log ++ [e]) := by
  intro n
  rcases Nat.lt_or_ge log.length n with hlt | hle
  · rw [List.take_of_length_le (by rw [List.length_append, List.length_singleton]; omega)]
    exact he
  · rw [List.take_append_of_le_length hle]
    exact h n

/-- Every event of the history is allowed by what came before it. -/
def Justified (P : List ε → ε → Prop) (log : List ε) : Prop :=
  ∀ n e, log[n]? = some e → P (log.take n) e

theorem justified_nil (P : List ε → ε → Prop) : Justified P [] := by
  intro n e h
  exact nomatch h

/-- The beginning of a justified history is justified. -/
theorem Justified.of_append {P : List ε → ε → Prop} {log es : List ε}
    (h : Justified P (log ++ es)) : Justified P log := by
  intro n e hn
  have hlt : n < log.length := (List.getElem?_eq_some_iff.mp hn).1
  have hbefore := h n e (by rw [List.getElem?_append_left hlt]; exact hn)
  rwa [List.take_append_of_le_length (Nat.le_of_lt hlt)] at hbefore

instance decidableJustified {P : List ε → ε → Prop} [∀ log e, Decidable (P log e)]
    (log : List ε) : Decidable (Justified P log) :=
  decidable_of_iff (∀ n, (h : n < log.length) → P (log.take n) (log.get ⟨n, h⟩)) (by
    constructor
    · intro h n e hn
      obtain ⟨hlt, rfl⟩ := List.getElem?_eq_some_iff.mp hn
      exact h n hlt
    · intro h n hlt
      exact h n _ (List.getElem?_eq_getElem hlt))

/-- A history grows by an event that it allows. -/
theorem Justified.concat {P : List ε → ε → Prop} {log : List ε} (h : Justified P log) {e : ε}
    (he : P log e) : Justified P (log ++ [e]) := by
  intro n e' hn
  by_cases hlt : n < log.length
  · rw [List.getElem?_append_left hlt] at hn
    rw [List.take_append_of_le_length (Nat.le_of_lt hlt)]
    exact h n e' hn
  · rw [List.getElem?_append_right (Nat.le_of_not_lt hlt)] at hn
    by_cases hzero : n - log.length = 0
    · rw [hzero] at hn
      cases hn
      have hn : n = log.length := by omega
      rw [hn, List.take_left]
      exact he
    · rw [List.getElem?_eq_none (by rw [List.length_singleton]; omega)] at hn
      exact nomatch hn

/-- A history grows by events that are allowed one after the other. -/
theorem Justified.append {P : List ε → ε → Prop} {log : List ε} (h : Justified P log) :
    ∀ {es : List ε}, (∀ n e, es[n]? = some e → P (log ++ es.take n) e) →
    Justified P (log ++ es) := by
  intro es
  induction es using List.reverseRecOn with
  | nil =>
      intro _
      rw [List.append_nil]
      exact h
  | append_singleton es e ih =>
      intro hes
      rw [← List.append_assoc]
      refine (ih ?_).concat ?_
      · intro n e' hn
        have hlt : n < es.length := (List.getElem?_eq_some_iff.mp hn).1
        have hn' := hes n e' (by rw [List.getElem?_append_left hlt]; exact hn)
        rwa [List.take_append_of_le_length (Nat.le_of_lt hlt)] at hn'
      · have hn' := hes es.length e (by rw [List.getElem?_append_right (Nat.le_refl _)]; simp)
        rwa [List.take_left] at hn'

/-- The last event of a justified history was allowed. -/
theorem Justified.last {P : List ε → ε → Prop} {log : List ε} {e : ε}
    (h : Justified P (log ++ [e])) : P log e := by
  have hlast := h log.length e (by rw [List.getElem?_append_right (Nat.le_refl _)]; simp)
  rw [List.take_left] at hlast
  exact hlast

end History
