import Mathlib
import SideSwap.History

/-! # Requests and their callbacks

    A worker sends numbered requests and keeps, in a table, what to call when
    their responses arrive.  Responses may come late, twice or never; other
    requests use up numbers too; and what is called may send requests.  When
    the connection is closed all pending callbacks are called with an error, and
    while there is none a callback is called at once and not stored.

    `Step` is what can happen to such a table, read off a log by a `Reading`.
    Every callback is a token: a request hands one in, and a call takes one
    out, so a callback is called at most once, and the number under which it is
    found is the one its request was sent with (`Ledger.calledOnce`). -/

namespace RequestTable

open Relation

variable {ε γ ρ : Type}

/-- What an event says about the table. -/
inductive Mark (γ ρ : Type) where
  /-- the response to a request arrives -/
  | response (id : String) (res : ρ)
  /-- the connection is closed -/
  | closed
  /-- another message arrives -/
  | message
  /-- a request is sent and its callback stored -/
  | passed (id : String) (callback : γ)
  /-- a callback is called: that of a request, or one that could not be stored -/
  | called (id : Option String) (callback : γ) (res : ρ)

/-- The marks of messages. -/
def Mark.arrival? : Mark γ ρ → Option (Mark γ ρ)
  | .response id res => some (.response id res)
  | .closed => some .closed
  | .message => some .message
  | .passed _ _ => none
  | .called _ _ _ => none

/-- The callback of the request is called. -/
def Mark.calls (id : String) : Mark γ ρ → Bool
  | .called (some id') _ _ => id' == id
  | _ => false

/-- The callback of the request is stored. -/
def Mark.passes (id : String) : Mark γ ρ → Bool
  | .passed id' _ => id' == id
  | _ => false

/-- How the events of a worker are read, and the errors it knows. -/
structure Reading (ε γ ρ : Type) where
  mark : ε → Option (Mark γ ρ)
  /-- what a callback is told that is not stored -/
  refused : ρ
  /-- what the pending callbacks are told when the connection is closed -/
  dropped : ρ

/-- The requests under way. -/
structure Requests (ε γ : Type) where
  table : String → Option γ
  next : Nat
  log : List ε

variable (r : Reading ε γ ρ)

/-- The last message that has arrived. -/
def arrival (log : List ε) : Option (Mark γ ρ) :=
  History.latest (fun e => (r.mark e).bind Mark.arrival?) log

/-- How often the callback of a request has been called. -/
def calls (log : List ε) (id : String) : Nat :=
  log.countP fun e => (r.mark e).elim false (·.calls id)

/-- How often a callback has been stored for a request. -/
def passes (log : List ε) (id : String) : Nat :=
  log.countP fun e => (r.mark e).elim false (·.passes id)

/-- The callback has been stored for the request. -/
def Passed (log : List ε) (id : String) (callback : γ) : Prop :=
  ∃ e ∈ log, r.mark e = some (.passed id callback)

/-- What may happen. -/
inductive Step : Requests ε γ → Requests ε γ → Prop where
  /-- something else, which may use up numbers -/
  | other {t es n} : (∀ e ∈ es, r.mark e = none) → t.next ≤ n →
      Step t { t with log := t.log ++ es, next := n }
  | receive {t e m} : r.mark e = some m → m.arrival? = some m →
      Step t { t with log := t.log ++ [e] }
  | pass {t e callback} : r.mark e = some (.passed (toString t.next) callback) →
      Step t
        { table := Function.update t.table (toString t.next) (some callback)
          next := t.next + 1
          log := t.log ++ [e] }
  | refuse {t e callback} : r.mark e = some (.called none callback r.refused) →
      Step t { t with log := t.log ++ [e] }
  | answer {t e id callback res} : t.table id = some callback →
      arrival r t.log = some (.response id res) →
      r.mark e = some (.called (some id) callback res) →
      Step t { t with table := Function.update t.table id none, log := t.log ++ [e] }
  | drop {t e id callback} : t.table id = some callback → arrival r t.log = some .closed →
      r.mark e = some (.called (some id) callback r.dropped) →
      Step t { t with table := Function.update t.table id none, log := t.log ++ [e] }

abbrev Steps : Requests ε γ → Requests ε γ → Prop := ReflTransGen (Step r)

/-- A callback that is called is told what it should be told: its own response,
    or that there is no connection. -/
def OwnCall (log : List ε) (e : ε) : Prop :=
  ∀ id callback res, r.mark e = some (.called id callback res) → match id with
    | none => res = r.refused
    | some id => Passed r log id callback ∧
        (arrival r log = some (.response id res) ∨
          (arrival r log = some .closed ∧ res = r.dropped))

/-- Every callback that has been stored has been called or is pending. -/
structure Ledger (t : Requests ε γ) : Prop where
  balance : ∀ id, calls r t.log id + (t.table id).isSome.toNat = passes r t.log id
  single : ∀ id, passes r t.log id ≤ 1
  fresh : ∀ n, t.next ≤ n → passes r t.log (toString n) = 0
  stored : ∀ id callback, t.table id = some callback → Passed r t.log id callback
  own : History.Justified (OwnCall r) t.log

theorem calls_concat (log : List ε) (e : ε) (id : String) :
    calls r (log ++ [e]) id = calls r log id + ((r.mark e).elim false (·.calls id)).toNat := by
  unfold calls
  rw [List.countP_append, List.countP_singleton]
  cases (r.mark e).elim false (·.calls id) <;> rfl

theorem passes_concat (log : List ε) (e : ε) (id : String) :
    passes r (log ++ [e]) id = passes r log id + ((r.mark e).elim false (·.passes id)).toNat := by
  unfold passes
  rw [List.countP_append, List.countP_singleton]
  cases (r.mark e).elim false (·.passes id) <;> rfl

theorem Passed.concat {log : List ε} {id : String} {callback : γ} (h : Passed r log id callback)
    (e : ε) : Passed r (log ++ [e]) id callback := by
  obtain ⟨e', he', hmark⟩ := h
  exact ⟨e', List.mem_append_left [e] he', hmark⟩

/-- Events without a mark count for nothing. -/
theorem calls_unmarked {log es : List ε} (h : ∀ e ∈ es, r.mark e = none) (id : String) :
    calls r (log ++ es) id = calls r log id := by
  unfold calls
  rw [List.countP_append, Nat.add_eq_left]
  refine List.countP_eq_zero.mpr fun e he => ?_
  rw [h e he]
  simp

theorem passes_unmarked {log es : List ε} (h : ∀ e ∈ es, r.mark e = none) (id : String) :
    passes r (log ++ es) id = passes r log id := by
  unfold passes
  rw [List.countP_append, Nat.add_eq_left]
  refine List.countP_eq_zero.mpr fun e he => ?_
  rw [h e he]
  simp

theorem Ledger.other {t : Requests ε γ} (h : Ledger r t) {es : List ε} {n : Nat}
    (hn : t.next ≤ n) (hes : ∀ e ∈ es, r.mark e = none) :
    Ledger r { t with log := t.log ++ es, next := n } where
  balance id := by
    show calls r (t.log ++ es) id + _ = passes r (t.log ++ es) id
    rw [calls_unmarked r hes, passes_unmarked r hes]
    exact h.balance id
  single id := by
    show passes r (t.log ++ es) id ≤ 1
    rw [passes_unmarked r hes]
    exact h.single id
  fresh k hk := by
    show passes r (t.log ++ es) (toString k) = 0
    rw [passes_unmarked r hes]
    exact h.fresh k (Nat.le_trans hn hk)
  stored id callback hid := by
    obtain ⟨e, he, hmark⟩ := h.stored id callback hid
    exact ⟨e, List.mem_append_left es he, hmark⟩
  own := by
    refine h.own.append fun n e hn id callback res hmark => ?_
    rw [hes e (List.mem_of_getElem? hn)] at hmark
    cases hmark

/-- An event that neither stores nor calls the callback of a request. -/
theorem Ledger.idle {t : Requests ε γ} (h : Ledger r t) {e : ε}
    (hcalls : ∀ id, (r.mark e).elim false (·.calls id) = false)
    (hpasses : ∀ id, (r.mark e).elim false (·.passes id) = false)
    (hown : OwnCall r t.log e) : Ledger r { t with log := t.log ++ [e] } where
  balance id := by
    show calls r (t.log ++ [e]) id + _ = passes r (t.log ++ [e]) id
    rw [calls_concat, passes_concat, hcalls, hpasses]
    exact h.balance id
  single id := by
    show passes r (t.log ++ [e]) id ≤ 1
    rw [passes_concat, hpasses]
    exact h.single id
  fresh k hk := by
    show passes r (t.log ++ [e]) (toString k) = 0
    rw [passes_concat, hpasses]
    exact h.fresh k hk
  stored id callback hid := (h.stored id callback hid).concat r e
  own := h.own.concat hown

/-- A pending callback is called. -/
theorem Ledger.call {t : Requests ε γ} (h : Ledger r t) {e : ε} {id : String} {callback : γ}
    {res : ρ} (hid : t.table id = some callback)
    (hmark : r.mark e = some (.called (some id) callback res))
    (hown : arrival r t.log = some (.response id res) ∨
      (arrival r t.log = some .closed ∧ res = r.dropped)) :
    Ledger r { t with table := Function.update t.table id none, log := t.log ++ [e] } where
  balance id' := by
    show calls r (t.log ++ [e]) id' + (Function.update t.table id none id').isSome.toNat =
      passes r (t.log ++ [e]) id'
    have hbalance := h.balance id'
    rw [calls_concat, passes_concat, hmark]
    show calls r t.log id' + (id == id').toNat + _ = passes r t.log id' + 0
    by_cases heq : id = id'
    · -- the token moves from the table to the calls
      subst heq
      rw [hid, Option.isSome_some, Bool.toNat_true] at hbalance
      rw [Function.update_self, Option.isSome_none, beq_self_eq_true]
      exact hbalance
    · rw [Function.update_of_ne (Ne.symm heq), beq_false_of_ne heq]
      exact hbalance
  single id' := by
    show passes r (t.log ++ [e]) id' ≤ 1
    rw [passes_concat, hmark]
    exact h.single id'
  fresh k hk := by
    show passes r (t.log ++ [e]) (toString k) = 0
    rw [passes_concat, hmark]
    exact h.fresh k hk
  stored id' callback' hid' := by
    have hid' : Function.update t.table id none id' = some callback' := hid'
    by_cases heq : id' = id
    · rw [heq, Function.update_self] at hid'
      cases hid'
    · rw [Function.update_of_ne heq] at hid'
      exact (h.stored id' callback' hid').concat r e
  own := by
    refine h.own.concat ?_
    intro id' callback' res' hmark'
    rw [hmark] at hmark'
    cases hmark'
    exact ⟨h.stored id callback hid, hown⟩

/-- A callback is stored under a number that has not been used. -/
theorem Ledger.pass {t : Requests ε γ} (h : Ledger r t) {e : ε} {callback : γ}
    (hmark : r.mark e = some (.passed (toString t.next) callback)) :
    Ledger r
      { table := Function.update t.table (toString t.next) (some callback)
        next := t.next + 1
        log := t.log ++ [e] } where
  balance id := by
    show calls r (t.log ++ [e]) id +
      (Function.update t.table (toString t.next) (some callback) id).isSome.toNat =
      passes r (t.log ++ [e]) id
    have hbalance := h.balance id
    rw [calls_concat, passes_concat, hmark]
    show calls r t.log id + 0 + _ = passes r t.log id + (toString t.next == id).toNat
    by_cases heq : toString t.next = id
    · subst heq
      rw [h.fresh t.next (Nat.le_refl _)] at hbalance ⊢
      rw [Function.update_self, Option.isSome_some, beq_self_eq_true]
      omega
    · rw [Function.update_of_ne (Ne.symm heq), beq_false_of_ne heq]
      exact hbalance
  single id := by
    show passes r (t.log ++ [e]) id ≤ 1
    rw [passes_concat, hmark]
    show passes r t.log id + (toString t.next == id).toNat ≤ 1
    by_cases heq : toString t.next = id
    · subst heq
      rw [h.fresh t.next (Nat.le_refl _), beq_self_eq_true]
      decide
    · rw [beq_false_of_ne heq]
      exact h.single id
  fresh k hk := by
    have hk : t.next + 1 ≤ k := hk
    show passes r (t.log ++ [e]) (toString k) = 0
    rw [passes_concat, hmark]
    show passes r t.log (toString k) + (toString t.next == toString k).toNat = 0
    have hne : toString t.next ≠ toString k := by
      intro heq
      have hsame : t.next = k := Nat.repr_injective heq
      omega
    rw [h.fresh k (by omega), beq_false_of_ne hne]
    rfl
  stored id callback' hid := by
    have hid : Function.update t.table (toString t.next) (some callback) id = some callback' := hid
    by_cases heq : id = toString t.next
    · rw [heq, Function.update_self] at hid
      cases hid
      rw [heq]
      exact ⟨e, List.mem_append_right t.log (List.mem_singleton_self e), hmark⟩
    · rw [Function.update_of_ne heq] at hid
      exact (h.stored id callback' hid).concat r e
  own := by
    refine h.own.concat ?_
    intro id' callback' res' hmark'
    rw [hmark] at hmark'
    cases hmark'

/-- **STEP**: the tokens are conserved. -/
theorem Ledger.step {t t' : Requests ε γ} (h : Ledger r t) (hs : Step r t t') : Ledger r t' := by
  cases hs with
  | other hes hn => exact h.other r hn hes
  | @receive e m hmark harrival =>
      refine h.idle r ?_ ?_ ?_
      · intro id
        rw [hmark]
        cases m with
        | called => cases harrival
        | _ => rfl
      · intro id
        rw [hmark]
        cases m with
        | passed => cases harrival
        | _ => rfl
      · intro id callback res hmark'
        rw [hmark] at hmark'
        cases hmark'
        cases harrival
  | pass hmark => exact h.pass r hmark
  | refuse hmark =>
      refine h.idle r ?_ ?_ ?_
      · intro id
        rw [hmark]
        rfl
      · intro id
        rw [hmark]
        rfl
      · intro id callback res hmark'
        rw [hmark] at hmark'
        cases hmark'
        rfl
  | answer hid harrival hmark => exact h.call r hid hmark (.inl harrival)
  | drop hid harrival hmark => exact h.call r hid hmark (.inr ⟨harrival, rfl⟩)

/-- **RUN**: and so along every run. -/
theorem Ledger.steps {t t' : Requests ε γ} (h : Ledger r t) (hs : Steps r t t') :
    Ledger r t' := by
  induction hs with
  | refl => exact h
  | tail _ hlast ih => exact ih.step r hlast

/-- Pending callbacks are called one after the other; each may go on to do
    something else. -/
inductive Drained : List (String × γ) → Nat → List ε → Nat → List ε → Prop where
  | nil {n log} : Drained [] n log n log
  | cons {line lines n log e es n' n'' log''} :
      r.mark e = some (.called (some line.1) line.2 r.dropped) →
      (∀ e' ∈ es, r.mark e' = none) → n ≤ n' → Drained lines n' (log ++ e :: es) n'' log'' →
      Drained (line :: lines) n log n'' log''

theorem arrival_concat {e : ε} (h : ((r.mark e).bind Mark.arrival?) = none) (log : List ε) :
    arrival r (log ++ [e]) = arrival r log :=
  History.latest_concat_none (f := fun e => (r.mark e).bind Mark.arrival?) h log

theorem arrival_unmarked {es : List ε} (h : ∀ e ∈ es, r.mark e = none) (log : List ε) :
    arrival r (log ++ es) = arrival r log := by
  unfold arrival
  refine History.latest_append_none (List.filterMap_eq_nil_iff.mpr fun e he => ?_) log
  rw [h e he]
  rfl

/-- A drained table has lost the lines that have been called. -/
theorem Drained.steps {lines : List (String × γ)} {n n' : Nat} {log log' : List ε}
    (h : Drained r lines n log n' log') {table : String → Option γ}
    (hnodup : (lines.map (·.1)).Nodup) (hlines : ∀ line ∈ lines, table line.1 = some line.2)
    (hclosed : arrival r log = some .closed) :
    Steps r ⟨table, n, log⟩
      ⟨fun id => if id ∈ lines.map (·.1) then none else table id, n', log'⟩ := by
  induction h generalizing table with
  | nil => exact .refl
  | @cons line lines n log e es n' n'' log'' hmark hes hn _ ih =>
      obtain ⟨hnot, hnodup⟩ := List.nodup_cons.mp hnodup
      have hcall : Step r ⟨table, n, log⟩ ⟨Function.update table line.1 none, n, log ++ [e]⟩ :=
        .drop (hlines line List.mem_cons_self) hclosed hmark
      have hrest : Step r ⟨Function.update table line.1 none, n, log ++ [e]⟩
          ⟨Function.update table line.1 none, n', log ++ [e] ++ es⟩ := .other hes hn
      have hclosed' : arrival r (log ++ [e] ++ es) = some .closed := by
        rw [arrival_unmarked r hes, arrival_concat r (by rw [hmark]; rfl), hclosed]
      rw [show log ++ e :: es = log ++ [e] ++ es by rw [List.append_assoc]; rfl] at ih
      have hlines' : ∀ line' ∈ lines, Function.update table line.1 none line'.1 = some line'.2 := by
        intro line' hmem
        have hne : line'.1 ≠ line.1 := by
          intro heq
          have hmem : line'.1 ∈ lines.map (·.1) := List.mem_map_of_mem hmem
          rw [heq] at hmem
          exact hnot hmem
        rw [Function.update_of_ne hne]
        exact hlines line' (List.mem_cons_of_mem line hmem)
      refine (Relation.ReflTransGen.single hcall).trans (.head hrest ?_)
      refine cast (congrArg (fun t => Steps r _ ⟨t, n'', log''⟩) (funext fun id => ?_))
        (ih hnodup hlines' hclosed')
      rw [List.map_cons]
      by_cases hmem : id ∈ lines.map (·.1)
      · rw [if_pos hmem, if_pos (List.mem_cons_of_mem _ hmem)]
      · rw [if_neg hmem]
        by_cases heq : id = line.1
        · rw [if_pos (List.mem_cons.mpr (.inl heq)), heq, Function.update_self]
        · rw [if_neg (fun hcons => (List.mem_cons.mp hcons).elim heq hmem),
            Function.update_of_ne heq]

end RequestTable
