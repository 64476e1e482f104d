import Mathlib
import SideSwap.HeadlessSurvival

/-! # Every API request is answered exactly once

    The answer channel of an API request is a token: it is captured by the
    closure of the `Submit` request, handed on to the closure of the
    `PsetMaker` request, and used up by the answer.  `Tokens` counts it: for
    every request that arrived, answers and closures that hold the channel add
    up to one.

    A closure that still waits has its request in the log, with neither a
    response nor a dropped connection after it (`Pending`).  So a request
    that is not answered is waiting for the server. -/

namespace Headless

open Api History Relation

/-! ## Counting -/

/-- The API request an event answers. -/
def answeredSender : Event → Option Nat
  | .answer m _ => some m
  | _ => none

/-- How often an API request has been answered. -/
def answers (log : List Event) (m : Nat) : Nat := (log.filterMap answeredSender).count m

theorem answers_append (log es : List Event) (m : Nat) :
    answers (log ++ es) m = answers log m + answers es m := by
  unfold answers
  rw [List.filterMap_append, List.count_append]

theorem answers_pos {log : List Event} {m : Nat} {res : Except ApiError OrderInfo}
    (h : .answer m res ∈ log) : 0 < answers log m :=
  List.count_pos_iff.mpr (List.mem_filterMap.mpr ⟨_, h, rfl⟩)

theorem answers_cancelEvents (d : Data) (x : OrderId) (m : Nat) :
    answers (cancelEvents d x) m = 0 := by
  unfold cancelEvents
  split <;> rfl

/-- How many closures of a list hold the answer channel of a request. -/
def held (l : List AsyncRequest) (m : Nat) : Nat := (l.filterMap (·.resSender?)).count m

theorem held_cons (cb : AsyncRequest) (l : List AsyncRequest) (m : Nat) :
    held (cb :: l) m = held [cb] m + held l m := by
  unfold held
  rw [← List.count_append, ← List.filterMap_append]
  rfl

theorem held_perm {l l' : List AsyncRequest} (h : l.Perm l') (m : Nat) : held l m = held l' m :=
  (h.filterMap _).count_eq m

theorem held_none {cb : AsyncRequest} (h : cb.resSender? = none) (m : Nat) : held [cb] m = 0 := by
  unfold held
  rw [List.filterMap_cons_none h]
  rfl

theorem held_some {cb : AsyncRequest} {n : Nat} (h : cb.resSender? = some n) (m : Nat) :
    held [cb] m = if n = m then 1 else 0 := by
  unfold held
  rw [List.filterMap_cons_some h, List.filterMap_nil, List.count_singleton]
  exact if_congr beq_iff_eq rfl rfl

/-! ## The tokens -/

/-- The closures that hold the answer channel of a request. -/
def Config.holders (c : Config) (m : Nat) : Nat :=
  held c.running m + held (Table.values c.data.asyncRequests) m

/-- What the moves keep of the request table. -/
structure Tokens (c : Config) : Prop where
  keys : ∀ (text : String) cb, c.data.asyncRequests[text]? = some cb →
    ∃ k < c.data.nextRequestId, text = toString k
  once : ∀ m, answers c.data.log m + c.holders m = if m < c.nextSender then 1 else 0

/-- The next request id is free. -/
theorem Tokens.next_free {c : Config} (h : Tokens c) :
    c.data.asyncRequests[toString c.data.nextRequestId]? = none := by
  cases hcb : c.data.asyncRequests[toString c.data.nextRequestId]? with
  | none => rfl
  | some cb =>
      obtain ⟨k, hk, htext⟩ := h.keys _ cb hcb
      have hsame : c.data.nextRequestId = k := Nat.repr_injective htext
      omega

/-- The entries of the request table after a move. -/
theorem Move.table {world : World} {i : Input} {c c' : Config} (h : Move world i c c')
    {text : String} {cb : AsyncRequest} (ht : c'.data.asyncRequests[text]? = some cb) :
    (c.data.asyncRequests[text]? = some cb ∧ c.data.nextRequestId ≤ c'.data.nextRequestId)
      ∨ (text = toString c.data.nextRequestId
        ∧ c'.data.nextRequestId = c.data.nextRequestId + 1) := by
  cases h with
  | store hc =>
      rw [makeAsyncRequest_connected hc] at ht ⊢
      simp only [Table.getElem?_insert_eq] at ht
      split at ht
      · rename_i htext
        exact .inr ⟨htext.symm, rfl⟩
      · exact .inl ⟨ht, Nat.le_succ _⟩
  | respond _ _ =>
      simp only [Table.getElem?_erase_eq] at ht
      split at ht
      · exact nomatch ht
      · exact .inl ⟨ht, Nat.le_refl _⟩
  | disconnected _ => simp at ht
  | cancel x =>
      rw [cancelOrder_eq] at ht ⊢
      exact .inl ⟨ht, Nat.le_add_right _ _⟩
  | reject =>
      rw [cancelOrder_eq] at ht ⊢
      exact .inl ⟨ht, Nat.le_add_right _ _⟩
  | duplicate =>
      rw [cancelOrder_eq] at ht ⊢
      exact .inl ⟨ht, Nat.le_add_right _ _⟩
  | accept _ =>
      simp only [emit_asyncRequests, claimKey_asyncRequests] at ht
      exact .inl ⟨ht, by simp⟩
  | _ => exact .inl ⟨ht, Nat.le_refl _⟩

theorem Move.keys {world : World} {i : Input} {c c' : Config} (h : Move world i c c')
    (hk : ∀ (text : String) cb, c.data.asyncRequests[text]? = some cb →
      ∃ k < c.data.nextRequestId, text = toString k) :
    ∀ (text : String) cb, c'.data.asyncRequests[text]? = some cb →
      ∃ k < c'.data.nextRequestId, text = toString k := by
  intro text cb ht
  rcases h.table ht with ⟨hold, hle⟩ | ⟨rfl, hnext⟩
  · obtain ⟨k, hlt, htext⟩ := hk text cb hold
    exact ⟨k, by omega, htext⟩
  · exact ⟨c.data.nextRequestId, by omega, rfl⟩

/-- A move that answers nobody and loses no closure. -/
theorem Tokens.keep {c c' : Config} {es : List Event} (h : Tokens c)
    (hlog : c'.data.log = c.data.log ++ es) (hes : ∀ m, answers es m = 0)
    (hholders : ∀ m, c'.holders m = c.holders m) (hnext : c'.nextSender = c.nextSender) (m : Nat) :
    answers c'.data.log m + c'.holders m = if m < c'.nextSender then 1 else 0 := by
  rw [hlog, answers_append, hes, hholders, hnext]
  exact h.once m

/-- A move that answers nobody and moves no closure. -/
theorem Tokens.same {c c' : Config} {es : List Event} (h : Tokens c)
    (hlog : c'.data.log = c.data.log ++ es) (hes : ∀ m, answers es m = 0)
    (hrun : c'.running = c.running) (htable : c'.data.asyncRequests = c.data.asyncRequests)
    (hnext : c'.nextSender = c.nextSender) (m : Nat) :
    answers c'.data.log m + c'.holders m = if m < c'.nextSender then 1 else 0 := by
  refine h.keep hlog hes (fun m => ?_) hnext m
  unfold Config.holders
  rw [hrun, htable]

/-- A move that ends the closure in hand, and answers whom it has to. -/
theorem Tokens.spend {c c' : Config} {cb : AsyncRequest} {es : List Event} (h : Tokens c)
    (hrun : c.running = cb :: c'.running) (hlog : c'.data.log = c.data.log ++ es)
    (hes : ∀ m, answers es m = held [cb] m)
    (htable : c'.data.asyncRequests = c.data.asyncRequests)
    (hnext : c'.nextSender = c.nextSender) (m : Nat) :
    answers c'.data.log m + c'.holders m = if m < c'.nextSender then 1 else 0 := by
  have hm := h.once m
  unfold Config.holders at hm ⊢
  rw [hrun, held_cons] at hm
  rw [hlog, answers_append, hes, htable, hnext]
  omega

/-- **TOKENS ARE CONSERVED** by every move. -/
theorem Move.tokens {world : World} {i : Input} {c c' : Config} (h : Move world i c c')
    (ht : Tokens c) : Tokens c' := by
  refine ⟨h.keys ht.keys, ?_⟩
  have hfree := ht.next_free
  cases h with
  | note hq hws =>
      refine ht.same rfl (fun m => ?_) rfl rfl rfl
      rename_i e
      cases e <;> first | rfl | exact hq.elim
  | connected => exact ht.same (List.append_nil _).symm (fun _ => rfl) rfl rfl rfl
  | snapshot => exact ht.same rfl (fun _ => rfl) rfl rfl rfl
  | reserve _ _ _ _ => exact ht.same rfl (fun _ => rfl) rfl rfl rfl
  | cancel x =>
      exact ht.same (cancelOrder_log _ x) (answers_cancelEvents _ x) rfl
        (cancelOrder_asyncRequests _ x) rfl
  | fail => exact ht.same (List.append_nil _).symm (fun _ => rfl) rfl rfl rfl
  | complete _ _ => exact ht.same rfl (fun _ => rfl) rfl rfl rfl
  | forward sign _ => exact ht.same rfl (fun _ => rfl) rfl rfl rfl
  | verify _ _ => exact ht.same rfl (fun _ => rfl) rfl rfl rfl
  | countDown _ => exact ht.same (List.append_nil _).symm (fun _ => rfl) rfl rfl rfl
  | drop hcb =>
      exact ht.spend rfl (List.append_nil _).symm (fun m => (held_none hcb m).symm) rfl rfl
  | refuse => exact ht.spend rfl rfl (fun _ => rfl) rfl rfl
  | accept _ => exact ht.spend rfl (by simp; rfl) (fun _ => rfl) (by simp) rfl
  | reject =>
      refine ht.spend rfl ((congrArg (· ++ [_]) (cancelOrder_log _ _)).trans
        (List.append_assoc _ _ _)) ?_ (cancelOrder_asyncRequests _ _) rfl
      intro m
      rw [answers_append, answers_cancelEvents, Nat.zero_add]
      rfl
  | duplicate =>
      refine ht.spend rfl ((cancelOrder_log _ _).trans (List.append_assoc _ _ _)) ?_
        (cancelOrder_asyncRequests _ _) rfl
      intro m
      rw [answers_append, answers_cancelEvents, Nat.add_zero]
      rfl
  | hold cb hcb =>
      refine ht.keep (List.append_nil _).symm (fun _ => rfl) (fun m => ?_) rfl
      unfold Config.holders
      rw [held_cons, held_none hcb, Nat.zero_add]
  | @create _ _ _ o sender resp =>
      -- the closure of `PsetMaker` answers the API request of the one of `Submit`
      refine ht.keep rfl (fun _ => rfl) (fun m => ?_) rfl
      unfold Config.holders
      rw [held_cons (.submit o sender), held_cons]
      rfl
  | @request d r n o =>
      intro m
      have hm := ht.once m
      unfold Config.holders at hm ⊢
      have hnone : answers [.newOrder n o] m = 0 := rfl
      have hsender : (AsyncRequest.submit o n).resSender? = some n := rfl
      rw [held_cons, held_some hsender, emit_log, answers_append, hnone]
      simp only [emit_asyncRequests] at hm ⊢
      -- the new request is the only one whose count changes
      by_cases hn : n = m
      · subst hn
        rw [if_neg (Nat.lt_irrefl n)] at hm
        rw [if_pos rfl, if_pos (Nat.lt_succ_self n)]
        omega
      · have hlt : m < n + 1 ↔ m < n := by omega
        rw [if_neg hn, if_congr hlt rfl rfl]
        omega
  | disconnected _ =>
      -- all the stored closures are in hand, to be called with an error
      refine ht.keep rfl (fun _ => rfl) (fun m => ?_) rfl
      unfold Config.holders
      have hempty : held (Table.values (∅ : Std.TreeMap String AsyncRequest)) m = 0 := rfl
      have hnil : held [] m = 0 := rfl
      simp only [hempty, hnil]
      omega
  | respond _ hfound =>
      refine ht.keep rfl (fun _ => rfl) (fun m => ?_) rfl
      have herase := held_perm (Table.values_erase_perm hfound) m
      unfold Config.holders
      rw [held_cons] at herase ⊢
      simp only at herase ⊢
      omega
  | @store _ _ _ _ cb hc =>
      have hins := fun m => held_perm (Table.values_insert_perm hfree cb) m
      rw [makeAsyncRequest_connected hc]
      refine ht.keep rfl (fun _ => rfl) (fun m => ?_) rfl
      have hm := hins m
      unfold Config.holders
      rw [held_cons] at hm ⊢
      simp only at hm ⊢
      omega

/-- The closures of a configuration, in one list. -/
theorem Config.holders_eq (c : Config) (m : Nat) :
    c.holders m = held (c.running ++ Table.values c.data.asyncRequests) m := by
  unfold Config.holders held
  rw [List.filterMap_append, List.count_append]

theorem Config.has_iff {c : Config} {cb : AsyncRequest} :
    c.Has cb ↔ cb ∈ c.running ++ Table.values c.data.asyncRequests := by
  rw [List.mem_append, Table.mem_values_iff]
  rfl

/-- While a closure holds the channel, the request is not answered. -/
theorem Tokens.unanswered {c : Config} (h : Tokens c) {cb : AsyncRequest} {m : Nat}
    (hcb : c.Has cb) (hm : cb.resSender? = some m) : answers c.data.log m = 0 ∧ m < c.nextSender := by
  have honce := h.once m
  have hheld : 0 < c.holders m := by
    rw [c.holders_eq]
    exact List.count_pos_iff.mpr (List.mem_filterMap.mpr ⟨cb, Config.has_iff.mp hcb, hm⟩)
  split at honce
  · exact ⟨by omega, ‹_›⟩
  · omega

/-- No two closures hold the same channel. -/
theorem Tokens.unique {c : Config} (h : Tokens c) {cb cb' : AsyncRequest} {m : Nat}
    (hcb : c.Has cb) (hcb' : c.Has cb') (hm : cb.resSender? = some m)
    (hm' : cb'.resSender? = some m) : cb = cb' := by
  by_contra hne
  have hmem := Config.has_iff.mp hcb
  have hmem' : cb' ∈ (c.running ++ Table.values c.data.asyncRequests).erase cb :=
    (List.mem_erase_of_ne (Ne.symm hne)).mpr (Config.has_iff.mp hcb')
  have hperm := (List.perm_cons_erase hmem).trans ((List.perm_cons_erase hmem').cons cb)
  have hcount := held_perm hperm m
  have hone : ∀ {cb₀ : AsyncRequest}, cb₀.resSender? = some m → held [cb₀] m = 1 := by
    intro cb₀ h₀
    rw [held_some h₀, if_pos rfl]
  rw [← c.holders_eq, held_cons, held_cons cb', hone hm, hone hm'] at hcount
  have honce := h.once m
  split at honce <;> omega

/-! ## A closure that waits has its request in the log -/

/-- The events that end a pending request: its response, or the connection drops. -/
def ends (text : String) : Event → Bool
  | .ws .disconnected => true
  | .ws (.response (some (.string text')) _) => text' == text
  | _ => false

/-- A request of the log that nothing has ended since it was sent. -/
def Pending (log : List Event) (text : String) (cb : AsyncRequest) : Prop :=
  ∃ before req after, log = before ++ .sent text req (some cb) :: after ∧
    ∀ e ∈ after, ends text e = false

theorem Pending.append {log es : List Event} {text : String} {cb : AsyncRequest}
    (h : Pending log text cb) (hes : ∀ e ∈ es, ends text e = false) :
    Pending (log ++ es) text cb := by
  obtain ⟨before, req, after, rfl, hafter⟩ := h
  refine ⟨before, req, after ++ es, by rw [List.append_assoc, List.cons_append], ?_⟩
  intro e he
  rcases List.mem_append.mp he with he | he
  · exact hafter e he
  · exact hes e he

/-- Every closure of the table has its request pending. -/
def Waiting (d : Data) : Prop :=
  ∀ (text : String) cb, d.asyncRequests[text]? = some cb → Pending d.log text cb

theorem Waiting.same {d d' : Data} {es : List Event} (h : Waiting d)
    (htable : d'.asyncRequests = d.asyncRequests) (hlog : d'.log = d.log ++ es)
    (hes : ∀ text, ∀ e ∈ es, ends text e = false) : Waiting d' := by
  intro text cb hcb
  rw [hlog]
  exact (h text cb (htable ▸ hcb)).append (hes text)

theorem ends_cancelEvents (d : Data) (x : OrderId) :
    ∀ text, ∀ e ∈ cancelEvents d x, ends text e = false := by
  intro text e he
  obtain ⟨t, rfl⟩ := mem_cancelEvents he
  rfl

theorem ends_singleton {e : Event} (h : ∀ text, ends text e = false) :
    ∀ text, ∀ e' ∈ [e], ends text e' = false := by
  intro text e' he'
  rw [List.mem_singleton.mp he']
  exact h text

theorem Waiting.emit {d : Data} (h : Waiting d) (e : Event) (he : ∀ text, ends text e = false) :
    Waiting (d.emit e) :=
  h.same rfl rfl (ends_singleton he)

theorem Waiting.cancel {d : Data} (h : Waiting d) (x : OrderId) : Waiting (cancelOrder d x) :=
  h.same (cancelOrder_asyncRequests d x) (cancelOrder_log d x) (ends_cancelEvents d x)

theorem Move.waiting {world : World} {i : Input} {c c' : Config} (h : Move world i c c')
    (hw : Waiting c.data) : Waiting c'.data := by
  have hnil : ∀ text, ∀ e ∈ ([] : List Event), ends text e = false :=
    fun _ e he => (nomatch he)
  cases h with
  | note hq hws =>
      rename_i d r n e
      intro text cb hcb
      refine (hw text cb hcb).append ?_
      intro e' he'
      rw [List.mem_singleton.mp he']
      -- a response is noted only when nobody waits for it
      cases e with
      | ws resp =>
          cases resp with
          | disconnected => exact hq.elim
          | response requestId res =>
              cases requestId with
              | none => rfl
              | some id =>
                  cases id with
                  | int k => rfl
                  | string text' =>
                      have hq' : d.asyncRequests[text']? = none := hq
                      refine beq_eq_false_iff_ne.mpr ?_
                      rintro rfl
                      rw [emit_asyncRequests, hq'] at hcb
                      exact nomatch hcb
          | _ => rfl
      | _ => rfl
  | disconnected _ =>
      intro text cb hcb
      simp at hcb
  | respond hi hfound =>
      rename_i d r n text₀ cb₀ res
      intro text cb hcb
      simp only [Table.getElem?_erase_eq] at hcb
      split at hcb
      · exact nomatch hcb
      · rename_i hne
        refine (hw text cb hcb).append ?_
        intro e he
        rw [List.mem_singleton.mp he]
        exact beq_eq_false_iff_ne.mpr hne
  | store hc =>
      rw [makeAsyncRequest_connected hc]
      intro text cb hcb
      simp only [Table.getElem?_insert_eq] at hcb
      split at hcb
      · rename_i htext
        cases hcb
        subst htext
        exact ⟨_, _, [], rfl, fun e he => (nomatch he)⟩
      · exact (hw text cb hcb).append (ends_singleton (fun _ => rfl) text)
  | connected => exact hw.same rfl (List.append_nil _).symm hnil
  | hold cb _ => exact hw
  | drop _ => exact hw
  | fail => exact hw.same rfl (List.append_nil _).symm hnil
  | countDown _ => exact hw.same rfl (List.append_nil _).symm hnil
  | snapshot => exact hw.same rfl rfl (ends_singleton fun _ => rfl)
  | request => exact hw.emit _ fun _ => rfl
  | refuse => exact hw.emit _ fun _ => rfl
  | create resp => exact hw.emit _ fun _ => rfl
  | reserve _ _ _ _ => exact hw.same rfl rfl (ends_singleton fun _ => rfl)
  | complete _ _ => exact hw.same rfl rfl (ends_singleton fun _ => rfl)
  | verify _ _ => exact hw.same rfl rfl (ends_singleton fun _ => rfl)
  | accept _ =>
      exact hw.same (claimKey_asyncRequests _ _ _)
        (congrArg (· ++ [_]) (claimKey_log _ _ _)) (ends_singleton fun _ => rfl)
  | cancel x => exact hw.cancel x
  | reject => exact (hw.cancel _).emit _ fun _ => rfl
  | duplicate => exact (hw.emit _ fun _ => rfl).cancel _
  | forward sign _ =>
      refine hw.same rfl rfl ?_
      intro text e he
      rcases List.mem_cons.mp he with rfl | he
      · rfl
      · rw [List.mem_singleton.mp he]
        rfl

/-! ## The orders of a refused request -/

/-- The API request an event says an order is created for. -/
def createdFor (x : OrderId) : Event → Option Nat
  | .orderCreated m resp => if resp.orderId = x then some m else none
  | _ => none

/-- The API request an order was last created for. -/
def creator (log : List Event) (x : OrderId) : Option Nat := latest (createdFor x) log

theorem creator_mem {log : List Event} {x : OrderId} {m : Nat} (h : creator log x = some m) :
    ∃ resp, .orderCreated m resp ∈ log ∧ resp.orderId = x := by
  obtain ⟨e, he, hx⟩ := latest_mem h
  cases e with
  | orderCreated k resp =>
      by_cases hxk : resp.orderId = x
      · simp only [createdFor, if_pos hxk, Option.some.injEq] at hx
        exact ⟨resp, hx ▸ he, hxk⟩
      · simp only [createdFor, if_neg hxk] at hx
        exact nomatch hx
  | _ => exact nomatch hx

/-- The order that has just been created. -/
theorem creator_getLast? {log : List Event} {m : Nat} {resp : SubmitResponse}
    (h : log.getLast? = some (.orderCreated m resp)) : creator log resp.orderId = some m := by
  have hlog := List.dropLast_append_getLast? _ h
  unfold creator
  rw [← hlog]
  exact latest_concat_some (by simp only [createdFor, if_pos]) _

/-- A move changes the creator of an order only by creating it. -/
theorem Move.creator_eq {world : World} {i : Input} {c c' : Config} (h : Move world i c c')
    (x : OrderId) :
    creator c'.data.log x = creator c.data.log x
      ∨ ∃ m, ∃ resp : SubmitResponse, ∃ o, creator c'.data.log x = some m
        ∧ c'.Has (.psetMaker resp.orderId resp.details o m) := by
  obtain ⟨es, hlog, hes⟩ := h.log
  by_cases hnone : es.filterMap (createdFor x) = []
  · exact .inl (by unfold creator; rw [hlog, latest_append_none hnone])
  · obtain ⟨m, hm⟩ := List.exists_mem_of_ne_nil _ hnone
    obtain ⟨e, he, hx⟩ := List.mem_filterMap.mp hm
    cases e with
    | orderCreated k resp =>
        by_cases hxk : resp.orderId = x
        · obtain ⟨o, -, hhas, hlog', -⟩ := hes _ he
          refine .inr ⟨k, resp, o, ?_, hhas⟩
          unfold creator
          rw [hlog']
          exact latest_concat_some (by simp only [createdFor, if_pos hxk]) _
        · simp only [createdFor, if_neg hxk] at hx
          exact nomatch hx
    | _ => exact nomatch hx

/-- What the moves keep of the API requests. -/
structure RequestInv (c : Config) : Prop where
  tokens : Tokens c
  knows : c.Knows
  numbered : ∀ m o, .newOrder m o ∈ c.data.log → m < c.nextSender
  oneOrder : ∀ m o o', .newOrder m o ∈ c.data.log → .newOrder m o' ∈ c.data.log → o = o'
  createdOnce : ∀ m r r', .orderCreated m r ∈ c.data.log → .orderCreated m r' ∈ c.data.log → r = r'
  submitted : ∀ m r, .orderCreated m r ∈ c.data.log → m < c.nextSender ∧ ∀ o, ¬ c.Has (.submit o m)
  refused : ∀ m err x, .answer m (.error err) ∈ c.data.log → creator c.data.log x = some m →
    ∀ st, c.data.orders[x]? = some st → st = .failed

section
variable {world : World} {i : Input} {c c' : Config}

theorem Move.numbered (h : Move world i c c') (hI : RequestInv c) :
    ∀ m o, .newOrder m o ∈ c'.data.log → m < c'.nextSender := by
  intro m o hmem
  have hle := h.nextSender_le
  rcases h.event hmem with hold | ⟨hm, hnext, -⟩
  · have := hI.numbered m o hold
    omega
  · omega

theorem Move.oneOrder (h : Move world i c c') (hI : RequestInv c) :
    ∀ m o o', .newOrder m o ∈ c'.data.log → .newOrder m o' ∈ c'.data.log → o = o' := by
  intro m o o' hmem hmem'
  rcases h.event hmem with hold | ⟨hm, -, hlog⟩
  · rcases h.event hmem' with hold' | ⟨hm, -, -⟩
    · exact hI.oneOrder m o o' hold hold'
    · have := hI.numbered m o hold
      omega
  · rw [hlog] at hmem'
    rcases List.mem_append.mp hmem' with hold' | hnew'
    · have := hI.numbered m o' hold'
      omega
    · cases List.mem_singleton.mp hnew'
      rfl

theorem Move.createdOnce (h : Move world i c c') (hI : RequestInv c) :
    ∀ m r r', .orderCreated m r ∈ c'.data.log → .orderCreated m r' ∈ c'.data.log → r = r' := by
  intro m r r' hmem hmem'
  rcases h.event hmem with hold | ⟨o, hhas, -, hlog, -⟩
  · rcases h.event hmem' with hold' | ⟨o, hhas, -⟩
    · exact hI.createdOnce m r r' hold hold'
    · exact absurd hhas ((hI.submitted m r hold).2 o)
  · rw [hlog] at hmem'
    rcases List.mem_append.mp hmem' with hold' | hnew'
    · exact absurd hhas ((hI.submitted m r' hold').2 o)
    · cases List.mem_singleton.mp hnew'
      rfl

theorem Move.submitted (h : Move world i c c') (hI : RequestInv c) :
    ∀ m r, .orderCreated m r ∈ c'.data.log → m < c'.nextSender ∧ ∀ o, ¬ c'.Has (.submit o m) := by
  intro m r hmem
  have htok := h.tokens hI.tokens
  rcases h.event hmem with hold | ⟨o, -, hhas, -, -⟩
  · obtain ⟨hlt, hno⟩ := hI.submitted m r hold
    refine ⟨Nat.lt_of_lt_of_le hlt h.nextSender_le, ?_⟩
    intro o hhas
    rcases h.has hhas with hold | hnone | ⟨o', heq, -⟩ | ⟨resp, o', m', heq, -⟩
    · exact hno o hold
    · exact nomatch hnone
    · cases heq
      exact absurd hlt (Nat.lt_irrefl _)
    · exact nomatch heq
  · refine ⟨(htok.unanswered hhas rfl).2, ?_⟩
    intro o' hhas'
    exact nomatch htok.unique hhas hhas' rfl rfl

/-- A request that gets an error leaves its order failed, and the order stays
    failed until it is created anew. -/
theorem Move.refused (h : Move world i c c') (hI : RequestInv c) :
    ∀ m err x, .answer m (.error err) ∈ c'.data.log → creator c'.data.log x = some m →
      ∀ st, c'.data.orders[x]? = some st → st = .failed := by
  intro m err x hans hcr st hst
  rcases h.creator_eq x with hsame | ⟨k, resp, o, hk, hhas⟩
  · rw [hsame] at hcr
    rcases h.event hans with hold | ⟨o, hhas⟩ | ⟨x', details, o, hhas, hfailed⟩
    · -- answered before: the order was failed
      have hbefore := hI.refused m err x hold hcr
      rcases h.orders x with heq | hfailed | ⟨details, o, k, outs, hhas, hlast, -⟩ |
        ⟨outs, txid, hactive, -⟩
      · exact hbefore st (heq ▸ hst)
      · rw [hfailed] at hst
        exact (Option.some.inj hst).symm
      · have hk : creator c.data.log x = some k := creator_getLast? hlast
        rw [hcr] at hk
        cases hk
        have hnone := (hI.tokens.unanswered hhas rfl).1
        have hpos := answers_pos hold
        omega
      · exact nomatch hbefore _ hactive
    · -- refused before any order was created
      obtain ⟨resp, hcreated, -⟩ := creator_mem hcr
      exact absurd hhas ((hI.submitted m resp hcreated).2 o)
    · -- refused with its order
      obtain ⟨resp, hcreated, rfl⟩ := creator_mem hcr
      have hsame := hI.createdOnce m _ _ hcreated (hI.knows _ hhas).2
      rw [hsame, hfailed] at hst
      exact (Option.some.inj hst).symm
  · -- the order has just been created, so its request is not answered
    rw [hk] at hcr
    cases hcr
    have hnone := ((h.tokens hI.tokens).unanswered hhas rfl).1
    have hpos := answers_pos hans
    omega

theorem Move.requestInv (h : Move world i c c') (hI : RequestInv c) : RequestInv c' where
  tokens := h.tokens hI.tokens
  knows := h.knows hI.knows
  numbered := h.numbered hI
  oneOrder := h.oneOrder hI
  createdOnce := h.createdOnce hI
  submitted := h.submitted hI
  refused := h.refused hI

end

/-! ## Every run -/

theorem start_requestInv (policyAsset : AssetId) (sessionId : SessionId) :
    RequestInv (start policyAsset sessionId).config where
  tokens := by
    refine ⟨?_, fun m => rfl⟩
    intro text cb h
    simp [System.config, start] at h
  knows := start_knows policyAsset sessionId
  numbered m o h := by simp [System.config, start] at h
  oneOrder m o o' h := by simp [System.config, start] at h
  createdOnce m r r' h := by simp [System.config, start] at h
  submitted m r h := by simp [System.config, start] at h
  refused m err x h := by simp [System.config, start] at h

/-- A crash adds a message of the socket or of the wallet to the log. -/
theorem crash_event {world : World} {s : System} {i : Input} {e : Event}
    (hevent : (∃ resp p, i = .ws resp ∧ e = .ws resp ∧
        processWs world (s.data.emit e) resp = .error p) ∨
      (∃ x pset, e = .wallet (.signedPset x pset)) ∨ (∃ x, e = .wallet (.psetSignFailed x)))
    (e' : Event) (hws : ∀ resp, e' ≠ .ws resp) (hwallet : ∀ resp, e' ≠ .wallet resp)
    (hmem : e' ∈ s.data.log ++ [e]) : e' ∈ s.data.log := by
  rcases List.mem_append.mp hmem with hmem | hmem
  · exact hmem
  · rw [List.mem_singleton.mp hmem] at hws hwallet
    rcases hevent with ⟨resp, p, -, rfl, -⟩ | ⟨x, pset, rfl⟩ | ⟨x, rfl⟩
    · exact absurd rfl (hws resp)
    · exact absurd rfl (hwallet _)
    · exact absurd rfl (hwallet _)

theorem crash_requestInv {world : World} {s : System} {i : Input} (hs : s.crashed = false)
    (hc : (step world s i).crashed = true) (hI : RequestInv s.config) :
    RequestInv (step world s i).config := by
  obtain ⟨e, hdata, hnext, hevent⟩ := step_crashed hs hc
  have hconfig : (step world s i).config = ⟨s.data.emit e, [], s.nextSender⟩ := by
    unfold System.config
    rw [hdata, hnext]
  rw [hconfig]
  have hold : ∀ e' : Event, (∀ resp, e' ≠ .ws resp) → (∀ resp, e' ≠ .wallet resp) →
      e' ∈ s.data.log ++ [e] → e' ∈ s.data.log := crash_event hevent
  have hnone : answeredSender e = none ∧ ∀ x, createdFor x e = none := by
    rcases hevent with ⟨resp, p, -, rfl, -⟩ | ⟨x, pset, rfl⟩ | ⟨x, rfl⟩ <;>
      exact ⟨rfl, fun _ => rfl⟩
  have hcreator : ∀ x, creator (s.data.log ++ [e]) x = creator s.data.log x :=
    fun x => latest_concat_none (hnone.2 x) _
  refine ⟨⟨hI.tokens.keys, ?_⟩, ?_, ?_, ?_, ?_, ?_, ?_⟩
  · refine hI.tokens.same rfl (fun m => ?_) rfl rfl rfl
    unfold answers
    rw [List.filterMap_cons_none hnone.1]
    rfl
  · intro cb hcb
    exact (hI.knows cb hcb).mono (List.subset_append_left _ _)
  · intro m o h
    exact hI.numbered m o (hold _ (fun _ h => nomatch h) (fun _ h => nomatch h) h)
  · intro m o o' h h'
    exact hI.oneOrder m o o' (hold _ (fun _ h => nomatch h) (fun _ h => nomatch h) h)
      (hold _ (fun _ h => nomatch h) (fun _ h => nomatch h) h')
  · intro m r r' h h'
    exact hI.createdOnce m r r' (hold _ (fun _ h => nomatch h) (fun _ h => nomatch h) h)
      (hold _ (fun _ h => nomatch h) (fun _ h => nomatch h) h')
  · intro m r h
    exact hI.submitted m r (hold _ (fun _ h => nomatch h) (fun _ h => nomatch h) h)
  · intro m err x h hcr
    exact hI.refused m err x (hold _ (fun _ h => nomatch h) (fun _ h => nomatch h) h)
      (hcreator x ▸ hcr)

/-- A request that was sent for an API request and is neither answered nor cut
    off by a dropped connection. -/
def Outstanding (log : List Event) (m : Nat) : Prop :=
  ∃ text cb, cb.resSender? = some m ∧ Pending log text cb

/-- An order that is active or done. -/
def Live (d : Data) (x : OrderId) : Prop := ∃ st, d.orders[x]? = some st ∧ st ≠ .failed

end Headless
