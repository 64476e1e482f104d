import SideSwap.ClientOrders
import SideSwap.HeadlessMoves
import SideSwap.RequestTable

/-! # Callbacks are called at most once

    The wallet worker and the headless worker keep their asynchronous requests
    in tables of the same design.  Each worker's log is read as a history of
    such a table, and each thing a worker does is a sequence of steps of it, so
    the ledger of `RequestTable` holds of both. -/

namespace Headless

open Api Program RequestTable Relation

/-! ## The headless worker -/

/-- What an event of the headless worker says about its request table. -/
def Event.mark : Event → Option (Mark AsyncRequest (Except Error Response))
  | .newOrder _ _ => some .message
  | .orderStatus _ => some .message
  | .listOrders => some .message
  | .wallet _ => some .message
  | .ws .disconnected => some .closed
  | .ws (.response (some (.string text)) res) => some (.response text res)
  | .ws _ => some .message
  | .sent requestId _ (some callback) => some (.passed requestId callback)
  | .called requestId callback res => some (.called requestId callback res)
  | _ => none

def reading : Reading Event AsyncRequest (Except Error Response) where
  mark := Event.mark
  refused := .error notConnected
  dropped := .error serverDisconnected

/-- The requests of the headless worker. -/
def Data.requests (data : Data) : Requests Event AsyncRequest where
  table id := data.asyncRequests[id]?
  next := data.nextRequestId
  log := data.log

/-- The request table is left alone. -/
structure Aside (d d' : Data) : Prop where
  table : d'.asyncRequests = d.asyncRequests
  next : d.nextRequestId ≤ d'.nextRequestId
  silent : ∃ es, d'.log = d.log ++ es ∧ ∀ e ∈ es, Event.mark e = none

theorem Aside.refl (d : Data) : Aside d d :=
  ⟨rfl, Nat.le_refl _, [], (List.append_nil _).symm, fun _ h => nomatch h⟩

theorem Aside.trans {d d' d'' : Data} (h : Aside d d') (h' : Aside d' d'') : Aside d d'' := by
  obtain ⟨es, hes, hnone⟩ := h.silent
  obtain ⟨es', hes', hnone'⟩ := h'.silent
  refine ⟨h'.table.trans h.table, Nat.le_trans h.next h'.next, es ++ es', ?_, ?_⟩
  · rw [hes', hes, List.append_assoc]
  · intro e he
    rcases List.mem_append.mp he with hmem | hmem
    · exact hnone e hmem
    · exact hnone' e hmem

theorem Aside.emit (d : Data) {e : Event} (h : Event.mark e = none) : Aside d (d.emit e) :=
  ⟨rfl, Nat.le_refl _, [e], rfl, List.forall_mem_singleton.mpr h⟩

theorem Aside.steps {d d' : Data} (h : Aside d d') : Steps reading d.requests d'.requests := by
  obtain ⟨es, hes, hnone⟩ := h.silent
  have hstep : Step reading d.requests
      { d.requests with log := d.log ++ es, next := d'.nextRequestId } := .other hnone h.next
  unfold Data.requests at hstep ⊢
  rw [h.table, hes]
  exact .single hstep

theorem aside_cancelOrder (d : Data) (x : OrderId) : Aside d (cancelOrder d x) := by
  rw [cancelOrder_eq]
  refine ⟨rfl, Nat.le_add_right _ _, _, rfl, ?_⟩
  intro e he
  obtain ⟨text, rfl⟩ := mem_cancelEvents he
  rfl

/-- A closure that is told of an error makes no asynchronous request. -/
theorem aside_failCallback (d : Data) (cb : AsyncRequest) (err : Error) :
    Aside d (failCallback d cb err) := by
  cases cb with
  | sign x => exact aside_cancelOrder d x
  | psetMaker x details o m => exact (aside_cancelOrder d x).trans (.emit _ rfl)
  | submit o m => exact .emit d rfl
  | login => exact .refl d

theorem failLines_table (lines : List (String × AsyncRequest)) (d : Data) :
    (lines.foldl failLine d).asyncRequests = d.asyncRequests := by
  induction lines generalizing d with
  | nil => rfl
  | cons line lines ih => exact (ih _).trans (aside_failCallback _ line.2 serverDisconnected).table

/-- After the socket has been closed nothing is pending. -/
theorem step_disconnected (world : World) {s : System} (hs : s.crashed = false) (id : String) :
    (step world s (.ws .disconnected)).data.asyncRequests[id]? = none := by
  unfold step
  rw [if_neg (by rw [hs]; simp)]
  show (List.foldl failLine _ s.data.asyncRequests.toList).asyncRequests[id]? = none
  rw [failLines_table]
  exact Std.TreeMap.getElem?_emptyc

end Headless

namespace Client

open Api Program RequestTable Relation Transition

/-! ## The wallet worker -/

/-- What an event of the wallet worker says about its request table. -/
def Event.mark : Event → Option (Mark AsyncRequest (Except Error Response))
  | .received (.asyncResp requestId res) => some (.response requestId res)
  | .received .serverDisconnected => some .closed
  | .received _ => some .message
  | .asyncRequest requestId _ callback => some (.passed requestId callback)
  | .called requestId callback res => some (.called requestId callback res)
  | _ => none

def reading : Reading Event AsyncRequest (Except Error Response) where
  mark := Event.mark
  refused := .error notConnected
  dropped := .error serverDisconnected

/-- The requests of the wallet worker. -/
def Core.requests (c : Core) : Requests Event AsyncRequest where
  table id := c.asyncRequests[id]?
  next := c.nextRequestId
  log := c.log

theorem mark_of_isNote {e : Event} (h : e.isNote = true) : Event.mark e = none := by
  cases e with
  | received msg => cases h
  | asyncRequest requestId req callback => cases h
  | called requestId callback res => cases h
  | _ => rfl

/-- Only messages count as arrivals. -/
theorem arrival_of_message? {e : Event} (h : Event.message? e = none) :
    (Event.mark e).bind Mark.arrival? = none := by
  cases e with
  | received msg => cases h
  | _ => rfl

/-- What arrived last is not changed by a turn. -/
theorem Grows.arrival {c c' : Core} (h : Grows c c') :
    RequestTable.arrival reading c'.log = RequestTable.arrival reading c.log := by
  obtain ⟨es, hes, hnone⟩ := h
  rw [hes]
  unfold RequestTable.arrival
  refine History.latest_append_none (List.filterMap_eq_nil_iff.mpr fun e he => ?_) c.log
  exact arrival_of_message? (hnone e he)

theorem aside_steps {c c' : Core} {es : List Event} (hlog : c'.log = c.log ++ es)
    (hes : ∀ e ∈ es, Event.mark e = none) (hnext : c.nextRequestId ≤ c'.nextRequestId)
    (htable : c'.asyncRequests = c.asyncRequests) :
    Steps reading c.requests c'.requests := by
  have hstep : RequestTable.Step reading c.requests
      { c.requests with log := c.log ++ es, next := c'.nextRequestId } := .other hes hnext
  unfold Core.requests at hstep ⊢
  rw [hlog, htable]
  exact .single hstep

section Steps

variable {c c' : Core} (hnext : c.nextRequestId ≤ c'.nextRequestId)
  (htable : c'.asyncRequests = c.asyncRequests)
include hnext htable

theorem same_steps (hlog : c'.log = c.log) : Steps reading c.requests c'.requests :=
  aside_steps (hlog.trans (List.append_nil _).symm) (fun _ h => nomatch h) hnext htable

theorem one_steps {e : Event} (hlog : c'.log = c.log ++ [e]) (he : Event.mark e = none) :
    Steps reading c.requests c'.requests :=
  aside_steps hlog (List.forall_mem_singleton.mpr he) hnext htable

theorem two_steps {e e' : Event} (hlog : c'.log = c.log ++ [e] ++ [e'])
    (he : Event.mark e = none) (he' : Event.mark e' = none) :
    Steps reading c.requests c'.requests := by
  refine aside_steps (hlog.trans (List.append_assoc _ _ _)) ?_ hnext htable
  intro e'' hmem
  rcases List.mem_pair.mp hmem with rfl | rfl
  · exact he
  · exact he'

end Steps

theorem Attempt.steps {msg : SignNotification} {c : Core} {b b' : Book} (h : Attempt msg b b')
    (hlog : b.log = c.log) {n : Nat} (hn : c.nextRequestId ≤ n) :
    Steps reading c.requests { c with toBook := b', nextRequestId := n }.requests := by
  cases h with
  | none => exact same_steps hn rfl hlog
  | refused _ => exact one_steps hn rfl (congrArg (· ++ _) hlog) rfl
  | sent _ => exact two_steps hn rfl (congrArg (fun log => log ++ _ ++ _) hlog) rfl rfl

theorem Take.steps {msg : SignNotification} {c c' : Core} (h : Take msg c c') :
    Steps reading c.requests c'.requests := by
  cases h with
  | refuse _ => exact same_steps (Nat.le_refl _) rfl rfl
  | queue _ _ _ _ => exact one_steps (Nat.le_refl _) rfl rfl rfl
  | @autoSign entry precision b n _ _ _ _ hattempt hn =>
      have htake : Steps reading c.requests
          { c with toBook := c.toBook.take msg entry precision }.requests :=
        one_steps (Nat.le_refl _) rfl rfl rfl
      exact htake.trans (hattempt.steps rfl hn)

/-- A callback is called, and what it shows are notes. -/
theorem mark_callbackMsgs {res : Except Error Response} {callback : AsyncRequest} {e : Event}
    (h : e ∈ (callbackMsgs res callback).map Event.toUi) : Event.mark e = none := by
  obtain ⟨msg, hmsg, rfl⟩ := List.mem_map.mp h
  exact mark_of_isNote (isNote_callbackMsgs hmsg)

/-- After the call come the messages of the callback. -/
theorem shown_steps {t t' : Requests Event AsyncRequest} {e : Event} {log : List Event}
    (hcall : RequestTable.Step reading t t') (hlog : t'.log = log ++ [e])
    (res : Except Error Response) (callback : AsyncRequest) :
    Steps reading t
      { t' with log := log ++ e :: (callbackMsgs res callback).map .toUi } := by
  have hshow : RequestTable.Step reading t'
      { t' with log := t'.log ++ (callbackMsgs res callback).map .toUi } :=
    .other (fun e => mark_callbackMsgs) (Nat.le_refl _)
  rw [hlog, List.append_assoc, List.singleton_append] at hshow
  exact .tail (.single hcall) hshow

theorem drained_lines (lines : List (String × AsyncRequest)) (n : Nat) (log : List Event) :
    Drained reading lines n log n (log ++ lines.flatMap fun line =>
      callEvents (some line.1) line.2 (.error serverDisconnected)) := by
  induction lines generalizing log with
  | nil =>
      rw [List.flatMap_nil, List.append_nil]
      exact .nil
  | cons line lines ih =>
      have hrest := ih (log ++ callEvents (some line.1) line.2 (.error serverDisconnected))
      rw [List.append_assoc] at hrest
      rw [List.flatMap_cons]
      exact .cons rfl (fun e => mark_callbackMsgs) (Nat.le_refl _) hrest

/-- **ONE ACT** of the wallet worker is a run of its request table. -/
theorem Act.steps {world : World} {cause : Message} {c c' : Core} (h : Act world cause c c')
    (harrival : RequestTable.arrival reading c.log = Event.mark (.received cause)) :
    Steps reading c.requests c'.requests := by
  cases h with
  | note hnote =>
      obtain ⟨hnote, hn⟩ := hnote
      exact one_steps hn rfl rfl (mark_of_isNote hnote)
  | accept _ _ _ _ _ hn => exact two_steps hn rfl rfl rfl rfl
  | restore _ _ _ _ _ => exact one_steps (Nat.le_refl _) rfl rfl rfl
  | @takeQueued _ msg rest _ htake =>
      have hqueue : Steps reading c.requests { c with pendingSignRequests := rest }.requests :=
        same_steps (Nat.le_refl _) rfl rfl
      exact hqueue.trans htake.steps
  | takeArrived _ htake => exact htake.steps
  | prompt _ _ _ => exact one_steps (Nat.le_refl _) rfl rfl rfl
  | review _ => exact one_steps (Nat.le_refl _) rfl rfl rfl
  | @decide req msg b n _ _ _ _ _ hattempt hn =>
      exact hattempt.steps rfl hn
  | edit _ hn => exact one_steps hn rfl rfl rfl
  | editEntry _ hn => exact one_steps hn rfl rfl rfl
  | startSwap _ _ hn => exact one_steps hn rfl rfl rfl
  | refuseSwap _ _ _ => exact one_steps (Nat.le_refl _) rfl rfl rfl
  | signSwap _ _ _ hn => exact two_steps hn rfl rfl rfl rfl
  | createTx => exact one_steps (Nat.le_refl _) rfl rfl rfl
  | sendTx _ => exact one_steps (Nat.le_refl _) rfl rfl rfl
  | @ask req callback _ _ =>
      have hstep : RequestTable.Step reading c.requests
          { table := Function.update c.requests.table (toString c.nextRequestId) (some callback)
            next := c.nextRequestId + 1
            log := c.log ++ [.asyncRequest (toString c.nextRequestId) req callback] } := .pass rfl
      refine .single ?_
      unfold Core.requests at hstep ⊢
      rw [Table.getElem?_insert_update]
      exact hstep
  | @askOffline callback _ =>
      have hrefuse : RequestTable.Step reading c.requests
          { c.requests with
            log := c.log ++ [.called none callback (.error notConnected)] } := .refuse rfl
      exact shown_steps hrefuse rfl (.error notConnected) callback
  | @answer requestId res callback hcause hcallback =>
      subst hcause
      have hcall : RequestTable.Step reading c.requests
          { c.requests with
            table := Function.update (fun id => c.asyncRequests[id]?) requestId none
            log := c.log ++ [.called (some requestId) callback res] } :=
        .answer hcallback harrival rfl
      -- the table without the answered line is the one the worker keeps
      rw [← Table.getElem?_erase_update] at hcall
      exact shown_steps hcall rfl res callback
  | drain hcause =>
      subst hcause
      -- a disconnection answers every line, and leaves an empty table
      have hsteps := (drained_lines c.asyncRequests.toList c.nextRequestId c.log).steps reading
        (Table.nodup_keys_toList c.asyncRequests)
        (fun line hmem => Std.TreeMap.mem_toList_iff_getElem?_eq_some.mp hmem) harrival
      rw [Table.without_toList] at hsteps
      have hempty : (fun _ => none : String → Option AsyncRequest) =
          fun id => (∅ : Std.TreeMap String AsyncRequest)[id]? := by
        funext id
        exact Std.TreeMap.getElem?_emptyc.symm
      rw [hempty] at hsteps
      exact hsteps
  | _ => exact same_steps (Nat.le_refl _) rfl rfl

theorem Listing.steps {c c' : Core} (h : Listing c c') :
    Steps reading c.requests c'.requests := by
  cases h with
  | change _ => exact same_steps (Nat.le_refl _) rfl rfl
  | shows hshow =>
      cases hshow with
      | remove _ => exact one_steps (Nat.le_refl _) rfl rfl rfl
      | put _ _ => exact one_steps (Nat.le_refl _) rfl rfl rfl

/-- The pending callbacks are taken out before they are called, and what they
    are told makes no request. -/
theorem disconnected_empty (d : Data) : (exec processWsDisconnected d).2.asyncRequests = ∅ := by
  unfold processWsDisconnected
  rw [exec_modify_bind, exec_bind]
  obtain ⟨d1, hexec, _⟩ := exec_syncOrderList { d with connected := false, ordersLast := ∅ }
  rw [hexec]
  show (exec (uiSend .serverDisconnected >>= _) d1).2.asyncRequests = ∅
  unfold uiSend emit
  rw [exec_modify_bind, exec_get_bind, exec_modify_bind, exec_bind, exec_runCallbacks]
  show (exec (get >>= _ : Handler Unit) _).2.asyncRequests = ∅
  rw [exec_get_bind]
  split
  · rfl
  · rfl

theorem step_disconnected (world : World) {s : System} (hs : s.stopped = false) (id : String) :
    (step world s .serverDisconnected).data.asyncRequests[id]? = none := by
  unfold step
  rw [if_neg (by rw [hs]; simp), finish_data]
  show (exec processWsDisconnected _).2.asyncRequests[id]? = none
  rw [disconnected_empty]
  exact Std.TreeMap.getElem?_emptyc

end Client

namespace AsyncCallbacks

open RequestTable

end AsyncCallbacks
