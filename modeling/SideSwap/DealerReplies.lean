import SideSwap.DealerCrashes

/-! # The replies of the exchange module

    The module answers every `Withdraw` and every `Transfer` once, after any
    delay and in any order, and its reply does not say which request it
    answers: the dealer takes it for the record that is active when it arrives.
    Here each request is known by the number of the record it was sent for, so
    that a reply can be held against the record it changes.

    A reply that comes while its own record is still active and not complete
    changes no other record.  One that is late changes whatever it finds. -/

namespace Dealer

open Api Program Pricing Transition History Relation

/-! ## Records and requests by number -/

/-- The number of records started so far: the active record has this number. -/
def number (log : List Event) : Nat := log.countP (·.started?.isSome)

/-- A request to the module, by the record it was sent for. -/
inductive Request where
  | withdraw (record : Nat)
  | transfer (record : Nat)
deriving DecidableEq, Repr

/-- The requests of a history, the first record of which has the number after `n`. -/
def requestsFrom (n : Nat) : List Event → List Request
  | [] => []
  | .started _ :: log => requestsFrom (n + 1) log
  | .toModule (.withdraw ..) :: log => .withdraw n :: requestsFrom n log
  | .toModule (.transfer ..) :: log => .transfer n :: requestsFrom n log
  | _ :: log => requestsFrom n log

/-- The requests of a history. -/
def requests (log : List Event) : List Request := requestsFrom 0 log

/-- What a reply says. -/
inductive Reply where
  | withdraw (withdrawId : Int)
  | transfer (success : Bool)
deriving DecidableEq, Repr

/-- The message a reply arrives as. -/
def Reply.msg : Reply → Msg
  | .withdraw withdrawId => .withdraw withdrawId
  | .transfer success => .transfer success

/-- The request that a reply for this record answers. -/
def Reply.request (record : Nat) : Reply → Request
  | .withdraw _ => .withdraw record
  | .transfer _ => .transfer record

/-- The state and the withdraw id of a record, while it is stored. -/
def System.record (s : System) (n : Nat) : Option (TransferState × Option Int) :=
  if n = number s.data.log then
    s.data.storage.balancing.map fun transfer => (transfer.state, transfer.withdrawId)
  else none

/-! ## The dealer and the module -/

/-- The dealer, and the requests that have been answered. -/
structure Exchange where
  dealer : System
  answered : List Request

/-- The requests that are still to be answered. -/
def Exchange.outstanding (s : Exchange) : List Request :=
  (requests s.dealer.data.log).diff s.answered

/-- Whether a message is a reply of the module. -/
def Msg.isReply : Msg → Bool
  | .withdraw _ => true
  | .transfer _ => true
  | _ => false

/-- What happens to the dealer and the module. -/
inductive ExchangeInput where
  /-- any message but a reply -/
  | message (msg : Msg)
  | restart
  /-- a request of this record is answered -/
  | reply (record : Nat) (reply : Reply)

/-- Every request is answered once; nothing else is. -/
def exchangeStep (world : World) (args : Args) (s : Exchange) : ExchangeInput → Exchange
  | .message msg =>
      if msg.isReply then s else { s with dealer := step world args s.dealer (.message msg) }
  | .restart => { s with dealer := step world args s.dealer .restart }
  | .reply record reply =>
      if reply.request record ∈ s.outstanding then
        ⟨step world args s.dealer (.message reply.msg), reply.request record :: s.answered⟩
      else s

def Exchange.first : Exchange := ⟨Dealer.first, []⟩

/-- A reply is in time if its own record is active and not complete.  A
    successful transfer, or a record that has failed, need not be in time. -/
def ReplyInTime (data : Data) (record : Nat) (reply : Reply) : Prop :=
  ∀ transfer ∈ data.storage.balancing, reply = .transfer true ∨ transfer.state = .failed ∨
    (record = number data.log ∧ transfer.state ≠ .complete)

instance (data : Data) (record : Nat) (reply : Reply) : Decidable (ReplyInTime data record reply) :=
  inferInstanceAs (Decidable (∀ transfer ∈ data.storage.balancing, _))

/-- Every reply is in time. -/
def InTime (s : Exchange) : ExchangeInput → Prop
  | .reply record reply => ReplyInTime s.dealer.data record reply
  | _ => True

instance (s : Exchange) : (i : ExchangeInput) → Decidable (InTime s i)
  | .message _ => .isTrue trivial
  | .restart => .isTrue trivial
  | .reply record reply => inferInstanceAs (Decidable (ReplyInTime s.dealer.data record reply))

/-! ## What is stored of a record -/

theorem number_append (log log' : List Event) :
    number (log ++ log') = number log + number log' :=
  List.countP_append

/-- A quiet event starts no record. -/
theorem number_quiet (log : List Event) {e : Event} (h : e.isQuiet = true) :
    number (log ++ [e]) = number log := by
  rw [number_append]
  show number log + [e].countP (·.started?.isSome) = _
  rw [List.countP_singleton, Event.started?_of_quiet h]
  rfl

theorem number_apply_le (d : Disk) (effect : Effect) :
    number d.log ≤ number (d.apply effect).log := by
  cases effect with
  | act e =>
      show _ ≤ number (d.log ++ [e])
      rw [number_append]
      omega
  | create transfer =>
      show _ ≤ number (d.log ++ [.started transfer])
      rw [number_append]
      omega
  | write storage => exact Nat.le_refl _

/-- The numbers only grow. -/
theorem number_run_le (d : Disk) (effects : List Effect) :
    number d.log ≤ number (d.run effects).log := by
  induction effects generalizing d with
  | nil => exact Nat.le_refl _
  | cons effect effects ih => exact Nat.le_trans (number_apply_le d effect) (ih (d.apply effect))

/-- The state and the withdraw id of a record that the file holds. -/
def Disk.record (d : Disk) (n : Nat) : Option (TransferState × Option Int) :=
  if n = number d.log then
    d.saved.balancing.map fun transfer => (transfer.state, transfer.withdrawId)
  else none

/-- The file holds what the dealer holds. -/
theorem record_eq_disk {s : System} (h : s.data.desk.Inv) (n : Nat) :
    s.record n = s.data.disk.record n := by
  have hsaved : s.data.saved.balancing = s.data.storage.balancing := h.saved
  unfold System.record Disk.record
  rw [← hsaved]
  rfl

/-- A record is settled: it is complete, or stored no more. -/
def Disk.Settled (n : Nat) (d : Disk) : Prop :=
  n < number d.log ∨
    (n = number d.log ∧ ∀ transfer ∈ d.saved.balancing, transfer.state = .complete)

/-- A settled record has not failed. -/
theorem Disk.Settled.not_failed {n : Nat} {d : Disk} (h : d.Settled n) (withdrawId : Option Int) :
    d.record n ≠ some (.failed, withdrawId) := by
  intro hfailed
  unfold Disk.record at hfailed
  rcases h with hlt | ⟨heq, hcomplete⟩
  · rw [if_neg (Nat.ne_of_lt hlt)] at hfailed
    cases hfailed
  · rw [if_pos heq, Option.map_eq_some_iff] at hfailed
    obtain ⟨transfer, htransfer, hstate⟩ := hfailed
    have hboth := (hcomplete transfer htransfer).symm.trans (congrArg Prod.fst hstate)
    cases hboth

theorem settled_of_record {n : Nat} {d : Disk} {withdrawId : Option Int}
    (h : d.record n = some (.complete, withdrawId)) : d.Settled n := by
  unfold Disk.record at h
  split at h
  · next heq =>
      refine .inr ⟨heq, fun transfer htransfer => ?_⟩
      rw [Option.mem_def] at htransfer
      rw [htransfer] at h
      exact congrArg Prod.fst (Option.some.inj h)
  · cases h

/-- What others can see changes no record. -/
theorem Disk.Settled.note {n : Nat} {d : Disk} (h : d.Settled n) {e : Event}
    (he : e.isQuiet = true) : (d.apply (.act e)).Settled n := by
  show n < number (d.log ++ [e]) ∨ (n = number (d.log ++ [e]) ∧ _)
  rw [number_quiet d.log he]
  exact h

/-- No record but a complete one is stored. -/
def Storage.Idle (storage : Storage) : Prop :=
  ∀ transfer, storage.balancing = some transfer → transfer.state = .complete

theorem settled_balancing {world : World} {args : Args} {data : Data} {n : Nat}
    (h : data.disk.Settled n) (hidle : data.storage.Idle) :
    (data.disk.run (balancingEffects world args data)).Settled n := by
  unfold balancingEffects
  cases hstored : data.storage.balancing with
  | none => exact h
  | some transfer =>
      dsimp only
      rw [hidle transfer hstored]
      -- the complete record is removed
      exact h.imp_right fun hnow => ⟨hnow.1, fun _ hnone => nomatch hnone⟩

theorem settled_movements {world : World} {msg : Movements} {data : Data} {n : Nat}
    (h : data.disk.Settled n) (hidle : data.storage.Idle) :
    (data.disk.run (movementsEffects world msg data)).Settled n := by
  unfold movementsEffects
  cases hstored : data.storage.balancing with
  | none =>
      simp only [ite_self]
      exact h
  | some transfer =>
      have hconfirmed : confirmed transfer msg = false := by
        unfold confirmed
        rw [hidle transfer hstored]
      simp only [hconfirmed, Bool.false_eq_true, if_false, ite_self]
      exact h

theorem settled_cli {world : World} {req : CliRequest} {data : Data} {n : Nat}
    (h : data.disk.Settled n) : (data.disk.run (cliEffects world req data)).Settled n := by
  unfold cliEffects
  cases hstored : data.storage.balancing with
  | none =>
      -- a new record is started, with the next number
      refine .inl (Nat.lt_of_lt_of_le ?_ (number_run_le (data.disk.apply (.create _)) _))
      show n < number (data.log ++ [.started _])
      rw [number_append]
      exact Nat.lt_succ_of_le (h.elim Nat.le_of_lt fun hnow => hnow.1.le)
  | some transfer => exact h.note rfl

theorem settled_checkExchange {args : Args} {data : Data} {n : Nat} (h : data.disk.Settled n) :
    (data.disk.run (checkExchangeEffects args data)).Settled n := by
  unfold checkExchangeEffects
  cases data.storage.balancing with
  | none => exact h
  | some transfer =>
      dsimp only
      split
      · exact h.note rfl
      · exact h

/-- **SETTLED STAYS SETTLED**: no message but a reply fails a record that is
    complete. -/
theorem settled_effects {world : World} {args : Args} {data : Data} {n : Nat} {msg : Msg}
    (hinv : data.desk.Inv) (h : data.disk.Settled n) (hmsg : msg.isReply = false) :
    (data.disk.run (effects world args data msg)).Settled n := by
  have hsaved : data.saved.balancing = data.storage.balancing := hinv.saved
  rcases h with hlt | ⟨heq, hcomplete⟩
  · exact .inl (Nat.lt_of_lt_of_le hlt (number_run_le _ _))
  · have hnow : data.disk.Settled n := .inr ⟨heq, hcomplete⟩
    have hidle : data.storage.Idle := fun transfer hstored =>
      hcomplete transfer (hsaved.trans hstored)
    cases msg with
    | timer => exact settled_balancing hnow hidle
    | movements msg => exact settled_movements hnow hidle
    | cli req => exact settled_cli hnow
    | checkExchange => exact settled_checkExchange hnow
    | withdraw withdrawId => cases hmsg
    | transfer success => cases hmsg
    | _ => exact hnow

/-! ## What a reply does -/

/-- An update starts no record, and is written. -/
theorem run_updateEffects (world : World) (newState : TransferState) (f : Transfer → Transfer)
    (transfer : Transfer) (log : List Event) (d : Disk) :
    number (d.run (updateEffects world newState f transfer log)).log = number d.log ∧
      (d.run (updateEffects world newState f transfer log)).saved =
        ⟨some { f transfer with state := newState, updatedAt := world.now log }⟩ := by
  unfold updateEffects
  cases stateNotification newState with
  | none => exact ⟨rfl, rfl⟩
  | some text => exact ⟨number_quiet d.log rfl, rfl⟩

/-- **ONE RECORD**: a reply does nothing, or it updates the stored record,
    whichever that is. -/
theorem reply_effects (world : World) (args : Args) (data : Data) (reply : Reply) :
    effects world args data reply.msg = [] ∨
    ∃ transfer newState f, data.storage.balancing = some transfer ∧ reply ≠ .transfer true ∧
      effects world args data reply.msg = updateEffects world newState f transfer data.log ∧
      ((newState = .failed ∧ f = id) ∨ withdrawConfirms transfer.state = some newState) := by
  cases hstored : data.storage.balancing with
  | none =>
      cases reply with
      | withdraw withdrawId =>
          left
          show withdrawEffects world withdrawId data = []
          unfold withdrawEffects
          rw [hstored]
      | transfer success =>
          left
          show transferEffects world success data = []
          unfold transferEffects
          rw [hstored]
  | some transfer =>
      cases reply with
      | withdraw withdrawId =>
          have heffects : effects world args data (Reply.withdraw withdrawId).msg =
              withdrawEffects world withdrawId data := rfl
          unfold withdrawEffects at heffects
          rw [hstored] at heffects
          right
          cases hconfirm : withdrawConfirms transfer.state with
          | none =>
              simp only [hconfirm] at heffects
              exact ⟨transfer, .failed, id, rfl, by rintro ⟨⟩, heffects, .inl ⟨rfl, rfl⟩⟩
          | some confirm =>
              simp only [hconfirm] at heffects
              split at heffects
              · exact ⟨transfer, confirm, _, rfl, by rintro ⟨⟩, heffects, .inr hconfirm⟩
              · exact ⟨transfer, .failed, id, rfl, by rintro ⟨⟩, heffects, .inl ⟨rfl, rfl⟩⟩
      | transfer success =>
          have heffects : effects world args data (Reply.transfer success).msg =
              transferEffects world success data := rfl
          unfold transferEffects at heffects
          rw [hstored] at heffects
          cases success with
          | true => exact .inl heffects
          | false =>
              exact .inr ⟨transfer, .failed, id, rfl, by rintro ⟨⟩, heffects, .inl ⟨rfl, rfl⟩⟩

/-- A reply in time changes only the record that it answers. -/
theorem reply_in_time {world : World} {args : Args} {data : Data} {reply : Reply} {record : Nat}
    (hinv : data.desk.Inv) (h : ReplyInTime data record reply) :
    ∀ n, n ≠ record → (data.disk.run (effects world args data reply.msg)).record n =
      data.disk.record n := by
  intro n hn
  have hsaved : data.saved.balancing = data.storage.balancing := hinv.saved
  rcases reply_effects world args data reply with
    hnone | ⟨transfer, newState, f, hstored, hreply, heffects, hstate⟩
  · rw [hnone]
    rfl
  · obtain ⟨hnumber, hwritten⟩ := run_updateEffects world newState f transfer data.log data.disk
    rw [heffects]
    unfold Disk.record
    rw [hnumber, hwritten]
    split
    · next heq =>
        show _ = data.saved.balancing.map _
        rw [hsaved, hstored]
        rcases h transfer hstored with hsuccess | hfailed | ⟨hown, _⟩
        · exact absurd hsuccess hreply
        · -- a failed record fails again
          rcases hstate with ⟨rfl, rfl⟩ | hconfirm
          · rw [Option.map_some, Option.map_some, hfailed]
            rfl
          · rw [hfailed] at hconfirm
            cases hconfirm
        · exact absurd (heq.trans hown.symm) hn
    · rfl

/-- A reply in time does not touch a record that is complete. -/
theorem settled_reply {world : World} {args : Args} {data : Data} {reply : Reply} {record n : Nat}
    (hinv : data.desk.Inv) (hsettled : data.disk.Settled n)
    (h : ReplyInTime data record reply) :
    (data.disk.run (effects world args data reply.msg)).Settled n := by
  have hsaved : data.saved.balancing = data.storage.balancing := hinv.saved
  rcases hsettled with hlt | ⟨heq, hcomplete⟩
  · exact .inl (Nat.lt_of_lt_of_le hlt (number_run_le _ _))
  · rcases reply_effects world args data reply with
      hnone | ⟨transfer, newState, f, hstored, hreply, -, -⟩
    · rw [hnone]
      exact .inr ⟨heq, hcomplete⟩
    · have hstate := hcomplete transfer (hsaved.trans hstored)
      rcases h transfer hstored with hsuccess | hfailed | ⟨_, hne⟩
      · exact absurd hsuccess hreply
      · rw [hstate] at hfailed
        cases hfailed
      · exact absurd hstate hne

/-! ## Runs -/

/-- A message that arrives changes no record by itself. -/
theorem record_received (data : Data) (msg : Msg) (n : Nat) :
    (data.emit (.received msg)).disk.record n = data.disk.record n := by
  show (if n = number (data.log ++ [.received msg]) then _ else none) = _
  rw [number_quiet data.log rfl]
  rfl

theorem ReplyInTime.received {data : Data} {record : Nat} {reply : Reply}
    (h : ReplyInTime data record reply) (msg : Msg) :
    ReplyInTime (data.emit (.received msg)) record reply := by
  intro transfer ht
  show _ ∨ _ ∨ (record = number (data.log ++ [_]) ∧ _)
  rw [number_quiet data.log rfl]
  exact h transfer ht

theorem exchangeStep_inv (world : World) (args : Args) {s : Exchange}
    (h : s.dealer.data.desk.Inv) (i : ExchangeInput) :
    (exchangeStep world args s i).dealer.data.desk.Inv := by
  cases i with
  | message msg =>
      show (if msg.isReply then s else _ : Exchange).dealer.data.desk.Inv
      split
      · exact h
      · exact step_inv world args h _
  | restart => exact step_inv world args h _
  | reply record reply =>
      show (if reply.request record ∈ s.outstanding then _ else s : Exchange).dealer.data.desk.Inv
      split
      · exact step_inv world args h _
      · exact h

/-- A settled record, after a message that is handled to its end. -/
theorem settled_step {world : World} {args : Args} {s : System} {n : Nat} {msg : Msg}
    (hinv : s.data.desk.Inv) (h : s.data.disk.Settled n)
    (heffects : ((s.data.emit (.received msg)).disk.run
      (effects world args (s.data.emit (.received msg)) msg)).Settled n) :
    (step world args s (.message msg)).data.disk.Settled n := by
  cases hpanic : s.panic with
  | none =>
      rw [step_message_disk hinv hpanic]
      exact heffects
  | some e =>
      have hstopped : step world args s (.message msg) = s := if_pos (by rw [hpanic]; rfl)
      rw [hstopped]
      exact h

theorem settled_exchangeStep {world : World} {args : Args} {s : Exchange} {n : Nat}
    {i : ExchangeInput} (hinv : s.dealer.data.desk.Inv) (h : s.dealer.data.disk.Settled n)
    (hok : InTime s i) : (exchangeStep world args s i).dealer.data.disk.Settled n := by
  have hreceived : ∀ msg, (s.dealer.data.emit (.received msg)).desk.Inv := fun _ => hinv.note rfl
  have hsettled : ∀ msg, (s.dealer.data.emit (.received msg)).disk.Settled n := fun _ => h.note rfl
  cases i with
  | message msg =>
      show (if msg.isReply then s else _ : Exchange).dealer.data.disk.Settled n
      split
      · exact h
      · next hmsg =>
          refine settled_step hinv h ?_
          exact settled_effects (hreceived msg) (hsettled msg) (Bool.eq_false_iff.mpr hmsg)
  | restart =>
      -- what is loaded is what was written
      show Disk.Settled n ⟨s.dealer.data.saved, s.dealer.data.log ++ [.restarted]⟩
      exact h.note rfl
  | reply record reply =>
      have hok : ReplyInTime s.dealer.data record reply := hok
      show (if reply.request record ∈ s.outstanding then _ else s : Exchange).dealer.data.disk.Settled
        n
      split
      · refine settled_step hinv h ?_
        exact settled_reply (hreceived _) (hsettled _) (hok.received _)
      · exact h

/-- A reply in time, in a run. -/
theorem record_exchangeStep_reply {world : World} {args : Args} {s : Exchange} {record : Nat}
    {reply : Reply} (hinv : s.dealer.data.desk.Inv)
    (h : ReplyInTime s.dealer.data record reply) {n : Nat} (hn : n ≠ record) :
    (exchangeStep world args s (.reply record reply)).dealer.record n = s.dealer.record n := by
  show (if reply.request record ∈ s.outstanding then _ else s : Exchange).dealer.record n = _
  split
  · show (step world args s.dealer (.message reply.msg)).record n = _
    cases hpanic : s.dealer.panic with
    | none =>
        have hreceived : (s.dealer.data.emit (.received reply.msg)).desk.Inv := hinv.note rfl
        rw [record_eq_disk (step_inv world args hinv _), step_message_disk hinv hpanic,
          reply_in_time hreceived (h.received _) n hn, record_received, record_eq_disk hinv]
    | some e =>
        have hstopped : step world args s.dealer (.message reply.msg) = s.dealer :=
          if_pos (by rw [hpanic]; rfl)
        rw [hstopped]
  · rfl

/-- The states of the runs of dealer and module in which every reply is in time. -/
abbrev ReachesInTime (world : World) (args : Args) : Exchange → Prop :=
  Reach (· = Exchange.first) (exchangeStep world args) InTime

theorem reachesInTime_inv {world : World} {args : Args} {s : Exchange}
    (h : ReachesInTime world args s) : s.dealer.data.desk.Inv := by
  refine Reach.invariant (I := fun s => s.dealer.data.desk.Inv) ?_ ?_ h
  · rintro s rfl
    exact first_inv
  · intro s i _ hi _
    exact exchangeStep_inv world args hi i

/-- **REPLIES AND RECORDS**: in a run in which every reply is in time, a reply
    changes the state or the withdraw id only of the record it answers, and a
    record that is complete has not failed at any later point. -/
theorem replies_touch_own_record {world : World} {args : Args} {s : Exchange}
    (h : ReachesInTime world args s) :
    (∀ record reply, InTime s (.reply record reply) → ∀ n, n ≠ record →
      (exchangeStep world args s (.reply record reply)).dealer.record n = s.dealer.record n) ∧
    (∀ t, Later (exchangeStep world args) InTime s t → ∀ n withdrawId withdrawId',
      s.dealer.record n = some (.complete, withdrawId) →
      t.dealer.record n ≠ some (.failed, withdrawId')) := by
  have hinv := reachesInTime_inv h
  constructor
  · intro record reply htime n hn
    exact record_exchangeStep_reply hinv htime hn
  · intro t ht n withdrawId withdrawId' hcomplete
    rw [record_eq_disk hinv] at hcomplete
    have hlater : t.dealer.data.desk.Inv ∧ t.dealer.data.disk.Settled n := by
      refine Later.invariant (I := fun t => t.dealer.data.desk.Inv ∧ t.dealer.data.disk.Settled n)
        ht ⟨hinv, settled_of_record hcomplete⟩ ?_
      intro t i hi hok
      exact ⟨exchangeStep_inv world args hi.1 i, settled_exchangeStep hi.1 hi.2 hok⟩
    rw [record_eq_disk hlater.1]
    exact hlater.2.not_failed withdrawId'

namespace Sample

/-- Bitcoins are received, and each request is answered before the next step. -/
def answered : List ExchangeInput :=
  [.message .moduleConnected, .message (.walletUpdate "BTC" (.fin 2)),
    .message (.cli (.testRecvBtc (.fin 1))), .message .timer, .reply 1 (.transfer true),
    .message (.walletUpdate "LBT" (.fin 1)), .message .timer, .reply 1 (.withdraw 7)]

/-- The movement that confirms them. -/
def movements : Movements := ⟨true, "key", [⟨7, bitfinexStatusCompleted, ""⟩]⟩

/-- Bitcoins are sent, and the balance says that they arrived before the module
    has answered. -/
def unanswered : List ExchangeInput :=
  [.message (.connected [lbtc]), .message (.reloadUtxo [(lbtc.assetId, .fin 2)]),
    .message .moduleConnected, .message (.cli (.testSendBtc (.fin 1))), .message .timer,
    .message (.walletUpdate "LBT" (.fin 1)), .message .timer,
    .message (.walletUpdate "LBT" (.fin 0)), .message .timer]

/-- The record is removed, and dollars are to be received. -/
def restarted : List ExchangeInput :=
  [.message .timer, .message (.cli (.testRecvUsdt (.fin 1)))]

end Sample

/-- Two replies in time: the record is complete in the end. -/
theorem answered_in_time :
    let s := run (exchangeStep Sample.world Sample.args) Exchange.first Sample.answered
    let t := run (exchangeStep Sample.world Sample.args) s
      [.message (.movements Sample.movements), .message (.movements Sample.movements)]
    s.dealer.record 1 = some (.recvBtcWaitConfirm, some 7) ∧
    t.dealer.record 1 = some (.complete, some 7) ∧
    ∀ u, Later (exchangeStep Sample.world Sample.args) InTime t u →
      u.dealer.record 1 ≠ some (.failed, some 7) := by
  have hallowed : Allowed (exchangeStep Sample.world Sample.args) InTime Exchange.first
      (Sample.answered ++
        [.message (.movements Sample.movements), .message (.movements Sample.movements)]) := by
    decide +kernel
  have hstart : ReachesInTime Sample.world Sample.args Exchange.first := .start rfl
  have hcomplete : (run (exchangeStep Sample.world Sample.args) Exchange.first
      (Sample.answered ++ [.message (.movements Sample.movements),
        .message (.movements Sample.movements)])).dealer.record 1 = some (.complete, some 7) := by
    decide +kernel
  refine ⟨by decide +kernel, hcomplete, fun u hu => ?_⟩
  exact (replies_touch_own_record (hstart.run _ hallowed)).2 u hu 1 (some 7) (some 7) hcomplete

/-- **A LATE REPLY**: it fails a record that is complete; or, if that was
    removed in the meantime, the next one, which it does not answer. -/
theorem late_reply_fails_another :
    let s := run (exchangeStep Sample.world Sample.args) Exchange.first Sample.unanswered
    let t := run (exchangeStep Sample.world Sample.args) s Sample.restarted
    let late := ExchangeInput.reply 1 (.transfer false)
    (s.dealer.record 1 = some (.complete, none) ∧
      (exchangeStep Sample.world Sample.args s late).dealer.record 1 = some (.failed, none)) ∧
    (t.dealer.record 2 = some (.recvUsdtNew, none) ∧
      (exchangeStep Sample.world Sample.args t late).dealer.record 2 = some (.failed, none)) := by
  decide +kernel

end Dealer
