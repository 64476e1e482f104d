import SideSwap.ClientMoves

/-! # Rejected sign requests

    `try_process_sign` enters an order into `processed_signs` first and checks
    the message afterwards.  A message that fails a check leaves nothing behind
    but this mark, and nothing ever takes the mark away: whichever way a later
    message for the order arrives, it is skipped.  A sign request that
    `download_sign_request` rejects is not marked. -/

namespace Client

open Api Program Relation Transition

/-! ## One rejected message -/

/-- What `try_process_sign` checks before it changes the order's record. -/
def signChecks (data : Data) (msg : SignNotification) : Except String SubmitData := do
  verifyAmounts data msg.details
  let entry ← (data.submitData[msg.orderId]?).elim (.error "no keys found") .ok
  check (msg.orderId == entry.orderId) "Condition failed: `order_id == submit_data.order_id`"
  checkSign entry msg.details
  pure entry

/-- The order is entered into `processed_signs`. -/
def Data.mark (data : Data) (orderId : OrderId) : Data :=
  { data with processedSigns := data.processedSigns.insert orderId }

theorem mark_contains (data : Data) (orderId : OrderId) :
    (data.mark orderId).processedSigns.contains orderId = true := Std.TreeSet.contains_insert_self

/-- The mark is a change. -/
theorem mark_ne {data : Data} {orderId : OrderId}
    (h : data.processedSigns.contains orderId = false) : data.mark orderId ≠ data := by
  intro heq
  have hmark := mark_contains data orderId
  rw [heq, h] at hmark
  exact nomatch hmark

/-- A marked order's message is skipped. -/
theorem exec_tryProcessSign_marked (world : World) {msg : SignNotification} {data : Data}
    (h : data.processedSigns.contains msg.orderId = true) :
    exec (tryProcessSign world msg) data = (.ok (), data) := by
  unfold tryProcessSign
  rw [exec_get_bind, if_pos h]
  rfl

/-- What `try_process_sign` does with a message that has passed the checks. -/
def takeSign (world : World) (data : Data) (msg : SignNotification) (entry : SubmitData) :
    Handler Unit := do
  modify fun d =>
    { d with
      submitData := d.submitData.insert msg.orderId (entry.select msg.details)
      log := d.log ++ [.checked msg entry (precisionOf data msg.details.asset)] }
  if autoSignAllowed data.forceAutoSignMaker entry msg.details.price then do
    let _ ← trySign world msg
    pure ()
  else do
    modify fun d => { d with pendingSignPrompts := d.pendingSignPrompts ++ [msg] }
    processPendingSignPrompts

/-- A message for an order without a mark sets the mark, is checked, and is
    taken if it passes. -/
theorem exec_tryProcessSign_fresh (world : World) {msg : SignNotification} {data : Data}
    (hfresh : data.processedSigns.contains msg.orderId = false) :
    exec (tryProcessSign world msg) data =
      exec (ofResult (signChecks data msg) >>= takeSign world data msg)
        (data.mark msg.orderId) := by
  unfold tryProcessSign signChecks
  rw [exec_get_bind, if_neg (Bool.eq_false_iff.mp hfresh), exec_modify_bind]
  -- both sides make the same checks in the same order, so they stop at the same one
  cases verifyAmounts data msg.details with
  | error e => rfl
  | ok _ =>
      rw [exec_ofResult_ok_bind]
      cases data.submitData[msg.orderId]? with
      | none => rfl
      | some entry =>
          rw [exec_okOr_some_bind]
          show exec (ensure (msg.orderId == entry.orderId) _ >>= _) _ =
            exec (ofResult (check (msg.orderId == entry.orderId) _ >>= fun _ =>
              checkSign entry msg.details >>= fun _ => pure entry) >>= takeSign world data msg) _
          cases (msg.orderId == entry.orderId) with
          | false => rfl
          | true =>
              rw [exec_ensure_true_bind]
              show exec (ofResult (checkSign entry msg.details) >>= _) _ =
                exec (ofResult (checkSign entry msg.details >>= fun _ => pure entry) >>= _) _
              cases checkSign entry msg.details with
              | error e => rfl
              | ok _ => rfl

/-! ## What a message that passes leaves behind -/

/-- The handler only adds to the log. -/
abbrev Logs {α : Type} (p : Handler α) : Prop := Follows Data.log (· <+: ·) p

theorem Logs.isPrefix {α : Type} {p : Handler α} (h : Logs p) {data : Data} {log : List Event}
    (hlog : data.log = log) : log <+: (exec p data).2.log := by
  have hmoves : ∀ {a b : List Event}, ReflTransGen (· <+: ·) a b → a <+: b := by
    intro a b hab
    induction hab with
    | refl => exact List.prefix_rfl
    | tail _ hlast ih => exact ih.trans hlast
  rw [← hlog]
  exact hmoves (h data)

theorem logs_showSignPrompts (queue : List SignNotification) : Logs (showSignPrompts queue) := by
  induction queue with
  | nil =>
      intro d
      exact .refl
  | cons msg rest ih =>
      intro d
      refine Leads.get ?_
      split
      · exact .refl
      · refine Leads.modify ?_
        split
        · exact Leads.commit .refl (ih _)
        · exact Leads.modify (Leads.commit (.single (List.prefix_append _ _)) (ih _))

theorem logs_trySign (world : World) (msg : SignNotification) : Logs (trySign world msg) := by
  intro d
  refine Leads.get (Leads.okOr .refl fun entry _ => ?_)
  refine Leads.ensure .refl fun _ => ?_
  refine Leads.ofResult .refl fun nonces _ => ?_
  refine Leads.bindKeeps (keeps_getWallet _) .refl fun _ => ?_
  unfold verifyAndSignPset request sendRequest emit
  simp only [bind_assoc]
  refine Leads.get (Leads.modify ?_)
  refine Leads.commit (.single (List.prefix_append _ _)) ?_
  refine Leads.ofResult .refl fun signedPset _ => ?_
  refine Leads.get (Leads.modify ?_)
  refine Leads.commit (.single (List.prefix_append _ _)) ?_
  refine Leads.ofResult .refl fun resp _ => ?_
  refine Leads.okOr .refl fun _ _ => ?_
  refine Leads.get (Leads.ofPanic .refl fun entry' _ => ?_)
  refine Leads.modify ?_
  split
  · exact Leads.modify (.single (List.prefix_append _ _))
  · exact .refl

theorem logs_processPendingSignPrompts : Logs processPendingSignPrompts := by
  intro d
  exact Leads.get (logs_showSignPrompts _ d)

/-- A message that passes is logged as checked. -/
theorem takeSign_log (world : World) (data d : Data) (msg : SignNotification)
    (entry : SubmitData) :
    d.log ++ [.checked msg entry (precisionOf data msg.details.asset)] <+:
      (exec (takeSign world data msg entry) d).2.log := by
  unfold takeSign
  rw [exec_modify_bind]
  split
  · have hlog : Logs (trySign world msg >>= fun _ => pure ()) :=
      Follows.bind (logs_trySign world msg) fun _ _ => .refl
    exact hlog.isPrefix rfl
  · rw [exec_modify_bind]
    exact logs_processPendingSignPrompts.isPrefix rfl

/-! ## The rest of the run -/

/-- A `Sign` message of an order passes the checks. -/
def Event.checksSign (orderId : OrderId) : Event → Bool
  | .checked msg _ _ => msg.orderId == orderId
  | _ => false

/-- The `Sign` messages of an order that have passed. -/
def Book.checkedSigns (b : Book) (orderId : OrderId) : Nat :=
  b.log.countP (Event.checksSign orderId)

/-- The order is marked, and `n` messages of it have passed. -/
def Blocked (orderId : OrderId) (n : Nat) (b : Book) : Prop :=
  b.processedSigns.contains orderId = true ∧ b.checkedSigns orderId = n

theorem checksSign_of_isQuiet {e : Event} (h : e.isQuiet = true) (orderId : OrderId) :
    e.checksSign orderId = false := by
  cases e with
  | checked msg entry precision => exact nomatch h
  | _ => rfl

section

variable {orderId : OrderId} {n : Nat} {b b' : Book}

/-- A mark is not taken away by another one. -/
theorem contains_insert_of_contains {ids : Std.TreeSet OrderId} (other : OrderId)
    (h : ids.contains orderId = true) : (ids.insert other).contains orderId = true := by
  rw [Std.TreeSet.contains_insert, h, Bool.or_true]

/-- What neither takes a mark away nor passes a message of the order. -/
theorem Blocked.keep (h : Blocked orderId n b) {es : List Event}
    (hmark : b.processedSigns.contains orderId = true → b'.processedSigns.contains orderId = true)
    (hlog : b'.log = b.log ++ es) (hes : ∀ e ∈ es, e.checksSign orderId = false) :
    Blocked orderId n b' := by
  refine ⟨hmark h.1, ?_⟩
  have hnone : es.countP (Event.checksSign orderId) = 0 := by
    rw [List.countP_eq_zero]
    intro e he
    rw [hes e he]
    exact Bool.false_ne_true
  unfold Book.checkedSigns
  rw [hlog, List.countP_append, hnone]
  exact h.2

theorem Blocked.same (h : Blocked orderId n b) (hmark : b'.processedSigns = b.processedSigns)
    (hlog : b'.log = b.log) : Blocked orderId n b' := by
  refine h.keep ?_ (hlog.trans (List.append_nil _).symm) fun _ he => nomatch he
  rw [hmark]
  exact id

theorem Blocked.record (h : Blocked orderId n b) (id : OrderId) (entry : SubmitData) :
    Blocked orderId n (b.record id entry) := h.same rfl rfl

theorem Blocked.emit (h : Blocked orderId n b) {e : Event} (he : e.checksSign orderId = false) :
    Blocked orderId n (b.emit e) := by
  refine h.keep id rfl ?_
  intro e' he'
  obtain rfl := List.mem_singleton.mp he'
  exact he

/-- Taking the message of another order. -/
theorem Blocked.take (h : Blocked orderId n b) {msg : SignNotification} {entry : SubmitData}
    {precision : Nat} (hfresh : b.processedSigns.contains msg.orderId = false) :
    Blocked orderId n (b.take msg entry precision) := by
  have hother : (msg.orderId == orderId) = false := by
    refine beq_false_of_ne ?_
    rintro rfl
    rw [h.1] at hfresh
    exact nomatch hfresh
  refine h.keep ?_ rfl ?_
  · exact contains_insert_of_contains msg.orderId
  · intro e he
    obtain rfl := List.mem_singleton.mp he
    exact hother

theorem Attempt.blocked {msg : SignNotification} (hattempt : Attempt msg b b')
    (h : Blocked orderId n b) : Blocked orderId n b' := by
  cases hattempt with
  | none => exact h
  | refused _ => exact h.emit rfl
  | sent _ => exact (h.emit rfl).emit rfl

/-- **BLOCKED**: no move takes the mark away or passes a message of the order. -/
theorem Move.blocked (hmove : Move b b') (h : Blocked orderId n b) : Blocked orderId n b' := by
  -- a message passes in the moves `queue` and `autoSign` only, and these need an unmarked order
  cases hmove with
  | note hquiet => exact h.emit (checksSign_of_isQuiet hquiet orderId)
  | login _ => exact h.same rfl rfl
  | logout => exact h.same rfl rfl
  | accept _ _ => exact (h.record _ _).emit rfl
  | addMissing _ _ _ => exact h.same rfl rfl
  | refuse _ =>
      exact h.keep (contains_insert_of_contains _) (List.append_nil _).symm fun _ he => nomatch he
  | queue hfresh _ _ _ => exact (h.take hfresh).same rfl rfl
  | autoSign hfresh _ _ _ hattempt => exact hattempt.blocked (h.take hfresh)
  | @prompt msg _ entry _ _ =>
      exact (h.emit (e := .toUi (.submitReview (signReview msg entry))) rfl).same rfl rfl
  | dropPrompt _ => exact h.same rfl rfl
  | decide _ _ hattempt => exact hattempt.blocked (h.same rfl rfl)
  | edit _ => exact h.emit rfl
  | editEntry _ => exact (h.record _ _).emit rfl
  | editAutoSign _ _ => exact h.same rfl rfl
  | mark _ => exact h.same rfl rfl
  | complete _ => exact h.same rfl rfl
  | @startSwap req asset inputs recvAddr changeAddr swapId _ _ =>
      exact (h.emit (e := req.answered asset inputs recvAddr changeAddr swapId) rfl).same rfl rfl
  | refuseSwap _ _ _ => exact h.emit rfl
  | signSwap _ _ _ => exact (h.emit rfl).emit rfl
  | swapDone => exact h.same rfl rfl

theorem Moves.blocked (hmoves : Moves b b') (h : Blocked orderId n b) : Blocked orderId n b' := by
  induction hmoves with
  | refl => exact h
  | tail _ hlast ih => exact hlast.blocked ih

end

/-- A marked order stays blocked, whatever the worker receives. -/
theorem later_blocked {world : World} {ok : System → Message → Prop} {orderId : OrderId} {n : Nat}
    {s t : System} (hlater : Later (step world) ok s t) (h : Blocked orderId n s.data.book) :
    Blocked orderId n t.data.book := by
  refine Later.invariant (I := fun s => Blocked orderId n s.data.book) hlater h ?_
  intro s msg hI _
  cases hs : s.stopped with
  | false =>
      have hreceived : Blocked orderId n (s.data.emit (.received msg)).book :=
        hI.emit (e := .received msg) rfl
      exact (step_moves world s msg hs).blocked hreceived
  | true =>
      show Blocked orderId n (step world s msg).data.book
      rw [step_stopped world msg hs]
      exact hI

/-- **A REJECTED MESSAGE BLOCKS ITS ORDER**: whatever the state, a `Sign`
    message that fails a check changes it.  A message of the same order that
    would have passed is skipped, and in every run that goes on with the mark
    no message of the order passes. -/
theorem rejected_sign_blocks (world : World) (data : Data) (msg : SignNotification) (e : String)
    (hfresh : data.processedSigns.contains msg.orderId = false)
    (hrejected : signChecks data msg = .error e) :
    exec (tryProcessSign world msg) data = (.error (.error e), data.mark msg.orderId) ∧
      data.mark msg.orderId ≠ data ∧
      (∀ (valid : SignNotification) (entry : SubmitData), valid.orderId = msg.orderId →
        signChecks data valid = .ok entry →
        exec (tryProcessSign world valid) (data.mark msg.orderId) =
            (.ok (), data.mark msg.orderId) ∧
          data.log ++ [.checked valid entry (precisionOf data valid.details.asset)] <+:
            (exec (tryProcessSign world valid) data).2.log) ∧
      (∀ s t : System, s.data.processedSigns.contains msg.orderId = true →
        Later (step world) (fun _ _ => True) s t →
        t.data.book.checkedSigns msg.orderId = s.data.book.checkedSigns msg.orderId) := by
  refine ⟨?_, mark_ne hfresh, ?_, ?_⟩
  · rw [exec_tryProcessSign_fresh world hfresh, hrejected]
    rfl
  · intro valid entry horder hvalid
    rw [← horder] at hfresh ⊢
    refine ⟨exec_tryProcessSign_marked world (mark_contains data valid.orderId), ?_⟩
    rw [exec_tryProcessSign_fresh world hfresh, hvalid]
    exact takeSign_log world data (data.mark valid.orderId) valid entry
  · intro s t hmarked hlater
    exact (later_blocked hlater ⟨hmarked, rfl⟩).2

/-- A `Sign` message without a server fee. -/
def Sample.freeSign : SignNotification :=
  { sign .taker with details := { details .taker with serverFee := 0 } }

/-- The worker of a user who has accepted the order. -/
def Sample.accepted : System := run (world .taker) bitcoin [asset] accepting

/-- The message without a fee is rejected, and marks the order. -/
theorem free_sign_marks_order :
    (exec (tryProcessSign (Sample.world .taker) Sample.freeSign) Sample.accepted.data).2 ≠
      Sample.accepted.data := by
  have hfails : (signChecks Sample.accepted.data Sample.freeSign).isOk = false := by
    decide +kernel
  cases hchecks : signChecks Sample.accepted.data Sample.freeSign with
  | ok entry =>
      rw [hchecks] at hfails
      exact nomatch hfails
  | error e =>
      obtain ⟨hexec, hchanged, -, -⟩ := rejected_sign_blocks (Sample.world .taker)
        Sample.accepted.data Sample.freeSign e (by decide +kernel) hchecks
      rw [hexec]
      exact hchanged

/-- The user has accepted the order; after a message that is rejected the
    correct one is skipped, and without it the correct one passes. -/
theorem free_sign_blocks_order :
    let blocked := run (Sample.world .taker) Sample.bitcoin [Sample.asset]
      (Sample.accepting ++ [.serverNotification (.sign Sample.freeSign),
        .serverNotification (.sign (Sample.sign .taker))])
    let signed := run (Sample.world .taker) Sample.bitcoin [Sample.asset]
      (Sample.accepting ++ [.serverNotification (.sign (Sample.sign .taker))])
    (exec (tryProcessSign (Sample.world .taker) Sample.freeSign)
        Sample.accepted.data).2.processedSigns.contains Sample.order = true ∧
      Sample.accepted.data.processedSigns.contains Sample.order = false ∧
      blocked.data.book.checkedSigns Sample.order = 0 ∧
      signed.data.book.checkedSigns Sample.order = 1 := by
  decide +kernel

end Client
