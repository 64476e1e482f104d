import SideSwap.ClientActs

/-! # The sign prompt of the wallet worker

    Three fields hold the state of the dialog: the order on screen, the `Sign`
    message the user is asked about, and the messages still to be asked about.
    `Play.promptCase` says once what an act can do to them.  The prompt is kept
    as long as nothing clears the screen while it is undecided; the messages
    that do so are named by `KeepsPrompt`. -/

namespace Client

open Api Program Relation Transition History

/-! ## Reading the history -/

/-- What an event says about the prompt for an order: it is shown, or it is
    settled by a decision of the user or by a logout. -/
def Event.prompting (orderId : OrderId) : Event → Option Bool
  | .toUi (.submitReview review) =>
      if review.step = .sign ∧ review.orderId = orderId then some true else none
  | .received (.ui (.submitDecision req)) =>
      if fromStr req.orderId = some orderId then some false else none
  | .received (.ui .logout) => some false
  | _ => none

/-- The prompt for an order was shown, and neither a decision for the order nor
    a logout has come since. -/
def Prompted (orderId : OrderId) (log : List Event) : Prop :=
  latest (Event.prompting orderId) log = some true

instance (orderId : OrderId) (log : List Event) : Decidable (Prompted orderId log) :=
  inferInstanceAs (Decidable (_ = _))

/-- `try_process_sign` has taken the message. -/
def CheckedSign (msg : SignNotification) (log : List Event) : Prop :=
  ∃ entry precision, Event.checked msg entry precision ∈ log

def Event.isCheck : Event → Bool
  | .checked _ _ _ => true
  | _ => false

/-- Events of the turn that neither check a message nor show an order. -/
def Silent (es : List Event) : Prop :=
  ∀ e ∈ es, Event.message? e = none ∧ Event.isReview e = false ∧ Event.isCheck e = false

theorem silent_nil : Silent [] := fun _ h => nomatch h

theorem silent_one {e : Event} (hmessage : Event.message? e = none)
    (hreview : Event.isReview e = false) (hcheck : Event.isCheck e = false) : Silent [e] :=
  List.forall_mem_singleton.mpr ⟨hmessage, hreview, hcheck⟩

theorem silent_two {e e' : Event} (h : Silent [e]) (h' : Silent [e']) : Silent [e, e'] := by
  intro x hx
  rcases List.mem_pair.mp hx with rfl | rfl
  · exact h x List.mem_cons_self
  · exact h' x List.mem_cons_self

theorem silent_of_isNote {e : Event} (h : e.isNote = true) : Silent [e] := by
  refine silent_one (message?_of_isNote h) ?_ ?_
  · cases e with
    | toUi msg =>
        cases msg with
        | submitReview review => exact nomatch (Bool.and_eq_true_iff.mp h).2
        | _ => rfl
    | _ => rfl
  · cases e with
    | checked msg entry precision => exact nomatch h
    | _ => rfl

theorem silent_callEvents {requestId : Option String} {callback : AsyncRequest}
    {res : Except Error Response} : Silent (callEvents requestId callback res) := by
  intro e he
  rcases callEvents_cases he with rfl | hnote
  · exact ⟨rfl, rfl, rfl⟩
  · exact silent_of_isNote hnote e (List.mem_singleton_self e)

/-- Such events say nothing about prompts. -/
theorem prompting_silent {e : Event} (hmessage : Event.message? e = none)
    (hreview : Event.isReview e = false) (orderId : OrderId) :
    Event.prompting orderId e = none := by
  cases e with
  | received msg => cases hmessage
  | toUi msg =>
      cases msg with
      | submitReview review => cases hreview
      | _ => rfl
  | _ => rfl

theorem latest_silent {es : List Event} (h : Silent es) (orderId : OrderId) (log : List Event) :
    latest (Event.prompting orderId) (log ++ es) = latest (Event.prompting orderId) log := by
  refine latest_append_none (List.filterMap_eq_nil_iff.mpr fun e he => ?_) log
  obtain ⟨hmessage, hreview, _⟩ := h e he
  exact prompting_silent hmessage hreview orderId

/-- Nor does taking a message. -/
theorem latest_check {msg : SignNotification} {entry : SubmitData} {precision : Nat}
    {es : List Event} (h : Silent es) (orderId : OrderId) (log : List Event) :
    latest (Event.prompting orderId) (log ++ .checked msg entry precision :: es) =
      latest (Event.prompting orderId) log := by
  refine latest_append_none ?_ log
  rw [List.filterMap_cons_none rfl]
  refine List.filterMap_eq_nil_iff.mpr fun e he => ?_
  exact prompting_silent (h e he).1 (h e he).2.1 orderId

theorem noReview_append {log es : List Event} (hes : ∀ e ∈ es, Event.message? e = none)
    (h : NoReview (log ++ es)) : NoReview log := by
  intro e he
  refine h e ?_
  rw [turn_append hes]
  exact List.mem_append_left es he

/-! ## What can happen to the dialog -/

/-- What clears the screen: a decision that leaves no prompt of its own order,
    or the end of the order on screen or waited for. -/
def Closes (cause : Message) (c : Core) : Prop :=
  (∃ req, cause = .ui (.submitDecision req) ∧
    (req.accept = true → ∀ msg, c.activeSign = some msg → toText msg.orderId ≠ req.orderId)) ∨
  (∃ orderId, cause = .serverNotification (.complete ⟨orderId, none⟩) ∧
    (c.visibleSubmit = some orderId ∨
      (c.visibleSubmit = none ∧ c.waitingSubmit = some orderId)))

/-- What an act does to the dialog. -/
inductive PromptCase (cause : Message) (c c' : Core) : Prop where
  | same {es} : c'.activeSign = c.activeSign → c'.visibleSubmit = c.visibleSubmit →
      (∀ msg ∈ c'.pendingSignPrompts, msg ∈ c.pendingSignPrompts) →
      (∀ orderId, c.processedSigns.contains orderId = true →
        c'.processedSigns.contains orderId = true) →
      c'.log = c.log ++ es → Silent es → PromptCase cause c c'
  /-- a `Sign` message is taken -/
  | check {msg entry precision es} : c.processedSigns.contains msg.orderId = false →
      c'.activeSign = c.activeSign → c'.visibleSubmit = c.visibleSubmit →
      (∀ msg' ∈ c'.pendingSignPrompts, msg' ∈ c.pendingSignPrompts ∨ msg' = msg) →
      c'.processedSigns = c.processedSigns.insert msg.orderId →
      c'.log = c.log ++ .checked msg entry precision :: es → Silent es → PromptCase cause c c'
  /-- the user is asked -/
  | prompt {msg entry} : c.visibleSubmit = none → msg ∈ c.pendingSignPrompts →
      c'.activeSign = some msg → c'.visibleSubmit = some msg.orderId →
      (∀ msg ∈ c'.pendingSignPrompts, msg ∈ c.pendingSignPrompts) →
      c'.processedSigns = c.processedSigns →
      c'.log = c.log ++ [.toUi (.submitReview (signReview msg entry))] → PromptCase cause c c'
  /-- an order is up for review -/
  | review {review orderId} : review.step ≠ .sign → c'.activeSign = c.activeSign →
      c'.visibleSubmit = some orderId → c'.pendingSignPrompts = c.pendingSignPrompts →
      c'.processedSigns = c.processedSigns →
      c'.log = c.log ++ [.toUi (.submitReview review)] → PromptCase cause c c'
  /-- the prompt is settled -/
  | settle {es} : NoReview c.log →
      (∀ msg, c.activeSign = some msg →
        Event.prompting msg.orderId (.received cause) = some false) →
      c'.activeSign = none → c'.visibleSubmit = c.visibleSubmit →
      c'.pendingSignPrompts = c.pendingSignPrompts → c'.processedSigns = c.processedSigns →
      c'.log = c.log ++ es → Silent es → PromptCase cause c c'
  /-- the screen is cleared -/
  | close : NoReview c.log → Closes cause c → c'.activeSign = c.activeSign →
      c'.visibleSubmit = none → c'.pendingSignPrompts = c.pendingSignPrompts →
      c'.processedSigns = c.processedSigns → c'.log = c.log → PromptCase cause c c'

section Cases

variable {cause : Message} {c c' : Core} {es : List Event}

/-- The dialog stays. -/
theorem PromptCase.still (hactive : c'.activeSign = c.activeSign)
    (hvisible : c'.visibleSubmit = c.visibleSubmit)
    (hprompts : c'.pendingSignPrompts = c.pendingSignPrompts)
    (hprocessed : c'.processedSigns = c.processedSigns) (hlog : c'.log = c.log ++ es)
    (hes : Silent es) : PromptCase cause c c' :=
  .same hactive hvisible (fun _ h => hprompts ▸ h) (fun _ h => hprocessed ▸ h) hlog hes

end Cases

/-- An attempt to sign leaves the dialog alone. -/
theorem Attempt.silent {msg : SignNotification} {b b' : Book} (h : Attempt msg b b') :
    b'.activeSign = b.activeSign ∧ b'.pendingSignPrompts = b.pendingSignPrompts ∧
      b'.processedSigns = b.processedSigns ∧ ∃ es, b'.log = b.log ++ es ∧ Silent es := by
  cases h with
  | none => exact ⟨rfl, rfl, rfl, [], (List.append_nil _).symm, silent_nil⟩
  | refused _ => exact ⟨rfl, rfl, rfl, _, rfl, silent_one rfl rfl rfl⟩
  | sent _ =>
      refine ⟨rfl, rfl, rfl, _, List.append_assoc _ _ _, ?_⟩
      exact silent_two (silent_one rfl rfl rfl) (silent_one rfl rfl rfl)

theorem Take.promptCase {cause : Message} {msg : SignNotification} {c c' : Core}
    (h : Take msg c c') : PromptCase cause c c' := by
  cases h with
  | refuse _ =>
      refine .same rfl rfl (fun _ h => h) (fun orderId h => ?_) (List.append_nil _).symm silent_nil
      exact Std.TreeSet.contains_insert.trans (by rw [h, Bool.or_true])
  | queue hfresh _ _ _ =>
      refine .check hfresh rfl rfl (fun msg' hmem => ?_) rfl rfl silent_nil
      rcases List.mem_append.mp hmem with hold | hnew
      · exact .inl hold
      · exact .inr (List.mem_singleton.mp hnew)
  | @autoSign entry precision b n hfresh _ _ _ hattempt _ =>
      obtain ⟨hactive, hprompts, hprocessed, es, hlog, hes⟩ := hattempt.silent
      refine .check hfresh hactive rfl (fun msg' hmem => .inl ?_) hprocessed
        (hlog.trans (List.append_assoc _ _ _)) hes
      exact hprompts ▸ hmem

/-- **ONE ACT**: what it does to the dialog. -/
theorem Act.promptCase {world : World} {cause : Message} {c c' : Core}
    (h : Act world cause c c') : PromptCase cause c c' := by
  cases h with
  | note hnote =>
      obtain ⟨hevent, _⟩ := hnote
      exact .still rfl rfl rfl rfl rfl (silent_of_isNote hevent)
  | logout hcause hquiet =>
      subst hcause
      exact .settle hquiet (fun _ _ => rfl) rfl rfl rfl rfl (List.append_nil _).symm silent_nil
  | accept _ _ _ _ hoffers _ =>
      refine .still rfl rfl rfl rfl (List.append_assoc _ _ _) ?_
      exact silent_two (silent_one rfl rfl rfl) (silent_one rfl rfl rfl)
  | restore _ _ _ _ _ => exact .still rfl rfl rfl rfl rfl (silent_one rfl rfl rfl)
  | @takeQueued _ msg rest _ htake =>
      have hcase : PromptCase cause { c with pendingSignRequests := rest } c' := htake.promptCase
      cases hcase with
      | same hactive hvisible hprompts hprocessed hlog hes =>
          exact .same hactive hvisible hprompts hprocessed hlog hes
      | check hfresh hactive hvisible hprompts hprocessed hlog hes =>
          exact .check hfresh hactive hvisible hprompts hprocessed hlog hes
      | prompt hscreen hmem hactive hvisible hprompts hprocessed hlog =>
          exact .prompt hscreen hmem hactive hvisible hprompts hprocessed hlog
      | review hstep hactive hvisible hprompts hprocessed hlog =>
          exact .review hstep hactive hvisible hprompts hprocessed hlog
      | settle hquiet hsettled hactive hvisible hprompts hprocessed hlog hes =>
          exact .settle hquiet hsettled hactive hvisible hprompts hprocessed hlog hes
      | close hquiet hcloses hactive hvisible hprompts hprocessed hlog =>
          exact .close hquiet hcloses hactive hvisible hprompts hprocessed hlog
  | takeArrived _ htake => exact htake.promptCase
  | @prompt msg rest entry hscreen hqueue _ =>
      refine .prompt hscreen ?_ rfl rfl (fun msg' hmem => ?_) rfl rfl
      · rw [hqueue]
        exact List.mem_cons_self
      · rw [hqueue]
        exact List.mem_cons_of_mem msg hmem
  | @dropPrompt msg rest hqueue =>
      refine .same rfl rfl (fun msg' hmem => ?_) (fun _ h => h) (List.append_nil _).symm silent_nil
      rw [hqueue]
      exact List.mem_cons_of_mem msg hmem
  | review hstep => exact .review hstep rfl rfl rfl rfl rfl
  | @decide req msg b n hcause _ hquiet hactive htext hattempt _ =>
      obtain ⟨hnone, hprompts, hprocessed, es, hlog, hes⟩ := hattempt.silent
      refine .settle hquiet (fun msg' hmsg' => ?_) hnone rfl hprompts hprocessed hlog hes
      cases hactive.symm.trans hmsg'
      subst hcause
      show (if fromStr req.orderId = some msg.orderId then some false else none) = some false
      rw [← htext, fromStr_toText, if_pos rfl]
  | closeReview hcause hquiet hgone =>
      exact .close hquiet (.inl ⟨_, hcause, hgone⟩) rfl rfl rfl rfl rfl
  | closeGone hcause hquiet hgone =>
      exact .close hquiet (.inr ⟨_, hcause, hgone⟩) rfl rfl rfl rfl rfl
  | edit _ _ => exact .still rfl rfl rfl rfl rfl (silent_one rfl rfl rfl)
  | editEntry _ _ => exact .still rfl rfl rfl rfl rfl (silent_one rfl rfl rfl)
  | startSwap _ _ _ => exact .still rfl rfl rfl rfl rfl (silent_one rfl rfl rfl)
  | refuseSwap _ _ _ => exact .still rfl rfl rfl rfl rfl (silent_one rfl rfl rfl)
  | signSwap _ _ _ _ =>
      refine .still rfl rfl rfl rfl (List.append_assoc _ _ _) ?_
      exact silent_two (silent_one rfl rfl rfl) (silent_one rfl rfl rfl)
  | createTx => exact .still rfl rfl rfl rfl rfl (silent_one rfl rfl rfl)
  | sendTx _ => exact .still rfl rfl rfl rfl rfl (silent_one rfl rfl rfl)
  | ask _ _ => exact .still rfl rfl rfl rfl rfl (silent_one rfl rfl rfl)
  | askOffline _ => exact .still rfl rfl rfl rfl rfl silent_callEvents
  | answer _ _ => exact .still rfl rfl rfl rfl rfl silent_callEvents
  | drain _ =>
      refine .still rfl rfl rfl rfl rfl ?_
      intro e he
      obtain ⟨line, _, hmem⟩ := List.mem_flatMap.mp he
      exact silent_callEvents e hmem
  | _ => exact .still rfl rfl rfl rfl (List.append_nil _).symm silent_nil

theorem Play.promptCase {world : World} {cause : Message} {c c' : Core}
    (h : Play world cause c c') : PromptCase cause c c' := by
  cases h with
  | act hact => exact hact.promptCase
  | list hlist =>
      cases hlist with
      | change _ => exact .still rfl rfl rfl rfl (List.append_nil _).symm silent_nil
      | shows hshow =>
          cases hshow with
          | remove _ => exact .still rfl rfl rfl rfl rfl (silent_one rfl rfl rfl)
          | put _ _ => exact .still rfl rfl rfl rfl rfl (silent_one rfl rfl rfl)

/-! ## The invariant -/

/-- What always holds of the dialog. -/
structure PromptBase (c : Core) : Prop where
  /-- a prompt is not left without a screen -/
  visible : ∀ msg, c.activeSign = some msg → c.visibleSubmit ≠ none
  /-- an order has one `Sign` message -/
  unique : ∀ msg msg', CheckedSign msg c.log → CheckedSign msg' c.log →
    msg.orderId = msg'.orderId → msg = msg'
  processed : ∀ msg, CheckedSign msg c.log → c.processedSigns.contains msg.orderId = true
  queued : ∀ msg ∈ c.pendingSignPrompts, CheckedSign msg c.log
  active : ∀ msg, c.activeSign = some msg → CheckedSign msg c.log
  /-- a prompt that is shown and not settled is there -/
  shown : ∀ orderId, Prompted orderId c.log →
    ∃ msg, c.activeSign = some msg ∧ msg.orderId = orderId

/-- The prompt that is there was shown and is not settled. -/
def Unsettled (c : Core) : Prop := ∀ msg, c.activeSign = some msg → Prompted msg.orderId c.log

/-- The same while a message is handled: as long as no order has been shown in
    the turn, the screen is as it was or the prompt is gone. -/
structure PromptTurn (data : Data) (cause : Message) (c : Core) : Prop extends PromptBase c where
  screen : NoReview c.log → c.activeSign = none ∨
    (c.activeSign = data.activeSign ∧ c.visibleSubmit = data.visibleSubmit)
  past : NoReview c.log → ∀ orderId, latest (Event.prompting orderId) c.log =
    latest (Event.prompting orderId) (data.log ++ [.received cause])

/-- The messages that do not clear the screen while a prompt is undecided: a
    decision is the acceptance of the prompt, and the order on screen does not
    end without a transaction. -/
def KeepsPrompt (s : System) : Message → Prop
  | .ui (.submitDecision req) => ∀ msg ∈ s.data.activeSign,
      req.accept = true ∧ toText msg.orderId = req.orderId
  | .serverNotification (.complete ⟨orderId, none⟩) =>
      s.data.activeSign = none ∨ s.data.visibleSubmit ≠ some orderId
  | _ => True

/-! ## Steps -/

/-- The longer history tells the same of messages and prompts. -/
structure SameHistory (log log' : List Event) : Prop where
  checked : ∀ msg, CheckedSign msg log' → CheckedSign msg log
  stays : ∀ msg, CheckedSign msg log → CheckedSign msg log'
  latest : ∀ orderId, History.latest (Event.prompting orderId) log' =
    History.latest (Event.prompting orderId) log

theorem CheckedSign.grow {msg : SignNotification} {log es : List Event}
    (h : CheckedSign msg log) : CheckedSign msg (log ++ es) := by
  obtain ⟨entry, precision, hmem⟩ := h
  exact ⟨entry, precision, List.mem_append_left es hmem⟩

theorem CheckedSign.of_grow {msg : SignNotification} {log es : List Event}
    (hes : ∀ e ∈ es, Event.isCheck e = false) (h : CheckedSign msg (log ++ es)) :
    CheckedSign msg log := by
  obtain ⟨entry, precision, hmem⟩ := h
  rcases List.mem_append.mp hmem with hold | hnew
  · exact ⟨entry, precision, hold⟩
  · cases hes _ hnew

theorem sameHistory_silent {es : List Event} (h : Silent es) (log : List Event) :
    SameHistory log (log ++ es) where
  checked _ := CheckedSign.of_grow fun e he => (h e he).2.2
  stays _ := CheckedSign.grow
  latest orderId := latest_silent h orderId log

/-- The review of an order to submit is no prompt. -/
theorem sameHistory_review {review : SubmitReview} (h : review.step ≠ .sign) (log : List Event) :
    SameHistory log (log ++ [.toUi (.submitReview review)]) where
  checked _ := CheckedSign.of_grow (List.forall_mem_singleton.mpr rfl)
  stays _ := CheckedSign.grow
  latest orderId := by
    refine latest_concat_none ?_ log
    show (if review.step = .sign ∧ review.orderId = orderId then some true else none) = none
    rw [if_neg fun hboth => h hboth.1]

/-- Steps whose events tell nothing new. -/
theorem PromptBase.step {c c' : Core} (h : PromptBase c) (hhistory : SameHistory c.log c'.log)
    (hvisible : ∀ msg, c'.activeSign = some msg → c'.visibleSubmit ≠ none)
    (hactive : ∀ msg, c'.activeSign = some msg → c.activeSign = some msg)
    (hprompts : ∀ msg ∈ c'.pendingSignPrompts, msg ∈ c.pendingSignPrompts)
    (hprocessed : ∀ orderId, c.processedSigns.contains orderId = true →
      c'.processedSigns.contains orderId = true)
    (hshown : ∀ msg, c.activeSign = some msg → Prompted msg.orderId c.log →
      c'.activeSign = some msg) : PromptBase c' where
  visible := hvisible
  unique msg msg' hmsg hmsg' :=
    h.unique msg msg' (hhistory.checked msg hmsg) (hhistory.checked msg' hmsg')
  processed msg hmsg := hprocessed _ (h.processed msg (hhistory.checked msg hmsg))
  queued msg hmem := hhistory.stays msg (h.queued msg (hprompts msg hmem))
  active msg hmsg := hhistory.stays msg (h.active msg (hactive msg hmsg))
  shown orderId hprompted := by
    unfold Prompted at hprompted
    rw [hhistory.latest orderId] at hprompted
    obtain ⟨msg, hmsg, rfl⟩ := h.shown orderId hprompted
    exact ⟨msg, hshown msg hmsg hprompted, rfl⟩

/-- A message that is taken is the only one of its order. -/
theorem PromptBase.check {c c' : Core} {msg : SignNotification} {entry : SubmitData}
    {precision : Nat} {es : List Event} (h : PromptBase c)
    (hfresh : c.processedSigns.contains msg.orderId = false)
    (hactive : c'.activeSign = c.activeSign) (hvisible : c'.visibleSubmit = c.visibleSubmit)
    (hprompts : ∀ msg' ∈ c'.pendingSignPrompts, msg' ∈ c.pendingSignPrompts ∨ msg' = msg)
    (hprocessed : c'.processedSigns = c.processedSigns.insert msg.orderId)
    (hlog : c'.log = c.log ++ .checked msg entry precision :: es) (hes : Silent es) :
    PromptBase c' := by
  have hnew : CheckedSign msg c'.log := by
    refine ⟨entry, precision, ?_⟩
    rw [hlog]
    exact List.mem_append_right _ List.mem_cons_self
  have hgrow : ∀ msg', CheckedSign msg' c.log → CheckedSign msg' c'.log := by
    intro msg' hmsg'
    rw [hlog]
    exact hmsg'.grow
  have hchecked : ∀ msg', CheckedSign msg' c'.log → CheckedSign msg' c.log ∨ msg' = msg := by
    rintro msg' ⟨entry', precision', hmem⟩
    rw [hlog] at hmem
    rcases List.mem_append.mp hmem with hold | hmem
    · exact .inl ⟨entry', precision', hold⟩
    · rcases List.mem_cons.mp hmem with hhead | htail
      · cases hhead
        exact .inr rfl
      · cases (hes _ htail).2.2
  -- a message of the same order that was taken before would have left its mark
  have hother : ∀ msg', CheckedSign msg' c.log → msg'.orderId ≠ msg.orderId := by
    intro msg' hmsg' horder
    have hmark := h.processed msg' hmsg'
    rw [horder, hfresh] at hmark
    cases hmark
  refine ⟨?_, ?_, ?_, ?_, ?_, ?_⟩
  · intro msg' hmsg'
    rw [hvisible]
    exact h.visible msg' (hactive ▸ hmsg')
  · intro msg1 msg2 h1 h2 horder
    rcases hchecked msg1 h1 with h1 | rfl
    · rcases hchecked msg2 h2 with h2 | rfl
      · exact h.unique msg1 msg2 h1 h2 horder
      · exact absurd horder (hother msg1 h1)
    · rcases hchecked msg2 h2 with h2 | rfl
      · exact absurd horder.symm (hother msg2 h2)
      · rfl
  · intro msg' hmsg'
    rw [hprocessed, Std.TreeSet.contains_insert]
    rcases hchecked msg' hmsg' with hold | rfl
    · rw [h.processed msg' hold, Bool.or_true]
    · rw [show compare msg'.orderId msg'.orderId = .eq from Std.compare_eq_iff_eq.mpr rfl]
      rfl
  · intro msg' hmem
    rcases hprompts msg' hmem with hold | rfl
    · exact hgrow msg' (h.queued msg' hold)
    · exact hnew
  · intro msg' hmsg'
    exact hgrow msg' (h.active msg' (hactive ▸ hmsg'))
  · intro orderId hprompted
    rw [hactive]
    refine h.shown orderId ?_
    unfold Prompted at hprompted ⊢
    rw [hlog, latest_check hes] at hprompted
    exact hprompted

/-- A prompt is shown only when there is no other. -/
theorem PromptBase.prompt {c c' : Core} {msg : SignNotification} {entry : SubmitData}
    (h : PromptBase c) (hscreen : c.visibleSubmit = none) (hmem : msg ∈ c.pendingSignPrompts)
    (hactive : c'.activeSign = some msg) (hvisible : c'.visibleSubmit = some msg.orderId)
    (hprompts : ∀ msg ∈ c'.pendingSignPrompts, msg ∈ c.pendingSignPrompts)
    (hprocessed : c'.processedSigns = c.processedSigns)
    (hlog : c'.log = c.log ++ [.toUi (.submitReview (signReview msg entry))]) :
    PromptBase c' ∧ Prompted msg.orderId c'.log := by
  have hnone : c.activeSign = none := by
    cases hold : c.activeSign with
    | none => rfl
    | some old => exact absurd hscreen (h.visible old hold)
  have hchecked : ∀ msg', CheckedSign msg' c'.log → CheckedSign msg' c.log := by
    intro msg' hmsg'
    rw [hlog] at hmsg'
    exact hmsg'.of_grow (List.forall_mem_singleton.mpr rfl)
  have hgrow : ∀ msg', CheckedSign msg' c.log → CheckedSign msg' c'.log := by
    intro msg' hmsg'
    rw [hlog]
    exact hmsg'.grow
  have hshows : Event.prompting msg.orderId (.toUi (.submitReview (signReview msg entry))) =
      some true := if_pos ⟨rfl, rfl⟩
  refine ⟨⟨?_, ?_, ?_, ?_, ?_, ?_⟩, ?_⟩
  · intro msg' _
    rw [hvisible]
    rintro ⟨⟩
  · exact fun msg1 msg2 h1 h2 => h.unique msg1 msg2 (hchecked msg1 h1) (hchecked msg2 h2)
  · intro msg' hmsg'
    rw [hprocessed]
    exact h.processed msg' (hchecked msg' hmsg')
  · exact fun msg' hmem' => hgrow msg' (h.queued msg' (hprompts msg' hmem'))
  · intro msg' hmsg'
    cases hactive.symm.trans hmsg'
    exact hgrow msg (h.queued msg hmem)
  · intro orderId hprompted
    by_cases horder : msg.orderId = orderId
    · exact ⟨msg, hactive, horder⟩
    · -- any other prompt would have been there before
      have hother : Event.prompting orderId (.toUi (.submitReview (signReview msg entry))) =
          none := if_neg fun hboth => horder hboth.2
      unfold Prompted at hprompted
      rw [hlog, latest_concat_none hother] at hprompted
      obtain ⟨old, hold, _⟩ := h.shown orderId hprompted
      cases hnone.symm.trans hold
  · rw [hlog]
    exact latest_concat_some hshows c.log

/-- An order that has been shown in the turn stays shown. -/
theorem not_noReview {log : List Event} {e : Event} (hmessage : Event.message? e = none)
    (hreview : Event.isReview e = true) : ¬ NoReview (log ++ [e]) := by
  intro h
  have hmem : e ∈ turn (log ++ [e]) := by
    rw [turn_append (List.forall_mem_singleton.mpr hmessage)]
    exact List.mem_append_right _ (List.mem_singleton_self e)
  rw [h e hmem] at hreview
  cases hreview

/-- The screen is cleared only when there is no prompt. -/
theorem activeSign_of_closes {s : System} {cause : Message} {c : Core}
    (h : PromptTurn s.data cause c) (hok : KeepsPrompt s cause) (hquiet : NoReview c.log)
    (hcloses : Closes cause c) : c.activeSign = none := by
  rcases h.screen hquiet with hnone | ⟨hactive, hvisible⟩
  · exact hnone
  · cases hmsg : c.activeSign with
    | none => rfl
    | some msg =>
        rcases hcloses with ⟨req, rfl, hgone⟩ | ⟨orderId, rfl, hscreen⟩
        · obtain ⟨haccept, htext⟩ := hok msg (hactive ▸ hmsg)
          exact absurd htext (hgone haccept msg hmsg)
        · rcases hok with hnone | hother
          · rw [← hactive, hmsg] at hnone
            cases hnone
          · rcases hscreen with hshown | ⟨hnone, _⟩
            · exact absurd (hvisible ▸ hshown) hother
            · exact absurd hnone (h.visible msg hmsg)

/-- **STEP**: every act keeps the dialog, if the message does. -/
theorem PromptCase.turn {s : System} {cause : Message} {c c' : Core}
    (hcase : PromptCase cause c c') (hok : KeepsPrompt s cause)
    (h : PromptTurn s.data cause c) : PromptTurn s.data cause c' := by
  cases hcase with
  | @same es hactive hvisible hprompts hprocessed hlog hes =>
      have hhistory : SameHistory c.log c'.log := hlog ▸ sameHistory_silent hes c.log
      have hquiet : NoReview c'.log → NoReview c.log :=
        fun hq => noReview_append (fun e he => (hes e he).1) (hlog ▸ hq)
      refine ⟨h.step hhistory (fun msg hmsg => ?_) (fun _ hmsg => hactive ▸ hmsg) hprompts
        hprocessed (fun _ hmsg _ => hactive.trans hmsg), fun hq => ?_, fun hq orderId => ?_⟩
      · rw [hvisible]
        exact h.visible msg (hactive ▸ hmsg)
      · rw [hactive, hvisible]
        exact h.screen (hquiet hq)
      · rw [hhistory.latest]
        exact h.past (hquiet hq) orderId
  | @check msg entry precision es hfresh hactive hvisible hprompts hprocessed hlog hes =>
      have hmessages : ∀ e ∈ Event.checked msg entry precision :: es, Event.message? e = none :=
        List.forall_mem_cons.mpr ⟨rfl, fun e he => (hes e he).1⟩
      have hquiet : NoReview c'.log → NoReview c.log :=
        fun hq => noReview_append hmessages (hlog ▸ hq)
      refine ⟨h.toPromptBase.check hfresh hactive hvisible hprompts hprocessed hlog hes,
        fun hq => ?_, fun hq orderId => ?_⟩
      · rw [hactive, hvisible]
        exact h.screen (hquiet hq)
      · rw [← h.past (hquiet hq) orderId, hlog, latest_check hes]
  | prompt hscreen hmem hactive hvisible hprompts hprocessed hlog =>
      have hshown : ¬ NoReview c'.log := by
        rw [hlog]
        exact not_noReview rfl rfl
      exact ⟨(h.toPromptBase.prompt hscreen hmem hactive hvisible hprompts hprocessed hlog).1,
        fun hq => absurd hq hshown, fun hq => absurd hq hshown⟩
  | review hstep hactive hvisible hprompts hprocessed hlog =>
      have hshown : ¬ NoReview c'.log := by
        rw [hlog]
        exact not_noReview rfl rfl
      refine ⟨h.step (hlog ▸ sameHistory_review hstep c.log) (fun msg _ => ?_)
        (fun _ hmsg => hactive ▸ hmsg) (fun _ hmem => hprompts ▸ hmem)
        (fun _ hmem => hprocessed ▸ hmem) (fun _ hmsg _ => hactive.trans hmsg),
        fun hq => absurd hq hshown, fun hq => absurd hq hshown⟩
      rw [hvisible]
      rintro ⟨⟩
  | @settle es hquiet hsettled hactive hvisible hprompts hprocessed hlog hes =>
      have hhistory : SameHistory c.log c'.log := hlog ▸ sameHistory_silent hes c.log
      refine ⟨h.step hhistory (fun msg hmsg => ?_) (fun msg hmsg => ?_)
        (fun _ hmem => hprompts ▸ hmem) (fun _ hmem => hprocessed ▸ hmem)
        (fun msg hmsg hprompted => ?_), fun _ => .inl hactive, fun _ orderId => ?_⟩
      · cases hactive.symm.trans hmsg
      · cases hactive.symm.trans hmsg
      · -- the message that is handled has settled the prompt
        have hpast := h.past hquiet msg.orderId
        rw [latest_concat_some (hsettled msg hmsg)] at hpast
        cases hpast.symm.trans hprompted
      · rw [hhistory.latest]
        exact h.past hquiet orderId
  | close hquiet hcloses hactive hvisible hprompts hprocessed hlog =>
      have hnone : c'.activeSign = none :=
        hactive.trans (activeSign_of_closes h hok hquiet hcloses)
      have hhistory : SameHistory c.log c'.log := by
        rw [hlog]
        exact ⟨fun _ => id, fun _ => id, fun _ => rfl⟩
      refine ⟨h.step hhistory (fun msg hmsg => ?_) (fun _ hmsg => hactive ▸ hmsg)
        (fun _ hmem => hprompts ▸ hmem) (fun _ hmem => hprocessed ▸ hmem)
        (fun _ hmsg _ => hactive.trans hmsg), fun _ => .inl hnone, fun hq orderId => ?_⟩
      · cases hnone.symm.trans hmsg
      · rw [hlog]
        exact h.past hquiet orderId

/-- Once the prompt that is there is unsettled, it stays so for the turn. -/
theorem PromptCase.unsettled {cause : Message} {c c' : Core} (hcase : PromptCase cause c c')
    (h : PromptBase c) (hunsettled : Unsettled c) : Unsettled c' := by
  intro msg hmsg
  cases hcase with
  | same hactive _ _ _ hlog hes =>
      rw [hlog]
      unfold Prompted
      rw [latest_silent hes]
      exact hunsettled msg (hactive ▸ hmsg)
  | check _ hactive _ _ _ hlog hes =>
      rw [hlog]
      unfold Prompted
      rw [latest_check hes]
      exact hunsettled msg (hactive ▸ hmsg)
  | prompt hscreen hmem hactive hvisible hprompts hprocessed hlog =>
      cases hactive.symm.trans hmsg
      exact (h.prompt hscreen hmem hactive hvisible hprompts hprocessed hlog).2
  | review hstep hactive _ _ _ hlog =>
      rw [hlog]
      unfold Prompted
      rw [(sameHistory_review hstep c.log).latest]
      exact hunsettled msg (hactive ▸ hmsg)
  | settle _ _ hactive _ _ _ _ _ => cases hactive.symm.trans hmsg
  | close _ _ hactive _ _ _ hlog =>
      rw [hlog]
      exact hunsettled msg (hactive ▸ hmsg)

/-! ## Turns and runs -/

theorem plays_turn {world : World} {s : System} {cause : Message} {c c' : Core}
    (hplays : Plays world cause c c') (hok : KeepsPrompt s cause)
    (h : PromptTurn s.data cause c) : PromptTurn s.data cause c' := by
  induction hplays with
  | refl => exact h
  | tail _ hlast ih => exact hlast.promptCase.turn hok ih

theorem plays_unsettled {world : World} {s : System} {cause : Message} {c c' : Core}
    (hplays : Plays world cause c c') (hok : KeepsPrompt s cause)
    (h : PromptTurn s.data cause c) (hunsettled : Unsettled c) : Unsettled c' := by
  induction hplays with
  | refl => exact hunsettled
  | tail hbefore hlast ih =>
      exact hlast.promptCase.unsettled (plays_turn hbefore hok h).toPromptBase ih

/-- No message shows a prompt. -/
theorem prompting_received (orderId : OrderId) (msg : Message) :
    Event.prompting orderId (.received msg) ≠ some true := by
  cases msg with
  | ui msg =>
      cases msg with
      | submitDecision req =>
          show (if fromStr req.orderId = some orderId then some false else none) ≠ some true
          split
          · rintro ⟨⟩
          · rintro ⟨⟩
      | _ => rintro ⟨⟩
  | _ => rintro ⟨⟩

theorem PromptBase.receive {d : Data} (h : PromptBase d.core) (msg : Message) :
    PromptTurn d msg (d.emit (.received msg)).core := by
  have hchecked : ∀ sign, CheckedSign sign (d.log ++ [.received msg]) → CheckedSign sign d.log :=
    fun sign => CheckedSign.of_grow (List.forall_mem_singleton.mpr rfl)
  refine ⟨⟨h.visible, ?_, ?_, ?_, ?_, ?_⟩, fun _ => .inr ⟨rfl, rfl⟩, fun _ _ => rfl⟩
  · exact fun sign sign' h1 h2 => h.unique sign sign' (hchecked sign h1) (hchecked sign' h2)
  · exact fun sign hsign => h.processed sign (hchecked sign hsign)
  · exact fun sign hmem => (h.queued sign hmem).grow
  · exact fun sign hsign => (h.active sign hsign).grow
  · intro orderId hprompted
    have hprompted : latest (Event.prompting orderId) (d.log ++ [.received msg]) = some true :=
      hprompted
    cases hsays : Event.prompting orderId (.received msg) with
    | none =>
        rw [latest_concat_none hsays] at hprompted
        exact h.shown orderId hprompted
    | some settled =>
        rw [latest_concat_some hsays] at hprompted
        cases hprompted
        exact absurd hsays (prompting_received orderId msg)

/-- A message that says nothing about the prompt leaves it unsettled. -/
theorem unsettled_receive {d : Data} (h : Unsettled d.core) {msg : Message}
    (hother : ∀ sign, d.activeSign = some sign →
      Event.prompting sign.orderId (.received msg) = none) :
    Unsettled (d.emit (.received msg)).core := by
  intro sign hsign
  show latest _ (d.log ++ [.received msg]) = some true
  rw [latest_concat_none (hother sign hsign)]
  exact h sign hsign

/-- Only logouts and decisions settle a prompt. -/
theorem settles_cases {orderId : OrderId} {msg : Message}
    (h : Event.prompting orderId (.received msg) ≠ none) :
    msg = .ui .logout ∨ ∃ req, msg = .ui (.submitDecision req) := by
  cases msg with
  | ui msg =>
      cases msg with
      | logout => exact .inl rfl
      | submitDecision req => exact .inr ⟨req, rfl⟩
      | _ => exact absurd rfl h
  | _ => exact absurd rfl h

theorem step_data (world : World) {s : System} (msg : Message) (h : s.stopped = false) :
    (step world s msg).data = (exec (processMessage world msg) (s.data.emit (.received msg))).2 := by
  unfold step
  rw [h]
  exact finish_data _ _

/-- **TURN**: a message that keeps the prompt leaves the dialog in order. -/
theorem step_prompts {world : World} {s : System} {msg : Message} (hs : s.stopped = false)
    (hok : KeepsPrompt s msg) (h : PromptBase s.data.core) (hunsettled : Unsettled s.data.core) :
    PromptBase (step world s msg).data.core ∧ Unsettled (step world s msg).data.core := by
  have hstart : PromptTurn s.data msg (s.data.emit (.received msg)).core := h.receive msg
  have hplays := step_plays world s msg hs
  refine ⟨(plays_turn hplays hok hstart).toPromptBase, ?_⟩
  by_cases hother : ∀ sign, s.data.activeSign = some sign →
      Event.prompting sign.orderId (.received msg) = none
  · exact plays_unsettled hplays hok hstart (unsettled_receive hunsettled hother)
  · obtain ⟨sign, hsign, hsays⟩ : ∃ sign, s.data.activeSign = some sign ∧
        Event.prompting sign.orderId (.received msg) ≠ none := by
      simpa using hother
    rcases settles_cases hsays with rfl | ⟨req, rfl⟩
    · -- a logout leaves no prompt
      intro sign' hsign'
      have hnone : (step world s (.ui .logout)).data.activeSign = none := by
        rw [step_data world _ hs]
        rfl
      cases hnone.symm.trans hsign'
    · -- the accepted prompt is gone before the next one is shown
      obtain ⟨haccept, htext⟩ := hok sign hsign
      rw [step_data world _ hs]
      generalize hd : s.data.emit (.received (.ui (.submitDecision req))) = d at hstart ⊢
      have hturn : turn d.log = [] := by
        rw [← hd]
        exact turn_received s.data.log _
      have hactive : d.activeSign = some sign := by
        rw [← hd]
        exact hsign
      have htaken : DoesFrom world (.ui (.submitDecision req)) d.core
          (tryProcessSubmitDecision world req) d := tryProcessSubmitDecision_does world rfl hturn
      have hrest : DoesFrom world (.ui (.submitDecision req))
          (exec (tryProcessSubmitDecision world req) d).2.core (processSubmitDecision world req) d :=
        decided_does world rfl hturn
      have hgone : Unsettled (exec (tryProcessSubmitDecision world req) d).2.core := by
        intro sign' hsign'
        cases (decided_of_prompted world haccept hactive htext).symm.trans hsign'
      exact plays_unsettled (Acts.plays hrest) hok
        (plays_turn (Acts.plays htaken) hok hstart) hgone

theorem reaches_prompts {world : World} {s : System} (h : Reaches world KeepsPrompt s) :
    PromptBase s.data.core ∧ Unsettled s.data.core := by
  refine Reach.invariant (I := fun s : System => PromptBase s.data.core ∧ Unsettled s.data.core)
    ?_ ?_ h
  · intro s hs
    refine starts_invariant (I := fun c => PromptBase c ∧ Unsettled c) ?_ ?_ hs
    · intro liquidAssetId disableDeviceKey settings
      have hnever : ∀ msg, ¬ CheckedSign msg
          (initialData liquidAssetId disableDeviceKey settings).core.log := by
        rintro msg ⟨entry, precision, hmem⟩
        cases hmem
      refine ⟨⟨?_, ?_, ?_, ?_, ?_, ?_⟩, ?_⟩
      · rintro msg ⟨⟩
      · exact fun msg msg' hmsg => absurd hmsg (hnever msg)
      · exact fun msg hmsg => absurd hmsg (hnever msg)
      · rintro msg ⟨⟩
      · rintro msg ⟨⟩
      · rintro orderId ⟨⟩
      · rintro msg ⟨⟩
    · rintro c c' ⟨hevent, _⟩ ⟨hbase, hunsettled⟩
      have hhistory : SameHistory c.log (c.log ++ [_]) :=
        sameHistory_silent (silent_of_isNote hevent) c.log
      refine ⟨hbase.step hhistory hbase.visible (fun _ => id) (fun _ => id) (fun _ => id)
        (fun _ hmsg _ => hmsg), fun msg hmsg => ?_⟩
      show latest _ (c.log ++ [_]) = some true
      rw [hhistory.latest]
      exact hunsettled msg hmsg
  · rintro s msg _ ⟨hbase, hunsettled⟩ hok
    cases hs : s.stopped with
    | true =>
        show PromptBase (step world s msg).data.core ∧ Unsettled (step world s msg).data.core
        rw [step_stopped world msg hs]
        exact ⟨hbase, hunsettled⟩
    | false => exact step_prompts hs hok hbase hunsettled

/-- The message the user is asked about is the one whose prompt was shown and
    has not been settled since. -/
def PromptKept (s : System) : Prop :=
  ∀ msg, s.data.activeSign = some msg ↔
    CheckedSign msg s.data.log ∧ Prompted msg.orderId s.data.log

/-- **SIGN PROMPT**: in every run whose messages do not clear the screen while a
    prompt is undecided, the prompt is neither lost nor outlives the answer. -/
theorem sign_prompt_kept {world : World} {s : System} (h : Reaches world KeepsPrompt s) :
    PromptKept s := by
  obtain ⟨hbase, hunsettled⟩ := reaches_prompts h
  intro msg
  constructor
  · intro hactive
    exact ⟨hbase.active msg hactive, hunsettled msg hactive⟩
  · rintro ⟨hchecked, hprompted⟩
    obtain ⟨msg', hactive, horder⟩ := hbase.shown msg.orderId hprompted
    have hsame : msg' = msg := hbase.unique msg' msg (hbase.active msg' hactive) hchecked horder
    exact hsame ▸ hactive

namespace Sample

/-- An order is accepted without auto-sign, and the server asks to sign for it. -/
def askingFor (orderId : OrderId) : List Message :=
  [.ui (.linkOrder (toText orderId)),
    .ui (.submitDecision { decision orderId with autoSign := none }),
    .serverNotification (.sign { sign .maker with orderId })]

/-- The user does not sign. -/
def rejecting (orderId : OrderId) : Message :=
  .ui (.submitDecision { decision orderId with accept := false })

end Sample

/-- The user is asked about an order. -/
theorem prompt_shown :
    let s := run (Sample.world .maker) Sample.bitcoin [Sample.asset]
      (Sample.connecting ++ Sample.askingFor Sample.order)
    s.data.activeSign = some (Sample.sign .maker) ∧ Prompted Sample.order s.data.log := by
  intro s
  have hreach : Reaches (Sample.world .maker) KeepsPrompt s := by
    refine reaches_run ⟨trivial, trivial, trivial, trivial, ?_, trivial, trivial⟩
    intro msg hmsg
    have hnone : (run (Sample.world .maker) Sample.bitcoin [Sample.asset] (Sample.connecting ++
        [.ui (.linkOrder (toText Sample.order))])).data.activeSign = none := by decide +kernel
    cases hnone.symm.trans hmsg
  have hactive : s.data.activeSign = some (Sample.sign .maker) := by decide +kernel
  clear_value s
  exact ⟨hactive, ((sign_prompt_kept hreach _).mp hactive).2⟩

/-- **PROMPTS THAT STAY OR GO**: a rejected prompt is still there, and can still
    be signed; and an undecided one is replaced when another order is shown and
    decided meanwhile. -/
theorem prompt_not_kept :
    ¬ PromptKept (run (Sample.world .maker) Sample.bitcoin [Sample.asset]
        (Sample.connecting ++ Sample.askingFor Sample.order ++ [Sample.rejecting Sample.order])) ∧
    ¬ PromptKept (run (Sample.world .maker) Sample.bitcoin [Sample.asset]
        (Sample.connecting ++ Sample.askingFor Sample.order ++ Sample.askingFor Sample.swapOrder)) := by
  constructor
  · generalize hs : run (Sample.world .maker) Sample.bitcoin [Sample.asset]
      (Sample.connecting ++ Sample.askingFor Sample.order ++ [Sample.rejecting Sample.order]) = s
    intro hkept
    have hactive : s.data.activeSign = some (Sample.sign .maker) := by
      rw [← hs]
      decide +kernel
    have hsettled : ¬ Prompted Sample.order s.data.log := by
      rw [← hs]
      decide +kernel
    exact hsettled ((hkept _).mp hactive).2
  · generalize hs : run (Sample.world .maker) Sample.bitcoin [Sample.asset]
      (Sample.connecting ++ Sample.askingFor Sample.order ++ Sample.askingFor Sample.swapOrder) = s
    intro hkept
    have hprompted : Prompted Sample.order s.data.log := by
      rw [← hs]
      decide +kernel
    have hchecked : s.data.log.any (fun
        | .checked msg _ _ => msg == Sample.sign .maker
        | _ => false) = true := by
      rw [← hs]
      decide +kernel
    have hactive : s.data.activeSign ≠ some (Sample.sign .maker) := by
      rw [← hs]
      decide +kernel
    refine hactive ((hkept _).mpr ⟨?_, hprompted⟩)
    obtain ⟨e, hmem, he⟩ := List.any_eq_true.mp hchecked
    cases e with
    | checked msg entry precision =>
        cases eq_of_beq he
        exact ⟨entry, precision, hmem⟩
    | _ => cases he

end Client
