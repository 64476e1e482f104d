import SideSwap.ClientPrompts

/-! # Logging out of the wallet worker

    A logout is to separate two wallets: nothing that was created, accepted or
    queued before it may be signed or sent after it.  The worker clears a part
    of its state only, so this depends on what is left when the user logs out.
    `Covered` says that whatever could still be signed or sent has come up since
    the last logout, and every act keeps that. -/

namespace Client

open Api Program Relation Transition History

/-! ## Reading the history -/

/-- The user logs out. -/
def Event.logout? : Event → Option Unit
  | .received (.ui .logout) => some ()
  | _ => none

/-- What has happened since the last logout. -/
def sinceLogout (log : List Event) : List Event := since Event.logout? log

/-- A record is made for the order. -/
def Event.makes (orderId : OrderId) : Event → Bool
  | .accepted orderId' _ _ => orderId' == orderId
  | .restored orderId' => orderId' == orderId
  | _ => false

/-- The server sends the `Sign` message, or it is downloaded. -/
def Event.brings (msg : SignNotification) : Event → Bool
  | .received (.serverNotification (.sign msg')) => msg' == msg
  | .request (.getSign _) (.ok (.getSign msg')) => msg' == msg
  | _ => false

/-- The payment is created. -/
def Event.createsTx (tx : String) : Event → Bool
  | .createdTx tx' => tx' == tx
  | _ => false

/-- The server starts the instant swap. -/
def Event.startsSwap (orderId : OrderId) : Event → Bool
  | .request (.startSwapClient _) (.ok (.startSwapClient orderId')) => orderId' == orderId
  | _ => false

/-- What is signed or sent has come up since the last logout: the record of the
    order and its `Sign` message, the approved swap and its PSET, the payment. -/
def Fresh (log : List Event) : Event → Prop
  | .verified .trySign orderId _ pset _ =>
      Logged (Event.makes orderId) (sinceLogout log) ∧
        ∃ msg : SignNotification, msg.orderId = orderId ∧ msg.pset = pset ∧
          Logged (Event.brings msg) (sinceLogout log)
  | .verified .blindedSwapClient orderId _ pset _ =>
      Logged (Event.startsSwap orderId) (sinceLogout log) ∧
        Event.received (.serverNotification (.blindedSwapClient ⟨orderId, pset⟩)) ∈
          sinceLogout log
  | .sentTx _ tx _ => Logged (Event.createsTx tx) (sinceLogout log)
  | _ => True

/-- The events by which something is signed or sent. -/
def Event.signs : Event → Bool
  | .verified _ _ _ _ _ => true
  | .sentTx _ _ _ => true
  | _ => false

theorem fresh_of_not_signs {e : Event} (h : e.signs = false) (log : List Event) :
    Fresh log e := by
  cases e with
  | verified => cases h
  | sentTx => cases h
  | _ => trivial

theorem Logged.mono {p : Event → Bool} {log log' : List Event} (h : Logged p log)
    (hsub : log ⊆ log') : Logged p log' := by
  obtain ⟨e, he, hp⟩ := h
  exact ⟨e, hsub he, hp⟩

/-- Anything but a logout has happened since. -/
theorem sinceLogout_append {log es : List Event} (h : ∀ e ∈ es, Event.message? e = none) :
    sinceLogout (log ++ es) = sinceLogout log ++ es := by
  induction es using List.reverseRecOn with
  | nil => rw [List.append_nil, List.append_nil]
  | append_singleton es e ih =>
      have he : Event.logout? e = none := by
        have hmessage := h e (List.mem_append_right es (List.mem_singleton_self e))
        cases e with
        | received msg => cases hmessage
        | _ => rfl
      rw [← List.append_assoc, ← List.append_assoc, sinceLogout, since_concat_none he]
      congr 1
      exact ih fun e' he' => h e' (List.mem_append_left [e] he')

/-- The turn is not longer than that. -/
theorem turn_subset_sinceLogout (log : List Event) : turn log ⊆ sinceLogout log := by
  induction log using List.reverseRecOn with
  | nil => exact fun _ h => h
  | append_singleton log e ih =>
      cases hmessage : Event.message? e with
      | some msg =>
          intro e' he'
          rw [turn, since_concat_some hmessage] at he'
          cases he'
      | none =>
          have hone : ∀ e' ∈ [e], Event.message? e' = none := List.forall_mem_singleton.mpr hmessage
          rw [turn_append hone, sinceLogout_append hone]
          exact List.append_subset.mpr ⟨fun _ h => List.mem_append_left _ (ih h),
            fun _ h => List.mem_append_right _ h⟩

/-! ## What could still be signed or sent -/

/-- The message has come up since the last logout. -/
def Brought (msg : SignNotification) (log : List Event) : Prop :=
  Logged (Event.brings msg) (sinceLogout log)

/-- Whatever could be signed or sent has come up in these events. -/
structure Covered (c : Core) (events : List Event) : Prop where
  tx : ∀ tx, c.unsignedTx = some tx → Logged (Event.createsTx tx) events
  records : ∀ (orderId : OrderId) entry, c.submitData[orderId]? = some entry →
    Logged (Event.makes orderId) events
  prompts : ∀ msg ∈ c.pendingSignPrompts, Logged (Event.brings msg) events
  requests : ∀ msg ∈ c.pendingSignRequests, Logged (Event.brings msg) events
  active : ∀ msg, c.activeSign = some msg → Logged (Event.brings msg) events
  swap : ∀ swap, c.activeSwap = some swap → Logged (Event.startsSwap swap.orderId) events

/-- The wallets are kept apart. -/
structure Apart (c : Core) : Prop where
  covered : Covered c (sinceLogout c.log)
  justified : Justified Fresh c.log

/-- The same while a message is handled that is not a logout. -/
structure Isolated (cause : Message) (c : Core) : Prop extends Apart c where
  received : Event.received cause ∈ sinceLogout c.log

/-- What an act leaves to sign or send was there before, or is new. -/
structure Gains (c c' : Core) (es : List Event) : Prop where
  tx : ∀ tx, c'.unsignedTx = some tx → c.unsignedTx = some tx ∨
    Logged (Event.createsTx tx) es
  records : ∀ (orderId : OrderId) entry, c'.submitData[orderId]? = some entry →
    (∃ old, c.submitData[orderId]? = some old) ∨ Logged (Event.makes orderId) es
  prompts : ∀ msg ∈ c'.pendingSignPrompts, msg ∈ c.pendingSignPrompts ∨ Brought msg c.log
  requests : ∀ msg ∈ c'.pendingSignRequests, msg ∈ c.pendingSignRequests ∨ Brought msg c.log
  active : ∀ msg, c'.activeSign = some msg →
    c.activeSign = some msg ∨ msg ∈ c.pendingSignPrompts
  swap : ∀ swap, c'.activeSwap = some swap →
    c.activeSwap = some swap ∨ Logged (Event.startsSwap swap.orderId) es

theorem Gains.same {c c' : Core} {es : List Event} (htx : c'.unsignedTx = c.unsignedTx)
    (hrecords : c'.submitData = c.submitData)
    (hprompts : c'.pendingSignPrompts = c.pendingSignPrompts)
    (hrequests : c'.pendingSignRequests = c.pendingSignRequests)
    (hactive : c'.activeSign = c.activeSign) (hswap : c'.activeSwap = c.activeSwap) :
    Gains c c' es where
  tx _ h := .inl (htx ▸ h)
  records _ entry h := .inl ⟨entry, hrecords ▸ h⟩
  prompts _ h := .inl (hprompts ▸ h)
  requests _ h := .inl (hrequests ▸ h)
  active _ h := .inl (hactive ▸ h)
  swap _ h := .inl (hswap ▸ h)

/-- **STEP**: what is gained is covered. -/
theorem Apart.step {c c' : Core} {es : List Event} (h : Apart c) (hgains : Gains c c' es)
    (hlog : c'.log = c.log ++ es) (hes : ∀ e ∈ es, Event.message? e = none)
    (hfresh : Justified Fresh c'.log) : Apart c' := by
  have hsince : sinceLogout c'.log = sinceLogout c.log ++ es := by
    rw [hlog, sinceLogout_append hes]
  have hold : sinceLogout c.log ⊆ sinceLogout c'.log := by
    rw [hsince]
    exact List.subset_append_left _ _
  have hnew : es ⊆ sinceLogout c'.log := by
    rw [hsince]
    exact List.subset_append_right _ _
  refine ⟨⟨?_, ?_, ?_, ?_, ?_, ?_⟩, hfresh⟩
  · intro tx htx
    rcases hgains.tx tx htx with hbefore | hcreated
    · exact (h.covered.tx tx hbefore).mono hold
    · exact hcreated.mono hnew
  · intro orderId entry hentry
    rcases hgains.records orderId entry hentry with ⟨old, hbefore⟩ | hmade
    · exact (h.covered.records orderId old hbefore).mono hold
    · exact hmade.mono hnew
  · intro msg hmem
    rcases hgains.prompts msg hmem with hbefore | hbrought
    · exact (h.covered.prompts msg hbefore).mono hold
    · exact hbrought.mono hold
  · intro msg hmem
    rcases hgains.requests msg hmem with hbefore | hbrought
    · exact (h.covered.requests msg hbefore).mono hold
    · exact hbrought.mono hold
  · intro msg hmsg
    rcases hgains.active msg hmsg with hbefore | hprompt
    · exact (h.covered.active msg hbefore).mono hold
    · exact (h.covered.prompts msg hprompt).mono hold
  · intro swap hswap
    rcases hgains.swap swap hswap with hbefore | hstarted
    · exact (h.covered.swap swap hbefore).mono hold
    · exact hstarted.mono hnew

theorem Isolated.step {cause : Message} {c c' : Core} {es : List Event} (h : Isolated cause c)
    (hgains : Gains c c' es) (hlog : c'.log = c.log ++ es)
    (hes : ∀ e ∈ es, Event.message? e = none) (hfresh : Justified Fresh c'.log) :
    Isolated cause c' := by
  refine ⟨h.toApart.step hgains hlog hes hfresh, ?_⟩
  rw [hlog, sinceLogout_append hes]
  exact List.mem_append_left es h.received

/-- Events that sign nothing are fresh. -/
theorem justified_append {log es : List Event} (h : Justified Fresh log)
    (hes : ∀ e ∈ es, Event.signs e = false) : Justified Fresh (log ++ es) :=
  h.append fun _ e hn => fresh_of_not_signs (hes e (List.mem_of_getElem? hn)) _

theorem Isolated.quiet {cause : Message} {c c' : Core} {es : List Event} (h : Isolated cause c)
    (hgains : Gains c c' es) (hlog : c'.log = c.log ++ es)
    (hes : ∀ e ∈ es, Event.message? e = none ∧ Event.signs e = false) : Isolated cause c' := by
  refine h.step hgains hlog (fun e he => (hes e he).1) ?_
  rw [hlog]
  exact justified_append h.justified fun e he => (hes e he).2

theorem harmless_nil : ∀ e ∈ ([] : List Event), Event.message? e = none ∧ Event.signs e = false :=
  fun _ h => nomatch h

theorem harmless_one {e : Event} (hmessage : Event.message? e = none)
    (hsigns : Event.signs e = false) : ∀ e' ∈ [e], Event.message? e' = none ∧
      Event.signs e' = false :=
  List.forall_mem_singleton.mpr ⟨hmessage, hsigns⟩

/-- What is left after something has been dropped. -/
structure Drops (c c' : Core) : Prop where
  tx : ∀ tx, c'.unsignedTx = some tx → c.unsignedTx = some tx := by exact fun _ h => h
  records : ∀ (orderId : OrderId) entry, c'.submitData[orderId]? = some entry →
    c.submitData[orderId]? = some entry := by exact fun _ _ h => h
  prompts : c'.pendingSignPrompts ⊆ c.pendingSignPrompts := by exact List.Subset.refl _
  requests : c'.pendingSignRequests ⊆ c.pendingSignRequests := by exact List.Subset.refl _
  active : ∀ msg, c'.activeSign = some msg → c.activeSign = some msg := by exact fun _ h => h
  swap : ∀ swap, c'.activeSwap = some swap → c.activeSwap = some swap := by exact fun _ h => h

theorem Drops.gains {c c' : Core} {es : List Event} (h : Drops c c') : Gains c c' es where
  tx tx htx := .inl (h.tx tx htx)
  records orderId entry hentry := .inl ⟨entry, h.records orderId entry hentry⟩
  prompts _ hmem := .inl (h.prompts hmem)
  requests _ hmem := .inl (h.requests hmem)
  active msg hmsg := .inl (h.active msg hmsg)
  swap swap hswap := .inl (h.swap swap hswap)

theorem Isolated.drop {cause : Message} {c c' : Core} (h : Isolated cause c) (hdrops : Drops c c')
    (hlog : c'.log = c.log) : Isolated cause c' :=
  h.quiet hdrops.gains (by rw [hlog, List.append_nil]) harmless_nil

/-- A change of one record gains nothing. -/
theorem gains_change {c c' : Core} {es : List Event} {orderId : OrderId} {old entry : SubmitData}
    (hold : c.submitData[orderId]? = some old) (htx : c'.unsignedTx = c.unsignedTx)
    (hrecords : c'.submitData = c.submitData.insert orderId entry)
    (hprompts : ∀ msg ∈ c'.pendingSignPrompts, msg ∈ c.pendingSignPrompts ∨ Brought msg c.log)
    (hrequests : c'.pendingSignRequests = c.pendingSignRequests)
    (hactive : c'.activeSign = c.activeSign) (hswap : c'.activeSwap = c.activeSwap) :
    Gains c c' es where
  tx _ h := .inl (htx ▸ h)
  records id entry' h := by
    rw [hrecords, Table.getElem?_insert_eq] at h
    split at h
    · next hid => exact .inl ⟨old, hid ▸ hold⟩
    · exact .inl ⟨entry', h⟩
  prompts := hprompts
  requests _ h := .inl (hrequests ▸ h)
  active _ h := .inl (hactive ▸ h)
  swap _ h := .inl (hswap ▸ h)

/-- An attempt to sign for a message that has come up since the logout. -/
theorem Isolated.attempt {cause : Message} {c : Core} {msg : SignNotification} {b : Book} {n : Nat}
    (h : Isolated cause c) (hbrought : Brought msg c.log) (hattempt : Attempt msg c.toBook b) :
    Isolated cause { c with toBook := b, nextRequestId := n } := by
  have hverified : ∀ amounts res entry, c.submitData[msg.orderId]? = some entry →
      Justified Fresh (c.log ++ [.verified .trySign msg.orderId amounts msg.pset res]) := by
    intro amounts res entry hentry
    exact h.justified.concat ⟨h.covered.records msg.orderId entry hentry, msg, rfl, rfl, hbrought⟩
  cases hattempt with
  | none =>
      exact h.quiet (.same rfl rfl rfl rfl rfl rfl) (List.append_nil _).symm harmless_nil
  | refused hentry =>
      exact h.step (.same rfl rfl rfl rfl rfl rfl) rfl (List.forall_mem_singleton.mpr rfl)
        (hverified _ _ _ hentry)
  | sent hentry =>
      refine h.step (.same rfl rfl rfl rfl rfl rfl) (List.append_assoc _ _ _) ?_
        ((hverified _ _ _ hentry).concat trivial)
      intro e he
      rcases List.mem_pair.mp he with rfl | rfl
      · rfl
      · rfl

theorem Isolated.take {cause : Message} {c c' : Core} {msg : SignNotification}
    (h : Isolated cause c) (hbrought : Brought msg c.log) (htake : Take msg c c') :
    Isolated cause c' := by
  cases htake with
  | refuse _ =>
      exact h.quiet (.same rfl rfl rfl rfl rfl rfl) (List.append_nil _).symm harmless_nil
  | queue _ hentry _ _ =>
      refine h.quiet (gains_change hentry rfl rfl (fun msg' hmem => ?_) rfl rfl rfl) rfl
        (harmless_one rfl rfl)
      rcases List.mem_append.mp hmem with hold | hnew
      · exact .inl hold
      · rw [List.mem_singleton.mp hnew]
        exact .inr hbrought
  | @autoSign entry precision b n _ hentry _ _ hattempt _ =>
      have htaken : Isolated cause { c with toBook := c.toBook.take msg entry precision } :=
        h.quiet (gains_change hentry rfl rfl (fun _ hmem => .inl hmem) rfl rfl rfl) rfl
          (harmless_one rfl rfl)
      refine htaken.attempt (hbrought.mono ?_) hattempt
      show sinceLogout c.log ⊆ sinceLogout (c.log ++ [.checked msg entry precision])
      rw [sinceLogout_append (List.forall_mem_singleton.mpr rfl)]
      exact List.subset_append_left _ _

/-- A message that arrives has come up since the logout. -/
theorem Isolated.arrives {cause : Message} {c : Core} {msg : SignNotification}
    (h : Isolated cause c) (harrives : Arrives cause msg c.log) : Brought msg c.log := by
  rcases harrives with rfl | ⟨orderId, hmem⟩
  · exact ⟨_, h.received, beq_self_eq_true msg⟩
  · exact ⟨_, turn_subset_sinceLogout _ hmem, beq_self_eq_true msg⟩

theorem Apart.receive {d : Data} (h : Apart d.core) {msg : Message} (hmsg : msg ≠ .ui .logout) :
    Isolated msg (d.emit (.received msg)).core := by
  have hother : Event.logout? (.received msg) = none := by
    cases msg with
    | ui msg =>
        cases msg with
        | logout => exact absurd rfl hmsg
        | _ => rfl
    | _ => rfl
  have hsince : sinceLogout (d.log ++ [.received msg]) = sinceLogout d.log ++ [.received msg] :=
    since_concat_none hother d.log
  have hold : sinceLogout d.log ⊆ sinceLogout (d.log ++ [.received msg]) := by
    rw [hsince]
    exact List.subset_append_left _ _
  refine ⟨⟨⟨?_, ?_, ?_, ?_, ?_, ?_⟩, h.justified.concat trivial⟩, ?_⟩
  · exact fun tx htx => (h.covered.tx tx htx).mono hold
  · exact fun orderId entry hentry => (h.covered.records orderId entry hentry).mono hold
  · exact fun sign hmem => (h.covered.prompts sign hmem).mono hold
  · exact fun sign hmem => (h.covered.requests sign hmem).mono hold
  · exact fun sign hsign => (h.covered.active sign hsign).mono hold
  · exact fun swap hswap => (h.covered.swap swap hswap).mono hold
  · show Event.received msg ∈ sinceLogout (d.log ++ [.received msg])
    rw [hsince]
    exact List.mem_append_right _ (List.mem_singleton_self _)

/-- The state after a logout. -/
theorem step_logout (world : World) {s : System} (hs : s.stopped = false) :
    (step world s (.ui .logout)).data.core =
      { s.data.core with
        wallets := ∅, activeSwap := none, activeSign := none, deviceKey := none
        registered := fun _ => 0, regInfo := none, connected := false
        log := s.data.log ++ [.received (.ui .logout)] ++ [.toUi .logout] ++
          [.socket .disconnect] } := by
  rw [step_data world _ hs]
  rfl

namespace Sample

/-- The payment an event sends. -/
def sent? : Event → Option String
  | .sentTx _ tx _ => some tx
  | _ => none

end Sample

end Client
