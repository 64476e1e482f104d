import SideSwap.ClientActs

/-! # The wallet worker follows the signing protocol

    Every act of the worker is a sequence of moves of its book, and changes of
    the order list are notes to it.  So a message that is handled takes the
    book through moves only, and what every move keeps holds in every run. -/

namespace Client

open Api Program Relation Transition

/-- Quiet events are notes, however many there are. -/
theorem moves_quiet {b : Book} {es : List Event} (h : ∀ e ∈ es, Event.isQuiet e = true) :
    Moves b { b with log := b.log ++ es } := by
  induction es using List.reverseRecOn with
  | nil =>
      rw [List.append_nil]
  | append_singleton es e ih =>
      rw [← List.append_assoc]
      refine .tail (ih fun e' he' => h e' (List.mem_append_left [e] he')) (.note ?_)
      exact h e (List.mem_append_right es (List.mem_singleton_self e))

theorem isQuiet_of_isNote {e : Event} (h : e.isNote = true) : e.isQuiet = true :=
  (Bool.and_eq_true_iff.mp h).1

theorem isQuiet_callEvents {requestId : Option String} {callback : AsyncRequest}
    {res : Except Error Response} {e : Event} (h : e ∈ callEvents requestId callback res) :
    e.isQuiet = true := by
  rcases callEvents_cases h with rfl | hnote
  · rfl
  · exact isQuiet_of_isNote hnote

/-- A taken offer is a quiet event. -/
theorem isQuiet_offer {offer : Request} {resp : Response} (h : offer.takenBy resp = true) :
    (Event.request offer (.ok resp)).isQuiet = true := by
  cases offer with
  | psetMaker req => rfl
  | psetTaker req => rfl
  | _ => exact nomatch h

/-- The user has accepted the order of a received decision. -/
theorem logged_accepts {req : SubmitDecision} {orderId : OrderId} {log : List Event}
    (h : Event.received (.ui (.submitDecision req)) ∈ log) (haccept : req.accept = true)
    (hid : fromStr req.orderId = some orderId) : Logged (Event.accepts orderId) log := by
  refine ⟨_, h, ?_⟩
  show (req.accept && fromStr req.orderId == some orderId) = true
  rw [haccept, hid, beq_self_eq_true]
  rfl

theorem Take.move {msg : SignNotification} {c c' : Core} (h : Take msg c c') :
    Move c.toBook c'.toBook := by
  cases h with
  | refuse hfresh => exact .refuse hfresh
  | queue hfresh hentry hchecked hauto => exact .queue hfresh hentry hchecked hauto
  | autoSign hfresh hentry hchecked hauto hattempt _ =>
      exact .autoSign hfresh hentry hchecked hauto hattempt

/-- **PROJECTION**: an act of the worker moves its book. -/
theorem Act.moves {world : World} {cause : Message} {c c' : Core} (h : Act world cause c c')
    (hcause : Event.received cause ∈ c.log) : Moves c.toBook c'.toBook := by
  cases h with
  | note hnote =>
      obtain ⟨hevent, _⟩ := hnote
      exact .single (.note (isQuiet_of_isNote hevent))
  | login hc =>
      subst hc
      exact .single (.login hcause)
  | logout _ _ => exact .single .logout
  | accept hc haccept hid hquoted hoffers _ =>
      subst hc
      refine .tail (.single (.note (isQuiet_offer hoffers.taken))) (.accept ?_ hquoted)
      exact logged_accepts (List.mem_append_left _ hcause) haccept hid
  | restore hnone hside htwo _ _ =>
      exact .tail (.single (.addMissing hnone hside htwo)) (.note rfl)
  | @takeQueued _ msg rest _ htake =>
      have hmove : Move { c with pendingSignRequests := rest }.toBook c'.toBook := htake.move
      exact .single hmove
  | takeArrived _ htake => exact .single htake.move
  | prompt _ hqueue hentry => exact .single (.prompt hqueue hentry)
  | dropPrompt hqueue => exact .single (.dropPrompt hqueue)
  | review hstep => exact .single (.note (bne_iff_ne.mpr hstep))
  | decide hc haccept _ hactive htext hattempt _ =>
      subst hc
      refine .single (.decide hactive (logged_accepts hcause haccept ?_) hattempt)
      rw [← htext]
      exact fromStr_toText _
  | edit hnone _ => exact .single (.edit hnone)
  | editEntry hentry _ => exact .single (.editEntry hentry)
  | editAutoSign henabled hentry => exact .single (.editAutoSign henabled hentry)
  | mark hentry => exact .single (.mark hentry)
  | complete hlog => exact .single (.complete hlog)
  | startSwap hc hasset _ =>
      subst hc
      exact .single (.startSwap hcause hasset)
  | refuseSwap hswap horder hlast => exact .single (.refuseSwap hswap horder hlast)
  | signSwap hswap horder hlast _ => exact .single (.signSwap hswap horder hlast)
  | swapDone => exact .single .swapDone
  | createTx => exact .single (.note rfl)
  | sendTx _ => exact .single (.note rfl)
  | ask _ _ => exact .single (.note rfl)
  | askOffline _ => exact moves_quiet fun e he => isQuiet_callEvents he
  | answer _ _ => exact moves_quiet fun e he => isQuiet_callEvents he
  | drain _ =>
      refine moves_quiet fun e he => ?_
      obtain ⟨line, _, hmem⟩ := List.mem_flatMap.mp he
      exact isQuiet_callEvents hmem
  | _ => exact .refl

theorem Listing.moves {c c' : Core} (h : Listing c c') : Moves c.toBook c'.toBook := by
  cases h with
  | change _ => exact .refl
  | shows hshow =>
      cases hshow with
      | remove _ => exact .single (.note rfl)
      | put _ _ => exact .single (.note rfl)

theorem Plays.moves {world : World} {cause : Message} {c c' : Core}
    (h : Plays world cause c c') (hcause : Event.received cause ∈ c.log) :
    Moves c.toBook c'.toBook := by
  induction h with
  | refl => exact .refl
  | tail hplays hlast ih =>
      refine ih.trans ?_
      cases hlast with
      | act hact => exact hact.moves ((Plays.grows hplays).mem hcause)
      | list hlist => exact hlist.moves

/-- **SIMULATION**: a message is received, and what follows are moves. -/
theorem step_moves (world : World) (s : System) (msg : Message) (h : s.stopped = false) :
    Moves (s.data.emit (.received msg)).book (step world s msg).data.book :=
  Plays.moves (step_plays world s msg h) (List.mem_append_right _ (List.mem_singleton_self _))

/-- The book of a worker that has just been started. -/
def initialBook (liquidAssetId : AssetId) : Book where
  liquidAssetId := liquidAssetId
  forceAutoSignMaker := false
  submitData := ∅
  activeSign := none
  processedSigns := ∅
  pendingSignPrompts := []
  activeSwap := none
  log := []

theorem starts_moves {s : System} (h : Starts s) :
    ∃ liquidAssetId, Moves (initialBook liquidAssetId) s.data.book := by
  obtain ⟨liquidAssetId, disableDeviceKey, settings, hnotes⟩ := starts_notes h
  refine ⟨liquidAssetId, ?_⟩
  show Moves (initialData liquidAssetId disableDeviceKey settings).core.toBook s.data.core.toBook
  generalize s.data.core = c at hnotes
  induction hnotes with
  | refl => exact .refl
  | tail _ hlast ih =>
      obtain ⟨hevent, _⟩ := hlast
      exact ih.tail (.note (isQuiet_of_isNote hevent))

/-- **RUN RULE**: what holds of an empty book, survives every message and
    every move holds of the book of every reachable worker. -/
theorem reaches_invariant {world : World} {ok : System → Message → Prop} {I : Book → Prop}
    (h0 : ∀ liquidAssetId, I (initialBook liquidAssetId))
    (hreceive : ∀ s msg, ok s msg → I s.data.book → I (s.data.emit (.received msg)).book)
    (hmove : ∀ b b', Move b b' → I b → I b') {s : System} (h : Reaches world ok s) :
    I s.data.book := by
  have hmoves : ∀ {b b'}, Moves b b' → I b → I b' := by
    intro b b' hm hI
    induction hm with
    | refl => exact hI
    | tail _ hlast ih => exact hmove _ _ hlast ih
  refine Reach.invariant (I := fun s => I s.data.book) ?_ ?_ h
  · intro s hs
    obtain ⟨liquidAssetId, hm⟩ := starts_moves hs
    exact hmoves hm (h0 liquidAssetId)
  · intro s msg _ hI hok
    cases hs : s.stopped with
    | false => exact hmoves (step_moves world s msg hs) (hreceive s msg hok hI)
    | true =>
        show I (step world s msg).data.book
        rw [step_stopped world msg hs]
        exact hI

end Client
