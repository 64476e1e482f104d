import SideSwap.ClientCore

/-! # The wallet worker's handlers, act by act

    Every handler of the worker, from any state and however it ends, takes the
    core through a sequence of acts.  The proofs follow the handlers: one lemma
    for each, by the rules for `Leads`, and the callers use the lemmas of what
    they call.  `step_plays` is the whole message loop.

    Handlers that only record notes are known to do no more than that, and only
    the handlers that rebuild the order list need `Play` instead of `Act`. -/

namespace Client

open Api Program MachineInt CoinSelection Pricing Relation Transition

/-- A handler that only records notes. -/
abbrev Records {α : Type} (p : Handler α) : Prop := Follows Data.core Note p

/-- A handler whose runs are acts. -/
abbrev Does {α : Type} (world : World) (cause : Message) (p : Handler α) : Prop :=
  Follows Data.core (Act world cause) p

/-- Running the handler from `d` ends in a core that acts reach from `v`. -/
abbrev DoesFrom {α : Type} (world : World) (cause : Message) (v : Core) (p : Handler α)
    (d : Data) : Prop :=
  Leads Data.core (Act world cause) v p d

/-- A handler whose runs are acts and changes of the order list. -/
abbrev Runs {α : Type} (world : World) (cause : Message) (p : Handler α) : Prop :=
  Follows Data.core (Play world cause) p

abbrev RunsFrom {α : Type} (world : World) (cause : Message) (v : Core) (p : Handler α)
    (d : Data) : Prop :=
  Leads Data.core (Play world cause) v p d

section Lift

variable {α : Type} {world : World} {cause : Message} {p : Handler α}

theorem Records.does (h : Records p) : Does world cause p := Follows.mono (fun _ _ => .note) h

theorem Does.runs (h : Does world cause p) : Runs world cause p := Follows.mono (fun _ _ => .act) h

theorem DoesFrom.runs {v : Core} {d : Data} (h : DoesFrom world cause v p d) :
    RunsFrom world cause v p d := Leads.mono (fun _ _ => .act) h

theorem Records.runs (h : Records p) : Runs world cause p := h.does.runs

theorem Notes.acts {c c' : Core} (h : Notes c c') : Acts world cause c c' :=
  ReflTransGen.mono (fun _ _ => .note) _ _ h

theorem Acts.plays {c c' : Core} (h : Acts world cause c c') : Plays world cause c c' :=
  ReflTransGen.mono (fun _ _ => .act) _ _ h

end Lift

/-! ## The log of a turn -/

/-- The log grows, by events of the same turn. -/
def Grows (c c' : Core) : Prop :=
  ∃ es, c'.log = c.log ++ es ∧ ∀ e ∈ es, Event.message? e = none

theorem Grows.refl (c : Core) : Grows c c := ⟨[], (List.append_nil _).symm, fun _ h => nomatch h⟩

theorem Grows.trans {c c' c'' : Core} (h : Grows c c') (h' : Grows c' c'') : Grows c c'' := by
  obtain ⟨es, hes, hnone⟩ := h
  obtain ⟨es', hes', hnone'⟩ := h'
  refine ⟨es ++ es', by rw [hes', hes, List.append_assoc], ?_⟩
  intro e he
  rcases List.mem_append.mp he with hmem | hmem
  · exact hnone e hmem
  · exact hnone' e hmem

theorem Grows.of_closure {R : Core → Core → Prop} (hR : ∀ c c', R c c' → Grows c c')
    {c c' : Core} (h : ReflTransGen R c c') : Grows c c' := by
  induction h with
  | refl => exact Grows.refl c
  | tail _ hlast ih => exact ih.trans (hR _ _ hlast)

theorem Grows.logged {c c' : Core} (h : Grows c c') {p : Event → Bool} (hl : Logged p c.log) :
    Logged p c'.log := by
  obtain ⟨es, hes, _⟩ := h
  exact hl.grow hes

theorem Grows.mem {c c' : Core} (h : Grows c c') {e : Event} (he : e ∈ c.log) : e ∈ c'.log := by
  obtain ⟨es, hes, _⟩ := h
  rw [hes]
  exact List.mem_append_left es he

/-- Events of a turn that are not messages stay in the turn. -/
theorem turn_append {log es : List Event} (h : ∀ e ∈ es, Event.message? e = none) :
    turn (log ++ es) = turn log ++ es := by
  induction es using List.reverseRecOn with
  | nil => rw [List.append_nil, List.append_nil]
  | append_singleton es e ih =>
      rw [← List.append_assoc, ← List.append_assoc]
      have he : Event.message? e = none :=
        h e (List.mem_append_right es (List.mem_singleton_self e))
      show History.since Event.message? (log ++ es ++ [e]) = _
      rw [History.since_concat_none he]
      congr 1
      exact ih fun e' he' => h e' (List.mem_append_left [e] he')

theorem turn_received (log : List Event) (msg : Message) : turn (log ++ [.received msg]) = [] :=
  History.since_concat_some (f := Event.message?) rfl log

theorem Grows.turn {c c' : Core} (h : Grows c c') {e : Event} (he : e ∈ turn c.log) :
    e ∈ turn c'.log := by
  obtain ⟨es, hes, hnone⟩ := h
  rw [hes, turn_append hnone]
  exact List.mem_append_left es he

theorem Grows.arrives {c c' : Core} (h : Grows c c') {cause : Message} {msg : SignNotification}
    (ha : Arrives cause msg c.log) : Arrives cause msg c'.log := by
  rcases ha with hcause | ⟨orderId, hmem⟩
  · exact .inl hcause
  · exact .inr ⟨orderId, h.turn hmem⟩

/-- An event that is not a message. -/
theorem Grows.one {c c' : Core} {e : Event} (hlog : c'.log = c.log ++ [e])
    (he : Event.message? e = none) : Grows c c' := by
  refine ⟨[e], hlog, ?_⟩
  intro e' he'
  rw [List.mem_singleton.mp he']
  exact he

theorem Grows.two {c c' : Core} {e e' : Event} (hlog : c'.log = c.log ++ [e] ++ [e'])
    (he : Event.message? e = none) (he' : Event.message? e' = none) : Grows c c' := by
  refine ⟨[e, e'], by rw [hlog, List.append_assoc]; rfl, ?_⟩
  intro e'' hmem
  rcases List.mem_pair.mp hmem with rfl | rfl
  · exact he
  · exact he'

/-- No event at all. -/
theorem Grows.same {c c' : Core} (hlog : c'.log = c.log) : Grows c c' :=
  ⟨[], by rw [hlog, List.append_nil], fun _ h => nomatch h⟩

theorem message?_of_isNote {e : Event} (h : e.isNote = true) : Event.message? e = none := by
  cases e with
  | received msg => exact nomatch h
  | _ => rfl

theorem Note.grows {c c' : Core} (h : Note c c') : Grows c c' := by
  cases h with
  | note hnote _ => exact Grows.one rfl (message?_of_isNote hnote)

theorem Attempt.grows {msg : SignNotification} {c : Core} {b b' : Book} (h : Attempt msg b b')
    (hlog : b.log = c.log) (n : Nat) : Grows c { c with toBook := b', nextRequestId := n } := by
  cases h with
  | none => exact Grows.same hlog
  | refused _ => exact Grows.one (congrArg (· ++ _) hlog) rfl
  | sent _ => exact Grows.two (congrArg (fun log => log ++ _ ++ _) hlog) rfl rfl

theorem Take.grows {msg : SignNotification} {c c' : Core} (h : Take msg c c') : Grows c c' := by
  cases h with
  | refuse _ => exact Grows.same rfl
  | queue _ _ _ _ => exact Grows.one rfl rfl
  | @autoSign entry precision b n _ _ _ _ hattempt _ =>
      have htake : Grows c { c with toBook := c.toBook.take msg entry precision } :=
        Grows.one rfl rfl
      exact htake.trans (hattempt.grows rfl n)

/-- What a callback shows are notes. -/
theorem isNote_callbackMsgs {res : Except Error Response} {callback : AsyncRequest}
    {msg : FromMsg} (h : msg ∈ callbackMsgs res callback) : (Event.toUi msg).isNote = true := by
  cases callback with
  | cancelOrder =>
      rw [List.mem_singleton.mp h]
      rfl
  | portfolioPrices =>
      simp only [callbackMsgs] at h
      split at h
      · rw [List.mem_singleton.mp h]
        rfl
      · cases h
  | gaidStatus gaid assetId =>
      rw [List.mem_singleton.mp h]
      rfl
  | updatePushToken => cases h
  | registerAddresses chain last => cases h

/-- A callback is called, and notes follow. -/
theorem callEvents_cases {requestId : Option String} {callback : AsyncRequest}
    {res : Except Error Response} {e : Event} (h : e ∈ callEvents requestId callback res) :
    e = .called requestId callback res ∨ e.isNote = true := by
  rcases List.mem_cons.mp h with rfl | hmem
  · exact .inl rfl
  · obtain ⟨msg, hmsg, rfl⟩ := List.mem_map.mp hmem
    exact .inr (isNote_callbackMsgs hmsg)

theorem message?_callEvents {requestId : Option String} {callback : AsyncRequest}
    {res : Except Error Response} {e : Event} (h : e ∈ callEvents requestId callback res) :
    Event.message? e = none := by
  rcases callEvents_cases h with rfl | hnote
  · rfl
  · exact message?_of_isNote hnote

/-- **ONE TURN**: no act receives a message. -/
theorem Act.grows {world : World} {cause : Message} {c c' : Core} (h : Act world cause c c') :
    Grows c c' := by
  cases h with
  | note hnote => exact hnote.grows
  | accept _ _ _ _ _ _ => exact Grows.two rfl rfl rfl
  | restore _ _ _ _ _ => exact Grows.one rfl rfl
  | takeQueued _ htake => exact htake.grows
  | takeArrived _ htake => exact htake.grows
  | prompt _ _ _ => exact Grows.one rfl rfl
  | review _ => exact Grows.one rfl rfl
  | @decide req msg b n _ _ _ _ _ hattempt _ =>
      exact hattempt.grows rfl n
  | edit _ _ => exact Grows.one rfl rfl
  | editEntry _ _ => exact Grows.one rfl rfl
  | startSwap _ _ _ => exact Grows.one rfl rfl
  | refuseSwap _ _ _ => exact Grows.one rfl rfl
  | signSwap _ _ _ _ => exact Grows.two rfl rfl rfl
  | createTx => exact Grows.one rfl rfl
  | sendTx _ => exact Grows.one rfl rfl
  | ask _ _ => exact Grows.one rfl rfl
  | askOffline _ => exact ⟨_, rfl, fun _ => message?_callEvents⟩
  | answer _ _ => exact ⟨_, rfl, fun _ => message?_callEvents⟩
  | drain _ =>
      refine ⟨_, rfl, ?_⟩
      intro e he
      obtain ⟨line, _, hmem⟩ := List.mem_flatMap.mp he
      exact message?_callEvents hmem
  | _ => exact Grows.same rfl

theorem Showing.grows {c c' : Core} (h : Showing c c') : Grows c c' := by
  cases h with
  | remove _ => exact Grows.one rfl rfl
  | put _ _ => exact Grows.one rfl rfl

theorem Listing.grows {c c' : Core} (h : Listing c c') : Grows c c' := by
  cases h with
  | change _ => exact Grows.same rfl
  | shows hshow => exact hshow.grows

theorem Play.grows {world : World} {cause : Message} {c c' : Core} (h : Play world cause c c') :
    Grows c c' := by
  cases h with
  | act hact => exact hact.grows
  | list hlist => exact hlist.grows

theorem Acts.grows {world : World} {cause : Message} {c c' : Core} (h : Acts world cause c c') :
    Grows c c' := Grows.of_closure (fun _ _ => Act.grows) h

theorem Plays.grows {world : World} {cause : Message} {c c' : Core}
    (h : Plays world cause c c') : Grows c c' := Grows.of_closure (fun _ _ => Play.grows) h

/-! ## Handlers that only record notes -/

theorem records_emit {e : Event} (h : e.isNote = true) : Records (emit e) :=
  fun _ => .single (.note h (Nat.le_refl _))

theorem records_uiSend {msg : FromMsg} (h : (Event.toUi msg).isNote = true) :
    Records (uiSend msg) := records_emit h

theorem records_showMessage (text : String) : Records (showMessage text) := records_uiSend rfl

theorem records_pure {α : Type} (a : α) : Records (pure a : Handler α) := fun _ => .refl

/-- A change of the state outside the core. -/
theorem records_modify {f : Data → Data} (h : ∀ d, (f d).core = d.core) :
    Records (modify f : Handler Unit) := by
  intro d
  show Notes d.core (f d).core
  rw [h d]

/-- The requests whose answers matter only to the handler that made them. -/
def Request.isNote : Request → Bool
  | .psetMaker _ => false
  | .psetTaker _ => false
  | req => req.isQuiet

theorem isNote_request {req : Request} (h : req.isNote = true) (res : Except String Response) :
    (Event.request req res).isNote = true := by
  cases req with
  | sign req => exact nomatch h
  | startSwapClient req => exact nomatch h
  | signedSwapClient orderId pset => exact nomatch h
  | psetMaker req => exact nomatch h
  | psetTaker req => exact nomatch h
  | edit req =>
      have hnone : req.price.isNone = true := h
      match res with
      | .error _ => rfl
      | .ok resp =>
          cases resp with
          | edit => exact Bool.and_eq_true_iff.mpr ⟨hnone, rfl⟩
          | _ => rfl
  | _ => rfl

theorem records_sendRequest (world : World) {req : Request} (h : req.isNote = true) :
    Records (sendRequest world req) := by
  intro d
  unfold sendRequest
  refine Leads.get (Leads.modify ?_)
  exact Leads.keeps (keeps_ofResult _) (.single (.note (isNote_request h _) (Nat.le_succ _)))

theorem records_request {α : Type} (world : World) {req : Request} (h : req.isNote = true)
    (select : Response → Option α) : Records (request world req select) :=
  Follows.bind (records_sendRequest world h) fun _ _ => Leads.keeps (keeps_okOr _ _) .refl

theorem keeps_getWallet (accountId : AccountId) : Keeps (getWallet accountId) := by
  intro d
  show (exec (ensure (d.wallets.contains accountId) "wallet not found") d).2 = d
  exact keeps_ensure _ _ d

theorem records_registerAsset (asset : Asset) (swapMarket ampMarket unregistered : Bool) :
    Records (registerAsset asset swapMarket ampMarket unregistered) := by
  intro d
  refine Leads.ofPanic .refl fun _ _ => Leads.modify ?_
  exact records_uiSend rfl _

theorem records_tryAddAsset (world : World) (assetId : AssetId) :
    Records (tryAddAsset world assetId) := by
  intro d
  refine Leads.get ?_
  split
  · exact .refl
  · refine Leads.ofResult .refl fun assets _ => Leads.okOr .refl fun asset _ => ?_
    exact records_registerAsset _ _ _ _ d

theorem records_registerAssets (assets : List Asset) (ampMarket : Bool) :
    Records (registerAssets assets ampMarket) :=
  fun d => Leads.get (Follows.forM (fun asset => records_registerAsset asset _ _ _) assets d)

theorem records_updateAssets (world : World) : Records (updateAssets world) := by
  intro d
  refine Leads.call (records_request world rfl _) .refl fun assets d' _ hreach => ?_
  refine Leads.get ?_
  split
  · exact Leads.commit hreach (records_registerAssets _ _ d')
  · exact hreach

theorem records_updateAmpAssets (world : World) : Records (updateAmpAssets world) := by
  intro d
  refine Leads.call (records_request world rfl _) .refl fun ampAssets d' _ hreach => ?_
  refine Leads.call (records_uiSend rfl) hreach fun _ d'' _ hreach => Leads.modify ?_
  exact Leads.commit hreach (records_registerAssets _ _ _)

theorem records_processServerStatus (status : ServerStatus) :
    Records (processServerStatus status) :=
  Follows.bind (records_uiSend rfl) fun _ => records_modify fun _ => rfl

theorem records_updateServerStatus (world : World) : Records (updateServerStatus world) :=
  Follows.bind (records_request world rfl _) fun _ => records_processServerStatus _

theorem records_tryProcessLinkOrder (world : World) (orderId : OrderId) :
    Records (tryProcessLinkOrder world orderId) :=
  Follows.bind (records_request world rfl _) fun _ => records_modify fun _ => rfl

theorem keeps_submitAmount (world : World) (req : SubmitOrder) :
    Keeps (submitAmount world req) := by
  unfold submitAmount
  split
  · exact fun _ => rfl
  · refine Keeps.bind (keeps_getWallet _) fun _ => ?_
    refine Keeps.bind (fun _ => rfl) fun d => ?_
    exact Keeps.bind (keeps_ofStop _) fun _ _ => rfl

theorem records_tryProcessSubmitOrder (world : World) (req : SubmitOrder) :
    Records (tryProcessSubmitOrder world req) := by
  intro d
  refine Leads.ofPanic .refl fun asset _ => Leads.get (Leads.ofResult .refl fun _ _ => ?_)
  refine Leads.bindKeeps (keeps_submitAmount world req) .refl fun bitcoinAmount => ?_
  refine Leads.call (records_request world rfl _) .refl fun resp d' _ hreach => ?_
  exact Leads.commit hreach (records_tryProcessLinkOrder world _ d')

theorem records_processPendingSubmit (world : World) (req : SubmitOrder) :
    Records (processPendingSubmit world req) := by
  refine Follows.bind (records_tryProcessSubmitOrder world req).attempt fun res => ?_
  cases res with
  | ok _ => exact records_pure _
  | error e => exact records_uiSend rfl

theorem records_processPendingLink (world : World) (orderId : Text) :
    Records (processPendingLink world orderId) := by
  intro d
  refine Leads.ofPanic .refl fun orderId _ => ?_
  refine Follows.bind (records_tryProcessLinkOrder world orderId).attempt (fun res => ?_) d
  cases res with
  | ok _ => exact records_pure _
  | error e => exact records_showMessage _

theorem records_updateAmpConnection : Records updateAmpConnection := records_modify fun _ => rfl

theorem records_processPendingSucceed : Records processPendingSucceed := by
  intro d
  refine Leads.get ?_
  split
  · exact .refl
  · refine Leads.modify ?_
    refine Leads.commit .refl (Follows.forM (fun item => ?_) _ _)
    exact records_uiSend rfl

theorem records_sendWalletLoaded : Records sendWalletLoaded := by
  intro d
  refine Leads.get ?_
  split
  · exact Leads.modify (Leads.commit .refl (records_uiSend rfl _))
  · exact .refl

/-- Take a queue and work through it. -/
theorem drain_queue {α : Type} {R : Core → Core → Prop} {f : α → Handler Unit}
    (hf : ∀ a, Follows Data.core R (f a)) (queue : List α) {d d' : Data}
    (h : d'.core = d.core) : Leads Data.core R d.core (queue.forM f) d' :=
  Leads.commit (by rw [h]) (Follows.forM hf queue d')

theorem records_processPendingSubmits (world : World) : Records (processPendingSubmits world) :=
  fun _ => Leads.get (Leads.modify (drain_queue (records_processPendingSubmit world) _ rfl))

theorem records_processPendingLinks (world : World) : Records (processPendingLinks world) :=
  fun _ => Leads.get (Leads.modify (drain_queue (records_processPendingLink world) _ rfl))

/-! ## Prompts -/

theorem showSignPrompts_does {world : World} {cause : Message} (queue : List SignNotification)
    {d : Data} (h : d.pendingSignPrompts = queue) :
    DoesFrom world cause d.core (showSignPrompts queue) d := by
  induction queue generalizing d with
  | nil => exact .refl
  | cons msg rest ih =>
      refine Leads.get ?_
      split
      · exact .refl
      · next hvisible =>
          have hvisible : d.visibleSubmit = none := Option.not_isSome_iff_eq_none.mp hvisible
          refine Leads.modify ?_
          split
          · exact Leads.commit (.single (.dropPrompt h)) (ih rfl)
          · next entry hentry =>
              refine Leads.modify ?_
              exact Leads.commit (.single (.prompt hvisible h hentry)) (ih rfl)

theorem does_processPendingSignPrompts {world : World} {cause : Message} :
    Does world cause processPendingSignPrompts :=
  fun _ => Leads.get (showSignPrompts_does _ rfl)

/-! ## Signing -/

/-- `try_sign` makes one attempt, from any core the attempt can start from. -/
theorem trySign_does (world : World) {cause : Message} (msg : SignNotification) {v : Core}
    {d : Data} (h : ∀ b n, Attempt msg d.book b → d.nextRequestId ≤ n →
      Acts world cause v { d.core with toBook := b, nextRequestId := n }) :
    DoesFrom world cause v (trySign world msg) d := by
  have hnone : Acts world cause v d.core := h _ _ .none (Nat.le_refl _)
  refine Leads.get (Leads.okOr hnone fun entry hentry => ?_)
  refine Leads.ensure hnone fun horder => ?_
  refine Leads.ofResult hnone fun nonces hnonces => ?_
  refine Leads.bindKeeps (keeps_getWallet _) hnone fun _ => ?_
  unfold verifyAndSignPset request sendRequest emit
  simp only [bind_assoc]
  refine Leads.get (Leads.modify ?_)
  cases hres : (world.session d.log (accountOf d entry.asset)).verifyAndSignPset d.liquidAssetId
      (signAmounts d.liquidAssetId entry) msg.pset nonces with
  | error e => exact h _ _ (.refused hentry) (Nat.le_refl _)
  | ok signedPset =>
      have hsent : ∀ res, Acts world cause v
          { d.core with
            toBook := (d.book.emit (.verified .trySign msg.orderId
              (signAmounts d.liquidAssetId entry) msg.pset (.ok signedPset))).emit
                (.request (.sign ⟨msg.orderId, signedPset, entry.side⟩) res)
            nextRequestId := d.nextRequestId + 1 } :=
        fun res => h _ _ (.sent hentry) (Nat.le_succ _)
      refine Leads.ofOk (Leads.get (Leads.modify ?_))
      refine Leads.ofResult (hsent _) fun resp _ => ?_
      refine Leads.okOr (hsent _) fun _ _ => ?_
      refine Leads.get (Leads.ofPanic (hsent _) fun entry' hentry' => ?_)
      refine Leads.commit (hsent _) (Leads.modify ?_)
      have hlookup : d.submitData[msg.orderId]? = some entry' := expect_ok hentry'
      refine Leads.commit (.single (.mark hlookup)) ?_
      split
      · exact (records_uiSend rfl).does _
      · exact .refl

theorem verifyAmounts_ok {d : Data} {details : Details} (h : verifyAmounts d details = .ok ()) :
    Quoted details (precisionOf d details.asset) := by
  unfold verifyAmounts at h
  simp only [check_bind] at h
  obtain ⟨_, hprice, _, _, _, _, h⟩ := h
  unfold precisionOf
  cases hasset : d.assets[details.asset]? with
  | none =>
      rw [hasset] at h
      exact nomatch h
  | some asset =>
      rw [hasset] at h
      obtain ⟨_, h⟩ := check_bind.mp h
      cases htype : details.orderType with
      | bitcoin =>
          simp only [htype, check_bind, check_ok] at h
          obtain ⟨_, hamount, hfee⟩ := h
          exact
            { positive := of_decide_eq_true hprice
              priced := by rw [htype]; exact of_decide_eq_true hamount
              fee := of_decide_eq_true hfee }
      | asset =>
          simp only [htype, check_bind, check_ok] at h
          obtain ⟨hamount, hfee⟩ := h
          exact
            { positive := of_decide_eq_true hprice
              priced := by rw [htype]; exact of_decide_eq_true hamount
              fee := of_decide_eq_true hfee }

/-- A message that `try_process_sign` lets through has been checked. -/
theorem checked_of_ok {d : Data} {entry : SubmitData} {details : Details}
    (hverify : verifyAmounts d details = .ok ()) (hcheck : checkSign entry details = .ok ()) :
    Checked entry details (precisionOf d details.asset) := by
  unfold checkSign at hcheck
  simp only [check_bind] at hcheck
  obtain ⟨hsells, htype, hasset, hcheck⟩ := hcheck
  have htaker : ((priceChange details.price entry.price).isZero || entry.side != .taker) = true →
      entry.side = .taker → (priceChange details.price entry.price).isZero = true := by
    intro hor hside
    rw [hside] at hor
    simpa using hor
  cases hcase : entry.orderType with
  | bitcoin =>
      simp only [hcase, check_bind, check_ok] at hcheck
      obtain ⟨hserverFee, hbitcoin, hside, hprice⟩ := hcheck
      exact
        { quoted := verifyAmounts_ok hverify
          side := eq_of_beq hside
          sells := eq_of_beq hsells
          asset := eq_of_beq hasset
          orderType := eq_of_beq htype
          fixed := by rw [hcase]; exact ⟨eq_of_beq hserverFee, eq_of_beq hbitcoin⟩
          taker := htaker hprice }
  | asset =>
      simp only [hcase, check_bind, check_ok] at hcheck
      obtain ⟨hamount, hside, hprice⟩ := hcheck
      exact
        { quoted := verifyAmounts_ok hverify
          side := eq_of_beq hside
          sells := eq_of_beq hsells
          asset := eq_of_beq hasset
          orderType := eq_of_beq htype
          fixed := by rw [hcase]; exact eq_of_beq hamount
          taker := htaker hprice }

/-- `try_process_sign` takes the message, if it has not been taken before. -/
theorem tryProcessSign_does (world : World) {cause : Message} {msg : SignNotification} {v : Core}
    {d : Data} (h : Acts world cause v d.core)
    (htake : ∀ c, Take msg d.core c → Acts world cause v c) :
    DoesFrom world cause v (tryProcessSign world msg) d := by
  refine Leads.get ?_
  split
  · exact h
  · next hfresh =>
      have hfresh : d.processedSigns.contains msg.orderId = false :=
        Bool.eq_false_of_not_eq_true hfresh
      have hrefuse := htake _ (.refuse hfresh)
      refine Leads.modify (Leads.ofResult hrefuse fun _ hverify => ?_)
      refine Leads.okOr hrefuse fun entry hentry => ?_
      refine Leads.ensure hrefuse fun _ => ?_
      refine Leads.ofResult hrefuse fun _ hcheck => ?_
      have hchecked := checked_of_ok hverify hcheck
      refine Leads.modify ?_
      split
      · next hauto =>
          refine Leads.bind (trySign_does world msg fun b n hb hn => ?_) fun _ _ _ hv => hv
          exact htake _ (.autoSign hfresh hentry hchecked hauto hb hn)
      · next hauto =>
          refine Leads.modify ?_
          exact Leads.commit
            (htake _ (.queue hfresh hentry hchecked (Bool.eq_false_of_not_eq_true hauto)))
            (does_processPendingSignPrompts _)

theorem processSignNow_does (world : World) {cause : Message} {msg : SignNotification} {v : Core}
    {d : Data} (h : Acts world cause v d.core)
    (htake : ∀ c, Take msg d.core c → Acts world cause v c) :
    DoesFrom world cause v (processSignNow world msg) d := by
  refine Leads.bind (Leads.attempt (tryProcessSign_does world h htake))
    fun res d' _ hreach => Leads.commit hreach ?_
  cases res with
  | ok _ => exact .refl
  | error e => exact (records_showMessage _).does d'

/-- A `Sign` message that has just arrived is taken or has to wait. -/
theorem processSignWith_does (world : World) {cause : Message} {pendingRequests : Handler Unit}
    (h : Does world cause pendingRequests) {msg : SignNotification} {d : Data}
    (harrives : Arrives cause msg d.log) :
    DoesFrom world cause d.core (processSignWith world pendingRequests msg) d := by
  unfold processSignWith
  split
  · exact processSignNow_does world .refl fun c hc => .single (.takeArrived harrives hc)
  · exact Leads.modify (Leads.commit (.single (.enqueue harrives)) (h _))

/-! ## Records the worker makes up -/

/-- Verified details make a record whose amounts fit its price. -/
theorem priced_of_quoted {entry : SubmitData} {details : Details} {precision : Nat}
    (h : Quoted details precision) (hprecision : entry.assetPrecision = precision)
    (htype : entry.orderType = details.orderType)
    (hbitcoin : entry.bitcoinAmount = details.bitcoinAmount)
    (hasset : entry.assetAmount = details.assetAmount) (hprice : entry.price = details.price)
    (hfee : entry.serverFee = details.serverFee) (hmarket : entry.market = details.market) :
    entry.Priced where
  fee := by rw [hfee, hbitcoin, h.fee]
  amounts := by
    have hpriced := h.priced
    rw [htype, hbitcoin, hasset, hprice, hprecision, hmarket]
    cases hcase : details.orderType with
    | bitcoin =>
        rw [hcase] at hpriced
        exact hpriced.symm
    | asset =>
        rw [hcase] at hpriced
        exact hpriced.symm

/-- A record is made up with auto-sign only for a two-step order that the
    server has listed. -/
theorem addMissingSubmitData_does {world : World} {cause : Message} {orderId : OrderId}
    {details : Details} {twoStep : Bool} {d : Data}
    (h : twoStep = true → Logged (Event.listsTwoStep orderId) d.log) :
    DoesFrom world cause d.core (addMissingSubmitData orderId details twoStep) d := by
  refine Leads.get ?_
  split
  · next hnone =>
      refine Leads.okOr .refl fun asset hasset => ?_
      refine Leads.ofResult .refl fun _ hverify => ?_
      have hprecision : precisionOf d details.asset = asset.precision := by
        unfold precisionOf
        rw [hasset]
        rfl
      have hquoted : Quoted details asset.precision := hprecision ▸ verifyAmounts_ok hverify
      exact .single (.restore (Option.isNone_iff_eq_none.mp hnone) rfl h rfl
        (priced_of_quoted hquoted rfl rfl rfl rfl rfl rfl rfl))
  · exact .refl

/-- A downloaded `Sign` message arrives with the answer. -/
theorem does_downloadSignRequestWith (world : World) {cause : Message}
    {pendingRequests : Handler Unit} (h : Does world cause pendingRequests) (orderId : OrderId) :
    Does world cause (downloadSignRequestWith world pendingRequests orderId) := by
  intro d
  unfold downloadSignRequestWith request sendRequest
  simp only [bind_assoc]
  refine Leads.get (Leads.modify ?_)
  cases hres : world.response d.log (.getSign orderId) with
  | error e => exact .single (.note (.note rfl (Nat.le_succ _)))
  | ok resp =>
      refine Leads.ofOk (Leads.okOr (.single (.note (.note rfl (Nat.le_succ _)))) ?_)
      intro sign hsign
      have hresp : resp = .getSign sign := by
        cases resp <;> cases hsign
        rfl
      subst hresp
      refine Leads.commit (.single (.note (.note rfl (Nat.le_succ _)))) ?_
      have harrives : Arrives cause sign
          (d.log ++ [.request (.getSign orderId) (.ok (.getSign sign))]) := by
        refine .inr ⟨orderId, ?_⟩
        rw [turn_append (by simp [Event.message?])]
        exact List.mem_append_right _ (List.mem_singleton_self _)
      refine Leads.call (records_tryAddAsset world _).does .refl fun _ d' _ hreach => ?_
      refine Leads.bind (Leads.commit hreach (addMissingSubmitData_does (nomatch ·)))
        fun _ d'' _ hreach => Leads.commit hreach ?_
      exact processSignWith_does world h ((Acts.grows hreach).arrives harrives)

/-! ## Pending requests -/

theorem does_downloadSigns {world : World} {cause : Message} {download : OrderId → Handler Unit}
    (h : ∀ id, Does world cause (download id)) (signs : List (OrderId × Option Nat)) :
    Does world cause (downloadSigns download signs) := by
  induction signs with
  | nil => exact (records_pure _).does
  | cons sign rest ih =>
      intro d
      refine Leads.get ?_
      split
      · exact ih d
      · refine Leads.call (h _).attempt .refl fun res d' _ hreach => ?_
        have hrest : ∀ senders : List Nat, Does world cause (do
            let more ← downloadSigns download rest
            pure (senders ++ more)) := fun _ => Follows.bind ih fun _ => (records_pure _).does
        refine Leads.commit hreach ?_
        cases res with
        | ok _ => exact hrest _ d'
        | error e => exact Follows.bind (records_showMessage _).does (fun _ => hrest _) d'

/-- The review of a downloaded link asks for a submission, not for a signature. -/
theorem step_linkReview (resp : LinkResponse) (autoSign : Bool) (chaining : Option Bool) :
    (linkReview resp autoSign chaining).step ≠ .sign := by
  show (if resp.details.side = .maker then Step.submit else Step.quote) ≠ .sign
  split
  · rintro ⟨⟩
  · rintro ⟨⟩

theorem does_tryProcessDownloadedLink (world : World) {cause : Message} (resp : LinkResponse) :
    Does world cause (tryProcessDownloadedLink world resp) := by
  intro d
  refine Leads.call (records_tryAddAsset world _).does .refl fun _ d' _ hreach => ?_
  refine Leads.get (Leads.bindKeeps (keeps_getWallet _) hreach fun _ => ?_)
  by_cases hlow : (linkFunds world d' resp.details (accountOf d' resp.details.asset)).available <
      (linkFunds world d' resp.details (accountOf d' resp.details.asset)).required
  · rw [if_pos hlow]
    exact hreach
  · rw [if_neg hlow]
    refine Leads.ofResult hreach fun chaining _ => Leads.modify (Leads.modify ?_)
    exact hreach.tail (.review (step_linkReview _ _ _))

theorem does_processDownloadedLink (world : World) {cause : Message} (resp : LinkResponse) :
    Does world cause (processDownloadedLink world resp) := by
  refine Follows.bind (does_tryProcessDownloadedLink world resp).attempt fun res => ?_
  match res with
  | .ok (some msg) => exact (records_uiSend rfl).does
  | .ok none => exact (records_pure _).does
  | .error e => exact (records_showMessage _).does

theorem does_processDownloadedLinks (world : World) {cause : Message} :
    Does world cause (processDownloadedLinks world) :=
  fun _ => Leads.get (Leads.modify (drain_queue (does_processDownloadedLink world) _ rfl))

/-- Signing does not touch the queue of waiting messages. -/
abbrev FixesRequests {α : Type} (p : Handler α) : Prop := Fixes Data.pendingSignRequests p

/-- Showing prompts changes the queue of prompts and what is on the screen. -/
theorem fixes_processPendingSignPrompts {β : Type} {f : Data → β}
    (hf : ∀ (d : Data) pendingSignPrompts visibleSubmit activeSign log,
      f { d with pendingSignPrompts, visibleSubmit, activeSign, log } = f d) :
    Fixes f processPendingSignPrompts := by
  have hloop : ∀ queue, Fixes f (showSignPrompts queue) := by
    intro queue
    induction queue with
    | nil => exact fun _ => .refl
    | cons msg rest ih =>
        intro d
        refine Leads.get ?_
        split
        · exact .refl
        · have hdrop : f d = f { d with pendingSignPrompts := rest } :=
            (hf d rest d.visibleSubmit d.activeSign d.log).symm
          refine Leads.modify ?_
          split
          · exact hdrop ▸ Leads.commit .refl (ih _)
          · refine Leads.modify ?_
            have hshown := fun visibleSubmit activeSign log =>
              (hf d rest visibleSubmit activeSign log).symm
            exact hshown (some msg.orderId) (some msg) _ ▸ Leads.commit .refl (ih _)
  exact fun d => Leads.get (hloop _ d)

/-- The state after a blocking request. -/
def Data.requested (data : Data) (req : Request) (res : Except String Response) : Data :=
  { data with
    nextRequestId := data.nextRequestId + 1
    log := data.log ++ [.request req res] }

/-- A part of the state that depends neither on the records nor on the history,
    but for the reviews shown in it. -/
structure Steady {β : Type} (f : Data → β) : Prop where
  log : ∀ (d : Data) e n, Event.isReview e = false →
    f { d with log := d.log ++ [e], nextRequestId := n } = f d
  records : ∀ (d : Data) submitData, f { d with submitData } = f d

theorem Steady.requested {β : Type} {f : Data → β} (h : Steady f) (d : Data) (req : Request)
    (res : Except String Response) : f (d.requested req res) = f d := h.log d _ _ rfl

theorem fixes_emit {β : Type} {f : Data → β} (hf : Steady f) {e : Event}
    (he : Event.isReview e = false) : Fixes f (emit e) := by
  intro d
  show ReflTransGen emptyRelation (f d) (f (d.emit e))
  rw [show f (d.emit e) = f d from hf.log d e d.nextRequestId he]

/-- `try_sign` changes the records and the log, and shows no review. -/
theorem fixes_trySign {β : Type} {f : Data → β} (hf : Steady f) (world : World)
    (msg : SignNotification) : Fixes f (trySign world msg) := by
  intro d
  have hkeep : ∀ d' : Data, f d' = f d → ReflTransGen emptyRelation (f d) (f d') := by
    intro d' hd'
    rw [hd']
  refine Leads.get (Leads.okOr .refl fun entry _ => Leads.ensure .refl fun _ => ?_)
  refine Leads.ofResult .refl fun nonces _ => ?_
  refine Leads.bindKeeps (keeps_getWallet _) .refl fun _ => ?_
  unfold verifyAndSignPset request sendRequest emit
  simp only [bind_assoc]
  refine Leads.get (Leads.modify ?_)
  have hverified := fun e he => hf.log d e d.nextRequestId he
  refine Leads.ofResult (hkeep _ (hverified _ rfl)) fun signedPset _ => Leads.get (Leads.modify ?_)
  have hsent := fun e he req res => (hf.requested { d with log := d.log ++ [e] } req res).trans
    (hverified e he)
  refine Leads.ofResult (hkeep _ (hsent _ rfl _ _)) fun resp _ => ?_
  refine Leads.okOr (hkeep _ (hsent _ rfl _ _)) fun _ _ => ?_
  refine Leads.get (Leads.ofPanic (hkeep _ (hsent _ rfl _ _)) fun entry' _ => Leads.modify ?_)
  refine Leads.commit (hkeep _ ((hf.records _ _).trans (hsent _ rfl _ _))) ?_
  split
  · exact Leads.call (fixes_emit hf rfl) .refl fun _ _ _ hreach => hreach
  · exact .refl

theorem fixesRequests_processSignNow (world : World) (msg : SignNotification) :
    FixesRequests (processSignNow world msg) := by
  refine Follows.bind (Follows.attempt fun d => Leads.get ?_) fun res => ?_
  · split
    · exact .refl
    · refine Leads.modify (Leads.ofResult .refl fun _ _ => Leads.okOr .refl fun entry _ => ?_)
      refine Leads.ensure .refl fun _ => Leads.ofResult .refl fun _ _ => Leads.modify ?_
      split
      · exact Leads.call (fixes_trySign ⟨fun _ _ _ _ => rfl, fun _ _ => rfl⟩ world msg) .refl
          fun _ _ _ hreach => hreach
      · exact Leads.modify (Leads.commit .refl (fixes_processPendingSignPrompts (fun _ _ _ _ _ => rfl) _))
  · cases res with
    | ok _ => exact fun _ => .refl
    | error e => exact fun _ => .refl

/-- The queue is worked through from its head; taking a message off it and
    taking it for signing are one act. -/
theorem processSignRequests_does (world : World) {cause : Message}
    (msgs : List SignNotification) {d : Data} (h : d.pendingSignRequests = msgs) :
    DoesFrom world cause d.core (processSignRequests world msgs) d := by
  induction msgs generalizing d with
  | nil => exact .refl
  | cons msg rest ih =>
      refine Leads.modify (Leads.get ?_)
      split
      · exact Leads.commit (.single (.dequeue h)) (ih rfl)
      · refine Leads.bind (processSignNow_does world (.single (.dequeue h))
          fun c hc => .single (.takeQueued h hc)) fun _ d' hexec hreach => ?_
        exact Leads.commit hreach (ih ((fixesRequests_processSignNow world msg).of_exec hexec))

theorem does_processPendingSignRequests (world : World) {cause : Message} :
    Does world cause (processPendingSignRequests world) :=
  fun _ => Leads.get (processSignRequests_does world _ rfl)

theorem does_processPendingRequestsWith (world : World) {cause : Message}
    {download : OrderId → Handler Unit} (h : ∀ id, Does world cause (download id)) :
    Does world cause (processPendingRequestsWith world download) := by
  intro d
  refine Leads.get ?_
  split
  · exact .refl
  · split
    · exact records_updateAmpConnection.does d
    · refine Leads.modify ?_
      refine Leads.call (does_downloadSigns h _) .refl fun senders d' _ hreach => ?_
      refine Leads.commit hreach ?_
      refine Follows.bind (records_processPendingSubmits world).does (fun _ => ?_) d'
      refine Follows.bind (records_processPendingLinks world).does fun _ => ?_
      refine Follows.bind (does_processDownloadedLinks world) fun _ => ?_
      refine Follows.bind does_processPendingSignPrompts fun _ => ?_
      refine Follows.bind (does_processPendingSignRequests world) fun _ => ?_
      refine Follows.bind records_updateAmpConnection.does fun _ => ?_
      exact Follows.forM (fun sender => (records_emit rfl).does) senders

theorem does_processPendingRequests (world : World) {cause : Message} :
    Does world cause (processPendingRequests world) :=
  does_processPendingRequestsWith world
    (does_downloadSignRequestWith world
      (does_processPendingRequestsWith world fun _ => (records_pure ()).does))

theorem processSign_does (world : World) {cause : Message} {msg : SignNotification} {d : Data}
    (h : Arrives cause msg d.log) : DoesFrom world cause d.core (processSign world msg) d :=
  processSignWith_does world (does_processPendingRequests world) h

/-! ## The user's decisions -/

theorem records_recvAddress (world : World) (orderId : OrderId) (details : Details)
    (accountId : AccountId) : Records (recvAddress world orderId details accountId) := by
  intro d
  refine Leads.get ?_
  split
  · refine Leads.ofResult .refl fun gaid _ => ?_
    refine Leads.call (records_request world rfl _) .refl fun resolved d' _ hreach => ?_
    exact Leads.get (Leads.keeps (keeps_ofResult _) hreach)
  · exact Leads.keeps (keeps_ofResult _) .refl

/-- A blocking request, by the answer it gets. -/
theorem exec_request {α : Type} (world : World) (req : Request) (select : Response → Option α)
    (d : Data) : exec (request world req select) d =
      match world.response d.log req with
      | .error e => (.error (.error e), d.requested req (.error e))
      | .ok resp => match select resp with
          | some a => (.ok a, d.requested req (.ok resp))
          | none => (.error (.error "unexpected response type"), d.requested req (.ok resp)) := by
  unfold request sendRequest
  rw [exec_bind, exec_get_bind, exec_modify_bind]
  cases hres : world.response d.log req with
  | error e => rfl
  | ok resp =>
      show exec (okOr (select resp) _) (d.requested req (.ok resp)) = match select resp with
        | some a => (.ok a, d.requested req (.ok resp))
        | none => (.error (.error "unexpected response type"), d.requested req (.ok resp))
      cases select resp with
      | none => rfl
      | some a => rfl

section Fixed

variable {β : Type} {f : Data → β} (hf : ∀ d req res, f (Data.requested d req res) = f d)
include hf

theorem fixes_request {α : Type} (world : World) (req : Request) (select : Response → Option α) :
    Fixes f (request world req select) := by
  intro d
  show ReflTransGen emptyRelation (f d) (f (exec (request world req select) d).2)
  rw [exec_request]
  cases world.response d.log req with
  | error e => exact hf d _ _ ▸ .refl
  | ok resp =>
      cases hsel : select resp with
      | none => simp only [hsel, hf, ReflTransGen.refl]
      | some a => simp only [hsel, hf, ReflTransGen.refl]

theorem fixes_recvAddress (world : World) (orderId : OrderId) (details : Details)
    (accountId : AccountId) : Fixes f (recvAddress world orderId details accountId) := by
  intro d
  refine Leads.get ?_
  split
  · refine Leads.ofResult .refl fun gaid _ => ?_
    refine Leads.call (fixes_request hf world _ _) .refl fun resolved d' _ hreach => ?_
    exact Leads.get (Leads.keeps (keeps_ofResult _) hreach)
  · exact Leads.keeps (keeps_ofResult _) .refl

theorem fixes_sendPset (world : World) (req : SubmitDecision) (orderId : OrderId)
    (details : Details) (autoSign : Bool) (accountId : AccountId) (inputs : List PsetInput)
    (recvAddr changeAddr : Address) :
    Fixes f (sendPset world req orderId details autoSign accountId inputs recvAddr
      changeAddr) := by
  intro d
  refine Leads.get ?_
  split
  · exact Leads.ofResult .refl fun offer _ => fixes_request hf world _ _ d
  · exact Leads.ofResult .refl fun _ _ => fixes_request hf world _ _ d

end Fixed

/-- The inputs of the selection are coins it could choose from. -/
theorem mem_selectInputs {utxos : List UnspentOutput} {sendAmount : Int} {inputs : List PsetInput}
    (h : selectInputs utxos sendAmount = .ok inputs) {input : PsetInput} (hmem : input ∈ inputs) :
    ∃ utxo ∈ utxos, input = convertToSwapUtxo utxo := by
  simp only [selectInputs] at h
  by_cases hfunds : sendAmount ≤ i64 (utxos.map fun utxo => i64 utxo.satoshi).sum
  · rw [if_neg (not_not.mpr hfunds)] at h
    obtain ⟨selected, _, h⟩ := bind_returns h
    by_cases hselected : sendAmount ≤ i64 selected.sum
    · rw [if_neg (not_not.mpr hselected)] at h
      obtain ⟨picked, hpicked, h⟩ := bind_returns h
      have hinputs : picked.map convertToSwapUtxo = inputs := Except.ok.inj h
      rw [← hinputs] at hmem
      obtain ⟨utxo, hutxo, rfl⟩ := List.mem_map.mp hmem
      cases htake : takeValues selected (utxos.map fun utxo => (i64 utxo.satoshi, utxo)) with
      | error p =>
          rw [htake] at hpicked
          cases hpicked
      | ok items =>
          rw [htake] at hpicked
          have hitems : items = picked := Except.ok.inj hpicked
          obtain ⟨taken, rest, hperm, _, hsnd⟩ := takeValues_inv _ _ _ htake
          rw [← hitems, ← hsnd] at hutxo
          obtain ⟨pair, hpair, rfl⟩ := List.mem_map.mp hutxo
          obtain ⟨utxo', hutxo', rfl⟩ := List.mem_map.mp
            (hperm.subset (List.mem_append_left rest hpair))
          exact ⟨utxo', hutxo', rfl⟩
    · rw [if_pos hselected] at h
      cases h
  · rw [if_pos hfunds] at h
    cases h

/-- Unused coins only, if the user has asked for them. -/
theorem unused_of_assetUtxos {d : Data} {utxos chosen : List UnspentOutput} {sendAmount : Int}
    (h : assetUtxos d utxos sendAmount true = .ok chosen) :
    ∀ utxo ∈ chosen, utxo.outPoint ∉ reservedTxouts d := by
  simp only [assetUtxos, if_true] at h
  intro utxo hmem
  split at h
  · have hchosen := Except.ok.inj h
    rw [← hchosen] at hmem
    have hfree := (List.mem_filter.mp hmem).2
    exact of_decide_eq_true hfree
  · cases h

/-- An offer the server does not take is a note. -/
theorem isNote_untaken {offer : Request} {res : Except String Response}
    (hoffer : offer.offer?.isSome = true)
    (h : ∀ resp, res = .ok resp → offer.takenBy resp = false) :
    (Event.request offer res).isNote = true := by
  cases offer with
  | psetMaker req =>
      match res with
      | .error e => rfl
      | .ok resp =>
          cases resp with
          | psetMaker => exact nomatch h _ rfl
          | _ => rfl
  | psetTaker req =>
      match res with
      | .error e => rfl
      | .ok resp =>
          cases resp with
          | psetTaker => exact nomatch h _ rfl
          | _ => rfl
  | _ => exact nomatch hoffer

/-- An offer ends as a note, or the server has taken it. -/
theorem offer_ends (world : World) (offer : Request) (select : Response → Option Unit)
    (hoffer : offer.offer?.isSome = true)
    (hselect : ∀ resp, (select resp).isSome = offer.takenBy resp) (d : Data) :
    (∀ e d', exec (request world offer select) d = (.error e, d') → Notes d.core d'.core) ∧
    ∀ u d', exec (request world offer select) d = (.ok u, d') →
      ∃ resp, offer.takenBy resp = true ∧ d' = d.requested offer (.ok resp) := by
  rw [exec_request]
  cases hres : world.response d.log offer with
  | error e =>
      have hnote : (Event.request offer (.error e)).isNote = true :=
        isNote_untaken hoffer fun _ h => nomatch h
      constructor
      · rintro _ _ ⟨⟩
        exact .single (.note hnote (Nat.le_succ _))
      · rintro _ _ ⟨⟩
  | ok resp =>
      cases hsel : select resp with
      | none =>
          simp only [hsel]
          have hnot : offer.takenBy resp = false := by rw [← hselect, hsel]; rfl
          have hnote : (Event.request offer (.ok resp)).isNote = true := by
            refine isNote_untaken hoffer ?_
            rintro _ ⟨⟩
            exact hnot
          constructor
          · rintro _ _ ⟨⟩
            exact .single (.note hnote (Nat.le_succ _))
          · rintro _ _ ⟨⟩
      | some u =>
          simp only [hsel]
          have htaken : offer.takenBy resp = true := by rw [← hselect, hsel]; rfl
          constructor
          · rintro _ _ ⟨⟩
          · rintro _ _ ⟨⟩
            exact ⟨resp, htaken, rfl⟩

theorem isSome_psetMaker? (req : PsetMakerRequest) (resp : Response) :
    (Response.psetMaker? resp).isSome = (Request.psetMaker req).takenBy resp := by
  cases resp <;> rfl

theorem isSome_psetTaker? (req : PsetTakerRequest) (resp : Response) :
    (Response.psetTaker? resp).isSome = (Request.psetTaker req).takenBy resp := by
  cases resp <;> rfl

/-- The inputs that go into an offer of a maker. -/
theorem makerInputs_inputs {world : World} {d : Data} {req : SubmitDecision} {details : Details}
    {autoSign : Bool} {accountId : AccountId} {inputs : List PsetInput} {recvAddr : Address}
    {offer : List PsetInput × Option MakerSignedHalf}
    (h : makerInputs world d req details autoSign accountId inputs recvAddr = .ok offer)
    (htwo : req.twoStep.getD false = false) : offer.1 = inputs := by
  unfold makerInputs at h
  rw [htwo] at h
  cases h
  rfl

/-- Sending the PSET ends in notes, or the server has taken the offer. -/
theorem sendPset_ends (world : World) (req : SubmitDecision) (orderId : OrderId)
    (details : Details) (autoSign : Bool) (accountId : AccountId) (inputs : List PsetInput)
    (recvAddr changeAddr : Address) (d : Data) :
    let res := exec (sendPset world req orderId details autoSign accountId inputs recvAddr
      changeAddr) d
    (∀ e d', res = (.error e, d') → Notes d.core d'.core) ∧
    ∀ u d', res = (.ok u, d') → ∃ offer resp offered, offer.takenBy resp = true ∧
      offer.offer? = some (orderId, offered) ∧
      (req.isTwoStep details = false → offered = inputs) ∧
      d' = d.requested offer (.ok resp) := by
  intro res
  have hres : res = exec (sendPset world req orderId details autoSign accountId inputs recvAddr
      changeAddr) d := rfl
  unfold sendPset at hres
  rw [exec_get_bind] at hres
  split at hres
  · next hside =>
      cases hinputs : makerInputs world d req details autoSign accountId inputs recvAddr with
      | error e =>
          rw [hinputs] at hres
          constructor
          · intro e' d' h
            cases hres.symm.trans h
            exact .refl
          · intro u d' h
            cases hres.symm.trans h
      | ok offer =>
          rw [hinputs] at hres
          obtain ⟨herror, hok⟩ := offer_ends world
            (.psetMaker
              { orderId, price := details.price, isPrivate := req.isPrivate.getD false
                ttlSeconds := req.ttlSeconds, inputs := offer.1, recvAddr, changeAddr
                signedHalf := offer.2 }) Response.psetMaker? rfl (isSome_psetMaker? _) d
          refine ⟨fun e d' h => herror e d' (hres.symm.trans h), fun u d' h => ?_⟩
          obtain ⟨resp, htaken, hd'⟩ := hok u d' (hres.symm.trans h)
          refine ⟨_, resp, offer.1, htaken, rfl, fun htwo => ?_, hd'⟩
          refine makerInputs_inputs hinputs ?_
          unfold SubmitDecision.isTwoStep at htwo
          rw [hside] at htwo
          simpa using htwo
  · next hside =>
      cases hunlock : world.unlockHww d.log accountId with
      | error e =>
          rw [hunlock] at hres
          constructor
          · intro e' d' h
            cases hres.symm.trans h
            exact .refl
          · intro u d' h
            cases hres.symm.trans h
      | ok _ =>
          rw [hunlock] at hres
          obtain ⟨herror, hok⟩ := offer_ends world
            (.psetTaker { orderId, price := details.price, inputs, recvAddr, changeAddr })
            Response.psetTaker? rfl (isSome_psetTaker? _) d
          refine ⟨fun e d' h => herror e d' (hres.symm.trans h), fun u d' h => ?_⟩
          obtain ⟨resp, htaken, hd'⟩ := hok u d' (hres.symm.trans h)
          exact ⟨_, resp, inputs, htaken, rfl, fun _ => rfl, hd'⟩

/-- The decision of the user is carried out when the server has taken the offer.
    The registry and the records do not change while the order is submitted. -/
theorem trySubmit_does (world : World) {cause : Message} {req : SubmitDecision}
    {orderId : OrderId} {resp : LinkResponse} {d : Data}
    (hcause : cause = .ui (.submitDecision req)) (haccept : req.accept = true)
    (hid : fromStr req.orderId = some orderId) :
    DoesFrom world cause d.core (trySubmit world req orderId resp) d := by
  refine Leads.get (Leads.okOr .refl fun asset hasset => Leads.ofResult .refl fun _ hverify => ?_)
  refine Leads.bindKeeps (keeps_getWallet _) .refl fun _ => ?_
  refine Leads.ofResult .refl fun changeAddr _ => Leads.ofResult .refl fun utxos _ => ?_
  refine Leads.call (records_recvAddress world _ _ _).does .refl fun recvAddr d1 hrecv hreach => ?_
  have hassets : d1.assets = d.assets :=
    (fixes_recvAddress (fun _ _ _ => rfl) world _ _ _).of_exec hrecv
  have hrecords : d1.submitData = d.submitData :=
    (fixes_recvAddress (fun _ _ _ => rfl) world _ _ _).of_exec hrecv
  refine Leads.ofResult hreach fun chosen hchosen => Leads.ofStop hreach fun inputs hinputs => ?_
  refine Leads.commit hreach (Leads.bindEnds ?_ ?_)
  · intro e d' hexec
    exact ((sendPset_ends world _ _ _ _ _ _ _ _ d1).1 e d' hexec).acts
  · intro _ d' hexec
    obtain ⟨offer, res, offered, htaken, hoffer, hsame, rfl⟩ :=
      (sendPset_ends world _ _ _ _ _ _ _ _ d1).2 _ d' hexec
    have hasset' : (d1.requested offer (.ok res)).assets[resp.details.asset]? = some asset := by
      show d1.assets[resp.details.asset]? = some asset
      rw [hassets, hasset]
    refine Leads.get ?_
    rw [hasset']
    refine Leads.okSome (Leads.modify ?_)
    have hprecision : precisionOf d resp.details.asset = asset.precision := by
      unfold precisionOf
      rw [hasset]
      rfl
    have hquoted : Quoted resp.details asset.precision := hprecision ▸ verifyAmounts_ok hverify
    refine .single (.accept hcause haccept hid hquoted ⟨htaken, ⟨offered, hoffer, hsame⟩, ?_⟩
      (Nat.le_succ _))
    intro hunused input hinput
    rw [hunused] at hchosen
    obtain ⟨utxo, hutxo, rfl⟩ := mem_selectInputs hinputs hinput
    show utxo.outPoint ∉ (Table.values d1.submitData).flatMap (·.txouts)
    rw [hrecords]
    exact unused_of_assetUtxos hchosen utxo hutxo

/-- A submission shows no review either. -/
theorem fixes_trySubmit {β : Type} {f : Data → β} (hf : Steady f) (world : World)
    (req : SubmitDecision) (orderId : OrderId) (resp : LinkResponse) :
    Fixes f (trySubmit world req orderId resp) := by
  intro d
  refine Leads.get (Leads.okOr .refl fun asset _ => Leads.ofResult .refl fun _ _ => ?_)
  refine Leads.bindKeeps (keeps_getWallet _) .refl fun _ => ?_
  refine Leads.ofResult .refl fun changeAddr _ => Leads.ofResult .refl fun utxos _ => ?_
  refine Leads.call (fixes_recvAddress hf.requested world _ _ _) .refl
    fun recvAddr d1 _ hreach => ?_
  refine Leads.ofResult hreach fun chosen _ => Leads.ofStop hreach fun inputs _ => ?_
  refine Leads.call (fixes_sendPset hf.requested world _ _ _ _ _ _ _ _) hreach
    fun _ d2 _ hreach => ?_
  refine Leads.get (Leads.okOr hreach fun asset _ => Leads.modify (hreach.trans ?_))
  have hsame : ∀ submitData e, Event.isReview e = false →
      ReflTransGen emptyRelation (f d2) (f { d2 with submitData, log := d2.log ++ [e] }) := by
    intro submitData e he
    rw [hf.records { d2 with log := d2.log ++ [e] } submitData, hf.log d2 e d2.nextRequestId he]
  exact hsame _ (.accepted _ _ _) rfl

theorem noReview_of_turn {log : List Event} (h : turn log = []) : NoReview log := by
  intro e he
  rw [h] at he
  cases he

theorem tryProcessSubmitDecision_does (world : World) {cause : Message} {req : SubmitDecision}
    (hcause : cause = .ui (.submitDecision req)) {d : Data} (hturn : turn d.log = []) :
    DoesFrom world cause d.core (tryProcessSubmitDecision world req) d := by
  unfold tryProcessSubmitDecision
  split
  · exact .refl
  · next haccept =>
      have haccept : req.accept = true := by simpa using haccept
      refine Leads.get ?_
      split
      · next msg hmsg =>
          obtain ⟨hactive, htext⟩ := Option.filter_eq_some_iff.mp hmsg
          refine Leads.modify (trySign_does world msg fun b n hb hn => ?_)
          exact .single (.decide hcause haccept (noReview_of_turn hturn) hactive
            (eq_of_beq htext) hb hn)
      · refine Leads.okOr .refl fun orderId hid => Leads.okOr .refl fun resp _ => ?_
        exact Leads.modify (Leads.commit .refl (trySubmit_does world hcause haccept hid))

/-- The part of the state that the decision can change only by signing or
    submitting. -/
theorem exec_tryProcessSubmitDecision {β : Type} {f : Data → β} (hf : Steady f) (world : World)
    (req : SubmitDecision) (d : Data)
    (hsign : ∀ d : Data, f { d with activeSign := none } = f d)
    (hsubmits : ∀ (d : Data) activeSubmits, f { d with activeSubmits } = f d) :
    f (exec (tryProcessSubmitDecision world req) d).2 = f d := by
  unfold tryProcessSubmitDecision
  split
  · rfl
  · rw [exec_get_bind]
    split
    · next msg _ => rw [exec_modify_bind, (fixes_trySign hf world msg).eq, hsign]
    · cases hid : fromStr req.orderId with
      | none => rw [exec_okOr_none_bind]
      | some orderId =>
          rw [exec_okOr_some_bind]
          cases hresp : d.activeSubmits[orderId]? with
          | none => rw [exec_okOr_none_bind]
          | some resp =>
              rw [exec_okOr_some_bind, exec_modify_bind,
                (fixes_trySubmit hf world req orderId resp).eq, hsubmits]

theorem steady_activeSign : Steady Data.activeSign := ⟨fun _ _ _ _ => rfl, fun _ _ => rfl⟩

/-- An accepted prompt is gone. -/
theorem decided_of_prompted (world : World) {req : SubmitDecision} (haccept : req.accept = true)
    {d : Data} {msg : SignNotification} (hactive : d.activeSign = some msg)
    (htext : toText msg.orderId = req.orderId) :
    (exec (tryProcessSubmitDecision world req) d).2.activeSign = none := by
  unfold tryProcessSubmitDecision
  rw [haccept, if_neg (by simp), exec_get_bind, hactive, Option.filter_some,
    if_pos (beq_iff_eq.mpr htext)]
  show (exec (_ >>= fun _ => trySign world msg) d).2.activeSign = none
  rw [exec_modify_bind, (fixes_trySign steady_activeSign world msg).eq]

/-- After an accepted decision the prompt it was for is gone. -/
theorem not_prompted_of_decided (world : World) {req : SubmitDecision} (haccept : req.accept = true)
    (d : Data) (msg : SignNotification)
    (h : (exec (tryProcessSubmitDecision world req) d).2.activeSign = some msg) :
    toText msg.orderId ≠ req.orderId := by
  intro htext
  -- a prompt that is still there has been there before
  have hsame : d.activeSign = some msg := by
    unfold tryProcessSubmitDecision at h
    rw [haccept, if_neg (by simp), exec_get_bind] at h
    split at h
    · next sign _ =>
        rw [exec_modify_bind, (fixes_trySign steady_activeSign world sign).eq] at h
        cases h
    · cases hid : fromStr req.orderId with
      | none => rwa [hid, exec_okOr_none_bind] at h
      | some orderId =>
          rw [hid, exec_okOr_some_bind] at h
          cases hresp : d.activeSubmits[orderId]? with
          | none => rwa [hresp, exec_okOr_none_bind] at h
          | some resp =>
              rwa [hresp, exec_okOr_some_bind, exec_modify_bind,
                (fixes_trySubmit steady_activeSign world req orderId resp).eq] at h
  rw [decided_of_prompted world haccept hsame htext] at h
  cases h

/-- The reviews the user has been shown. -/
def Data.reviews (data : Data) : List Event := data.log.filter Event.isReview

theorem steady_reviews : Steady Data.reviews where
  log d e n he := by
    show (d.log ++ [e]).filter Event.isReview = d.log.filter Event.isReview
    rw [List.filter_append, List.filter_cons_of_neg (by rw [he]; simp), List.filter_nil,
      List.append_nil]
  records _ _ := rfl

/-- In a turn without new reviews none has been shown. -/
theorem noReview_of_reviews {d d' : Data} (hturn : turn d.log = []) (hgrows : Grows d.core d'.core)
    (h : d'.reviews = d.reviews) : NoReview d'.log := by
  obtain ⟨es, hlog, hes⟩ := hgrows
  have hlog : d'.log = d.log ++ es := hlog
  have hnone : es.filter Event.isReview = [] := by
    unfold Data.reviews at h
    rw [hlog, List.filter_append] at h
    exact List.append_right_eq_self.mp h
  intro e he
  rw [hlog, turn_append hes, hturn, List.nil_append] at he
  exact Bool.eq_false_of_not_eq_true (List.filter_eq_nil_iff.mp hnone e he)

/-- What follows when the decision has been carried out, or has failed. -/
theorem decided_does (world : World) {cause : Message} {req : SubmitDecision}
    (hcause : cause = .ui (.submitDecision req)) {d : Data} (hturn : turn d.log = []) :
    DoesFrom world cause (exec (tryProcessSubmitDecision world req) d).2.core
      (processSubmitDecision world req) d := by
  have hrest : Does world cause (do
      processPendingSignPrompts
      processPendingSucceed) :=
    Follows.bind does_processPendingSignPrompts fun _ => records_processPendingSucceed.does
  have hquiet : NoReview (exec (tryProcessSubmitDecision world req) d).2.log :=
    noReview_of_reviews hturn (Acts.grows (tryProcessSubmitDecision_does world hcause hturn))
      (exec_tryProcessSubmitDecision steady_reviews world req d (fun _ => rfl) fun _ _ => rfl)
  have hgone : req.accept = true → ∀ msg,
      (exec (tryProcessSubmitDecision world req) d).2.activeSign = some msg →
      toText msg.orderId ≠ req.orderId :=
    fun haccept msg => not_prompted_of_decided world haccept d msg
  refine Leads.get (Leads.bindEnds ?_ ?_)
  · intro e d' hexec
    rw [show d' = (exec (tryProcessSubmitDecision world req) d).2 by rw [← exec_attempt, hexec]]
  · intro res d' hexec
    have hstate : (exec (tryProcessSubmitDecision world req) d).2 = d' := by
      rw [← exec_attempt, hexec]
    rw [hstate] at hquiet hgone ⊢
    have hreport : ∀ result, DoesFrom world cause d'.core (do
        uiSend (.submitResult result)
        modify fun data => { data with visibleSubmit := none }
        processPendingSignPrompts
        processPendingSucceed) d' := by
      intro result
      refine Leads.modify (Leads.modify (Leads.commit ?_ (hrest _)))
      have hshown : Acts world cause d'.core (d'.emit (.toUi (.submitResult result))).core :=
        .single (.note (.note rfl (Nat.le_refl _)))
      refine hshown.tail (.closeReview hcause ?_ hgone)
      intro e he
      rw [show (d'.emit (.toUi (.submitResult result))).core.log =
        d'.log ++ [.toUi (.submitResult result)] from rfl,
        turn_append (List.forall_mem_singleton.mpr rfl)] at he
      rcases List.mem_append.mp he with hmem | hmem
      · exact hquiet e hmem
      · rw [List.mem_singleton.mp hmem]
        rfl
    match res with
    | .ok false =>
        exact Leads.modify (Leads.commit (.single (.closeReview hcause hquiet hgone)) (hrest _))
    | .ok true => exact hreport _
    | .error e => exact hreport _

theorem processSubmitDecision_does (world : World) {cause : Message} {req : SubmitDecision}
    (hcause : cause = .ui (.submitDecision req)) {d : Data} (hturn : turn d.log = []) :
    DoesFrom world cause d.core (processSubmitDecision world req) d :=
  (tryProcessSubmitDecision_does world hcause hturn).trans (decided_does world hcause hturn)

/-! ## Asynchronous requests -/

/-- A callback that is told of an error counts nothing. -/
theorem callbackRegistered_error (e : Error) (callback : AsyncRequest)
    (registered : Chain → Nat) :
    callbackRegistered (.error e) callback registered = registered := by
  cases callback <;> rfl

/-- A callback that is told of an error only leaves its events. -/
theorem exec_runCallback_error (requestId : Option String) (e : Error) (callback : AsyncRequest)
    (d : Data) : exec (runCallback requestId (.error e) callback) d =
      (.ok (), { d with log := d.log ++ callEvents requestId callback (.error e) }) := by
  show (Except.ok (), ({ d with registered := _, log := _ } : Data)) = _
  rw [callbackRegistered_error]
  rfl

/-- `make_async_request` stores the callback, or calls it when there is no
    connection. -/
theorem makeAsyncRequest_does {world : World} {cause : Message} {req : Request}
    {callback : AsyncRequest} {d : Data} (h : Asks world d.core req callback) :
    DoesFrom world cause d.core (makeAsyncRequest req callback) d := by
  refine Leads.get ?_
  split
  · next hoffline =>
      show Acts world cause d.core (exec (runCallback _ _ _) d).2.core
      rw [exec_runCallback_error]
      have hoffline : d.connected = false := by simpa using hoffline
      exact .single (.askOffline hoffline)
  · next honline =>
      have honline : d.connected = true := by simpa using honline
      exact .single (.ask honline h)

/-- A callback that counts no addresses has captured nothing. -/
theorem asks_other {world : World} {c : Core} {req : Request} {callback : AsyncRequest}
    (h : ∀ chain last, callback ≠ .registerAddresses chain last) : Asks world c req callback :=
  fun chain last hcallback => absurd hcallback (h chain last)

theorem does_processCancelOrder {world : World} {cause : Message} (orderId : Text) :
    Does world cause (processCancelOrder orderId) := fun _ =>
  Leads.ofPanic .refl fun _ _ => makeAsyncRequest_does (asks_other fun _ _ h => nomatch h)

theorem does_processPortfolioPrices {world : World} {cause : Message} :
    Does world cause processPortfolioPrices :=
  fun _ => makeAsyncRequest_does (asks_other fun _ _ h => nomatch h)

theorem does_processGaidStatusReq {world : World} {cause : Message} (gaid : String)
    (assetId : Text) : Does world cause (processGaidStatusReq gaid assetId) := fun _ =>
  Leads.ofPanic .refl fun _ _ => makeAsyncRequest_does (asks_other fun _ _ h => nomatch h)

theorem does_updatePushToken {world : World} {cause : Message} :
    Does world cause updatePushToken := by
  intro d
  refine Leads.get ?_
  split
  · exact makeAsyncRequest_does (asks_other fun _ _ h => nomatch h)
  · exact .refl

theorem does_processUpdatePushToken {world : World} {cause : Message} (token : String) :
    Does world cause (processUpdatePushToken token) :=
  Follows.bind (records_modify fun _ => rfl).does fun _ => does_updatePushToken

theorem processAsyncResp_does {world : World} {cause : Message} {requestId : String}
    {res : Except Error Response} (hcause : cause = .asyncResp requestId res) (d : Data) :
    DoesFrom world cause d.core (processAsyncResp requestId res) d := by
  refine Leads.get ?_
  split
  · exact .refl
  · next callback hcallback => exact Leads.modify (.single (.answer hcause hcallback))

/-- The addresses asked for start at the counter. -/
theorem does_registerChain (world : World) {cause : Message} (chain : Chain) :
    Does world cause (registerChain world chain) := by
  intro d
  refine Leads.get ?_
  split
  · next deviceKey xpubs hconnected hkey hwallet =>
      refine Leads.ofPanic .refl fun addresses haddresses => ?_
      refine makeAsyncRequest_does ?_
      intro chain' last' hcallback
      cases hcallback
      exact ⟨deviceKey, xpubs, addresses, rfl, hkey, hwallet, haddresses⟩
  · exact .refl

theorem does_updateAddressRegistrations (world : World) {cause : Message} :
    Does world cause (updateAddressRegistrations world) := by
  refine Follows.bind (does_registerChain world _) fun _ => ?_
  exact Follows.bind (does_registerChain world _) fun _ => does_registerChain world _

theorem does_updateUsedAddresses (world : World) {cause : Message} (accountId : AccountId)
    (transactions : List Transaction) :
    Does world cause (updateUsedAddresses world accountId transactions) :=
  Follows.bind (records_modify fun _ => rfl).does fun _ => does_updateAddressRegistrations world

/-! ## The order list -/

theorem shows_syncOrderList : Follows Data.core Showing syncOrderList := by
  intro d
  -- the worker's list is the same while it is shown
  have hlast : ∀ d' d'' : Data, ReflTransGen Showing d'.core d''.core →
      d'.ordersLast = d.ordersLast → d''.ordersLast = d.ordersLast := by
    intro d' d'' h
    generalize hc : d''.core = c at h
    have hfield : d''.ordersLast = c.ordersLast := congrArg Core.ordersLast hc
    rw [hfield]
    clear hfield hc
    induction h with
    | refl => exact id
    | tail _ hlast ih =>
        intro hd
        cases hlast with
        | remove _ => exact ih hd
        | put _ _ => exact ih hd
  refine Leads.get ?_
  refine Leads.bind (Leads.forM hlast (fun orderId hmem d' hd' => ?_) rfl)
    fun _ d' _ hreach => Leads.commit hreach ?_
  · have hgone : d'.ordersLast[orderId]? = none := by
      have hnot := (List.mem_filter.mp hmem).2
      rw [hd']
      exact Std.TreeMap.getElem?_eq_none_of_contains_eq_false (by simpa using hnot)
    exact Leads.modify (.single (.remove hgone))
  · refine Leads.forM hlast (fun line hmem d'' hd'' => ?_) (hlast _ _ hreach rfl)
    refine Leads.get ?_
    show Leads Data.core Showing d''.core
      (if d''.ordersSent[line.1]? = some line.2 then _ else _) d''
    split
    · exact .refl
    · next hsent =>
        have hline : d''.ordersLast[line.1]? = some line.2 := by
          rw [hd'']
          exact Std.TreeMap.mem_toList_iff_getElem?_eq_some.mp hmem
        exact Leads.modify (.single (.put hline hsent))

theorem runs_syncOrderList {world : World} {cause : Message} : Runs world cause syncOrderList :=
  Follows.mono (fun _ _ h => .list (.shows h)) shows_syncOrderList

/-- The order of a message or response that lists it for the user. -/
def Lists (log : List Event) (order : OrderCreatedNotification) : Prop :=
  order.own.isSome = true → order.twoStep = true → Logged (Event.listsTwoStep order.orderId) log

/-- A line goes into the list under its order id. -/
theorem listing_insert {c : Core} {orderId : OrderId} {order : Order}
    (h : order.orderId = orderId) :
    Listing c { c with ordersLast := c.ordersLast.insert orderId order } := by
  refine .change fun id line hline => ?_
  rw [Table.getElem?_insert_eq] at hline
  split at hline
  · next hid =>
      cases hline
      exact .inl (h.trans hid)
  · exact .inr ⟨line, hline, rfl⟩

/-- A line is replaced by one of the same order. -/
theorem listing_replace {c : Core} {orderId : OrderId} {old order : Order}
    (hold : c.ordersLast[orderId]? = some old) (h : old.orderId = order.orderId) :
    Listing c { c with ordersLast := c.ordersLast.insert orderId order } := by
  refine .change fun id line hline => .inr ?_
  rw [Table.getElem?_insert_eq] at hline
  split at hline
  · next hid =>
      cases hline
      exact ⟨old, hid ▸ hold, h⟩
  · exact ⟨line, hline, rfl⟩

theorem addOrder_runs (world : World) {cause : Message} (fromNotification : Bool)
    {order : OrderCreatedNotification} {d : Data} (h : Lists d.log order) :
    RunsFrom world cause d.core (addOrder world fromNotification order) d := by
  refine Leads.call (records_tryAddAsset world _).runs.attempt .refl fun _ d' _ hreach => ?_
  refine Leads.commit hreach ?_
  split
  · next hown =>
      refine Leads.bind (Leads.attempt (DoesFrom.runs (addMissingSubmitData_does fun htwo => ?_)))
        fun _ d'' _ hreach => hreach.tail (.list (listing_insert rfl))
      exact (Plays.grows hreach).logged (h hown htwo)
  · exact .single (.list (listing_insert rfl))

theorem addOrders_runs (world : World) {cause : Message} (fromNotification : Bool)
    {orders : List OrderCreatedNotification} {d : Data} (h : ∀ o ∈ orders, Lists d.log o) :
    RunsFrom world cause d.core (orders.forM (addOrder world fromNotification)) d := by
  refine Leads.forM (P := fun d' : Data => Plays world cause d.core d'.core)
    (fun _ _ hreach hP => hP.trans hreach)
    (fun order horder d' hP => addOrder_runs world _ fun hown htwo => ?_) .refl
  exact (Plays.grows hP).logged (h order horder hown htwo)

theorem processOrderCreated_runs (world : World) {cause : Message}
    {order : OrderCreatedNotification} {d : Data} (h : Lists d.log order) :
    RunsFrom world cause d.core (processOrderCreated world order) d :=
  Leads.bind (addOrder_runs world true h) fun _ d' _ hreach =>
    Leads.commit hreach (runs_syncOrderList d')

theorem runs_processOrderRemoved {world : World} {cause : Message} (orderId : OrderId) :
    Runs world cause (processOrderRemoved orderId) := by
  intro d
  refine Leads.modify (Leads.commit (.single (.list (.change fun id line hline => ?_)))
    (runs_syncOrderList _))
  rw [Table.getElem?_erase_eq] at hline
  split at hline
  · cases hline
  · exact .inr ⟨line, hline, rfl⟩

theorem processSubscribeResponse_runs (world : World) {cause : Message}
    {orders : List OrderCreatedNotification} {d : Data} (h : ∀ o ∈ orders, Lists d.log o) :
    RunsFrom world cause d.core (processSubscribeResponse world orders) d :=
  Leads.bind (addOrders_runs world false h) fun _ d' _ hreach =>
    Leads.commit hreach (runs_syncOrderList d')

theorem runs_processUnsubscribeResponse {world : World} {cause : Message}
    (asset : Option AssetId) : Runs world cause (processUnsubscribeResponse asset) := by
  intro d
  refine Leads.modify (Leads.commit (.single (.list (.change fun id line hline => ?_)))
    (runs_syncOrderList _))
  refine .inr ⟨line, ?_, rfl⟩
  rw [Std.TreeMap.getElem?_filter'] at hline
  exact (Option.filter_eq_some_iff.mp hline).1

/-! ## Edits and completions -/

/-- The server's answer and the new record of an edited price come together. -/
theorem does_tryEditOrderPrice (world : World) {cause : Message} (orderId : OrderId)
    (price indexPrice : Option ℚ) (h : price = none ∨ indexPrice = none) :
    Does world cause (tryEditOrderPrice world orderId price indexPrice) := by
  intro d
  cases price with
  | none =>
      exact Follows.bind (records_request world rfl _).does (fun _ => (records_pure _).does) d
  | some price =>
      have hindex : indexPrice = none := h.resolve_left (by simp)
      subst hindex
      unfold tryEditOrderPrice request sendRequest
      simp only [bind_assoc]
      refine Leads.get (Leads.modify ?_)
      cases hres : world.response d.log (.edit ⟨orderId, some price, none⟩) with
      | error e => exact .single (.note (.note rfl (Nat.le_succ _)))
      | ok resp =>
          refine Leads.ofOk ?_
          cases resp with
          | edit =>
              show DoesFrom world cause d.core
                (updateEntry orderId fun entry => entry.reprice price) _
              refine Leads.get ?_
              split
              · next hnone => exact .single (.edit hnone (Nat.le_succ _))
              · next entry hentry => exact .single (.editEntry hentry (Nat.le_succ _))
          | _ => exact .single (.note (.note rfl (Nat.le_succ _)))

/-- The record and its line in the order list get the new setting. -/
theorem tryEditOrderAutoSign_runs {world : World} {cause : Message} {orderId : OrderId}
    {autoSign : Bool} {d : Data}
    (h : autoSign = true → Logged (Event.enablesAutoSign orderId) d.log) :
    RunsFrom world cause d.core (tryEditOrderAutoSign orderId autoSign) d := by
  refine Leads.get (Leads.okOr .refl fun submit hsubmit => Leads.okOr .refl fun order horder => ?_)
  have hrecord : Plays world cause d.core
      { d.core with
        submitData := d.submitData.insert orderId { submit with autoSign := autoSign } } :=
    .single (.act (.editAutoSign h hsubmit))
  exact hrecord.tail (.list (listing_replace horder rfl))

theorem processEditOrder_runs (world : World) {cause : Message} {req : EditOrder} {d : Data}
    (h : Event.received (.ui (.editOrder req)) ∈ d.log) :
    RunsFrom world cause d.core (processEditOrder world req) d := by
  refine Leads.ofPanic .refl fun orderId hid => Leads.ofPanic .refl fun editData hdata => ?_
  have hid := expect_ok hid
  have hdata := expect_ok hdata
  refine Leads.bind (Leads.attempt ?_) fun res d' _ hreach => ?_
  · match editData with
    | .price v => exact (does_tryEditOrderPrice world _ _ _ (.inr rfl)).runs d
    | .indexPrice v => exact (does_tryEditOrderPrice world _ _ _ (.inl rfl)).runs d
    | .autoSign v =>
        refine tryEditOrderAutoSign_runs fun hv => ⟨_, h, ?_⟩
        show (fromStr req.orderId == some orderId && req.data == some (.autoSign true)) = true
        rw [hid, hdata, hv]
        simp
  · exact Leads.commit hreach
      (Follows.bind (records_uiSend rfl).runs (fun _ => runs_syncOrderList) d')

theorem updateEntry_does {world : World} {cause : Message} {orderId : OrderId}
    {f : SubmitData → SubmitData} {d : Data}
    (h : ∀ entry, d.submitData[orderId]? = some entry → Acts world cause d.core
      { d.core with submitData := d.submitData.insert orderId (f entry) }) :
    DoesFrom world cause d.core (updateEntry orderId f) d := by
  refine Leads.get ?_
  split
  · exact .refl
  · next entry hentry => exact h entry hentry

/-- A completion that has just been received. -/
theorem processComplete_does {world : World} {cause : Message} {msg : CompleteNotification}
    (hcause : cause = .serverNotification (.complete msg)) {log : List Event} {d : Data}
    (h : d.log = log ++ [.received (.serverNotification (.complete msg))]) :
    DoesFrom world cause d.core (processComplete msg) d := by
  obtain ⟨orderId, txid⟩ := msg
  have hshown : Acts world cause d.core (d.emit (.toUi (.orderComplete orderId txid))).core :=
    .single (.note (.note rfl (Nat.le_refl _)))
  refine Leads.modify (Leads.commit hshown ?_)
  cases txid with
  | some txid => exact updateEntry_does fun entry hentry => .single (.mark hentry)
  | none =>
      have hlog : d.log ++ [.toUi (.orderComplete orderId none)] = log ++
          [.received (.serverNotification (.complete ⟨orderId, none⟩)),
            .toUi (.orderComplete orderId none)] := by
        rw [h, List.append_assoc]
        rfl
      refine Leads.get (Leads.modify (Leads.commit (.single (.complete hlog)) ?_))
      split
      · next hgone =>
          refine Leads.call (records_uiSend rfl).does .refl fun _ d' hexec hreach => ?_
          refine Leads.modify (Leads.commit ?_ ?_)
          · cases hexec
            refine hreach.tail (.closeGone hcause ?_ hgone)
            -- only the completion and its explanation have been shown
            intro e he
            have hturn : ∀ e' e'' : Event, Event.message? e' = none → Event.message? e'' = none →
                turn (d.log ++ [e'] ++ [e'']) = [e', e''] := by
              intro e' e'' h' h''
              rw [turn_append (List.forall_mem_singleton.mpr h''),
                turn_append (List.forall_mem_singleton.mpr h'), h, turn_received]
              rfl
            have he : e ∈ turn (d.log ++ [.toUi (.orderComplete orderId none)] ++
              [.toUi (.submitResult _)]) := he
            rw [hturn _ _ rfl rfl] at he
            rcases List.mem_pair.mp he with rfl | rfl
            · rfl
            · rfl
          · exact Follows.bind does_processPendingSignPrompts
              (fun _ => records_processPendingSucceed.does) _
      · exact .refl

/-! ## Instant swaps -/

/-- The answer to a swap request and the approved swap come together. -/
theorem tryProcessSwapRequest_does (world : World) {cause : Message} {req : SwapRequest}
    {d : Data} (hcause : cause = .ui (.swapRequest req)) :
    DoesFrom world cause d.core (tryProcessSwapRequest world req) d := by
  refine Leads.get (Leads.ensure .refl fun _ => Leads.okOr .refl fun asset hasset => ?_)
  refine Leads.bindKeeps (keeps_getWallet _) .refl fun _ => ?_
  refine Leads.ofResult .refl fun utxos _ => Leads.ofStop .refl fun inputs _ => ?_
  refine Leads.ofResult .refl fun changeAddr _ => Leads.ofResult .refl fun recvAddr _ => ?_
  unfold request sendRequest
  simp only [bind_assoc]
  refine Leads.get (Leads.modify ?_)
  generalize hres : world.response d.log _ = res
  match res with
  | .error e => exact .single (.note (.note rfl (Nat.le_succ _)))
  | .ok resp =>
      refine Leads.ofOk ?_
      cases resp with
      | startSwapClient orderId => exact .single (.startSwap hcause hasset (Nat.le_succ _))
      | _ => exact .single (.note (.note rfl (Nat.le_succ _)))

/-- A handler whose errors are shown as a failed swap. -/
theorem swapFailed_does {world : World} {cause : Message} {p : Handler Unit} {d : Data}
    (h : DoesFrom world cause d.core p d) :
    DoesFrom world cause d.core (do
      match ← attempt p with
      | .ok () => pure ()
      | .error e => uiSend (.swapFailed e)) d := by
  refine Leads.bind (Leads.attempt h) fun res d' _ hreach => Leads.commit hreach ?_
  match res with
  | .ok _ => exact .refl
  | .error e => exact (records_uiSend rfl).does d'

theorem processSwapRequest_does (world : World) {cause : Message} {req : SwapRequest} {d : Data}
    (hcause : cause = .ui (.swapRequest req)) :
    DoesFrom world cause d.core (processSwapRequest world req) d :=
  swapFailed_does (tryProcessSwapRequest_does world hcause)

/-- A PSET for the approved swap is verified right after it has arrived. -/
theorem tryProcessBlindedSwapClient_does (world : World) {cause : Message}
    {msg : BlindedSwapClientNotification} {d : Data}
    (h : d.log.getLast? = some (.received (.serverNotification (.blindedSwapClient msg)))) :
    DoesFrom world cause d.core (tryProcessBlindedSwapClient world msg) d := by
  refine Leads.get (Leads.okOr .refl fun swap hswap => Leads.ensure .refl fun horder => ?_)
  refine Leads.ensure .refl fun _ => Leads.bindKeeps (keeps_getWallet _) .refl fun _ => ?_
  unfold verifyAndSignPset request sendRequest emit
  simp only [bind_assoc]
  refine Leads.get (Leads.modify ?_)
  cases hres : (world.session d.log accountIdReg).verifyAndSignPset d.liquidAssetId swap.amounts
      msg.pset [] with
  | error e => exact .single (.refuseSwap hswap (eq_of_beq horder) h)
  | ok signedPset =>
      refine Leads.ofOk (Leads.get (Leads.modify ?_))
      refine Leads.keeps ((keeps_ofResult _).bind fun resp => keeps_okOr _ _) ?_
      exact .single (.signSwap hswap (eq_of_beq horder) h (Nat.le_succ _))

theorem processBlindedSwapClient_does (world : World) {cause : Message}
    {msg : BlindedSwapClientNotification} {d : Data}
    (h : d.log.getLast? = some (.received (.serverNotification (.blindedSwapClient msg)))) :
    DoesFrom world cause d.core (processBlindedSwapClient world msg) d :=
  swapFailed_does (tryProcessBlindedSwapClient_does world h)

theorem does_processSwapDone {world : World} {cause : Message} (msg : SwapDoneNotification) :
    Does world cause (processSwapDone msg) := by
  intro d
  refine Leads.get ?_
  split
  · refine Leads.modify (Leads.commit (.single .swapDone) ?_)
    split
    · exact .refl
    · exact (records_uiSend rfl).does _
    · exact (records_uiSend rfl).does _
  · exact .refl

/-! ## Peg-outs and payments -/

theorem keeps_pegOutSendAmount (world : World) (req : PegOutAmount) :
    Keeps (pegOutSendAmount world req) := by
  refine Keeps.bind (fun _ => rfl) fun data => Keeps.bind (keeps_ofResult _) fun utxos => ?_
  dsimp only
  split
  · exact Keeps.bind (keeps_ofResult _) fun _ _ => rfl
  · exact fun _ => rfl

theorem records_processPegoutAmount (world : World) (req : PegOutAmount) :
    Records (processPegoutAmount world req) := by
  refine Follows.bind (Follows.attempt fun d => ?_) fun _ => records_uiSend rfl
  refine Leads.get (Leads.ensure .refl fun _ => Leads.bindKeeps (keeps_getWallet _) .refl ?_)
  intro _
  refine Leads.bindKeeps (keeps_pegOutSendAmount world req) .refl fun amount => ?_
  exact Leads.okOr .refl fun status _ => Leads.ofResult .refl fun amounts _ => .refl

theorem records_processPegoutRequest (world : World) (req : PegOutRequest) :
    Records (processPegoutRequest world req) := by
  refine Follows.bind (Follows.attempt fun d => ?_) fun res => ?_
  · refine Leads.get (Leads.ensure .refl fun _ => Leads.okOr .refl fun status _ => ?_)
    refine Leads.ensure .refl fun _ => Leads.okOr .refl fun amounts _ => Leads.modify ?_
    refine Leads.ofPanic .refl fun deviceKey _ => Leads.commit .refl ?_
    refine Leads.call (records_request world rfl _) .refl fun resp d' _ hreach => ?_
    refine Leads.bindKeeps (keeps_getWallet _) hreach fun _ => Leads.get ?_
    exact Leads.ofResult hreach fun _ _ => hreach
  · match res with
    | .ok orderId => exact records_modify fun _ => rfl
    | .error e => exact records_uiSend rfl

theorem does_processCreateTx (world : World) {cause : Message} (req : CreateTx) :
    Does world cause (processCreateTx world req) := by
  have hcreate : Records (tryProcessCreateTx world req) := fun d =>
    Leads.bindKeeps (keeps_getWallet _) .refl fun _ => Leads.get
      (Leads.ofResult .refl fun unsignedTx _ => Leads.ofResult .refl fun info _ => .refl)
  refine Follows.bind hcreate.does.attempt fun res => ?_
  match res with
  | .ok (unsignedTx, info) =>
      exact fun d => Leads.modify (Leads.commit (.single .createTx) ((records_uiSend rfl).does _))
  | .error e => exact (records_uiSend rfl).does

/-- The payment is taken, and put back if the session does not send it. -/
theorem does_tryProcessSendTx (world : World) {cause : Message} (account : AccountId) :
    Does world cause (tryProcessSendTx world account) := by
  intro d
  refine Leads.get (Leads.okOr .refl fun tx htx => Leads.modify ?_)
  refine Leads.bindKeeps (keeps_getWallet _) (.single .dropTx) fun _ => Leads.modify ?_
  cases hres : world.sendTx d.log account tx with
  | ok txid => exact .single (.sendTx htx)
  | error e =>
      have hkept : Act world cause d.core
          { d.core with
            unsignedTx := some tx
            log := d.log ++ [.sentTx account tx (.error e)] } := .sendTx htx
      exact Leads.modify (.single hkept)

theorem does_processSendTx (world : World) {cause : Message} (account : AccountId) :
    Does world cause (processSendTx world account) := by
  refine Follows.bind (does_tryProcessSendTx world account).attempt fun res => ?_
  match res with
  | .ok txid => exact (records_modify fun _ => rfl).does
  | .error e => exact (records_uiSend rfl).does

/-! ## Connections -/

theorem does_restartWebsocket {world : World} {cause : Message} :
    Does world cause restartWebsocket :=
  fun _ => Leads.modify (Leads.commit (.single .hangUp) ((records_emit rfl).does _))

theorem does_checkConnections (world : World) {cause : Message} :
    Does world cause (checkConnections world) := by
  refine Follows.bind (fun d => Leads.get ?_) fun _ => (records_modify fun d => ?_).does
  · split
    · exact (records_emit rfl).does d
    · refine Follows.bind (records_request world rfl _).does.attempt (fun res => ?_) d
      match res with
      | .ok _ => exact (records_pure _).does
      | .error _ => exact does_restartWebsocket
  · split <;> rfl

theorem does_processPushMessage (world : World) {cause : Message} (msg : Option FcmMessage)
    (pendingSign : Option Nat) : Does world cause (processPushMessage world msg pendingSign) := by
  match msg with
  | some (.sign orderId) =>
      refine Follows.bind (records_modify fun _ => rfl).does fun _ => ?_
      exact Follows.bind (does_checkConnections world) fun _ => does_processPendingRequests world
  | some .other => exact (records_pure _).does
  | none => exact (records_pure _).does

/-- What happens before the orders are asked for: the device key is checked. -/
inductive Greet : Core → Core → Prop where
  | note {c c'} : Note c c' → Greet c c'
  | dropKey {c} : Greet c { c with deviceKey := none }
  | newKey {c deviceKey} : c.deviceKey = none →
      Greet c { c with deviceKey := some deviceKey, registered := fun _ => 0 }

abbrev Greets {α : Type} (p : Handler α) : Prop := Follows Data.core Greet p

theorem Records.greets {α : Type} {p : Handler α} (h : Records p) : Greets p :=
  Follows.mono (fun _ _ => .note) h

/-- Only notes have been recorded in this turn. -/
def QuietTurn (c : Core) : Prop := ∀ e ∈ turn c.log, Event.isNote e = true

theorem Greet.quietTurn {c c' : Core} (h : Greet c c') (hquiet : QuietTurn c) : QuietTurn c' := by
  cases h with
  | note hnote =>
      obtain ⟨hevent, _⟩ := hnote
      intro e he
      rw [Core.tell, turn_append (List.forall_mem_singleton.mpr (message?_of_isNote hevent))] at he
      rcases List.mem_append.mp he with hmem | hmem
      · exact hquiet e hmem
      · rw [List.mem_singleton.mp hmem]
        exact hevent
  | dropKey => exact hquiet
  | newKey _ => exact hquiet

/-- In a quiet turn they are acts, and the turn stays quiet. -/
theorem greets_acts (world : World) {c c' : Core} (h : ReflTransGen Greet c c')
    (hquiet : QuietTurn c) : Acts world .serverConnected c c' ∧ QuietTurn c' := by
  induction h with
  | refl => exact ⟨.refl, hquiet⟩
  | tail _ hlast ih =>
      obtain ⟨hacts, hturn⟩ := ih
      refine ⟨hacts.tail ?_, hlast.quietTurn hturn⟩
      cases hlast with
      | note hnote => exact .note hnote
      | dropKey => exact .dropKey rfl hturn
      | newKey hnone => exact .newKey rfl hturn hnone

theorem Greets.bind_runs {α β : Type} {world : World} {p : Handler α} {f : α → Handler β}
    {d : Data} (hp : Greets p) (hquiet : QuietTurn d.core)
    (hf : ∀ a d', QuietTurn d'.core → RunsFrom world .serverConnected d'.core (f a) d') :
    RunsFrom world .serverConnected d.core (p >>= f) d := by
  refine Leads.bind (Acts.plays (greets_acts world (hp d) hquiet).1) fun a d' hexec hreach => ?_
  have hp' := hp d
  unfold Leads at hp'
  rw [hexec] at hp'
  exact Leads.commit hreach (hf a d' (greets_acts world hp' hquiet).2)

theorem greets_verifyDevice (world : World) (deviceKey : String) :
    Greets (verifyDevice world deviceKey) := by
  intro d
  refine Leads.call (records_request world rfl _).greets .refl fun registered d' _ hreach => ?_
  split
  · exact hreach.tail .dropKey
  · exact hreach

theorem greets_registerDevice (world : World) : Greets (registerDevice world) := by
  intro d
  refine Leads.get ?_
  split
  · next hnone =>
      refine Leads.call (records_request world rfl _).greets .refl fun key d' hexec hreach => ?_
      have hkey : d'.deviceKey = d.deviceKey :=
        (fixes_request (fun _ _ _ => rfl) world _ _).of_exec hexec
      exact hreach.tail (.newKey (hkey.trans (Option.isNone_iff_eq_none.mp hnone)))
  · exact .refl

theorem greets_checkDeviceKey (world : World) : Greets (checkDeviceKey world) := by
  intro d
  refine Leads.get ?_
  split
  · exact .single .dropKey
  · refine Leads.call (Follows.forM (greets_verifyDevice world) _) .refl fun _ d' _ hreach => ?_
    exact Leads.commit hreach (greets_registerDevice world d')

/-- The orders of a login response have been listed by it. -/
theorem lists_of_login {log : List Event} {sessionId : Option SessionId} {resp : LoginResponse}
    (h : Event.request (.login sessionId) (.ok (.login resp)) ∈ log)
    {order : OrderCreatedNotification} (horder : order ∈ resp.orders) : Lists log order := by
  intro hown htwo
  refine ⟨_, h, List.any_eq_true.mpr ⟨order, horder, ?_⟩⟩
  show (order.orderId == order.orderId && order.own.isSome && order.twoStep) = true
  rw [hown, htwo, beq_self_eq_true]
  rfl

theorem runs_loginOrders (world : World) {cause : Message} :
    Runs world cause (loginOrders world) := by
  intro d
  refine Leads.get ?_
  unfold request sendRequest
  simp only [bind_assoc]
  refine Leads.get (Leads.modify ?_)
  cases hres : world.response d.log (.login d.sessionId) with
  | error e => exact .single (.act (.note (.note rfl (Nat.le_succ _))))
  | ok resp =>
      have hnoted : Plays world cause d.core
          (d.requested (.login d.sessionId) (.ok resp)).core :=
        .single (.act (.note (.note rfl (Nat.le_succ _))))
      refine Leads.ofOk (Leads.okOr hnoted fun login hlogin => ?_)
      have hresp : resp = .login login := by
        cases resp <;> cases hlogin
        rfl
      subst hresp
      refine Leads.commit hnoted ?_
      refine Leads.bind (addOrders_runs world false fun order horder => ?_)
        fun _ d' _ hreach => ?_
      · exact lists_of_login (List.mem_append_right _ (List.mem_singleton_self _)) horder
      · exact Leads.call runs_syncOrderList hreach fun _ _ _ hreach => hreach

theorem tryProcessWsConnected_runs (world : World) {d : Data} (h : QuietTurn d.core) :
    RunsFrom world .serverConnected d.core (tryProcessWsConnected world) d := by
  refine Greets.bind_runs (records_request world rfl _).greets h fun _ d h => ?_
  refine Greets.bind_runs (records_updateAssets world).greets h fun _ d h => ?_
  refine Greets.bind_runs (records_updateAmpAssets world).greets h fun _ d h => ?_
  refine Greets.bind_runs (records_updateServerStatus world).greets h fun _ d h => ?_
  refine Greets.bind_runs (greets_checkDeviceKey world) h fun _ d _ => ?_
  exact runs_loginOrders world d

/-- What follows when the server has answered everything. -/
theorem connected_does (world : World) (d : Data) :
    DoesFrom world .serverConnected d.core (do
      modify fun data => { data with connected := true }
      processPendingRequests world
      updatePushToken
      updateAddressRegistrations world
      uiSend .serverConnected) d := by
  refine Leads.modify (Leads.commit (.single (.connect rfl)) ?_)
  refine Follows.bind (does_processPendingRequests world) (fun _ => ?_) _
  refine Follows.bind does_updatePushToken fun _ => ?_
  refine Follows.bind (does_updateAddressRegistrations world) fun _ => ?_
  exact (records_uiSend rfl).does

theorem processWsConnected_runs (world : World) {d : Data} (h : QuietTurn d.core) :
    RunsFrom world .serverConnected d.core (processWsConnected world) d := by
  refine Leads.bind (Leads.attempt (tryProcessWsConnected_runs world h))
    fun res d' _ hreach => Leads.commit hreach ?_
  match res with
  | .error _ => exact does_restartWebsocket.runs d'
  | .ok _ => exact (connected_does world d').runs

/-- Every pending callback is told of the error. -/
theorem exec_runCallbacks (e : Error) (lines : List (String × AsyncRequest)) (d : Data) :
    exec (lines.forM fun line => runCallback (some line.1) (.error e) line.2) d =
      (.ok (), { d with
        log := d.log ++ lines.flatMap fun line => callEvents (some line.1) line.2 (.error e) }) := by
  induction lines generalizing d with
  | nil =>
      rw [List.flatMap_nil, List.append_nil]
      rfl
  | cons line rest ih =>
      show exec (runCallback (some line.1) (.error e) line.2 >>= fun _ => rest.forM _) d = _
      rw [exec_bind, exec_runCallback_error]
      show exec (rest.forM _) _ = _
      rw [ih, List.flatMap_cons, List.append_assoc]

theorem processWsDisconnected_runs {world : World} (d : Data) :
    RunsFrom world .serverDisconnected d.core processWsDisconnected d := by
  have hclosed : Plays world .serverDisconnected d.core
      { d.core with connected := false, ordersLast := ∅ } := by
    refine .tail (.single (.act .hangUp)) (.list (.change fun orderId order horder => ?_))
    rw [Std.TreeMap.getElem?_emptyc] at horder
    cases horder
  refine Leads.modify (Leads.commit hclosed ?_)
  refine Leads.call runs_syncOrderList .refl fun _ d' _ hreach => ?_
  refine Leads.call (records_uiSend rfl).runs hreach fun _ d' _ hreach => ?_
  refine Leads.get (Leads.modify ?_)
  have hdrain : Plays world .serverDisconnected d'.core
      { d'.core with
        asyncRequests := ∅
        log := d'.log ++ d'.asyncRequests.toList.flatMap fun line =>
          callEvents (some line.1) line.2 (.error serverDisconnected) } :=
    .single (.act (.drain rfl))
  refine Leads.bindEnds ?_ ?_
  · intro e d'' hexec
    rw [exec_runCallbacks] at hexec
    cases hexec
  · intro _ d'' hexec
    rw [exec_runCallbacks] at hexec
    cases hexec
    refine Leads.get (Leads.commit (hreach.trans hdrain) ?_)
    split
    · exact (records_emit rfl).runs _
    · exact .refl

/-! ## Sessions -/

/-- The registration a login goes on with is the worker's. -/
theorem registerWallet_ok {world : World} {wallet : LoginWallet} {regInfo : RegInfo}
    {d d' : Data} (h : exec (registerWallet world wallet) d = (.ok regInfo, d')) :
    d'.regInfo = some regInfo := by
  unfold registerWallet at h
  rw [exec_get_bind] at h
  split at h
  · next hsome =>
      cases h
      exact hsome
  · cases hreg : world.register d.log wallet with
    | error e =>
        rw [hreg] at h
        cases h
    | ok info =>
        rw [hreg] at h
        cases h
        rfl

theorem registerWallet_does (world : World) {cause : Message} {req : Login}
    (hcause : cause = .ui (.login req)) (wallet : LoginWallet) :
    Does world cause (registerWallet world wallet) := by
  intro d
  refine Leads.get ?_
  split
  · exact .refl
  · next hnone => exact Leads.ofResult .refl fun info _ => .single (.register hcause hnone)

theorem tryProcessLoginRequest_does (world : World) {cause : Message} {req : Login} {d : Data}
    (hcause : cause = .ui (.login req)) :
    DoesFrom world cause d.core (tryProcessLoginRequest world req) d := by
  have hrest : Does world cause (do
      let data ← get
      if data.pendingSubmits.isEmpty && data.pendingLinks.isEmpty then
        sendWalletLoaded
      emit (.socket .connect)) := by
    intro d
    refine Leads.get ?_
    split
    · exact Follows.bind records_sendWalletLoaded.does (fun _ => (records_emit rfl).does) d
    · exact (records_emit rfl).does d
  refine Leads.modify (Leads.commit (.single (.login hcause)) ?_)
  refine Leads.ofPanic .refl fun wallet hwallet => ?_
  have hwallet := expect_ok hwallet
  refine Leads.call (registerWallet_does world hcause wallet) .refl fun regInfo d' hexec hreach => ?_
  have hreg := registerWallet_ok hexec
  refine Leads.ofResult hreach fun _ _ => Leads.get (Leads.ofResult hreach fun walletAmpRes _ => ?_)
  refine Leads.ofStop hreach fun xpubs hxpubs => Leads.modify ?_
  refine Leads.commit (hreach.tail (.openWallet hcause hwallet hreg hxpubs)) ?_
  match walletAmpRes with
  | .ok () =>
      exact Leads.modify
        (Leads.commit (.single (.openWallet hcause hwallet hreg hxpubs)) (hrest _))
  | .error e => exact Follows.bind (records_showMessage _).does (fun _ => hrest) _

theorem processLoginRequest_does (world : World) {cause : Message} {req : Login} {d : Data}
    (hcause : cause = .ui (.login req)) :
    DoesFrom world cause d.core (processLoginRequest world req) d :=
  Leads.bind (Leads.attempt (tryProcessLoginRequest_does world hcause))
    fun _ d' _ hreach => Leads.commit hreach ((records_uiSend rfl).does d')

theorem processLogoutRequest_does {world : World} {cause : Message} (hcause : cause = .ui .logout)
    {d : Data} (hturn : turn d.log = []) : DoesFrom world cause d.core processLogoutRequest d := by
  refine Leads.modify (Leads.commit (.single (.logout hcause (noReview_of_turn hturn))) ?_)
  exact Follows.bind (records_uiSend rfl).does (fun _ => does_restartWebsocket) _

theorem does_processChangeNetwork (world : World) {cause : Message} :
    Does world cause (processChangeNetwork world) := by
  refine Follows.bind (Follows.attempt fun d => ?_) fun res => ?_
  · refine Leads.get (Leads.okOr .refl fun xpubs hxpubs => Leads.modify ?_)
    exact Leads.ofResult (.single .closeWallet) fun _ _ => .single (.reopenWallet hxpubs)
  · match res with
    | .ok _ => exact (records_pure _).does
    | .error e => exact (records_showMessage _).does

theorem does_processAppState (world : World) {cause : Message} (active : Bool) :
    Does world cause (processAppState world active) := by
  intro d
  refine Leads.modify ?_
  split
  · exact Leads.commit .refl
      (Follows.bind (does_checkConnections world) (fun _ => records_updateAmpConnection.does) _)
  · exact Leads.commit .refl (records_updateAmpConnection.does _)

/-! ## Wallet notifications -/

theorem records_noteOrderTransaction (item : TransItem) : Records (noteOrderTransaction item) := by
  intro d
  refine Leads.get ?_
  split
  · exact .refl
  · split
    · exact .refl
    · exact .refl

/-- The messages about a payment or a swap that is done are notes. -/
theorem isNote_noteSent {updated : Std.TreeMap Txid TransItem} {msgs : List FromMsg}
    {d d' : Data} (h : exec (noteSentTransaction updated) d = (.ok msgs, d')) :
    ∀ msg ∈ msgs, (Event.toUi msg).isNote = true := by
  unfold noteSentTransaction at h
  rw [exec_get_bind] at h
  split at h
  · cases h
    exact fun _ hmem => nomatch hmem
  · cases h
    exact List.forall_mem_singleton.mpr rfl

theorem isNote_noteSwap {updated : Std.TreeMap Txid TransItem} {msgs : List FromMsg}
    {d d' : Data} (h : exec (noteSwapTransaction updated) d = (.ok msgs, d')) :
    ∀ msg ∈ msgs, (Event.toUi msg).isNote = true := by
  unfold noteSwapTransaction at h
  rw [exec_get_bind] at h
  split at h
  · cases h
    exact fun _ hmem => nomatch hmem
  · cases h
    exact List.forall_mem_singleton.mpr rfl

theorem records_noteSentTransaction (updated : Std.TreeMap Txid TransItem) :
    Records (noteSentTransaction updated) := by
  intro d
  refine Leads.get ?_
  split
  · exact .refl
  · exact .refl

theorem records_noteSwapTransaction (updated : Std.TreeMap Txid TransItem) :
    Records (noteSwapTransaction updated) := by
  intro d
  refine Leads.get ?_
  split
  · exact .refl
  · exact .refl

theorem records_addTransactionAssets (world : World) (items : List TransItem) :
    Records (addTransactionAssets world items) := by
  intro d
  refine Leads.get (Follows.forM (fun asset => ?_) _ d)
  unfold addTransactionAsset
  split
  · exact records_registerAsset _ _ _ _
  · exact records_registerAsset _ _ _ _

/-- The messages about transactions are notes. -/
theorem isNote_transactionMsgs {updated : Std.TreeMap Txid TransItem}
    {removed : List Txid} {msg : FromMsg} (h : msg ∈ transactionMsgs updated removed) :
    (Event.toUi msg).isNote = true := by
  unfold transactionMsgs at h
  rcases List.mem_append.mp h with hmem | hmem
  · split at hmem
    · cases hmem
    · rw [List.mem_singleton.mp hmem]
      rfl
  · split at hmem
    · cases hmem
    · rw [List.mem_singleton.mp hmem]
      rfl

theorem records_sendNewTransactions (world : World) (items : List Transaction)
    (accountId : AccountId) (topBlock : Nat) :
    Records (sendNewTransactions world items accountId topBlock) := by
  intro d
  refine Leads.get ?_
  refine Leads.call (Follows.forM records_noteOrderTransaction _) .refl fun _ d1 _ hreach => ?_
  refine Leads.call (records_noteSentTransaction _) hreach fun sent d2 hsent hreach => ?_
  refine Leads.call (records_noteSwapTransaction _) hreach fun swapped d3 hswapped hreach => ?_
  refine Leads.call (records_addTransactionAssets world _) hreach fun _ d4 _ hreach => ?_
  refine Leads.modify (Leads.commit hreach ?_)
  have hnotes : ∀ {updated removed}, ∀ msg ∈ transactionMsgs updated removed ++ sent ++ swapped,
      (Event.toUi msg).isNote = true := by
    intro updated removed msg hmem
    rcases List.mem_append.mp hmem with hmem | hmem
    · rcases List.mem_append.mp hmem with hmem | hmem
      · exact isNote_transactionMsgs hmem
      · exact isNote_noteSent hsent msg hmem
    · exact isNote_noteSwap hswapped msg hmem
  refine Leads.bind (Leads.forM (P := fun _ => True) (fun _ _ _ _ => trivial) ?_ trivial) ?_
  · exact fun msg hmem d _ => records_uiSend (hnotes msg hmem) d
  · exact fun _ d' _ hreach => Leads.commit hreach (records_processPendingSucceed d')

theorem does_resyncWallet (world : World) {cause : Message} (accountId : AccountId) :
    Does world cause (resyncWallet world accountId) := by
  intro d
  refine Leads.get ?_
  split
  · exact .refl
  · split
    · exact Follows.bind (does_updateUsedAddresses world accountId _)
        (fun _ => (records_sendNewTransactions world _ accountId _).does) d
    · exact .refl

theorem does_syncComplete (world : World) {cause : Message} (accountId : AccountId) :
    Does world cause (syncComplete world accountId) := by
  intro d
  refine Leads.get ?_
  split
  · refine Leads.modify (Leads.commit .refl ?_)
    refine Follows.bind records_sendWalletLoaded.does (fun _ => ?_) _
    refine Follows.bind (does_processPendingRequests world) fun _ => ?_
    exact Follows.bind (records_uiSend rfl).does fun _ => does_resyncWallet world accountId
  · exact does_resyncWallet world accountId d

theorem does_walletConnected (world : World) {cause : Message} (accountId : AccountId) :
    Does world cause (walletConnected world accountId) := by
  intro d
  refine Leads.get ?_
  split
  · split
    · refine Leads.modify (Leads.commit .refl ?_)
      exact Follows.bind (does_processPendingRequests world)
        (fun _ => does_resyncWallet world accountId) _
    · exact does_resyncWallet world accountId d
  · exact (records_showMessage _).does d

theorem does_processBlock (world : World) {cause : Message} (accountId : AccountId)
    (height : Option Nat) : Does world cause (processBlock world accountId height) := by
  intro d
  refine Leads.get (Leads.ofPanic .refl fun height _ => Leads.modify ?_)
  split
  · exact Leads.commit .refl (does_resyncWallet world accountId _)
  · exact .refl

theorem does_processWalletEvent (world : World) {cause : Message} (accountId : AccountId)
    (event : WalletEvent) : Does world cause (processWalletEvent world accountId event) := by
  cases event with
  | transaction => exact does_resyncWallet world accountId
  | block height => exact does_processBlock world accountId height
  | synced => exact does_syncComplete world accountId
  | syncFailed => exact (records_showMessage _).does
  | other => exact (records_pure _).does

theorem does_processWalletNetwork (world : World) {cause : Message} (accountId : AccountId)
    (network : Option ConnectionState) :
    Does world cause (processWalletNetwork world accountId network) := by
  intro d
  match network with
  | some .connected => exact does_walletConnected world accountId d
  | some .disconnected =>
      show DoesFrom world cause d.core (if accountId = accountIdAmp then _ else _) d
      split
      · exact .refl
      · exact .refl
  | none => exact .refl

theorem does_processWalletNotif (world : World) {cause : Message} (accountId : AccountId)
    (notif : WalletNotif) : Does world cause (processWalletNotif world accountId notif) := by
  intro d
  refine Leads.get ?_
  split
  · exact Follows.bind (does_processWalletEvent world accountId _)
      (fun _ => does_processWalletNetwork world accountId _) d
  · exact .refl

/-! ## The loop -/

/-- The messages whose handlers change the worker's order list. -/
def Message.changesList : Message → Bool
  | .ui (.editOrder _) => true
  | .serverConnected => true
  | .serverDisconnected => true
  | .serverNotification (.orderCreated _) => true
  | .serverNotification (.orderRemoved _) => true
  | .subscribe _ => true
  | .unsubscribe _ => true
  | _ => false

theorem processUi_does (world : World) {msg : ToMsg} {d : Data}
    (h : Message.changesList (.ui msg) = false) (hturn : turn d.log = []) :
    DoesFrom world (.ui msg) d.core (processUi world msg) d := by
  cases msg with
  | login req => exact processLoginRequest_does world rfl
  | logout => exact processLogoutRequest_does rfl hturn
  | changeNetwork => exact does_processChangeNetwork world d
  | appState active => exact does_processAppState world active d
  | pushMessage msg => exact does_processPushMessage world msg none d
  | pegOutAmount req => exact (records_processPegoutAmount world req).does d
  | pegOutRequest req => exact (records_processPegoutRequest world req).does d
  | swapRequest req => exact processSwapRequest_does world rfl
  | createTx req => exact does_processCreateTx world req d
  | sendTx account => exact does_processSendTx world account d
  | updatePushToken token => exact does_processUpdatePushToken token d
  | submitOrder req => exact Leads.modify (Leads.commit .refl (does_processPendingRequests world _))
  | linkOrder orderId =>
      exact Leads.modify (Leads.commit .refl (does_processPendingRequests world _))
  | submitDecision req => exact processSubmitDecision_does world rfl hturn
  | editOrder req => cases h
  | cancelOrder orderId => exact does_processCancelOrder orderId d
  | portfolioPrices => exact does_processPortfolioPrices d
  | gaidStatus gaid assetId => exact does_processGaidStatusReq gaid assetId d
  | other => exact .refl

/-- A message that leaves the order list alone sets off acts only. -/
theorem processMessage_does (world : World) {msg : Message} (h : msg.changesList = false)
    (d : Data) : DoesFrom world msg (d.emit (.received msg)).core (processMessage world msg)
      (d.emit (.received msg)) := by
  have hturn : turn (d.emit (.received msg)).log = [] := turn_received d.log msg
  cases msg with
  | ui msg => exact processUi_does world h hturn
  | serverConnected => cases h
  | serverDisconnected => cases h
  | serverNotification notif =>
      cases notif with
      | sign msg => exact processSign_does world (.inl rfl)
      | complete msg => exact processComplete_does rfl rfl
      | orderCreated order => cases h
      | orderRemoved orderId => cases h
      | blindedSwapClient msg => exact processBlindedSwapClient_does world List.getLast?_concat
      | swapDone msg => exact does_processSwapDone msg _
      | serverStatus status => exact (records_processServerStatus status).does _
      | other => exact .refl
  | asyncResp requestId res => exact processAsyncResp_does rfl _
  | notif accountId notif => exact does_processWalletNotif world accountId notif _
  | subscribe orders => cases h
  | unsubscribe asset => cases h
  | backgroundMessage msg sender => exact does_processPushMessage world msg (some sender) _
  | idleTimer checkDue =>
      cases checkDue with
      | false => exact .refl
      | true => exact does_checkConnections world _
  | other => exact .refl

/-- An order the server lists in a message. -/
theorem lists_of_received {log : List Event} {msg : Message} (h : Event.received msg ∈ log)
    {order : OrderCreatedNotification}
    (horder : msg = .serverNotification (.orderCreated order) ∨
      ∃ orders, msg = .subscribe orders ∧ order ∈ orders) : Lists log order := by
  intro hown htwo
  have hself : ownTwoStep order.orderId order = true := by
    unfold ownTwoStep
    rw [hown, htwo, beq_self_eq_true]
    rfl
  refine ⟨_, h, ?_⟩
  rcases horder with rfl | ⟨orders, rfl, hmem⟩
  · exact hself
  · exact List.any_eq_true.mpr ⟨order, hmem, hself⟩

/-- What the worker does with the message it has just received. -/
theorem processMessage_runs (world : World) (msg : Message) (d : Data) :
    RunsFrom world msg (d.emit (.received msg)).core (processMessage world msg)
      (d.emit (.received msg)) := by
  have hmem : Event.received msg ∈ (d.emit (.received msg)).log :=
    List.mem_append_right _ (List.mem_singleton_self _)
  cases hlist : msg.changesList with
  | false => exact (processMessage_does world hlist d).runs
  | true =>
      cases msg with
      | ui msg =>
          cases msg with
          | editOrder req => exact processEditOrder_runs world hmem
          | _ => cases hlist
      | serverConnected =>
          refine processWsConnected_runs world fun e he => ?_
          have he : e ∈ turn (d.log ++ [.received .serverConnected]) := he
          rw [turn_received] at he
          cases he
      | serverDisconnected => exact processWsDisconnected_runs _
      | serverNotification notif =>
          cases notif with
          | orderCreated order =>
              exact processOrderCreated_runs world (lists_of_received hmem (.inl rfl))
          | orderRemoved orderId => exact runs_processOrderRemoved orderId _
          | _ => cases hlist
      | subscribe orders =>
          exact processSubscribeResponse_runs world fun order horder =>
            lists_of_received hmem (.inr ⟨orders, rfl, horder⟩)
      | unsubscribe asset => exact runs_processUnsubscribeResponse asset _
      | _ => cases hlist

theorem finish_data (p : Handler Unit) (d : Data) : (finish p d).data = (exec p d).2 := by
  unfold finish
  rcases exec p d with ⟨(_ | _) | _, d'⟩ <;> rfl

/-- **SIMULATION**: a message is received, and what follows are acts and changes
    of the order list. -/
theorem step_plays (world : World) (s : System) (msg : Message) (h : s.stopped = false) :
    Plays world msg (s.data.emit (.received msg)).core (step world s msg).data.core := by
  unfold step
  rw [h]
  show Plays world msg _ (finish _ _).data.core
  rw [finish_data]
  exact processMessage_runs world msg s.data

/-- A worker that has stopped takes no message. -/
theorem step_stopped (world : World) {s : System} (msg : Message) (h : s.stopped = true) :
    step world s msg = s := by
  unfold step
  rw [if_pos h]

/-- Loading the assets only leaves notes. -/
theorem loadAssets_notes (assets : List Asset) (d : Data) :
    Notes d.core (finish (loadAssets assets) d).data.core := by
  rw [finish_data]
  exact Leads.modify (Leads.commit .refl (records_registerAssets assets false _))

theorem starts_notes {s : System} (h : Starts s) : ∃ liquidAssetId disableDeviceKey settings,
    Notes (initialData liquidAssetId disableDeviceKey settings).core s.data.core := by
  obtain ⟨liquidAssetId, disableDeviceKey, settings, assets⟩ := h
  exact ⟨liquidAssetId, disableDeviceKey, settings, loadAssets_notes assets _⟩

/-- What holds of the core of a new worker and survives notes holds at the start. -/
theorem starts_invariant {I : Core → Prop}
    (h0 : ∀ liquidAssetId disableDeviceKey settings,
      I (initialData liquidAssetId disableDeviceKey settings).core)
    (hnote : ∀ c c', Note c c' → I c → I c') {s : System} (h : Starts s) : I s.data.core := by
  obtain ⟨liquidAssetId, disableDeviceKey, settings, hnotes⟩ := starts_notes h
  generalize s.data.core = c at hnotes
  induction hnotes with
  | refl => exact h0 liquidAssetId disableDeviceKey settings
  | tail _ hlast ih => exact hnote _ _ hlast ih

/-- **RUN RULE**: what holds of the core of a new worker, and survives every
    message, holds of the core of every reachable worker.  While a message is
    handled it may be weakened to `K`, which every play has to keep. -/
theorem reaches_core {world : World} {ok : System → Message → Prop} {I : Core → Prop}
    {K : System → Message → Core → Prop}
    (h0 : ∀ liquidAssetId disableDeviceKey settings,
      I (initialData liquidAssetId disableDeviceKey settings).core)
    (hnote : ∀ c c', Note c c' → I c → I c')
    (hreceive : ∀ s msg, ok s msg → I s.data.core →
      K s msg (s.data.emit (.received msg)).core)
    (hplay : ∀ s msg, ok s msg → ∀ c c', Play world msg c c' → K s msg c → K s msg c')
    (hend : ∀ s msg, ok s msg → ∀ c, K s msg c → I c) {s : System} (h : Reaches world ok s) :
    I s.data.core := by
  refine Reach.invariant (I := fun s => I s.data.core) ?_ ?_ h
  · exact fun s hs => starts_invariant h0 hnote hs
  · intro s msg _ hI hok
    cases hs : s.stopped with
    | true =>
        show I (step world s msg).data.core
        rw [step_stopped world msg hs]
        exact hI
    | false =>
        have hplays := step_plays world s msg hs
        have hK : ∀ {c}, Plays world msg (s.data.emit (.received msg)).core c → K s msg c := by
          intro c hc
          induction hc with
          | refl => exact hreceive s msg hok hI
          | tail _ hlast ih => exact hplay s msg hok _ _ hlast ih
        exact hend s msg hok _ (hK hplays)

end Client
