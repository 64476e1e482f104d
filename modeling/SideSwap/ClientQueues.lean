import SideSwap.ClientActs

/-! # The queues and the AMP connection

    `process_pending_requests` works through four queues: the orders to be
    downloaded, the submissions, the links and the `Sign` messages.  While the
    AMP session is not connected it waits if `pending_amp_sign_requests` says
    that something in the queues needs it.  That test asks whether all orders
    of `pending_signs` are AMP orders where it should ask whether one of them
    is, so it also holds when there is no order at all.

    A download may put a `Sign` message into the queue and process the queues
    once more while they are being worked through, so the loops are shown to
    leave nothing behind in this order: the downloads leave `pending_signs`
    empty, and the loops after them empty one queue each and touch no other. -/

namespace Client

open Api Program Relation

/-- The queues of `process_pending_requests`. -/
structure Queues where
  signs : Std.TreeMap OrderId (Option Nat)
  submits : List SubmitOrder
  links : List Text
  requests : List SignNotification

def Data.queues (data : Data) : Queues where
  signs := data.pendingSigns
  submits := data.pendingSubmits
  links := data.pendingLinks
  requests := data.pendingSignRequests

/-- Nothing is left to be done. -/
def Queues.Drained (q : Queues) : Prop :=
  q.signs.isEmpty = true ∧ q.submits = [] ∧ q.links = [] ∧ q.requests = []

/-! ## What leaves the queues alone -/

/-- The handler does not touch the queues. -/
abbrev FixesQueues {α : Type} (p : Handler α) : Prop := Fixes Data.queues p

theorem fixesQueues_emit (e : Event) : FixesQueues (emit e) := by
  intro d
  exact .refl

theorem fixesQueues_request {α : Type} (world : World) (req : Request)
    (select : Response → Option α) : FixesQueues (request world req select) :=
  fixes_request (fun _ _ _ => rfl) world req select

theorem fixesQueues_tryAddAsset (world : World) (assetId : AssetId) :
    FixesQueues (tryAddAsset world assetId) := by
  intro d
  refine Leads.get ?_
  split
  · exact .refl
  · refine Leads.ofResult .refl fun assets _ => Leads.okOr .refl fun asset _ => ?_
    exact Leads.ofPanic .refl fun _ _ => Leads.modify .refl

theorem fixesQueues_addMissingSubmitData (orderId : OrderId) (details : Details) (twoStep : Bool) :
    FixesQueues (addMissingSubmitData orderId details twoStep) := by
  intro d
  refine Leads.get ?_
  split
  · refine Leads.okOr .refl fun asset _ => Leads.ofResult .refl fun _ _ => ?_
    exact .refl
  · exact .refl

theorem fixesQueues_processPendingSignPrompts : FixesQueues processPendingSignPrompts :=
  fixes_processPendingSignPrompts fun _ _ _ _ _ => rfl

theorem fixesQueues_tryProcessSign (world : World) (msg : SignNotification) :
    FixesQueues (tryProcessSign world msg) := by
  intro d
  refine Leads.get ?_
  split
  · exact .refl
  · refine Leads.modify (Leads.ofResult .refl fun _ _ => Leads.okOr .refl fun entry _ => ?_)
    refine Leads.ensure .refl fun _ => Leads.ofResult .refl fun _ _ => Leads.modify ?_
    split
    · exact Leads.call (fixes_trySign ⟨fun _ _ _ _ => rfl, fun _ _ => rfl⟩ world msg) .refl
        fun _ _ _ hreach => hreach
    · exact Leads.modify (Leads.commit .refl (fixesQueues_processPendingSignPrompts _))

theorem fixesQueues_tryProcessLinkOrder (world : World) (orderId : OrderId) :
    FixesQueues (tryProcessLinkOrder world orderId) :=
  Follows.bind (fixesQueues_request world _ _) fun _ _ => .refl

theorem fixesQueues_tryProcessSubmitOrder (world : World) (req : SubmitOrder) :
    FixesQueues (tryProcessSubmitOrder world req) := by
  intro d
  refine Leads.ofPanic .refl fun asset _ => Leads.get (Leads.ofResult .refl fun _ _ => ?_)
  refine Leads.bindKeeps (keeps_submitAmount world req) .refl fun bitcoinAmount => ?_
  refine Leads.call (fixesQueues_request world _ _) .refl fun resp d' _ hreach => ?_
  exact Leads.commit hreach (fixesQueues_tryProcessLinkOrder world _ d')

theorem fixesQueues_tryProcessDownloadedLink (world : World) (resp : LinkResponse) :
    FixesQueues (tryProcessDownloadedLink world resp) := by
  intro d
  refine Leads.call (fixesQueues_tryAddAsset world _) .refl fun _ d' _ hreach => ?_
  refine Leads.get (Leads.bindKeeps (keeps_getWallet _) hreach fun _ => ?_)
  by_cases hlow : (linkFunds world d' resp.details (accountOf d' resp.details.asset)).available <
      (linkFunds world d' resp.details (accountOf d' resp.details.asset)).required
  · rw [if_pos hlow]
    exact hreach
  · rw [if_neg hlow]
    exact Leads.ofResult hreach fun chaining _ => Leads.modify (Leads.modify hreach)

/-! ## What is done with one entry -/

/-- The handler returns, and leaves the queues as they were. -/
structure Serves (p : Handler Unit) : Prop where
  fixes : FixesQueues p
  returns : ∀ d, Returns (fun _ => True) p d

theorem Serves.run {p : Handler Unit} (h : Serves p) {q : Queues} {d : Data} (hq : d.queues = q) :
    Returns (fun d => d.queues = q) p d :=
  Returns.leaves (h.returns d) ((h.fixes.eq d).trans hq)

theorem serves_pure : Serves (pure ()) := ⟨fun _ => .refl, fun _ => trivial⟩

theorem serves_emit (e : Event) : Serves (emit e) := ⟨fixesQueues_emit e, fun _ => trivial⟩

/-- A handler that looks at the result of another one, and then tells of it. -/
theorem serves_attempt {α : Type} {p : Handler α} {f : Except String α → Handler Unit}
    (hp : FixesQueues p) (hf : ∀ res, Serves (f res)) : Serves (attempt p >>= f) where
  fixes := Follows.bind hp.attempt fun res => (hf res).fixes
  returns _ := Returns.bind (Returns.attempt (Q := fun _ => True) trivial)
    fun res d' _ => (hf res).returns d'

theorem serves_ofPanic {α : Type} {r : Except Panic α} {f : α → Handler Unit}
    (hf : ∀ a, Serves (f a)) : Serves (ofPanic r >>= f) where
  fixes d := Leads.ofPanic .refl fun a _ => (hf a).fixes d
  returns d := Returns.ofPanic fun a => (hf a).returns d

theorem serves_forM {α : Type} {f : α → Handler Unit} (hf : ∀ a, Serves (f a)) (xs : List α) :
    Serves (xs.forM f) where
  fixes := Follows.forM (fun a => (hf a).fixes) xs
  returns d := Returns.forM (fun a d' _ => (hf a).returns d') xs d trivial

theorem serves_processSignNow (world : World) (msg : SignNotification) :
    Serves (processSignNow world msg) := by
  refine serves_attempt (fixesQueues_tryProcessSign world msg) fun res => ?_
  cases res with
  | ok _ => exact serves_pure
  | error e => exact serves_emit _

theorem serves_processPendingSubmit (world : World) (req : SubmitOrder) :
    Serves (processPendingSubmit world req) := by
  refine serves_attempt (fixesQueues_tryProcessSubmitOrder world req) fun res => ?_
  cases res with
  | ok _ => exact serves_pure
  | error e => exact serves_emit _

theorem serves_processPendingLink (world : World) (orderId : Text) :
    Serves (processPendingLink world orderId) := by
  refine serves_ofPanic fun orderId => ?_
  refine serves_attempt (fixesQueues_tryProcessLinkOrder world orderId) fun res => ?_
  cases res with
  | ok _ => exact serves_pure
  | error e => exact serves_emit _

theorem serves_processDownloadedLink (world : World) (resp : LinkResponse) :
    Serves (processDownloadedLink world resp) := by
  refine serves_attempt (fixesQueues_tryProcessDownloadedLink world resp) fun res => ?_
  match res with
  | .ok (some msg) => exact serves_emit _
  | .ok none => exact serves_pure
  | .error e => exact serves_emit _

theorem returns_showSignPrompts (queue : List SignNotification) :
    ∀ d, Returns (fun _ => True) (showSignPrompts queue) d := by
  induction queue with
  | nil =>
      intro d
      exact trivial
  | cons msg rest ih =>
      intro d
      refine Returns.get ?_
      split
      · exact trivial
      · refine Returns.modify ?_
        split
        · exact ih _
        · exact Returns.modify (ih _)

theorem serves_processPendingSignPrompts : Serves processPendingSignPrompts where
  fixes := fixesQueues_processPendingSignPrompts
  returns d := Returns.get (returns_showSignPrompts _ d)

/-! ## The loops -/

/-- The loop over the submissions leaves none. -/
theorem returns_processPendingSubmits (world : World) {q : Queues} {d : Data} (h : d.queues = q) :
    Returns (fun d => d.queues = { q with submits := [] }) (processPendingSubmits world) d := by
  subst h
  exact Returns.get (Returns.modify
    ((serves_forM (serves_processPendingSubmit world) _).run rfl))

/-- The loop over the links leaves none. -/
theorem returns_processPendingLinks (world : World) {q : Queues} {d : Data} (h : d.queues = q) :
    Returns (fun d => d.queues = { q with links := [] }) (processPendingLinks world) d := by
  subst h
  exact Returns.get (Returns.modify
    ((serves_forM (serves_processPendingLink world) _).run rfl))

theorem serves_processDownloadedLinks (world : World) : Serves (processDownloadedLinks world) where
  fixes _ := Leads.get (Leads.modify
    (Leads.commit .refl ((serves_forM (serves_processDownloadedLink world) _).fixes _)))
  returns _ := Returns.get (Returns.modify
    ((serves_forM (serves_processDownloadedLink world) _).returns _))

/-- The loop over the `Sign` messages leaves none: each round takes the first
    one off, and signing adds none. -/
theorem returns_processSignRequests (world : World) (msgs : List SignNotification) :
    ∀ (q : Queues) (d : Data), d.queues = q → q.requests = msgs →
      Returns (fun d => d.queues = { q with requests := [] }) (processSignRequests world msgs) d := by
  induction msgs with
  | nil =>
      intro q d hq hmsgs
      show d.queues = { q with requests := [] }
      rw [hq, ← hmsgs]
  | cons msg rest ih =>
      intro q d hq hmsgs
      have hrest : Data.queues { d with pendingSignRequests := rest } = { q with requests := rest } := by
        rw [← hq]
        rfl
      refine Returns.modify (Returns.get ?_)
      split
      · exact ih { q with requests := rest } _ hrest rfl
      · refine Returns.bind ((serves_processSignNow world msg).run hrest) fun _ d' hq' => ?_
        exact ih { q with requests := rest } d' hq' rfl

theorem returns_processPendingSignRequests (world : World) {q : Queues} {d : Data}
    (h : d.queues = q) :
    Returns (fun d => d.queues = { q with requests := [] }) (processPendingSignRequests world) d := by
  refine Returns.get (returns_processSignRequests world _ q d h ?_)
  rw [← h]
  rfl

/-! ## The downloads -/

/-- The handler leaves `pending_signs` as it was, or empty. -/
abbrev ClearsSigns {α : Type} (p : Handler α) : Prop :=
  Follows Data.pendingSigns (fun _ signs => signs = ∅) p

theorem ClearsSigns.empty {α : Type} {p : Handler α} (h : ClearsSigns p) {d : Data}
    (hd : d.pendingSigns = ∅) : (exec p d).2.pendingSigns = ∅ := by
  rcases (h d).cases_tail with heq | ⟨signs, -, hlast⟩
  · exact heq.trans hd
  · exact hlast

theorem Fixes.clearsSigns {α : Type} {p : Handler α} (h : FixesQueues p) : ClearsSigns p := by
  intro d
  show ReflTransGen _ d.pendingSigns (exec p d).2.pendingSigns
  rw [show (exec p d).2.pendingSigns = d.pendingSigns from congrArg Queues.signs (h.eq d)]

/-- Taking a queue and working through it. -/
theorem clearsSigns_forM {α : Type} {f : α → Handler Unit} (hf : ∀ a, Serves (f a))
    (xs : List α) {d d' : Data} (h : d'.pendingSigns = d.pendingSigns) :
    Leads Data.pendingSigns (fun _ signs => signs = ∅) d.pendingSigns (xs.forM f) d' :=
  Leads.commit (by rw [h]) (Fixes.clearsSigns (serves_forM hf xs).fixes d')

theorem clearsSigns_processSignRequests (world : World) (msgs : List SignNotification) :
    ClearsSigns (processSignRequests world msgs) := by
  induction msgs with
  | nil =>
      intro d
      exact .refl
  | cons msg rest ih =>
      intro d
      refine Leads.modify (Leads.get ?_)
      split
      · exact Leads.commit .refl (ih _)
      · exact Leads.commit .refl (Follows.bind
          (Fixes.clearsSigns (serves_processSignNow world msg).fixes) (fun _ => ih) _)

theorem clearsSigns_downloadSigns {download : OrderId → Handler Unit}
    (h : ∀ id, ClearsSigns (download id)) (signs : List (OrderId × Option Nat)) :
    ClearsSigns (downloadSigns download signs) := by
  induction signs with
  | nil =>
      intro d
      exact .refl
  | cons sign rest ih =>
      intro d
      refine Leads.get ?_
      split
      · exact ih d
      · have hrest : ∀ senders : List Nat, ClearsSigns (do
            let more ← downloadSigns download rest
            pure (senders ++ more)) := fun _ => Follows.bind ih fun _ _ => .refl
        refine Leads.call (h _).attempt .refl fun res d' _ hreach => Leads.commit hreach ?_
        cases res with
        | ok _ => exact hrest _ d'
        | error e =>
            exact Follows.bind (Fixes.clearsSigns (fixesQueues_emit _)) (fun _ => hrest _) d'

theorem clearsSigns_processPendingRequestsWith (world : World) {download : OrderId → Handler Unit}
    (h : ∀ id, ClearsSigns (download id)) :
    ClearsSigns (processPendingRequestsWith world download) := by
  intro d
  refine Leads.get ?_
  split
  · exact .refl
  · split
    · exact .refl
    · refine Leads.modify (Leads.commit (.single rfl) ?_)
      refine Follows.bind (clearsSigns_downloadSigns h _) (fun senders => ?_) _
      refine Follows.bind (fun _ => Leads.get (Leads.modify
        (clearsSigns_forM (serves_processPendingSubmit world) _ rfl))) fun _ => ?_
      refine Follows.bind (fun _ => Leads.get (Leads.modify
        (clearsSigns_forM (serves_processPendingLink world) _ rfl))) fun _ => ?_
      refine Follows.bind (Fixes.clearsSigns (serves_processDownloadedLinks world).fixes) fun _ => ?_
      refine Follows.bind (Fixes.clearsSigns fixesQueues_processPendingSignPrompts) fun _ => ?_
      refine Follows.bind (fun _ => Leads.get (clearsSigns_processSignRequests world _ _))
        fun _ => ?_
      refine Follows.bind (fun _ => .refl) fun _ => ?_
      exact Follows.forM (fun sender => Fixes.clearsSigns (fixesQueues_emit _)) senders

/-- A download leaves `pending_signs` empty, although it may process the queues
    once more. -/
theorem clearsSigns_downloadSignRequest (world : World) (orderId : OrderId) :
    ClearsSigns (downloadSignRequestWith world (processPendingRequestsAgain world) orderId) := by
  refine Follows.bind (Fixes.clearsSigns (fixesQueues_request world _ _)) fun sign => ?_
  refine Follows.bind (Fixes.clearsSigns (fixesQueues_tryAddAsset world _)) fun _ => ?_
  refine Follows.bind (Fixes.clearsSigns (fixesQueues_addMissingSubmitData _ _ _)) fun _ => ?_
  unfold processSignWith
  split
  · exact Fixes.clearsSigns (serves_processSignNow world sign).fixes
  · refine Follows.bind (fun _ => .refl) fun _ => ?_
    exact clearsSigns_processPendingRequestsWith world fun _ _ => .refl

theorem returns_downloadSigns {download : OrderId → Handler Unit}
    (signs : List (OrderId × Option Nat)) :
    ∀ d, Returns (fun _ => True) (downloadSigns download signs) d := by
  induction signs with
  | nil =>
      intro d
      exact trivial
  | cons sign rest ih =>
      intro d
      refine Returns.get ?_
      split
      · exact ih d
      · -- a download that fails is told to the user, and the others go on
        refine Returns.bind (Returns.attempt (Q := fun _ => True) trivial) fun res d' _ => ?_
        cases res with
        | ok _ => exact Returns.bind (ih d') fun _ _ _ => trivial
        | error e => exact Returns.modify (Returns.bind (ih _) fun _ _ _ => trivial)

theorem returns_downloads (world : World) (signs : List (OrderId × Option Nat)) {d : Data}
    (hd : d.pendingSigns = ∅) :
    Returns (fun d => d.pendingSigns = ∅)
      (downloadSigns (downloadSignRequestWith world (processPendingRequestsAgain world)) signs) d :=
  Returns.leaves (returns_downloadSigns signs d)
    ((clearsSigns_downloadSigns (clearsSigns_downloadSignRequest world) signs).empty hd)

/-- **DRAINED**: past its tests, `process_pending_requests` leaves nothing in
    the queues. -/
theorem returns_processPendingRequests (world : World) {d : Data} (hconnected : d.connected = true)
    (hgate : (!d.ampConnected && pendingAmpSignRequests d && d.wallets.contains accountIdAmp)
      = false) :
    Returns (fun d => d.queues.Drained) (processPendingRequests world) d := by
  refine Returns.get ?_
  rw [hconnected, hgate]
  refine Returns.modify ?_
  -- loop by loop; each says what the queues are after it
  refine Returns.bind (returns_downloads world _ rfl) fun senders d1 hsigns => ?_
  refine Returns.bind (returns_processPendingSubmits world rfl) fun _ d2 h2 => ?_
  refine Returns.bind (returns_processPendingLinks world h2) fun _ d3 h3 => ?_
  refine Returns.bind ((serves_processDownloadedLinks world).run h3) fun _ d4 h4 => ?_
  refine Returns.bind (serves_processPendingSignPrompts.run h4) fun _ d5 h5 => ?_
  refine Returns.bind (returns_processPendingSignRequests world h5) fun _ d6 h6 => ?_
  refine Returns.modify (Returns.leaves ((serves_forM (fun _ => serves_emit _) senders).returns _) ?_)
  rw [(serves_forM (fun _ => serves_emit _) senders).fixes.eq]
  show d6.queues.Drained
  rw [h6]
  -- the downloads come first, and no later loop adds one
  refine ⟨?_, rfl, rfl, rfl⟩
  show d1.pendingSigns.isEmpty = true
  rw [hsigns]
  rfl

/-! ## The AMP connection -/

/-- A waiting `Sign` message is for an AMP asset. -/
def AmpRequest (data : Data) : Prop :=
  ∃ sign ∈ data.pendingSignRequests, data.ampAssets.contains sign.details.asset = true

/-- The record of an order is one of the AMP market. -/
def AmpRecord (data : Data) (orderId : OrderId) : Prop :=
  ∃ entry, data.submitData[orderId]? = some entry ∧ entry.market = .amp

/-- Something in the queues needs the AMP session. -/
def AmpEntry (data : Data) : Prop :=
  AmpRequest data ∨ ∃ orderId ∈ data.pendingSigns, AmpRecord data orderId

/-- All orders that are to be downloaded are AMP orders, or none is, and there
    is one. -/
def Uniform (data : Data) : Prop :=
  (∃ orderId, orderId ∈ data.pendingSigns) ∧
    ((∀ orderId ∈ data.pendingSigns, AmpRecord data orderId) ∨
      ∀ orderId ∈ data.pendingSigns, ¬ AmpRecord data orderId)

theorem ampRecord_iff (data : Data) (orderId : OrderId) :
    ((data.submitData[orderId]?).elim false fun submit => submit.market == .amp) = true ↔
      AmpRecord data orderId := by
  unfold AmpRecord
  cases data.submitData[orderId]? with
  | none => exact ⟨(nomatch ·), fun ⟨_, h, _⟩ => nomatch h⟩
  | some entry =>
      constructor
      · intro h
        exact ⟨entry, rfl, eq_of_beq h⟩
      · rintro ⟨_, hentry, hmarket⟩
        cases hentry
        exact beq_iff_eq.mpr hmarket

/-- What `pending_amp_sign_requests` tests. -/
theorem pendingAmpSignRequests_iff (data : Data) :
    pendingAmpSignRequests data = true ↔
      AmpRequest data ∨ ∀ orderId ∈ data.pendingSigns, AmpRecord data orderId := by
  unfold pendingAmpSignRequests
  rw [Bool.or_eq_true, List.any_eq_true, List.all_eq_true]
  refine or_congr Iff.rfl (forall_congr' fun orderId => ?_)
  rw [Std.TreeMap.mem_keys, ampRecord_iff]

theorem isEmpty_iff (data : Data) :
    data.pendingSigns.isEmpty = true ↔ ∀ orderId, orderId ∉ data.pendingSigns := by
  rw [Std.TreeMap.isEmpty_iff_forall_not_mem]

/-- Where nothing needs the AMP session, the test holds just when there is no
    order to be downloaded. -/
theorem pendingAmpSignRequests_of_none {data : Data} (h : ¬ AmpEntry data) :
    pendingAmpSignRequests data = data.pendingSigns.isEmpty := by
  rw [Bool.eq_iff_iff, pendingAmpSignRequests_iff, isEmpty_iff]
  constructor
  · rintro (hrequest | hall) orderId hmem
    · exact h (.inl hrequest)
    · exact h (.inr ⟨orderId, hmem, hall orderId hmem⟩)
  · intro hnone
    exact .inr fun orderId hmem => absurd hmem (hnone orderId)

/-- "All" is "some" just for orders of one kind. -/
theorem uniform_iff (data : Data) :
    ((∀ orderId ∈ data.pendingSigns, AmpRecord data orderId) ↔
      ∃ orderId ∈ data.pendingSigns, AmpRecord data orderId) ↔ Uniform data := by
  constructor
  · intro h
    by_cases hamp : ∃ orderId ∈ data.pendingSigns, AmpRecord data orderId
    · have hall := h.mpr hamp
      obtain ⟨orderId, hmem, _⟩ := hamp
      exact ⟨⟨orderId, hmem⟩, .inl hall⟩
    · have hnone : ∀ orderId ∈ data.pendingSigns, ¬ AmpRecord data orderId := by
        intro orderId hmem hrecord
        exact hamp ⟨orderId, hmem, hrecord⟩
      refine ⟨?_, .inr hnone⟩
      by_contra hempty
      exact hamp (h.mp fun orderId hmem => absurd ⟨orderId, hmem⟩ hempty)
  · rintro ⟨⟨orderId, hmem⟩, hall | hnone⟩
    · exact ⟨fun _ => ⟨orderId, hmem, hall orderId hmem⟩, fun _ => hall⟩
    · constructor
      · intro hall
        exact absurd (hall orderId hmem) (hnone orderId hmem)
      · rintro ⟨other, hother, hrecord⟩
        exact absurd hrecord (hnone other hother)

/-- The worker that waits only asks for the AMP connection. -/
theorem returns_waiting (world : World) {data : Data} (hconnected : data.connected = true)
    (hgate : (!data.ampConnected && pendingAmpSignRequests data
      && data.wallets.contains accountIdAmp) = true) :
    Returns (fun d => d.queues.Drained) (processPendingRequests world) data ↔
      data.queues.Drained := by
  have hwaits : exec (processPendingRequests world) data = exec updateAmpConnection data := by
    show exec (processPendingRequestsWith world _) data = _
    unfold processPendingRequestsWith
    rw [exec_get_bind, hconnected, hgate]
    rfl
  unfold Returns
  rw [hwaits]
  rfl

/-- **THE AMP GATE**: where nothing needs the AMP session, the queues are
    emptied exactly when it is connected or not there, or there is an order to
    be downloaded, or nothing to be done; and the session is kept active as it
    should be exactly when the application is active, a waiting `Sign` message
    is for an AMP asset, or the orders to be downloaded are of one kind. -/
theorem queues_drained_iff (world : World) :
    (∀ data : Data, data.connected = true → ¬ AmpEntry data →
      (Returns (fun d => d.queues.Drained) (processPendingRequests world) data ↔
        data.ampConnected = true ∨ data.wallets.contains accountIdAmp = false ∨
          data.pendingSigns.isEmpty = false ∨ data.queues.Drained)) ∧
    (∀ data : Data, ((exec updateAmpConnection data).2.ampActive = true ↔
        data.appActive = true ∨ AmpEntry data) ↔
      data.appActive = true ∨ AmpRequest data ∨ Uniform data) := by
  constructor
  · -- the gate is closed exactly when all three parts of its test hold
    intro data hconnected hnone
    have htest := pendingAmpSignRequests_of_none hnone
    cases hgate : (!data.ampConnected && pendingAmpSignRequests data
        && data.wallets.contains accountIdAmp) with
    | false =>
        refine iff_of_true (returns_processPendingRequests world hconnected hgate) ?_
        rw [htest] at hgate
        simp only [Bool.and_eq_false_iff, Bool.not_eq_false'] at hgate
        rcases hgate with (hamp | hsigns) | hwallet
        · exact .inl hamp
        · exact .inr (.inr (.inl hsigns))
        · exact .inr (.inl hwallet)
    | true =>
        rw [returns_waiting world hconnected hgate]
        rw [htest] at hgate
        simp only [Bool.and_eq_true, Bool.not_eq_true'] at hgate
        rw [hgate.1.1, hgate.1.2, hgate.2]
        simp
  · -- the session is asked for by a test over all orders, where one order should do
    intro data
    have hactive : (exec updateAmpConnection data).2.ampActive = true ↔
        data.appActive = true ∨ AmpRequest data ∨
          ∀ orderId ∈ data.pendingSigns, AmpRecord data orderId := by
      rw [← pendingAmpSignRequests_iff, ← Bool.or_eq_true]
      rfl
    rw [hactive, ← uniform_iff]
    unfold AmpEntry
    by_cases happ : data.appActive = true
    · simp [happ]
    · by_cases hrequest : AmpRequest data
      · simp [hrequest]
      · simp [happ, hrequest]

theorem not_ampEntry_of_empty {data : Data} (hrequests : data.pendingSignRequests.isEmpty = true)
    (hsigns : data.pendingSigns.isEmpty = true) : ¬ AmpEntry data := by
  rintro (⟨sign, hmem, _⟩ | ⟨orderId, hmem, _⟩)
  · rw [List.isEmpty_iff.mp hrequests] at hmem
    exact nomatch hmem
  · exact (isEmpty_iff data).mp hsigns orderId hmem

/-- A connected worker whose user wants to see an order. -/
def Sample.linking : Data :=
  { (run (world .taker) bitcoin [asset] connecting).data with pendingLinks := [toText order] }

/-- With the AMP session connected, the order is looked up. -/
theorem link_processed :
    Returns (fun d => d.queues.Drained) (processPendingRequests (Sample.world .taker))
      Sample.linking :=
  ((queues_drained_iff (Sample.world .taker)).1 Sample.linking (by decide +kernel)
    (not_ampEntry_of_empty (by decide +kernel) (by decide +kernel))).mpr (.inl (by decide +kernel))

/-- The user logs in, the AMP session has not connected yet, and nothing in the
    queues needs it: the link waits all the same, and a worker in the background
    keeps asking for the AMP connection. -/
theorem link_waits_for_amp :
    let s := run (Sample.world .taker) Sample.bitcoin [Sample.asset]
      [.ui (.login ⟨some (.mnemonic "wallet"), none⟩), .serverConnected,
        .ui (.linkOrder (toText Sample.order)), .ui (.appState false)]
    s.data.connected = true ∧ ¬ AmpEntry s.data ∧
      ¬ Returns (fun d => d.queues.Drained) (processPendingRequests (Sample.world .taker)) s.data ∧
      s.data.appActive = false ∧ (exec updateAmpConnection s.data).2.ampActive = true := by
  intro s
  have hconnected : s.data.connected = true := by decide +kernel
  refine ⟨hconnected, not_ampEntry_of_empty (by decide +kernel) (by decide +kernel), ?_,
    by decide +kernel, by decide +kernel⟩
  rw [returns_waiting _ hconnected (by decide +kernel)]
  rintro ⟨-, -, hlinks, -⟩
  have hone : s.data.pendingLinks.length = 1 := by decide +kernel
  rw [show s.data.pendingLinks = [] from hlinks] at hone
  exact nomatch hone

end Client
