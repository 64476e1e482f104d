import SideSwap.JadeWorker

/-! # The replies of a Jade

    Every message to the device belongs to a request: the one it was sent for,
    or, for the steps of an authentication, the one the step before belongs to.
    `System` keeps this account next to the worker.  A frame is answered on
    behalf of the request that the number it carries belongs to.

    At any time at most one number of a request is pending, and none once it
    has been answered, so a request is answered at most once. -/

namespace Jade

/-! ## What belongs to which request -/

/-- The numbers that are sent. -/
def sentIds (acts : List Act) : List Int :=
  acts.filterMap fun
    | .send message => some message.id
    | .call _ => none

/-- The responses that are given. -/
def results (acts : List Act) : List (Except String Resp) :=
  acts.filterMap fun
    | .call (.resp result) => some result
    | .call (.fatalError _) => none
    | .send _ => none

/-- The number that a frame carries. -/
def carriedId (libs : Libs) (data : Bytes) : Option Int :=
  (libs.value data).toOption.bind fun resp => parseI32 resp.id

/-- The worker, with the requests it was passed, how many numbers it has taken,
    and on behalf of which request it has sent each number and given each
    response. -/
structure System where
  worker : State := .init
  requests : List Req := []
  taken : Nat := 0
  sent : List (Int × Option Nat) := []
  answers : List (Option Nat × Except String Resp) := []

namespace System

/-- The request a number belongs to. -/
def owner (sys : System) (id : Int) : Option Nat := (sys.sent.lookup id).join

/-- The request an event is about; a new one is the next in the list. -/
def source (libs : Libs) (sys : System) : Event → Option Nat
  | .req _ _ => some sys.requests.length
  | .data data _ _ => (carriedId libs data).bind sys.owner
  | .fatalError _ => none
  | .quit => none

/-- The requests after an event. -/
def received (sys : System) : Event → List Req
  | .req req _ => if sys.worker.running then sys.requests ++ [req] else sys.requests
  | _ => sys.requests

/-- The worker handles an event. -/
def step (libs : Libs) (sys : System) (event : Event) : System :=
  let (worker, acts) := sys.worker.handle libs event
  let request := sys.source libs event
  { worker
    requests := sys.received event
    taken := if worker.lastRequestId = sys.worker.lastRequestId then sys.taken else sys.taken + 1
    sent := sys.sent ++ (sentIds acts).map fun id => (id, request)
    answers := sys.answers ++ (results acts).map fun result => (request, result) }

def run (libs : Libs) (events : List Event) : System := events.foldl (step libs) {}

end System

/-- A response is of the variant of a request. -/
def Resp.ofVariant : Resp → Req → Bool
  | .readStatus _, .readStatus => true
  | .authUser _, .authUser _ => true
  | .resolveXpub _, .resolveXpub _ _ => true
  | .getMasterBlindingKey _, .getMasterBlindingKey => true
  | .signMessage _, .signMessage _ _ _ => true
  | .getSignature _, .getSignature _ => true
  | .getSharedNonce _, .getSharedNonce _ _ => true
  | .getBlindingKey _, .getBlindingKey _ => true
  | .getBlindingFactor _, .getBlindingFactor _ _ _ => true
  | .getCommitments _, .getCommitments _ _ _ _ _ => true
  | .signTx _, .signTx _ => true
  | .txInput _, .txInput _ => true
  | _, _ => false

/-! ## What one event does -/

/-- What is pending serves a request: it is what was sent for it, or the end of
    its authentication. -/
def Serves (kind : PendingRequest) (req : Req) : Prop :=
  kind = req.pending ∨ kind = .authComplete ∧ req.pending = .httpRequest

/-- The response that is given for what is pending has the variant of every
    request it serves. -/
def Answered (kind : PendingRequest) (result : Except String Resp) : Prop :=
  ∀ resp req, result = .ok resp → Serves kind req → resp.ofVariant req = true

/-- Everything that is pending was pending before. -/
def Remains (s s' : State) : Prop :=
  ∀ (id : Int) (kind : PendingRequest),
    s'.pendingRequests[id]? = some kind → s.pendingRequests[id]? = some kind

/-- The worker sends nothing and gives no response; it may take a number. -/
structure Quiet (s s' : State) (acts : List Act) : Prop where
  pending : Remains s s'
  sent : sentIds acts = []
  results : results acts = []
  next : s'.lastRequestId = s.lastRequestId ∨ s'.lastRequestId = i32 (s.lastRequestId + 1)

/-- The worker sends the next number, which becomes pending. -/
structure Sends (kind : PendingRequest) (s s' : State) (acts : List Act) : Prop where
  pending : ∀ (id : Int) (kind' : PendingRequest), s'.pendingRequests[id]? = some kind' →
    id = i32 (s.lastRequestId + 1) ∧ kind' = kind ∨ s.pendingRequests[id]? = some kind'
  sent : sentIds acts = [i32 (s.lastRequestId + 1)]
  results : results acts = []
  next : s'.lastRequestId = i32 (s.lastRequestId + 1)

/-- The worker gives a response. -/
structure Answers (kind : PendingRequest) (s s' : State) (acts : List Act) : Prop where
  pending : Remains s s'
  sent : sentIds acts = []
  results : ∃ result, results acts = [result] ∧ Answered kind result
  next : s'.lastRequestId = s.lastRequestId

theorem remains_refl (s : State) : Remains s s := fun _ _ h => h

theorem quiet_refl (s : State) : Quiet s s [] := ⟨remains_refl s, rfl, rfl, .inl rfl⟩

/-- Sending: the number is taken in any case. -/
theorem request_effect (kind : PendingRequest) (method : String) (params : Option Value)
    (sendError : Option String) (s : State) :
    Quiet s (s.request kind method params sendError).1 (s.request kind method params sendError).2 ∨
    Sends kind s (s.request kind method params sendError).1
      (s.request kind method params sendError).2 := by
  cases sendError with
  | some e => exact .inl ⟨remains_refl s, rfl, rfl, .inr rfl⟩
  | none =>
      refine .inr ⟨fun id kind' h => ?_, rfl, rfl, rfl⟩
      have hinsert : (s.pendingRequests.insert (i32 (s.lastRequestId + 1)) kind)[id]? =
          some kind' := h
      rw [Table.getElem?_insert_eq] at hinsert
      split at hinsert
      · next heq =>
          cases hinsert
          exact .inl ⟨heq.symm, rfl⟩
      · exact .inr hinsert

/-- The effect of a later state is one of the state before, if only entries are
    dropped between the two. -/
theorem Quiet.of_remains {s t s' : State} {acts : List Act} (h : Quiet t s' acts)
    (hpending : Remains s t) (hlast : t.lastRequestId = s.lastRequestId) : Quiet s s' acts :=
  ⟨fun id kind hk => hpending id kind (h.pending id kind hk), h.sent, h.results, hlast ▸ h.next⟩

theorem Sends.of_remains {kind : PendingRequest} {s t s' : State} {acts : List Act}
    (h : Sends kind t s' acts) (hpending : Remains s t)
    (hlast : t.lastRequestId = s.lastRequestId) : Sends kind s s' acts := by
  refine ⟨fun id kind' hk => ?_, hlast ▸ h.sent, h.results, hlast ▸ h.next⟩
  rcases h.pending id kind' hk with hnew | hold
  · exact .inl (hlast ▸ hnew)
  · exact .inr (hpending id kind' hold)

/-- A request that is passed to the worker is sent, or not; older status
    requests may be dropped. -/
theorem handleReq_effect (req : Req) (sendError : Option String) (s : State) :
    Quiet s (s.handleReq req sendError).1 (s.handleReq req sendError).2 ∨
    Sends req.pending s (s.handleReq req sendError).1 (s.handleReq req sendError).2 := by
  unfold State.handleReq
  split
  · -- a status request: what remains are the other requests
    generalize ht : ({ s with
      pendingRequests := s.pendingRequests.filter fun _ pending =>
        pending != PendingRequest.readStatus } : State) = t
    have hremains : Remains s t := by
      subst ht
      intro id kind hk
      have hfilter : (s.pendingRequests.filter fun _ pending =>
        pending != PendingRequest.readStatus)[id]? = some kind := hk
      rw [Std.TreeMap.getElem?_filter'] at hfilter
      exact (Option.filter_eq_some_iff.mp hfilter).1
    have hlast : t.lastRequestId = s.lastRequestId := by
      subst ht
      rfl
    dsimp only
    split
    · rcases request_effect Req.readStatus.pending Req.readStatus.method Req.readStatus.params
        sendError t with hquiet | hsends
      · exact .inl (hquiet.of_remains hremains hlast)
      · exact .inr (hsends.of_remains hremains hlast)
    · exact .inl ((quiet_refl t).of_remains hremains hlast)
  · exact request_effect _ _ _ _ _

/-- The kind of request that a response is given for. -/
def Resp.pending : Resp → PendingRequest
  | .readStatus _ => .readStatus
  | .authUser _ => .authComplete
  | .resolveXpub _ => .getXPub
  | .getMasterBlindingKey _ => .getMasterBlindingKey
  | .signMessage _ => .signMessage
  | .getSignature _ => .getSignature
  | .getSharedNonce _ => .getSharedNonce
  | .getBlindingKey _ => .getBlindingKey
  | .getBlindingFactor _ => .getBlindingFactor
  | .getCommitments _ => .getCommitments
  | .signTx _ => .signTx
  | .txInput _ => .txInput

/-- It has the variant of the requests that it serves. -/
theorem ofVariant_of_serves {resp : Resp} {req : Req} (h : Serves resp.pending req) :
    resp.ofVariant req = true := by
  unfold Serves at h
  cases resp <;> cases req <;> first | rfl | simp [Resp.pending, Req.pending] at h

theorem answered_of_pending {kind : PendingRequest} {result : Except String Resp}
    (h : ∀ resp, result = .ok resp → resp.pending = kind) : Answered kind result := by
  intro resp req hok hserves
  rw [← h resp hok] at hserves
  exact ofVariant_of_serves hserves

/-- A call is no response, or one for what was pending. -/
theorem call_effect {kind : PendingRequest} {call : WorkerResp}
    (h : ∀ resp, call = .resp (.ok resp) → resp.pending = kind) (s : State) :
    Quiet s s [.call call] ∨ Answers kind s s [.call call] := by
  cases call with
  | fatalError e => exact .inl ⟨remains_refl s, rfl, rfl, .inl rfl⟩
  | resp result =>
      refine .inr ⟨remains_refl s, rfl, ⟨result, rfl, answered_of_pending fun resp hok => ?_⟩, rfl⟩
      exact h resp (congrArg _ hok)

theorem answer_ok {α : Type} {name : String} {resp : Except String (Response α)} {wrap : α → Resp}
    {r : Resp} (h : answer name resp wrap = .resp (.ok r)) : ∃ v, r = wrap v := by
  cases resp with
  | error e => cases h
  | ok v =>
      obtain ⟨id, result, error⟩ := v
      cases error with
      | some e => cases h
      | none =>
          cases result with
          | none => cases h
          | some v =>
              cases h
              exact ⟨v, rfl⟩

theorem answer_effect {α : Type} {kind : PendingRequest} (name : String)
    (resp : Except String (Response α)) (wrap : α → Resp) (h : ∀ v, (wrap v).pending = kind)
    (s : State) :
    Quiet s s [.call (answer name resp wrap)] ∨
      Answers kind s s [.call (answer name resp wrap)] := by
  refine call_effect (fun r hr => ?_) s
  obtain ⟨v, rfl⟩ := answer_ok hr
  exact h v

theorem answerSignature_ok {libs : Libs} {resp : Except String (Response Value)} {r : Resp}
    (h : answerSignature libs resp = some (.resp (.ok r))) : ∃ v, r = .getSignature v := by
  cases resp with
  | error e => cases h
  | ok v =>
      obtain ⟨id, result, error⟩ := v
      cases error with
      | some e => cases h
      | none =>
          unfold answerSignature at h
          dsimp only at h
          split at h
          · cases h
          · obtain ⟨data, _, hdata⟩ := Option.map_eq_some_iff.mp h
            cases hdata
            exact ⟨_, rfl⟩
          · cases h
            exact ⟨_, rfl⟩
          · cases h
            exact ⟨_, rfl⟩
          · cases h

/-- A step of an authentication: an error, or the next step. -/
theorem authStep_effect (libs : Libs) (post : String → Json → Except String Json)
    (sendError : Option String) (data : Bytes) (s : State) :
    Quiet s (s.authStep libs post sendError data).1 (s.authStep libs post sendError data).2 ∨
    Answers .httpRequest s (s.authStep libs post sendError data).1
      (s.authStep libs post sendError data).2 ∨
    ∃ next, (next = .httpRequest ∨ next = .authComplete) ∧
      Sends next s (s.authStep libs post sendError data).1
        (s.authStep libs post sendError data).2 := by
  have herror : ∀ e, Answers .httpRequest s s [.call (.resp (.error e))] := by
    intro e
    exact ⟨remains_refl s, rfl, ⟨.error e, rfl, answered_of_pending (by rintro resp ⟨⟩)⟩, rfl⟩
  unfold State.authStep
  split
  · split
    · exact .inr (.inl (herror _))
    · next v _ _ =>
        split
        · generalize hnext : (if v.onReply == "handshake_complete" then PendingRequest.authComplete
            else PendingRequest.httpRequest) = next
          have hkinds : next = .httpRequest ∨ next = .authComplete := by
            subst hnext
            split
            · exact .inr rfl
            · exact .inl rfl
          rcases request_effect next v.onReply _ sendError s with hquiet | hsends
          · exact .inl hquiet
          · exact .inr (.inr ⟨next, hkinds, hsends⟩)
        · exact .inr (.inl (herror _))
    · exact .inr (.inl (herror _))
  · exact .inl ⟨remains_refl s, rfl, rfl, .inl rfl⟩

/-- A response to what was pending. -/
theorem handleResponse_effect (libs : Libs) (post : String → Json → Except String Json)
    (sendError : Option String) (data : Bytes) (s : State) (kind : PendingRequest) :
    Quiet s (s.handleResponse libs post sendError data kind).1
      (s.handleResponse libs post sendError data kind).2 ∨
    Answers kind s (s.handleResponse libs post sendError data kind).1
      (s.handleResponse libs post sendError data kind).2 ∨
    kind = .httpRequest ∧ ∃ next, (next = .httpRequest ∨ next = .authComplete) ∧
      Sends next s (s.handleResponse libs post sendError data kind).1
        (s.handleResponse libs post sendError data kind).2 := by
  have hcall : ∀ {acts : List Act}, Quiet s s acts ∨ Answers kind s s acts →
      Quiet s s acts ∨ Answers kind s s acts ∨
        kind = .httpRequest ∧ ∃ next, (next = .httpRequest ∨ next = .authComplete) ∧
          Sends next s s acts := fun h => h.imp_right .inl
  cases kind with
  | httpRequest =>
      rcases authStep_effect libs post sendError data s with hquiet | hanswers | hsends
      · exact .inl hquiet
      · exact .inr (.inl hanswers)
      · exact .inr (.inr ⟨rfl, hsends⟩)
  | getSignature =>
      unfold State.handleResponse
      dsimp only
      split
      · next resp hresp =>
          refine hcall (call_effect (fun r hr => ?_) s)
          obtain ⟨v, rfl⟩ := answerSignature_ok (hr ▸ hresp)
          rfl
      · exact .inl ⟨remains_refl s, rfl, rfl, .inl rfl⟩
  | readStatus => exact hcall (answer_effect _ (libs.versionInfo data) .readStatus (fun _ => rfl) s)
  | authComplete => exact hcall (answer_effect _ (libs.bool data) .authUser (fun _ => rfl) s)
  | getXPub => exact hcall (answer_effect _ (libs.text data) .resolveXpub (fun _ => rfl) s)
  | getMasterBlindingKey =>
      exact hcall (answer_effect _ (libs.byteSeq data) .getMasterBlindingKey (fun _ => rfl) s)
  | signMessage => exact hcall (answer_effect _ (libs.byteBuf data) .signMessage (fun _ => rfl) s)
  | getSharedNonce =>
      exact hcall (answer_effect _ (libs.byteBuf data) .getSharedNonce (fun _ => rfl) s)
  | getBlindingKey =>
      exact hcall (answer_effect _ (libs.byteBuf data) .getBlindingKey (fun _ => rfl) s)
  | getBlindingFactor =>
      exact hcall (answer_effect _ (libs.byteBuf data) .getBlindingFactor (fun _ => rfl) s)
  | getCommitments =>
      exact hcall (answer_effect _ (libs.commitments data) .getCommitments (fun _ => rfl) s)
  | signTx => exact hcall (answer_effect _ (libs.bool data) .signTx (fun _ => rfl) s)
  | txInput => exact hcall (answer_effect _ (libs.byteBuf data) .txInput (fun _ => rfl) s)

/-- The worker without a pending request. -/
def State.without (id : Int) (s : State) : State :=
  { s with pendingRequests := s.pendingRequests.erase id }

theorem without_pending {id id' : Int} {kind : PendingRequest} {s : State}
    (h : (s.without id).pendingRequests[id']? = some kind) :
    id' ≠ id ∧ s.pendingRequests[id']? = some kind := by
  have herase : (s.pendingRequests.erase id)[id']? = some kind := h
  rw [Table.getElem?_erase_eq] at herase
  split at herase
  · cases herase
  · next hne => exact ⟨Ne.symm hne, herase⟩

theorem remains_without (id : Int) (s : State) : Remains s (s.without id) :=
  fun _ _ h => (without_pending h).2

/-- A frame: nothing comes of it, or what is pending under its number is
    removed, and answered or followed by the next step. -/
theorem handlePortMsg_effect (libs : Libs) (post : String → Json → Except String Json)
    (sendError : Option String) (data : Bytes) (s : State) :
    Quiet s (s.handlePortMsg libs post sendError data).1
      (s.handlePortMsg libs post sendError data).2 ∨
    ∃ resp kind, libs.value data = .ok resp ∧
      s.pendingRequests[(parseI32 resp.id).getD 0]? = some kind ∧
      (Answers kind (s.without ((parseI32 resp.id).getD 0))
          (s.handlePortMsg libs post sendError data).1
          (s.handlePortMsg libs post sendError data).2 ∨
        kind = .httpRequest ∧ ∃ next, (next = .httpRequest ∨ next = .authComplete) ∧
          Sends next (s.without ((parseI32 resp.id).getD 0))
            (s.handlePortMsg libs post sendError data).1
            (s.handlePortMsg libs post sendError data).2) := by
  cases hvalue : libs.value data with
  | error e =>
      have hmsg : s.handlePortMsg libs post sendError data =
          (s, [.call (.fatalError ("unexpected response from Jade: " ++ e))]) := by
        simp only [State.handlePortMsg, hvalue]
      rw [hmsg]
      exact .inl ⟨remains_refl s, rfl, rfl, .inl rfl⟩
  | ok resp =>
      cases hpending : s.pendingRequests[(parseI32 resp.id).getD 0]? with
      | none =>
          have hmsg : s.handlePortMsg libs post sendError data = (s, []) := by
            simp only [State.handlePortMsg, hvalue, hpending]
          rw [hmsg]
          exact .inl (quiet_refl s)
      | some kind =>
          have hmsg : s.handlePortMsg libs post sendError data =
              (s.without ((parseI32 resp.id).getD 0)).handleResponse libs post sendError data
                kind := by
            simp only [State.handlePortMsg, hvalue, hpending, State.without]
          rw [hmsg]
          rcases handleResponse_effect libs post sendError data
            (s.without ((parseI32 resp.id).getD 0)) kind with hquiet | heffect
          · exact .inl (hquiet.of_remains (remains_without _ s) rfl)
          · exact .inr ⟨resp, kind, rfl, hpending, heffect⟩

/-! ## Numbers -/

theorem i32_next (x : Int) : i32 (i32 x + 1) = i32 (x + 1) := by
  unfold i32
  exact Int.bmod_add_bmod

/-- Reduction takes away a multiple of `2^32`. -/
theorem i32_eq (x : Int) : ∃ q : Int, i32 x = x - 2 ^ 32 * q := by
  refine ⟨Int.bdiv x (2 ^ 32), ?_⟩
  have h := Int.bmod_add_bdiv x (2 ^ 32)
  unfold i32
  omega

theorem i32_next_ne (x : Int) : i32 (i32 x + 1) ≠ i32 x := by
  obtain ⟨q, hq⟩ := i32_eq (i32 x + 1)
  omega

/-- Fewer than `2^31` numbers from 25000 on are different, and none is 0. -/
theorem i32_inj {k k' : Nat} (hk : k < 2 ^ 31) (hk' : k' < 2 ^ 31)
    (h : i32 (25000 + k) = i32 (25000 + k')) : k = k' := by
  obtain ⟨q, hq⟩ := i32_eq (25000 + k)
  obtain ⟨q', hq'⟩ := i32_eq (25000 + k')
  omega

theorem i32_ne_zero {k : Nat} (hk : k < 2 ^ 31) : i32 (25000 + k) ≠ 0 := by
  obtain ⟨q, hq⟩ := i32_eq (25000 + k)
  omega

/-! ## The account -/

/-- The account is in order: numbers are different, what is pending serves the
    request it belongs to, which has nothing else pending and is not yet
    answered, and no request has been answered twice. -/
structure Ordered (sys : System) : Prop where
  last : sys.worker.lastRequestId = i32 (25000 + sys.taken)
  numbered : ∀ entry ∈ sys.sent, ∃ k, k ≤ sys.taken ∧ entry.1 = i32 (25000 + k)
  distinct : (sys.sent.map (·.1)).Nodup
  owned : ∀ entry ∈ sys.sent, ∃ n < sys.requests.length, entry.2 = some n
  serves : ∀ {id : Int} {kind : PendingRequest}, sys.worker.pendingRequests[id]? = some kind →
    ∃ n req, (id, some n) ∈ sys.sent ∧ sys.requests[n]? = some req ∧ Serves kind req
  single : ∀ {id id' : Int} {kind kind' : PendingRequest} {n : Option Nat},
    sys.worker.pendingRequests[id]? = some kind → sys.worker.pendingRequests[id']? = some kind' →
    (id, n) ∈ sys.sent → (id', n) ∈ sys.sent → id = id'
  unanswered : ∀ {id : Int} {kind : PendingRequest} {n : Option Nat},
    sys.worker.pendingRequests[id]? = some kind → (id, n) ∈ sys.sent →
    ∀ a ∈ sys.answers, a.1 ≠ n
  once : (sys.answers.map (·.1)).Nodup
  variant : ∀ a ∈ sys.answers, ∃ n req, a.1 = some n ∧ sys.requests[n]? = some req ∧
    ∀ resp, a.2 = .ok resp → resp.ofVariant req = true

/-- At the start. -/
theorem ordered_init : Ordered {} where
  last := by decide
  numbered := fun _ h => absurd h List.not_mem_nil
  distinct := List.nodup_nil
  owned := fun _ h => absurd h List.not_mem_nil
  serves := by
    intro id kind h
    rw [show (({} : System).worker.pendingRequests)[id]? = none from
      Std.TreeMap.getElem?_emptyc] at h
    cases h
  single := fun _ _ h => absurd h List.not_mem_nil
  unanswered := fun _ h => absurd h List.not_mem_nil
  once := List.nodup_nil
  variant := fun _ h => absurd h List.not_mem_nil

/-- How the numbers go on. -/
structure Numbers (sys sys' : System) : Prop where
  last : sys'.worker.lastRequestId = i32 (25000 + sys'.taken)
  taken : sys.taken ≤ sys'.taken
  requests : sys.requests <+: sys'.requests

theorem Numbers.getElem? {sys sys' : System} (h : Numbers sys sys') {n : Nat} {req : Req}
    (hn : sys.requests[n]? = some req) : sys'.requests[n]? = some req := by
  obtain ⟨l, hl⟩ := h.requests
  have hlt := (List.getElem?_eq_some_iff.mp hn).1
  rw [← hl, List.getElem?_append_left hlt, hn]

theorem Numbers.owned {sys sys' : System} (h : Numbers sys sys') (ho : Ordered sys) :
    ∀ entry ∈ sys.sent, ∃ n < sys'.requests.length, entry.2 = some n := by
  intro entry hmem
  obtain ⟨n, hn, heq⟩ := ho.owned entry hmem
  exact ⟨n, hn.trans_le h.requests.length_le, heq⟩

theorem Numbers.numbered {sys sys' : System} (h : Numbers sys sys') (ho : Ordered sys) :
    ∀ entry ∈ sys.sent, ∃ k, k ≤ sys'.taken ∧ entry.1 = i32 (25000 + k) := by
  intro entry hmem
  obtain ⟨k, hk, heq⟩ := ho.numbered entry hmem
  exact ⟨k, hk.trans h.taken, heq⟩

theorem Numbers.variant {sys sys' : System} (h : Numbers sys sys') (ho : Ordered sys) :
    ∀ a ∈ sys.answers, ∃ n req, a.1 = some n ∧ sys'.requests[n]? = some req ∧
      ∀ resp, a.2 = .ok resp → resp.ofVariant req = true := by
  intro a ha
  obtain ⟨n, req, hn, hreq, hvariant⟩ := ho.variant a ha
  exact ⟨n, req, hn, h.getElem? hreq, hvariant⟩

/-- Nothing is sent and nothing answered. -/
theorem Ordered.quiet {sys sys' : System} (h : Ordered sys) (hnumbers : Numbers sys sys')
    (hpending : Remains sys.worker sys'.worker) (hsent : sys'.sent = sys.sent)
    (hanswers : sys'.answers = sys.answers) : Ordered sys' where
  last := hnumbers.last
  numbered := hsent ▸ hnumbers.numbered h
  distinct := hsent ▸ h.distinct
  owned := hsent ▸ hnumbers.owned h
  serves := by
    intro id kind hk
    obtain ⟨n, req, hmem, hreq, hserves⟩ := h.serves (hpending id kind hk)
    exact ⟨n, req, hsent ▸ hmem, hnumbers.getElem? hreq, hserves⟩
  single := by
    intro id id' kind kind' n hk hk' hmem hmem'
    rw [hsent] at hmem hmem'
    exact h.single (hpending id kind hk) (hpending id' kind' hk') hmem hmem'
  unanswered := by
    intro id kind n hk hmem
    rw [hsent] at hmem
    exact hanswers ▸ h.unanswered (hpending id kind hk) hmem
  once := hanswers ▸ h.once
  variant := hanswers ▸ hnumbers.variant h

/-- A new number is sent for a request that has nothing else pending and is not
    yet answered. -/
theorem Ordered.send {sys sys' : System} (h : Ordered sys) (hnumbers : Numbers sys sys')
    {id : Int} {n : Nat} {kind : PendingRequest} {req : Req}
    (hfresh : id = i32 (25000 + sys'.taken)) (htaken : sys'.taken = sys.taken + 1)
    (hfew : sys'.taken < 2 ^ 31)
    (hpending : ∀ (id' : Int) (kind' : PendingRequest),
      sys'.worker.pendingRequests[id']? = some kind' →
      id' = id ∧ kind' = kind ∨
        sys.worker.pendingRequests[id']? = some kind' ∧ (id', some n) ∉ sys.sent)
    (hreq : sys'.requests[n]? = some req) (hserves : Serves kind req)
    (hopen : ∀ a ∈ sys.answers, a.1 ≠ some n) (hsent : sys'.sent = sys.sent ++ [(id, some n)])
    (hanswers : sys'.answers = sys.answers) : Ordered sys' := by
  have hnew : ∀ entry ∈ sys.sent, entry.1 ≠ id := by
    intro entry hmem heq
    obtain ⟨k, hk, hentry⟩ := h.numbered entry hmem
    have := i32_inj (by omega) hfew (hentry.symm.trans (heq.trans hfresh))
    omega
  -- an entry of the new list is an old one, or the new one under the new number
  have hmem : ∀ {id' : Int} {m : Option Nat}, (id', m) ∈ sys'.sent →
      (id', m) ∈ sys.sent ∨ id' = id ∧ m = some n := by
    intro id' m hm
    rw [hsent] at hm
    rcases List.mem_append.mp hm with hold | hlast
    · exact .inl hold
    · cases List.mem_singleton.mp hlast
      exact .inr ⟨rfl, rfl⟩
  -- the new number belongs to `n`, and nothing else that is pending does
  have howner : ∀ {id' : Int} {kind' : PendingRequest} {m : Option Nat},
      sys'.worker.pendingRequests[id']? = some kind' → (id', m) ∈ sys'.sent →
      id' = id ∧ m = some n ∨
        sys.worker.pendingRequests[id']? = some kind' ∧ (id', m) ∈ sys.sent ∧ m ≠ some n := by
    intro id' kind' m hk hm
    rcases hpending id' kind' hk with ⟨rfl, _⟩ | ⟨hold, hnot⟩
    · rcases hmem hm with hm | ⟨_, heq⟩
      · exact absurd rfl (hnew _ hm)
      · exact .inl ⟨rfl, heq⟩
    · rcases hmem hm with hm | ⟨rfl, _⟩
      · refine .inr ⟨hold, hm, ?_⟩
        rintro rfl
        exact hnot hm
      · obtain ⟨_, _, hm', _⟩ := h.serves hold
        exact absurd rfl (hnew _ hm')
  refine
    { last := hnumbers.last
      numbered := ?_
      distinct := ?_
      owned := ?_
      serves := ?_
      single := ?_
      unanswered := ?_
      once := hanswers ▸ h.once
      variant := hanswers ▸ hnumbers.variant h }
  · intro entry hentry
    rcases hmem hentry with hold | ⟨heq, _⟩
    · exact hnumbers.numbered h entry hold
    · exact ⟨sys'.taken, Nat.le_refl _, heq.trans hfresh⟩
  · rw [hsent, List.map_append, List.map_singleton, List.nodup_append]
    refine ⟨h.distinct, List.nodup_singleton _, ?_⟩
    rintro a ha b hb rfl
    obtain ⟨entry, hentry, rfl⟩ := List.mem_map.mp ha
    exact hnew entry hentry (List.mem_singleton.mp hb)
  · intro entry hentry
    rcases hmem hentry with hold | ⟨_, heq⟩
    · exact hnumbers.owned h entry hold
    · exact ⟨n, (List.getElem?_eq_some_iff.mp hreq).1, heq⟩
  · intro id' kind' hk
    rcases hpending id' kind' hk with ⟨rfl, rfl⟩ | ⟨hold, _⟩
    · exact ⟨n, req, hsent ▸ List.mem_append_right _ (List.mem_singleton_self _), hreq, hserves⟩
    · obtain ⟨m, req', hm, hreq', hserves'⟩ := h.serves hold
      exact ⟨m, req', hsent ▸ List.mem_append_left _ hm, hnumbers.getElem? hreq', hserves'⟩
  · intro a b kind' kind'' m ha hb hma hmb
    rcases howner ha hma with ⟨rfl, rfl⟩ | ⟨ha, hma, hne⟩
    · rcases howner hb hmb with ⟨rfl, _⟩ | ⟨_, _, hne⟩
      · rfl
      · exact absurd rfl hne
    · rcases howner hb hmb with ⟨_, heq⟩ | ⟨hb, hmb, _⟩
      · exact absurd heq hne
      · exact h.single ha hb hma hmb
  · intro id' kind' m hk hm
    rw [hanswers]
    rcases howner hk hm with ⟨_, rfl⟩ | ⟨hold, hm, _⟩
    · exact hopen
    · exact h.unanswered hold hm

/-- A request is answered, and nothing of it stays pending. -/
theorem Ordered.answer {sys sys' : System} (h : Ordered sys) (hnumbers : Numbers sys sys')
    {n : Nat} {req : Req} {result : Except String Resp}
    (hpending : ∀ (id : Int) (kind : PendingRequest),
      sys'.worker.pendingRequests[id]? = some kind →
      sys.worker.pendingRequests[id]? = some kind ∧ (id, some n) ∉ sys.sent)
    (hreq : sys.requests[n]? = some req) (hopen : ∀ a ∈ sys.answers, a.1 ≠ some n)
    (hvariant : ∀ resp, result = .ok resp → resp.ofVariant req = true)
    (hsent : sys'.sent = sys.sent) (hanswers : sys'.answers = sys.answers ++ [(some n, result)]) :
    Ordered sys' where
  last := hnumbers.last
  numbered := hsent ▸ hnumbers.numbered h
  distinct := hsent ▸ h.distinct
  owned := hsent ▸ hnumbers.owned h
  serves := by
    intro id kind hk
    obtain ⟨m, req', hmem, hreq', hserves⟩ := h.serves (hpending id kind hk).1
    exact ⟨m, req', hsent ▸ hmem, hnumbers.getElem? hreq', hserves⟩
  single := by
    intro id id' kind kind' m hk hk' hmem hmem'
    rw [hsent] at hmem hmem'
    exact h.single (hpending id kind hk).1 (hpending id' kind' hk').1 hmem hmem'
  unanswered := by
    intro id kind m hk hmem a ha
    rw [hsent] at hmem
    rw [hanswers] at ha
    rcases List.mem_append.mp ha with hold | hlast
    · exact h.unanswered (hpending id kind hk).1 hmem a hold
    · cases List.mem_singleton.mp hlast
      rintro rfl
      exact (hpending id kind hk).2 hmem
  once := by
    rw [hanswers, List.map_append, List.map_singleton, List.nodup_append]
    refine ⟨h.once, List.nodup_singleton _, ?_⟩
    rintro a ha b hb rfl
    obtain ⟨entry, hentry, rfl⟩ := List.mem_map.mp ha
    exact hopen entry hentry (List.mem_singleton.mp hb)
  variant := by
    intro a ha
    rw [hanswers] at ha
    rcases List.mem_append.mp ha with hold | hlast
    · exact hnumbers.variant h a hold
    · cases List.mem_singleton.mp hlast
      exact ⟨n, req, rfl, hnumbers.getElem? hreq, hvariant⟩

/-! ## Runs -/

theorem lookup_of_mem {α β : Type} [DecidableEq α] {a : α} {b : β} :
    ∀ {l : List (α × β)}, (l.map (·.1)).Nodup → (a, b) ∈ l → l.lookup a = some b := by
  intro l
  induction l with
  | nil => intro _ h; exact absurd h List.not_mem_nil
  | cons first l ih =>
      intro hnodup hmem
      obtain ⟨a', b'⟩ := first
      rw [List.map_cons, List.nodup_cons] at hnodup
      rcases List.mem_cons.mp hmem with heq | hrest
      · cases heq
        exact List.lookup_cons_self
      · have hne : (a == a') = false := by
          refine beq_false_of_ne ?_
          rintro rfl
          exact hnodup.1 (List.mem_map.mpr ⟨(a, b), hrest, rfl⟩)
        rw [List.lookup_cons, hne]
        exact ih hnodup.2 hrest

theorem Ordered.owner_eq {sys : System} (h : Ordered sys) {id : Int} {n : Nat}
    (hmem : (id, some n) ∈ sys.sent) : sys.owner id = some n := by
  unfold System.owner
  rw [lookup_of_mem h.distinct hmem]
  rfl

/-- The numbers after an event, from what it did to the last one. -/
theorem Ordered.numbers {sys : System} (h : Ordered sys) {libs : Libs} {event : Event}
    (hnext : (sys.worker.handle libs event).1.lastRequestId = sys.worker.lastRequestId ∨
      (sys.worker.handle libs event).1.lastRequestId = i32 (sys.worker.lastRequestId + 1)) :
    Numbers sys (sys.step libs event) := by
  have hrequests : sys.requests <+: sys.received event := by
    unfold System.received
    split
    · split
      · exact List.prefix_append _ _
      · exact List.prefix_refl _
    · exact List.prefix_refl _
  have htaken : (sys.step libs event).taken =
      if (sys.worker.handle libs event).1.lastRequestId = sys.worker.lastRequestId then sys.taken
      else sys.taken + 1 := rfl
  have hlast : (sys.step libs event).worker = (sys.worker.handle libs event).1 := rfl
  rcases hnext with hsame | hnew
  · rw [if_pos hsame] at htaken
    refine ⟨?_, Nat.le_of_eq htaken.symm, hrequests⟩
    rw [hlast, hsame, htaken, h.last]
  · have hne : (sys.worker.handle libs event).1.lastRequestId ≠ sys.worker.lastRequestId := by
      rw [hnew, h.last]
      exact i32_next_ne _
    rw [if_neg hne] at htaken
    refine ⟨?_, by omega, hrequests⟩
    rw [hlast, hnew, htaken, h.last, i32_next]
    push_cast
    rfl

/-- A new number. -/
theorem Ordered.fresh {sys : System} (h : Ordered sys) {libs : Libs} {event : Event}
    (hnext : (sys.worker.handle libs event).1.lastRequestId = i32 (sys.worker.lastRequestId + 1)) :
    i32 (sys.worker.lastRequestId + 1) = i32 (25000 + (sys.step libs event).taken) ∧
      (sys.step libs event).taken = sys.taken + 1 := by
  have hne : (sys.worker.handle libs event).1.lastRequestId ≠ sys.worker.lastRequestId := by
    rw [hnext, h.last]
    exact i32_next_ne _
  have htaken : (sys.step libs event).taken = sys.taken + 1 := if_neg hne
  refine ⟨?_, htaken⟩
  rw [htaken, h.last, i32_next]
  push_cast
  rfl

theorem step_sent (libs : Libs) (sys : System) (event : Event) :
    (sys.step libs event).sent = sys.sent ++
      (sentIds (sys.worker.handle libs event).2).map fun id => (id, sys.source libs event) :=
  rfl

theorem step_answers (libs : Libs) (sys : System) (event : Event) :
    (sys.step libs event).answers = sys.answers ++
      (results (sys.worker.handle libs event).2).map fun result =>
        (sys.source libs event, result) :=
  rfl

theorem taken_step (libs : Libs) (sys : System) (event : Event) :
    sys.taken ≤ (sys.step libs event).taken := by
  have htaken : (sys.step libs event).taken =
      if (sys.worker.handle libs event).1.lastRequestId = sys.worker.lastRequestId then sys.taken
      else sys.taken + 1 := rfl
  rw [htaken]
  split
  · exact Nat.le_refl _
  · exact Nat.le_succ _

/-- An event that is quiet for the worker. -/
theorem Ordered.quiet_step {sys : System} (h : Ordered sys) {libs : Libs} {event : Event}
    (hquiet : Quiet sys.worker (sys.worker.handle libs event).1 (sys.worker.handle libs event).2) :
    Ordered (sys.step libs event) := by
  refine h.quiet (h.numbers hquiet.next) hquiet.pending ?_ ?_
  · rw [step_sent, hquiet.sent, List.map_nil, List.append_nil]
  · rw [step_answers, hquiet.results, List.map_nil, List.append_nil]

/-- The request that is pending under the number of a frame. -/
theorem Ordered.source_eq {sys : System} (h : Ordered sys) (hfew : sys.taken < 2 ^ 31)
    {libs : Libs} {data : Bytes} {resp : Response Value} (hvalue : libs.value data = .ok resp)
    {n : Nat} (hmem : ((parseI32 resp.id).getD 0, some n) ∈ sys.sent)
    (post : String → Json → Except String Json) (sendError : Option String) :
    sys.source libs (.data data post sendError) = some n := by
  have hcarried : carriedId libs data = parseI32 resp.id := by
    unfold carriedId
    rw [hvalue]
    rfl
  show (carriedId libs data).bind sys.owner = some n
  rw [hcarried]
  cases hparse : parseI32 resp.id with
  | none =>
      -- no number is 0
      obtain ⟨k, hk, heq⟩ := h.numbered _ hmem
      rw [hparse] at heq
      exact absurd heq.symm (i32_ne_zero (by omega))
  | some id =>
      rw [hparse] at hmem
      exact h.owner_eq hmem

/-- A request is sent under a number of its own, or comes to nothing. -/
theorem Ordered.req_step {sys : System} (h : Ordered sys) (hrunning : sys.worker.running = true)
    {libs : Libs} {req : Req} {sendError : Option String}
    (hfew : (sys.step libs (.req req sendError)).taken < 2 ^ 31) :
    Ordered (sys.step libs (.req req sendError)) := by
  have hhandle : sys.worker.handle libs (.req req sendError) =
      sys.worker.handleReq req sendError := if_pos hrunning
  rcases handleReq_effect req sendError sys.worker with hquiet | hsends
  · exact h.quiet_step (hhandle ▸ hquiet)
  · rw [← hhandle] at hsends
    obtain ⟨hfresh, htaken⟩ := h.fresh hsends.next
    -- nothing belongs to the request that has just been received
    have hnone : ∀ id, (id, some sys.requests.length) ∉ sys.sent := by
      intro id hmem
      obtain ⟨m, hm, heq⟩ := h.owned _ hmem
      cases heq
      omega
    have hreq : (sys.step libs (.req req sendError)).requests[sys.requests.length]? =
        some req := by
      show (if sys.worker.running then sys.requests ++ [req] else sys.requests)[_]? = _
      rw [if_pos hrunning]
      exact List.getElem?_concat_length
    refine h.send (h.numbers (.inr hsends.next)) hfresh htaken hfew (fun id kind hk => ?_) hreq
      (.inl rfl) (fun a ha heq => ?_) ?_ ?_
    · exact (hsends.pending id kind hk).imp_right fun hold => ⟨hold, hnone id⟩
    · obtain ⟨m, req', hm, hreq', _⟩ := h.variant a ha
      rw [hm] at heq
      cases heq
      have hlt := (List.getElem?_eq_some_iff.mp hreq').1
      omega
    · rw [step_sent, hsends.sent]
      rfl
    · rw [step_answers, hsends.results, List.map_nil, List.append_nil]

/-- A frame answers the request its number belongs to, or takes the next step
    of its authentication. -/
theorem Ordered.data_step {sys : System} (h : Ordered sys) (hrunning : sys.worker.running = true)
    {libs : Libs} {data : Bytes} {post : String → Json → Except String Json}
    {sendError : Option String}
    (hfew : (sys.step libs (.data data post sendError)).taken < 2 ^ 31) :
    Ordered (sys.step libs (.data data post sendError)) := by
  have hhandle : sys.worker.handle libs (.data data post sendError) =
      sys.worker.handlePortMsg libs post sendError data := if_pos hrunning
  rcases handlePortMsg_effect libs post sendError data sys.worker with hquiet | heffect
  · exact h.quiet_step (hhandle ▸ hquiet)
  · obtain ⟨resp, kind, hvalue, hpending, heffect⟩ := heffect
    rw [← hhandle] at heffect
    obtain ⟨n, req, hmem, hreq, hserves⟩ := h.serves hpending
    -- what stays pending does not belong to the request
    have hothers : ∀ (id : Int) (kind' : PendingRequest),
        (sys.worker.without ((parseI32 resp.id).getD 0)).pendingRequests[id]? = some kind' →
        sys.worker.pendingRequests[id]? = some kind' ∧ (id, some n) ∉ sys.sent := by
      intro id kind' hk
      obtain ⟨hne, hk⟩ := without_pending hk
      exact ⟨hk, fun hmem' => hne (h.single hk hpending hmem' hmem)⟩
    have hfew' := (taken_step libs sys (.data data post sendError)).trans_lt hfew
    have hsource := h.source_eq hfew' hvalue hmem post sendError
    rcases heffect with hanswers | ⟨rfl, next, hnext, hsends⟩
    · obtain ⟨result, hresult, hanswered⟩ := hanswers.results
      have hvariant := fun r (hr : result = .ok r) => hanswered r req hr hserves
      refine h.answer (h.numbers (.inl hanswers.next))
        (fun id kind' hk => hothers id kind' (hanswers.pending id kind' hk)) hreq
        (h.unanswered hpending hmem) hvariant ?_ ?_
      · rw [step_sent, hanswers.sent, List.map_nil, List.append_nil]
      · rw [step_answers, hresult, hsource]
        rfl
    · obtain ⟨hfresh, htaken⟩ := h.fresh hsends.next
      have hauth : req.pending = .httpRequest := by
        rcases hserves with heq | ⟨heq, _⟩
        · exact heq.symm
        · cases heq
      have hserves' : Serves next req := by
        rcases hnext with rfl | rfl
        · exact .inl hauth.symm
        · exact .inr ⟨rfl, hauth⟩
      have hnumbers := h.numbers (.inr hsends.next)
      refine h.send hnumbers hfresh htaken hfew (fun id kind' hk => ?_)
        (hnumbers.getElem? hreq) hserves' (h.unanswered hpending hmem) ?_ ?_
      · exact (hsends.pending id kind' hk).imp_right (hothers id kind')
      · rw [step_sent, hsends.sent, hsource]
        rfl
      · rw [step_answers, hsends.results, List.map_nil, List.append_nil]

/-- **ONE EVENT** keeps the account in order. -/
theorem ordered_step {sys : System} (h : Ordered sys) {libs : Libs} {event : Event}
    (hfew : (sys.step libs event).taken < 2 ^ 31) : Ordered (sys.step libs event) := by
  by_cases hrunning : sys.worker.running = true
  case neg =>
    have hhandle : sys.worker.handle libs event = (sys.worker, []) := if_neg hrunning
    exact h.quiet_step (by rw [hhandle]; exact quiet_refl _)
  cases event with
  | quit =>
      have hhandle : sys.worker.handle libs .quit =
          ({ sys.worker with running := false }, []) := if_pos hrunning
      exact h.quiet_step (by rw [hhandle]; exact ⟨remains_refl _, rfl, rfl, .inl rfl⟩)
  | fatalError e =>
      have hhandle : sys.worker.handle libs (.fatalError e) =
          (sys.worker, [.call (.fatalError e)]) := if_pos hrunning
      exact h.quiet_step (by rw [hhandle]; exact ⟨remains_refl _, rfl, rfl, .inl rfl⟩)
  | req req sendError => exact h.req_step hrunning hfew
  | data data post sendError => exact h.data_step hrunning hfew

theorem ordered_run (libs : Libs) (events : List Event)
    (hfew : (System.run libs events).taken < 2 ^ 31) : Ordered (System.run libs events) := by
  induction events using List.reverseRecOn with
  | nil => exact ordered_init
  | append_singleton events event ih =>
      have hrun : System.run libs (events ++ [event]) =
          (System.run libs events).step libs event := by
        unfold System.run
        rw [List.foldl_append]
        rfl
      rw [hrun] at hfew ⊢
      exact ordered_step (ih ((taken_step _ _ _).trans_lt hfew)) hfew

/-- **THE REPLIES**: whatever requests are passed to the worker and whatever
    frames arrive, as long as fewer than `2^31` numbers are taken, all numbers
    that are sent are different; every response is given on behalf of a request,
    through the number the frame carries; no two are given on behalf of the
    same one; and one that is not an error has its variant. -/
theorem requests_answered_once (libs : Libs) (events : List Event)
    (hfew : (System.run libs events).taken < 2 ^ 31) :
    ((System.run libs events).sent.map (·.1)).Nodup ∧
    ((System.run libs events).answers.map (·.1)).Nodup ∧
    ∀ a ∈ (System.run libs events).answers, ∃ n req, a.1 = some n ∧
      (System.run libs events).requests[n]? = some req ∧
      ∀ resp, a.2 = .ok resp → resp.ofVariant req = true := by
  have h := ordered_run libs events hfew
  exact ⟨h.distinct, h.once, h.variant⟩

/-- Two frames of a device: a request to be made, and the end of it. -/
def sampleLibs : Libs where
  value := fun
    | [1] => .ok ⟨"25001", some .null, none⟩
    | _ => .ok ⟨"25002", some (.bool true), none⟩
  versionInfo := fun _ => .error "not a version"
  authUser := fun _ => .ok ⟨"25001", some ⟨["url"], .null, "handshake_complete"⟩, none⟩
  bool := fun _ => .ok ⟨"25002", some true, none⟩
  text := fun _ => .error "not a text"
  byteSeq := fun _ => .error "not bytes"
  byteBuf := fun _ => .error "not bytes"
  commitments := fun _ => .error "not commitments"
  base64 := fun _ => none
  debug := fun _ => ""

/-- An authentication, with a status request that is held back and frames that
    come twice. -/
def sampleEvents : List Event :=
  [.req (.authUser .liquid) none, .req .readStatus none,
    .data [1] (fun _ _ => .ok .null) none, .data [1] (fun _ _ => .ok .null) none,
    .data [2] (fun _ _ => .ok .null) none, .data [2] (fun _ _ => .ok .null) none]

theorem authentication_answered_once :
    ((System.run sampleLibs sampleEvents).answers.map (·.1)).Nodup ∧
      (System.run sampleLibs sampleEvents).answers = [(some 0, .ok (.authUser true))] := by
  have hfew : (System.run sampleLibs sampleEvents).taken < 2 ^ 31 := by decide +kernel
  exact ⟨(requests_answered_once sampleLibs sampleEvents hfew).2.1, by decide +kernel⟩

end Jade
