import SideSwap.ClientOrders

/-! # The worker and the socket thread

    The wallet worker and the thread of `ws/manual.rs` talk over two queues.
    The worker is the one of `ClientSystem`: what a handler sends to the thread
    is read off the events it records.  A handler takes one message of the
    thread at most, when it begins, and sends at the end of the other queue, so
    that what the thread does in the meantime can as well be done afterwards.

    A panic in either thread aborts the process, by the hook that
    `sideswap_client_start` sets.  The end of the stream without an error is
    such a panic. -/

namespace Client

open Api Program Transition History Relation

/-! ## Messages -/

/-- `WrappedRequest`. -/
inductive WrappedRequest where
  | connect
  | disconnect
  | request (req : Request)
deriving DecidableEq

/-- A response of the server, by what the thread that forwards it makes of it. -/
inductive ServerResponse where
  | notification (notif : Notification)
  | asyncResp (requestId : String) (res : Except Error Response)
  | subscribe (orders : List OrderCreatedNotification)
  | unsubscribe (asset : Option AssetId)
  /-- ignored, or passed to the handler that waits for it in `send_request` -/
  | other

/-- `WrappedResponse`. -/
inductive WrappedResponse where
  | connected
  | disconnected
  | response (resp : ServerResponse)

/-- The message that the worker gets. -/
def WrappedResponse.message? : WrappedResponse → Option Message
  | .connected => some .serverConnected
  | .disconnected => some .serverDisconnected
  | .response (.notification notif) => some (.serverNotification notif)
  | .response (.asyncResp requestId res) => some (.asyncResp requestId res)
  | .response (.subscribe orders) => some (.subscribe orders)
  | .response (.unsubscribe asset) => some (.unsubscribe asset)
  | .response .other => none

/-- What an event of the worker sends to the socket thread. -/
def Event.wrapped? : Event → Option WrappedRequest
  | .request req _ => some (.request req)
  | .asyncRequest _ req _ => some (.request req)
  | .socket .connect => some .connect
  | .socket .disconnect => some .disconnect
  | _ => none

/-- A reconnect hint. -/
def Event.isHint : Event → Bool
  | .socket .hint => true
  | _ => false

/-- What `ws_stream.next()` returns. -/
inductive StreamItem where
  /-- a text, and the response it parses to -/
  | text (resp : Option ServerResponse)
  | ping
  | other
  | error
  /-- the stream has ended -/
  | none

/-! ## The socket thread -/

/-- Where `run` is. -/
inductive Socket where
  | idle
  | connecting (reconnectCount : Nat)
  | connected
deriving DecidableEq, Repr

/-- `PONG_TIMEOUT`, in seconds. -/
def pongTimeout : Nat := 90

/-- Worker and socket thread, and what is on the way between them. -/
structure Link where
  worker : System
  socket : Socket
  requests : List WrappedRequest
  responses : List WrappedResponse
  hints : Nat
  /-- the socket thread has panicked -/
  panicked : Bool

/-- The end of the loop of a connection. -/
def Link.close (s : Link) : Link :=
  { s with socket := .idle, responses := s.responses ++ [.disconnected] }

/-- `req_rx_async.recv()`: nobody calls it while a connection is made. -/
def Link.recv (s : Link) : Link :=
  match s.socket, s.requests with
  | .idle, .connect :: rest => { s with socket := .connecting 0, requests := rest }
  | .idle, _ :: rest => { s with requests := rest }
  | .connected, .disconnect :: rest => { s with requests := rest }.close
  | .connected, _ :: rest => { s with requests := rest }
  | _, _ => s

/-- The result of `connect_async`. -/
def Link.attempt (s : Link) (success : Bool) : Link :=
  match s.socket with
  | .connecting n =>
      if success then
        { s with socket := .connected, responses := s.responses ++ [.connected] }
      else { s with socket := .connecting (n + 1) }
  | _ => s

/-- `hint_rx.recv()`. -/
def Link.hint (s : Link) : Link :=
  match s.socket, s.hints with
  | .connecting _, n + 1 => { s with socket := .connecting 0, hints := n }
  | _, _ => s

/-- `ws_stream.next()`. -/
def Link.next (s : Link) (item : StreamItem) : Link :=
  if s.socket = .connected then
    match item with
    | .text (some resp) => { s with responses := s.responses ++ [.response resp] }
    | .text none => s
    | .ping => s
    | .other => s
    | .error => s.close
    | .none => { s with panicked := true }
  else s

/-- `interval.tick()`, so many seconds after the last message. -/
def Link.tick (s : Link) (lastRecvDuration : Nat) : Link :=
  if s.socket = .connected ∧ pongTimeout < lastRecvDuration then s.close else s

/-! ## The worker -/

/-- The worker handles a message. -/
def Link.handle (world : World) (s : Link) (msg : Message) : Link :=
  let worker := step world s.worker msg
  let events := worker.data.log.drop s.worker.data.log.length
  { s with
    worker
    requests := s.requests ++ events.filterMap Event.wrapped?
    hints := s.hints + events.countP Event.isHint }

/-- The worker takes what the socket thread has sent. -/
def Link.deliver (world : World) (s : Link) : Link :=
  match s.responses with
  | [] => s
  | resp :: rest =>
      match resp.message? with
      | some msg => { s with responses := rest }.handle world msg
      | none => { s with responses := rest }

/-- What can happen next. -/
inductive LinkInput where
  /-- a message of the user interface, a wallet session or a timer -/
  | message (msg : Message)
  | deliver
  /-- a request whose answer the worker does not wait for -/
  | request (req : Request)
  | recv
  | attempt (success : Bool)
  | hint
  | next (item : StreamItem)
  | tick (lastRecvDuration : Nat)

/-- Only the socket thread reports on the connection. -/
def Message.isConnection : Message → Bool
  | .serverConnected => true
  | .serverDisconnected => true
  | _ => false

/-- The process has been aborted. -/
def Link.aborted (s : Link) : Bool := s.panicked || s.worker.stopped

def linkStep (world : World) (s : Link) (i : LinkInput) : Link :=
  if s.aborted then s
  else match i with
    | .message msg => if msg.isConnection then s else s.handle world msg
    | .deliver => s.deliver world
    | .request req => { s with requests := s.requests ++ [.request req] }
    | .recv => s.recv
    | .attempt success => s.attempt success
    | .hint => s.hint
    | .next item => s.next item
    | .tick lastRecvDuration => s.tick lastRecvDuration

/-- Both threads have been started, and have done nothing. -/
inductive Link.Starts : Link → Prop where
  | start {worker : System} : Client.Starts worker → Link.Starts ⟨worker, .idle, [], [], 0, false⟩

/-- `logged_in()`, of a worker that runs. -/
def Link.loggedIn (s : Link) : Bool := !s.aborted && !s.worker.data.wallets.isEmpty

/-- Somebody will act: the socket thread connects or is connected, or it is told
    to, or the worker is told that it is not. -/
def Link.Attended (s : Link) : Prop :=
  s.socket ≠ .idle ∨ .connect ∈ s.requests ∨ .disconnected ∈ s.responses

/-! ## Logging in -/

/-- **ONE ACT**: who is logged in after an act of a turn that is not a login was
    logged in before. -/
theorem Act.loggedIn {world : World} {cause : Message} {c c' : Core} (h : Act world cause c c')
    (hcause : ∀ req, cause ≠ .ui (.login req)) (hin : c'.wallets.isEmpty = false) :
    c.wallets.isEmpty = false := by
  cases h with
  | note hnote =>
      cases hnote with
      | note _ _ => exact hin
  | openWallet hlogin _ _ _ => exact absurd hlogin (hcause _)
  | closeWallet =>
      -- a table with a line less has not been empty
      rw [Std.TreeMap.isEmpty_erase] at hin
      simp only [Bool.or_eq_false_iff] at hin
      exact hin.1
  | @reopenWallet accountId xpubs hwallet =>
      rw [Std.TreeMap.isEmpty_eq_false_iff_exists_mem]
      exact ⟨accountId, Std.TreeMap.mem_iff_isSome_getElem?.mpr (by rw [hwallet]; rfl)⟩
  | logout _ _ => cases hin
  | takeQueued _ htake =>
      cases htake with
      | refuse _ => exact hin
      | queue _ _ _ _ => exact hin
      | autoSign _ _ _ _ _ _ => exact hin
  | takeArrived _ htake =>
      cases htake with
      | refuse _ => exact hin
      | queue _ _ _ _ => exact hin
      | autoSign _ _ _ _ _ _ => exact hin
  | _ => exact hin

theorem Plays.loggedIn {world : World} {cause : Message} {c c' : Core}
    (h : Plays world cause c c') (hcause : ∀ req, cause ≠ .ui (.login req))
    (hin : c'.wallets.isEmpty = false) : c.wallets.isEmpty = false := by
  induction h with
  | refl => exact hin
  | tail _ hlast ih =>
      refine ih ?_
      cases hlast with
      | act hact => exact hact.loggedIn hcause hin
      | list hlist =>
          cases hlist with
          | change _ => exact hin
          | shows hshow =>
              cases hshow with
              | remove _ => exact hin
              | put _ _ => exact hin

/-- A login ends by telling the socket thread to connect, or leaves the wallets
    as they are. -/
def Connects (wallets : Std.TreeMap AccountId XPubInfo) : Except Stop Unit × Data → Prop
  | (.ok _, d) => d.log.getLast? = some (.socket .connect)
  | (.error _, d) => d.wallets = wallets

theorem exec_sendWalletLoaded (d : Data) : ∃ d', exec sendWalletLoaded d = (.ok (), d') := by
  unfold sendWalletLoaded
  rw [exec_get_bind]
  split
  · exact ⟨_, rfl⟩
  · exact ⟨_, rfl⟩

theorem tryProcessLoginRequest_connects (world : World) (req : Login) (d : Data) :
    Connects d.wallets (exec (tryProcessLoginRequest world req) d) := by
  -- the last step of a login that succeeds, whatever the wallets were at first
  have hrest : ∀ wallets (d : Data), Connects wallets (exec (do
      let data ← get
      if data.pendingSubmits.isEmpty && data.pendingLinks.isEmpty then
        sendWalletLoaded
      emit (.socket .connect)) d) := by
    intro wallets d
    rw [exec_get_bind]
    split
    · obtain ⟨d', hload⟩ := exec_sendWalletLoaded d
      rw [exec_bind, hload]
      exact List.getLast?_concat
    · exact List.getLast?_concat
  unfold tryProcessLoginRequest
  rw [exec_modify_bind]
  cases req.wallet with
  | none => exact rfl
  | some wallet =>
      rw [expect_some]
      show Connects d.wallets (exec (registerWallet world wallet >>= _) _)
      rw [exec_bind]
      have hregister : (exec (registerWallet world wallet)
          { d with forceAutoSignMaker := req.forceAutoSignMaker.getD false }).2.wallets =
            d.wallets := by
        unfold registerWallet
        rw [exec_get_bind]
        split
        · rfl
        · cases world.register d.log wallet with
          | error e => rfl
          | ok regInfo => rfl
      rcases hexec : exec (registerWallet world wallet)
        { d with forceAutoSignMaker := req.forceAutoSignMaker.getD false } with ⟨e | regInfo, d'⟩
      · rw [hexec] at hregister
        exact hregister
      · rw [hexec] at hregister
        have hd' : d'.wallets = d.wallets := hregister
        show Connects d.wallets (exec (ofResult (checkWatchOnly regInfo wallet) >>= _) d')
        cases checkWatchOnly regInfo wallet with
        | error e => exact hd'
        | ok _ =>
            rw [exec_ofResult_ok_bind, exec_get_bind]
            cases world.startSessions d'.log with
            | error e => exact hd'
            | ok walletAmpRes =>
                rw [exec_ofResult_ok_bind]
                cases xpubInfo world regInfo wallet with
                | error e => exact hd'
                | ok xpubs =>
                    cases walletAmpRes with
                    | error e => exact hrest _ _
                    | ok _ => exact hrest _ _

/-- The end of a connection, for a worker that is logged in. -/
theorem processWsDisconnected_connects (d : Data)
    (h : (exec processWsDisconnected d).2.wallets.isEmpty = false) :
    (exec processWsDisconnected d).2.log.getLast? = some (.socket .connect) := by
  unfold processWsDisconnected at h ⊢
  rw [exec_modify_bind, exec_bind] at h ⊢
  obtain ⟨d1, hexec, _⟩ := exec_syncOrderList { d with connected := false, ordersLast := ∅ }
  rw [hexec] at h ⊢
  unfold uiSend emit at h ⊢
  dsimp only at h ⊢
  rw [exec_modify_bind, exec_get_bind, exec_modify_bind, exec_bind, exec_runCallbacks] at h ⊢
  dsimp only at h ⊢
  rw [exec_get_bind] at h ⊢
  split at h
  · next hin =>
      rw [if_pos hin]
      exact List.getLast?_concat
  · next hout =>
      have hin : d1.wallets.isEmpty = false := h
      have hout : ¬ (!d1.wallets.isEmpty) = true := hout
      rw [hin] at hout
      exact absurd rfl hout

/-- What a turn ends with, the turn has said. -/
theorem mem_of_getLast? {log es : List Event} {msg : Message} {e : Event}
    (h : (log ++ [Event.received msg] ++ es).getLast? = some e) (he : e ≠ .received msg) : e ∈ es := by
  rcases List.eq_nil_or_concat es with rfl | ⟨es, last, rfl⟩
  · rw [List.append_nil, List.getLast?_concat] at h
    exact absurd (Option.some.inj h).symm he
  · rw [List.concat_eq_append, ← List.append_assoc, List.getLast?_concat] at h
    rw [Option.some.inj h, List.concat_eq_append]
    exact List.mem_append_right es (List.mem_singleton_self e)

/-- A login tells the socket thread to connect, or opens no wallet. -/
theorem processLoginRequest_connects (world : World) (req : Login) {d : Data} {log : List Event}
    (hlog : d.log = log ++ [.received (.ui (.login req))]) :
    (∃ es, (exec (processLoginRequest world req) d).2.log = d.log ++ es ∧
      .socket .connect ∈ es) ∨
    (exec (processLoginRequest world req) d).2.wallets = d.wallets := by
  have htry := tryProcessLoginRequest_connects world req d
  have hgrows : Grows d.core (exec (tryProcessLoginRequest world req) d).2.core :=
    Acts.grows (tryProcessLoginRequest_does world rfl)
  obtain ⟨es, hes, _⟩ := hgrows
  have hes : (exec (tryProcessLoginRequest world req) d).2.log = d.log ++ es := hes
  unfold processLoginRequest
  rw [exec_attempt_bind]
  rcases hexec : exec (tryProcessLoginRequest world req) d with ⟨(msg | e) | _, d'⟩
  · rw [hexec] at htry
    exact .inr htry
  · rw [hexec] at htry
    exact .inr htry
  · rw [hexec] at htry hes
    have hlast : d'.log.getLast? = some (.socket .connect) := htry
    have hes : d'.log = d.log ++ es := hes
    rw [hes, hlog] at hlast
    have hmem := mem_of_getLast? hlast (by rintro ⟨⟩)
    refine .inl ⟨es ++ [.toUi (.login (.ok ()))], ?_, List.mem_append_left _ hmem⟩
    show d'.log ++ [_] = _
    rw [hes, List.append_assoc]

/-- **ONE MESSAGE**: a worker that is logged in afterwards has told the socket
    thread to connect, or it was logged in before and has not just been told of
    the end of a connection. -/
theorem step_connects (world : World) {s : System} (hs : s.stopped = false) (msg : Message)
    (hin : (step world s msg).data.wallets.isEmpty = false) :
    ∃ es, (step world s msg).data.log = s.data.log ++ es ∧
      (.socket .connect ∈ es ∨
        (s.data.wallets.isEmpty = false ∧ msg ≠ .serverDisconnected)) := by
  have hplays := step_plays world s msg hs
  obtain ⟨es, hlog, _⟩ := hplays.grows
  have hlog : (step world s msg).data.log = s.data.log ++ [.received msg] ++ es := hlog
  have hdata : (step world s msg).data =
      (exec (processMessage world msg) (s.data.emit (.received msg))).2 := by
    unfold step
    rw [hs]
    exact finish_data _ _
  refine ⟨.received msg :: es, by rw [hlog, List.append_assoc]; rfl, ?_⟩
  by_cases hdisconnected : msg = .serverDisconnected
  · subst hdisconnected
    rw [hdata] at hin hlog
    have hlast := processWsDisconnected_connects _ hin
    rw [show (exec processWsDisconnected _).2.log = _ from hlog] at hlast
    exact .inl (List.mem_cons_of_mem _ (mem_of_getLast? hlast (by rintro ⟨⟩)))
  · by_cases hlogin : ∃ req, msg = .ui (.login req)
    · obtain ⟨req, rfl⟩ := hlogin
      rw [hdata] at hin hlog
      rcases processLoginRequest_connects world req (d := s.data.emit (.received (.ui (.login req))))
        rfl with ⟨es', hes', hmem⟩ | hsame
      · have hsame : es = es' := List.append_cancel_left (hlog.symm.trans hes')
        exact .inl (List.mem_cons_of_mem _ (hsame ▸ hmem))
      · refine .inr ⟨?_, hdisconnected⟩
        have hin : (exec (processLoginRequest world req)
            (s.data.emit (.received (.ui (.login req))))).2.wallets.isEmpty = false := hin
        rw [hsame] at hin
        exact hin
    · have hcause : ∀ req, msg ≠ .ui (.login req) := fun req h => hlogin ⟨req, h⟩
      exact .inr ⟨hplays.loggedIn hcause hin, hdisconnected⟩

/-! ## Nobody waits for the other -/

/-- While the worker is logged in somebody will act. -/
def Link.Inv (s : Link) : Prop := s.loggedIn = true → s.Attended

theorem Link.loggedIn_iff {s : Link} : s.loggedIn = true ↔
    s.aborted = false ∧ s.worker.data.wallets.isEmpty = false := by
  unfold Link.loggedIn
  rw [Bool.and_eq_true, Bool.not_eq_true', Bool.not_eq_true']

/-- The worker handles a message: it may be the only `Disconnected`, but then it
    is answered. -/
theorem Link.handle_inv {world : World} {s : Link} (h : s.Inv) (hrun : s.aborted = false)
    {responses : List WrappedResponse} {msg : Message}
    (hrest : msg ≠ .serverDisconnected → .disconnected ∈ s.responses → .disconnected ∈ responses) :
    ({ s with responses }.handle world msg).Inv := by
  intro hin
  obtain ⟨haborted, hwallets⟩ := Link.loggedIn_iff.mp hin
  have hstopped : s.worker.stopped = false := (Bool.or_eq_false_iff.mp hrun).2
  obtain ⟨es, hlog, hes⟩ := step_connects world hstopped msg hwallets
  have hnew : (step world s.worker msg).data.log.drop s.worker.data.log.length = es := by
    rw [hlog, List.drop_left]
  rcases hes with hconnect | ⟨hbefore, hmsg⟩
  · refine .inr (.inl ?_)
    show WrappedRequest.connect ∈ s.requests ++ _
    rw [hnew]
    exact List.mem_append_right _ (List.mem_filterMap.mpr ⟨_, hconnect, rfl⟩)
  · rcases h (Link.loggedIn_iff.mpr ⟨hrun, hbefore⟩) with hsocket | hrequest | hresponse
    · exact .inl hsocket
    · exact .inr (.inl (List.mem_append_left _ hrequest))
    · exact .inr (.inr (hrest hmsg hresponse))

/-- What the worker takes from its queue. -/
theorem Link.deliver_inv {world : World} {s : Link} (h : s.Inv) (hrun : s.aborted = false) :
    (s.deliver world).Inv := by
  unfold Link.deliver
  cases hresponses : s.responses with
  | nil => exact h
  | cons resp rest =>
      have hrest : resp ≠ .disconnected → .disconnected ∈ s.responses → .disconnected ∈ rest := by
        intro hne hmem
        rw [hresponses] at hmem
        exact (List.mem_cons.mp hmem).resolve_left (Ne.symm hne)
      dsimp only
      cases hmsg : resp.message? with
      | some msg =>
          refine Link.handle_inv h hrun fun hne hmem => hrest ?_ hmem
          rintro rfl
          exact hne (Option.some.inj hmsg).symm
      | none =>
          intro hin
          rcases h hin with hsocket | hrequest | hresponse
          · exact .inl hsocket
          · exact .inr (.inl hrequest)
          · refine .inr (.inr (hrest ?_ hresponse))
            rintro rfl
            cases hmsg

/-- A connection that ends is reported. -/
theorem Link.close_inv (s : Link) : s.close.Inv :=
  fun _ => .inr (.inr (List.mem_append_right _ (List.mem_singleton_self _)))

/-- What the socket thread takes from its queue: a `Connect` is lost only to a
    thread that is connected. -/
theorem Link.recv_inv {s : Link} (h : s.Inv) : s.recv.Inv := by
  unfold Link.recv
  cases hsocket : s.socket with
  | connecting n => exact fun _ => .inl (by rw [hsocket]; rintro ⟨⟩)
  | connected =>
      cases hrequests : s.requests with
      | nil => exact h
      | cons req rest =>
          cases req with
          | disconnect => exact Link.close_inv _
          | connect => exact fun _ => .inl (by rintro ⟨⟩)
          | request req => exact fun _ => .inl (by rintro ⟨⟩)
  | idle =>
      -- a request that is dropped is not the `Connect` that is waited for
      have hdrop : ∀ {req rest}, s.requests = req :: rest → req ≠ .connect →
          Link.Inv { s with socket := .idle, requests := rest } := by
        intro req rest hrequests hreq hin
        rcases h hin with hsocket' | hrequest | hresponse
        · exact absurd hsocket hsocket'
        · rw [hrequests] at hrequest
          exact .inr (.inl ((List.mem_cons.mp hrequest).resolve_left (Ne.symm hreq)))
        · exact .inr (.inr hresponse)
      cases hrequests : s.requests with
      | nil => exact h
      | cons req rest =>
          cases req with
          | connect => exact fun _ => .inl (by rintro ⟨⟩)
          | disconnect => exact hdrop hrequests (by rintro ⟨⟩)
          | request req => exact hdrop hrequests (by rintro ⟨⟩)

theorem Link.attempt_inv {s : Link} (h : s.Inv) (success : Bool) : (s.attempt success).Inv := by
  unfold Link.attempt
  cases s.socket with
  | connecting n =>
      cases success with
      | true => exact fun _ => .inl (by rintro ⟨⟩)
      | false => exact fun _ => .inl (by rintro ⟨⟩)
  | idle => exact h
  | connected => exact h

theorem Link.hint_inv {s : Link} (h : s.Inv) : s.hint.Inv := by
  unfold Link.hint
  split
  · exact fun _ => .inl (by rintro ⟨⟩)
  · exact h

/-- Nothing that the server sends disconnects silently. -/
theorem Link.next_inv {s : Link} (h : s.Inv) (item : StreamItem) : (s.next item).Inv := by
  unfold Link.next
  split
  · next hsocket =>
      have hconnected : s.socket ≠ .idle := by
        rw [hsocket]
        rintro ⟨⟩
      cases item with
      | text resp =>
          cases resp with
          | none => exact h
          | some resp => exact fun _ => .inl hconnected
      | ping => exact h
      | other => exact h
      | error => exact Link.close_inv s
      | none => exact fun _ => .inl hconnected
  · exact h

theorem Link.tick_inv {s : Link} (h : s.Inv) (lastRecvDuration : Nat) :
    (s.tick lastRecvDuration).Inv := by
  unfold Link.tick
  split
  · exact Link.close_inv s
  · exact h

/-- **ONE STEP** of either thread. -/
theorem linkStep_inv {world : World} {s : Link} (h : s.Inv) (i : LinkInput) :
    (linkStep world s i).Inv := by
  unfold linkStep
  split
  · exact h
  · next hrun =>
      have hrun : s.aborted = false := Bool.eq_false_iff.mpr hrun
      cases i with
      | message msg =>
          dsimp only
          split
          · exact h
          · exact Link.handle_inv h hrun fun _ hmem => hmem
      | deliver => exact Link.deliver_inv h hrun
      | request req =>
          intro hin
          rcases h hin with hsocket | hrequest | hresponse
          · exact .inl hsocket
          · exact .inr (.inl (List.mem_append_left _ hrequest))
          · exact .inr (.inr hresponse)
      | recv => exact Link.recv_inv h
      | attempt success => exact Link.attempt_inv h success
      | hint => exact Link.hint_inv h
      | next item => exact Link.next_inv h item
      | tick lastRecvDuration => exact Link.tick_inv h lastRecvDuration

/-- **NEVER BOTH WAIT**: in every run of the two threads, while the worker is
    logged in the socket thread is connecting or connected, or a `Connect` is in
    its queue, or a `Disconnected` is in the worker's. -/
theorem link_never_both_wait {world : World} {s : Link}
    (h : Reach Link.Starts (linkStep world) (fun _ _ => True) s) (hin : s.loggedIn = true) :
    (∃ n, s.socket = .connecting n) ∨ s.socket = .connected ∨ .connect ∈ s.requests ∨
      .disconnected ∈ s.responses := by
  have hinv : s.Inv := by
    refine Reach.invariant ?_ ?_ h
    · rintro _ ⟨hstarts⟩ hin
      -- nobody is logged in at first
      have hempty : ∀ {worker : System}, Client.Starts worker →
          worker.data.core.wallets.isEmpty = true := by
        intro worker hworker
        refine starts_invariant (I := fun c => c.wallets.isEmpty = true) ?_ ?_ hworker
        · exact fun _ _ _ => rfl
        · rintro c _ ⟨_, _⟩ hc
          exact hc
      have hnot := (Link.loggedIn_iff.mp hin).2
      cases (hempty hstarts).symm.trans hnot
    · intro s i _ hi _
      exact linkStep_inv hi i
  rcases hinv hin with hsocket | hrequest | hresponse
  · cases hstate : s.socket with
    | idle => exact absurd hstate hsocket
    | connecting n => exact .inl ⟨n, rfl⟩
    | connected => exact .inr (.inl rfl)
  · exact .inr (.inr (.inl hrequest))
  · exact .inr (.inr (.inr hresponse))

namespace Sample

/-- The threads of a new worker. -/
def link : Link := ⟨start bitcoin [asset], .idle, [], [], 0, false⟩

/-- A login, a connection at the second attempt, and its end. -/
def reconnecting : List LinkInput :=
  [.message (.ui (.login ⟨some (.mnemonic "wallet"), none⟩)), .recv, .attempt false,
    .attempt true, .deliver, .next .error]

end Sample

/-- Logged in, idle, and a `Disconnected` on the way. -/
theorem reconnecting_attended :
    let s := Transition.run (linkStep (Sample.world .maker)) Sample.link Sample.reconnecting
    (s.loggedIn = true ∧ s.socket = .idle) ∧
    ((∃ n, s.socket = .connecting n) ∨ s.socket = .connected ∨ .connect ∈ s.requests ∨
      .disconnected ∈ s.responses) := by
  have hin : (Transition.run (linkStep (Sample.world .maker)) Sample.link
      Sample.reconnecting).loggedIn = true := by decide +kernel
  have hstart : Reach Link.Starts (linkStep (Sample.world .maker)) (fun _ _ => True)
      Sample.link := .start (.start (.start Sample.bitcoin false .default [Sample.asset]))
  have hallowed : Allowed (linkStep (Sample.world .maker)) (fun _ _ => True) Sample.link
      Sample.reconnecting := by decide +kernel
  exact ⟨⟨hin, by decide +kernel⟩, link_never_both_wait (hstart.run _ hallowed) hin⟩

end Client
