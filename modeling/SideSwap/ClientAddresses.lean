import SideSwap.AsyncCallbacks
import SideSwap.ClientLogout

/-! # Registered addresses

    The worker has the server watch the addresses of the wallet: it asks with
    the device key for the addresses from a counter on, and the callback sets
    the counter to the end of the range it has captured.  Requests overlap,
    answers are late, and the device key and the counters outlive the process
    in the settings.

    A counter is only read while there is a device key, so what is kept is
    about the present key: each address below a counter has been acknowledged
    under it, and each request under way would make its own range true.  A new
    key is only taken on a new connection, when nothing is under way. -/

namespace Client

open Api Program History Relation Transition

/-! ## The runs of an installation -/

/-- The settings on disk: every change of them is saved at once. -/
def Data.settings (data : Data) : Settings where
  deviceKey := data.deviceKey
  registered := data.registered
  regInfo := data.regInfo
  sessionId := data.sessionId

/-- A login names its wallet, and a logout gives it up. -/
def Event.owner? : Event → Option (Option LoginWallet)
  | .received (.ui (.login req)) => req.wallet.map some
  | .received (.ui .logout) => some none
  | _ => none

/-- The wallet that is logged in. -/
def owner (history : List Event) : Option LoginWallet := (latest Event.owner? history).join

/-- What the socket thread says about the connection. -/
def Event.link? : Event → Option Bool
  | .received .serverConnected => some true
  | .received .serverDisconnected => some false
  | _ => none

/-- The socket thread reports a connection only after the last one is closed,
    and the user logs out before another wallet logs in. -/
structure Orderly (past : List (List Event)) (s : System) (msg : Message) : Prop where
  link : msg = .serverConnected → latest Event.link? s.data.log ≠ some true
  login : ∀ req wallet wallet', msg = .ui (.login req) → req.wallet = some wallet →
    owner (past.flatten ++ s.data.log) = some wallet' → wallet = wallet'

/-- Two worlds derive the same keys and addresses. -/
structure World.SameKeys (world world' : World) : Prop where
  parse : world'.parseXpub = world.parseXpub
  path : world'.singleSigAccountPath = world.singleSigAccountPath
  account : world'.accountXpub = world.accountXpub
  single : world'.singleSigAddress = world.singleSigAddress
  multi : world'.multiSigAddress = world.multiSigAddress

/-- The life of an installation: the logs of the processes that have ended, and
    the worker of the present one.  A new process finds the settings of the
    last one, and a world that may have changed but for the derivation of keys. -/
inductive Lives : World → List (List Event) → System → Prop where
  | install (world : World) (liquidAssetId : AssetId) (disableDeviceKey : Bool)
      (assets : List Asset) :
      Lives world []
        (finish (loadAssets assets) (initialData liquidAssetId disableDeviceKey .default))
  | next {world past s msg} : Lives world past s → Orderly past s msg →
      Lives world past (step world s msg)
  | restart {world world' past s} (liquidAssetId : AssetId) (disableDeviceKey : Bool)
      (assets : List Asset) : Lives world past s → world.SameKeys world' →
      Lives world' (past ++ [s.data.log])
        (finish (loadAssets assets) (initialData liquidAssetId disableDeviceKey s.data.settings))

/-! ## What the server has acknowledged -/

/-- A request that registers the address under the key was sent, and then its
    callback was called with an `Ok` response. -/
def Registered (log : List Event) (deviceKey : String) (address : Address) : Prop :=
  ∃ requestId addresses callback resp, address ∈ addresses ∧
    [Event.asyncRequest requestId (.registerAddresses deviceKey addresses) callback,
      .called (some requestId) callback (.ok resp)].Sublist log

/-- The keys of the wallet that is logged in, once it is registered. -/
def Core.keys (world : World) (past : List (List Event)) (c : Core) : Option XPubInfo :=
  (owner (past.flatten ++ c.log)).bind fun wallet =>
    c.regInfo.bind fun regInfo => (xpubInfo world regInfo wallet).toOption

/-- The address of the wallet at the index is registered. -/
def Vouched (world : World) (past : List (List Event)) (c : Core) (deviceKey : String)
    (chain : Chain) (i : Nat) : Prop :=
  ∃ xpubs address, c.keys world past = some xpubs ∧
    deriveAddress world xpubs chain i = .ok address ∧
    ∃ log ∈ past ++ [c.log], Registered log deviceKey address

/-- A request under way, with the addresses up to `last` that it lacks
    registered already. -/
def Asked (world : World) (past : List (List Event)) (c : Core) (deviceKey requestId : String)
    (chain : Chain) (last : Nat) : Prop :=
  ∃ addresses, Event.asyncRequest requestId (.registerAddresses deviceKey addresses)
      (.registerAddresses chain last) ∈ c.log ∧
    ∀ i < last, Vouched world past c deviceKey chain i ∨
      ∃ xpubs address, c.keys world past = some xpubs ∧
        deriveAddress world xpubs chain i = .ok address ∧ address ∈ addresses

/-- **INVARIANT**: every open wallet is the one that is logged in; under the
    device key, the counters and the requests under way tell the truth. -/
structure Counted (world : World) (past : List (List Event)) (c : Core) : Prop where
  opened : ∀ (accountId : AccountId) xpubs, c.wallets[accountId]? = some xpubs →
    c.keys world past = some xpubs
  counters : ∀ deviceKey, c.deviceKey = some deviceKey → ∀ chain, ∀ i < c.registered chain,
    Vouched world past c deviceKey chain i
  pending : ∀ deviceKey, c.deviceKey = some deviceKey → ∀ (requestId : String) chain last,
    c.asyncRequests[requestId]? = some (.registerAddresses chain last) →
    Asked world past c deviceKey requestId chain last

/-- The log grows, and the keys are not lost. -/
structure Extends (world : World) (past : List (List Event)) (c c' : Core) : Prop where
  log : ∃ es, c'.log = c.log ++ es
  keys : ∀ xpubs, c.keys world past = some xpubs → c'.keys world past = some xpubs

section Counting

variable {world : World} {past : List (List Event)} {c c' : Core} {cause : Message}

theorem Registered.mono {log log' : List Event} {deviceKey : String} {address : Address}
    (h : Registered log deviceKey address) (hlog : log.Sublist log') :
    Registered log' deviceKey address := by
  obtain ⟨requestId, addresses, callback, resp, hmem, hsent⟩ := h
  exact ⟨requestId, addresses, callback, resp, hmem, hsent.trans hlog⟩

theorem Vouched.extends {deviceKey : String} {chain : Chain} {i : Nat}
    (h : Vouched world past c deviceKey chain i) (hext : Extends world past c c') :
    Vouched world past c' deviceKey chain i := by
  obtain ⟨xpubs, address, hkeys, hderive, log, hlog, hreg⟩ := h
  refine ⟨xpubs, address, hext.keys xpubs hkeys, hderive, ?_⟩
  rcases List.mem_append.mp hlog with hpast | hnow
  · exact ⟨log, List.mem_append_left _ hpast, hreg⟩
  · rw [List.mem_singleton.mp hnow] at hreg
    obtain ⟨es, hes⟩ := hext.log
    refine ⟨c'.log, List.mem_append_right _ (List.mem_singleton_self _), hreg.mono ?_⟩
    rw [hes]
    exact List.sublist_append_left c.log es

theorem Asked.extends {deviceKey requestId : String} {chain : Chain} {last : Nat}
    (h : Asked world past c deviceKey requestId chain last) (hext : Extends world past c c') :
    Asked world past c' deviceKey requestId chain last := by
  obtain ⟨addresses, hsent, hall⟩ := h
  obtain ⟨es, hes⟩ := hext.log
  refine ⟨addresses, hes ▸ List.mem_append_left es hsent, ?_⟩
  intro i hi
  rcases hall i hi with hvouched | ⟨xpubs, address, hkeys, hrest⟩
  · exact .inl (hvouched.extends hext)
  · exact .inr ⟨xpubs, address, hext.keys xpubs hkeys, hrest⟩

/-- **STEP RULE**: what is new has to be shown for itself. -/
theorem Counted.step (h : Counted world past c) (hext : Extends world past c c')
    (hopened : ∀ (accountId : AccountId) xpubs, c'.wallets[accountId]? = some xpubs →
      (∃ accountId : AccountId, c.wallets[accountId]? = some xpubs) ∨
      c'.keys world past = some xpubs)
    (hkey : c'.deviceKey = c.deviceKey)
    (hcounters : ∀ deviceKey, c.deviceKey = some deviceKey → ∀ chain, ∀ i < c'.registered chain,
      i < c.registered chain ∨ Vouched world past c' deviceKey chain i)
    (hpending : ∀ deviceKey, c.deviceKey = some deviceKey → ∀ (requestId : String) chain last,
      c'.asyncRequests[requestId]? = some (.registerAddresses chain last) →
      c.asyncRequests[requestId]? = some (.registerAddresses chain last) ∨
      Asked world past c' deviceKey requestId chain last) :
    Counted world past c' := by
  constructor
  · intro accountId xpubs hwallet
    rcases hopened accountId xpubs hwallet with ⟨accountId', hold⟩ | hnew
    · exact hext.keys xpubs (h.opened accountId' xpubs hold)
    · exact hnew
  · intro deviceKey hsome chain i hi
    rw [hkey] at hsome
    rcases hcounters deviceKey hsome chain i hi with hold | hnew
    · exact (h.counters deviceKey hsome chain i hold).extends hext
    · exact hnew
  · intro deviceKey hsome requestId chain last hrequest
    rw [hkey] at hsome
    rcases hpending deviceKey hsome requestId chain last hrequest with hold | hnew
    · exact (h.pending deviceKey hsome requestId chain last hold).extends hext
    · exact hnew

/-- Nothing the counters depend on has changed. -/
theorem Counted.frame (h : Counted world past c) (hext : Extends world past c c')
    (hwallets : c'.wallets = c.wallets) (hkey : c'.deviceKey = c.deviceKey)
    (hregistered : c'.registered = c.registered) (htable : c'.asyncRequests = c.asyncRequests) :
    Counted world past c' := by
  refine h.step hext ?_ hkey ?_ ?_
  · intro accountId xpubs hwallet
    exact .inl ⟨accountId, hwallets ▸ hwallet⟩
  · intro deviceKey _ chain i hi
    exact .inl (hregistered ▸ hi)
  · intro deviceKey _ requestId chain last hrequest
    exact .inl (htable ▸ hrequest)

/-- Without a device key nothing is counted. -/
theorem Counted.noKey (h : Counted world past c) (hext : Extends world past c c')
    (hwallets : c'.wallets = c.wallets) (hkey : c'.deviceKey = none) :
    Counted world past c' := by
  constructor
  · intro accountId xpubs hwallet
    exact hext.keys xpubs (h.opened accountId xpubs (hwallets ▸ hwallet))
  · intro deviceKey hsome
    cases hkey.symm.trans hsome
  · intro deviceKey hsome
    cases hkey.symm.trans hsome

/-! ## The owner and the connection in a turn -/

theorem owner?_of_message? {e : Event} (h : Event.message? e = none) : Event.owner? e = none := by
  cases e with
  | received msg => cases h
  | _ => rfl

theorem link?_of_message? {e : Event} (h : Event.message? e = none) : Event.link? e = none := by
  cases e with
  | received msg => cases h
  | _ => rfl

theorem Grows.owner (h : Grows c c') (history : List Event) :
    owner (history ++ c'.log) = Client.owner (history ++ c.log) := by
  obtain ⟨es, hes, hnone⟩ := h
  rw [hes, ← List.append_assoc]
  unfold Client.owner
  rw [latest_append_none]
  exact List.filterMap_eq_nil_iff.mpr fun e he => owner?_of_message? (hnone e he)

theorem Grows.link (h : Grows c c') : latest Event.link? c'.log = latest Event.link? c.log := by
  obtain ⟨es, hes, hnone⟩ := h
  rw [hes]
  refine latest_append_none (List.filterMap_eq_nil_iff.mpr fun e he => ?_) c.log
  exact link?_of_message? (hnone e he)

theorem Grows.extends (h : Grows c c') (hreg : c'.regInfo = c.regInfo) :
    Extends world past c c' := by
  obtain ⟨es, hes, _⟩ := id h
  refine ⟨⟨es, hes⟩, fun xpubs hkeys => ?_⟩
  unfold Core.keys at hkeys ⊢
  rw [h.owner, hreg]
  exact hkeys

/-! ## One act -/

/-- A range is derived address by address. -/
theorem mem_deriveAddresses {xpubs : XPubInfo} {chain : Chain} {first last i : Nat}
    {addresses : List Address} (h : deriveAddresses world xpubs chain first last = .ok addresses)
    (hfirst : first ≤ i) (hlast : i < last) :
    ∃ address ∈ addresses, deriveAddress world xpubs chain i = .ok address := by
  have hmem : i ∈ List.range' first (last - first) := by
    rw [List.mem_range'_1]
    omega
  unfold deriveAddresses at h
  generalize List.range' first (last - first) = pointers at h hmem
  induction pointers generalizing addresses with
  | nil => cases hmem
  | cons pointer pointers ih =>
      rw [List.mapM_cons] at h
      cases haddress : deriveAddress world xpubs chain pointer with
      | error e =>
          rw [haddress] at h
          cases h
      | ok address =>
          rw [haddress] at h
          cases hrest : pointers.mapM (deriveAddress world xpubs chain) with
          | error e =>
              rw [hrest] at h
              cases h
          | ok rest =>
              rw [hrest] at h
              cases h
              rcases List.mem_cons.mp hmem with rfl | hmem
              · exact ⟨address, List.mem_cons_self, haddress⟩
              · obtain ⟨found, hfound, hderive⟩ := ih hrest hmem
                exact ⟨found, List.mem_cons_of_mem address hfound, hderive⟩

/-- A request asks for what the counter leaves out. -/
theorem Counted.ask (h : Counted world past c) {req : Request} {callback : AsyncRequest}
    (hasks : Asks world c req callback) :
    Counted world past
      { c with
        nextRequestId := c.nextRequestId + 1
        asyncRequests := c.asyncRequests.insert (toString c.nextRequestId) callback
        log := c.log ++ [.asyncRequest (toString c.nextRequestId) req callback] } := by
  have hext : Extends world past c
      { c with
        nextRequestId := c.nextRequestId + 1
        asyncRequests := c.asyncRequests.insert (toString c.nextRequestId) callback
        log := c.log ++ [.asyncRequest (toString c.nextRequestId) req callback] } :=
    (Grows.one rfl rfl).extends rfl
  refine h.step hext (fun accountId xpubs hwallet => .inl ⟨accountId, hwallet⟩) rfl
    (fun _ _ _ _ hi => .inl hi) ?_
  intro deviceKey hkey requestId chain last hrequest
  rw [Table.getElem?_insert_eq] at hrequest
  split at hrequest
  · next hid =>
      -- the new request: below the counter all is registered, above it all is asked for
      cases hrequest
      subst hid
      obtain ⟨key, xpubs, addresses, rfl, hkey', hwallet, hderive⟩ := hasks chain last rfl
      cases hkey.symm.trans hkey'
      refine .inr ⟨addresses, List.mem_append_right _ (List.mem_singleton_self _), ?_⟩
      intro i hi
      rcases Nat.lt_or_ge i (c.registered chain) with hlt | hge
      · exact .inl ((h.counters deviceKey hkey chain i hlt).extends hext)
      · obtain ⟨address, hmem, haddress⟩ := mem_deriveAddresses hderive hge hi
        exact .inr ⟨xpubs, address, hext.keys xpubs (h.opened _ xpubs hwallet), haddress, hmem⟩
  · exact .inl hrequest

/-- Only an acknowledged range changes a counter. -/
theorem callbackRegistered_cases (res : Except Error Response) (callback : AsyncRequest)
    (registered : Chain → Nat) :
    callbackRegistered res callback registered = registered ∨
    ∃ chain last resp, callback = .registerAddresses chain last ∧ res = .ok resp ∧
      callbackRegistered res callback registered = Function.update registered chain last := by
  cases callback with
  | registerAddresses chain last =>
      cases res with
      | error e => exact .inl rfl
      | ok resp => exact .inr ⟨chain, last, resp, rfl, rfl, rfl⟩
  | _ => exact .inl rfl

/-- An acknowledged request makes its range true. -/
theorem Counted.answer (h : Counted world past c) {requestId : String}
    {res : Except Error Response} {callback : AsyncRequest}
    (hcallback : c.asyncRequests[requestId]? = some callback) :
    Counted world past
      { c with
        asyncRequests := c.asyncRequests.erase requestId
        registered := callbackRegistered res callback c.registered
        log := c.log ++ callEvents (some requestId) callback res } := by
  have hext : Extends world past c
      { c with
        asyncRequests := c.asyncRequests.erase requestId
        registered := callbackRegistered res callback c.registered
        log := c.log ++ callEvents (some requestId) callback res } :=
    Grows.extends ⟨_, rfl, fun e he => message?_callEvents he⟩ rfl
  refine h.step hext (fun accountId xpubs hwallet => .inl ⟨accountId, hwallet⟩) rfl ?_ ?_
  · intro deviceKey hkey chain i hi
    rcases callbackRegistered_cases res callback c.registered with hsame | ⟨chain', last, resp,
      rfl, rfl, hset⟩
    · exact .inl (hsame ▸ hi)
    · have hi' : i < callbackRegistered (.ok resp) (.registerAddresses chain' last)
          c.registered chain := hi
      rw [hset, Function.update_apply] at hi'
      split at hi'
      · next hchain =>
          subst hchain
          obtain ⟨addresses, hsent, hall⟩ :=
            h.pending deviceKey hkey requestId chain last hcallback
          rcases hall i hi' with hvouched | ⟨xpubs, address, hkeys, hderive, hmem⟩
          · exact .inr (hvouched.extends hext)
          · refine .inr ⟨xpubs, address, hext.keys xpubs hkeys, hderive, _,
              List.mem_append_right _ (List.mem_singleton_self _), requestId, addresses,
              .registerAddresses chain last, resp, hmem, ?_⟩
            exact (List.singleton_sublist.mpr hsent).append
              (List.singleton_sublist.mpr List.mem_cons_self)
      · exact .inl hi'
  · intro deviceKey hkey id chain last hrequest
    rw [Table.getElem?_erase_eq] at hrequest
    split at hrequest
    · cases hrequest
    · exact .inl hrequest

/-- A new key starts from nothing, when nothing is under way. -/
theorem Counted.newKey (h : Counted world past c)
    (hempty : ∀ requestId : String, c.asyncRequests[requestId]? = none) (deviceKey : String) :
    Counted world past { c with deviceKey := some deviceKey, registered := fun _ => 0 } := by
  refine ⟨h.opened, ?_, ?_⟩
  · intro key _ chain i hi
    cases hi
  · intro key _ requestId chain last hrequest
    cases (hempty requestId).symm.trans hrequest

theorem keys_eq_some {xpubs : XPubInfo} (h : c.keys world past = some xpubs) :
    ∃ wallet regInfo, owner (past.flatten ++ c.log) = some wallet ∧ c.regInfo = some regInfo ∧
      xpubInfo world regInfo wallet = .ok xpubs := by
  obtain ⟨wallet, hwallet, hrest⟩ := Option.bind_eq_some_iff.mp h
  obtain ⟨regInfo, hreg, hinfo⟩ := Option.bind_eq_some_iff.mp hrest
  refine ⟨wallet, regInfo, hwallet, hreg, ?_⟩
  cases hxpubs : xpubInfo world regInfo wallet with
  | error e =>
      rw [hxpubs] at hinfo
      cases hinfo
  | ok found =>
      rw [hxpubs] at hinfo
      cases hinfo
      rfl

theorem Take.counted {msg : SignNotification} (htake : Take msg c c')
    (h : Counted world past c) : Counted world past c' := by
  have hgrows := htake.grows
  cases htake with
  | refuse _ => exact h.frame (hgrows.extends rfl) rfl rfl rfl rfl
  | queue _ _ _ _ => exact h.frame (hgrows.extends rfl) rfl rfl rfl rfl
  | autoSign _ _ _ _ _ _ => exact h.frame (hgrows.extends rfl) rfl rfl rfl rfl

/-- While a message is handled: a login is in the history, and a new connection
    finds nothing under way until the worker asks for something. -/
structure Counting (world : World) (past : List (List Event)) (cause : Message) (c : Core) :
    Prop extends Counted world past c where
  login : ∀ req wallet, cause = .ui (.login req) → req.wallet = some wallet →
    owner (past.flatten ++ c.log) = some wallet
  idle : cause = .serverConnected → QuietTurn c →
    ∀ requestId : String, c.asyncRequests[requestId]? = none

/-- **ONE ACT** keeps the counters true. -/
theorem Act.counted (hact : Act world cause c c') (hcause : cause ≠ .ui .logout)
    (h : Counting world past cause c) : Counted world past c' := by
  have hgrows := hact.grows
  have hsame : c'.regInfo = c.regInfo → Extends world past c c' := hgrows.extends
  cases hact with
  | dropKey _ _ => exact h.noKey (hsame rfl) rfl rfl
  | newKey hc hquiet _ => exact h.toCounted.newKey (h.idle hc hquiet) _
  | @register _ regInfo _ hnone =>
      -- without a registration there are no keys to lose
      have hext : Extends world past c { c with regInfo := some regInfo } := by
        refine ⟨⟨[], (List.append_nil _).symm⟩, fun xpubs hkeys => ?_⟩
        obtain ⟨wallet, stored, _, hreg, _⟩ := keys_eq_some hkeys
        cases hnone.symm.trans hreg
      exact h.frame hext rfl rfl rfl rfl
  | @openWallet req wallet regInfo xpubs accountId hc hwallet hreg hinfo =>
      refine h.step (hsame rfl) ?_ rfl (fun _ _ _ _ hi => .inl hi)
        (fun _ _ _ _ _ hrequest => .inl hrequest)
      intro accountId' xpubs' hfound
      rw [Table.getElem?_insert_eq] at hfound
      split at hfound
      · cases hfound
        refine .inr ?_
        show (owner (past.flatten ++ c.log)).bind _ = some xpubs
        rw [h.login req wallet hc hwallet]
        show c.regInfo.bind _ = some xpubs
        rw [hreg]
        show (xpubInfo world regInfo wallet).toOption = some xpubs
        rw [hinfo]
        rfl
      · exact .inl ⟨accountId', hfound⟩
  | closeWallet =>
      refine h.step (hsame rfl) ?_ rfl (fun _ _ _ _ hi => .inl hi)
        (fun _ _ _ _ _ hrequest => .inl hrequest)
      intro accountId' xpubs' hfound
      rw [Table.getElem?_erase_eq] at hfound
      split at hfound
      · cases hfound
      · exact .inl ⟨accountId', hfound⟩
  | @reopenWallet accountId xpubs hold =>
      refine h.step (hsame rfl) ?_ rfl (fun _ _ _ _ hi => .inl hi)
        (fun _ _ _ _ _ hrequest => .inl hrequest)
      intro accountId' xpubs' hfound
      rw [Table.getElem?_insert_eq, Table.getElem?_erase_eq] at hfound
      split at hfound
      · cases hfound
        exact .inl ⟨accountId, hold⟩
      · exact .inl ⟨accountId', hfound⟩
  | logout hc _ => exact absurd hc hcause
  | ask _ hasks => exact h.toCounted.ask hasks
  | answer _ hcallback => exact h.toCounted.answer hcallback
  | drain _ =>
      refine h.step (hsame rfl) (fun accountId _ hwallet => .inl ⟨accountId, hwallet⟩) rfl
        (fun _ _ _ _ hi => .inl hi) ?_
      intro deviceKey _ requestId chain last hrequest
      cases hrequest.symm.trans Std.TreeMap.getElem?_emptyc
  | @takeQueued _ msg rest _ htake =>
      have hqueue : Grows c { c with pendingSignRequests := rest } := Grows.same rfl
      exact htake.counted (h.frame (hqueue.extends rfl) rfl rfl rfl rfl)
  | takeArrived _ htake => exact htake.counted h.toCounted
  | note hnote =>
      obtain ⟨_, _⟩ := hnote
      exact h.frame (hsame rfl) rfl rfl rfl rfl
  | _ => exact h.frame (hsame rfl) rfl rfl rfl rfl

theorem Listing.counted (hlist : Listing c c') (h : Counted world past c) :
    Counted world past c' := by
  have hgrows := hlist.grows
  cases hlist with
  | change _ => exact h.frame (hgrows.extends rfl) rfl rfl rfl rfl
  | shows hshow =>
      cases hshow with
      | remove _ => exact h.frame (hgrows.extends rfl) rfl rfl rfl rfl
      | put _ _ => exact h.frame (hgrows.extends rfl) rfl rfl rfl rfl

/-- The table of requests only grows by asking. -/
theorem Act.table (hact : Act world cause c c')
    (hempty : ∀ requestId : String, c.asyncRequests[requestId]? = none) :
    (∀ requestId : String, c'.asyncRequests[requestId]? = none) ∨
    (c.connected = true ∧ ¬ QuietTurn c') := by
  have hgrows := hact.grows
  cases hact with
  | ask hconnected _ =>
      refine .inr ⟨hconnected, fun hquiet => ?_⟩
      have hmem := hquiet (.asyncRequest (toString c.nextRequestId) _ _) (by
        rw [turn_append (List.forall_mem_singleton.mpr rfl)]
        exact List.mem_append_right _ (List.mem_singleton_self _))
      cases hmem
  | answer _ hcallback => cases (hempty _).symm.trans hcallback
  | drain _ => exact .inl fun requestId => Std.TreeMap.getElem?_emptyc
  | takeQueued _ htake =>
      cases htake with
      | _ => exact .inl hempty
  | takeArrived _ htake =>
      cases htake with
      | _ => exact .inl hempty
  | note hnote =>
      obtain ⟨_, _⟩ := hnote
      exact .inl hempty
  | _ => exact .inl hempty

theorem Listing.table (hlist : Listing c c') : c'.asyncRequests = c.asyncRequests := by
  cases hlist with
  | change _ => rfl
  | shows hshow =>
      cases hshow with
      | remove _ => rfl
      | put _ _ => rfl

/-- A turn that is quiet has been quiet. -/
theorem QuietTurn.earlier (hgrows : Grows c c') (h : QuietTurn c') : QuietTurn c :=
  fun e he => h e (hgrows.turn he)

theorem Play.counting (hplay : Play world cause c c') (hcause : cause ≠ .ui .logout)
    (h : Counting world past cause c) : Counting world past cause c' := by
  have hgrows := hplay.grows
  have hlogin : ∀ req wallet, cause = .ui (.login req) → req.wallet = some wallet →
      owner (past.flatten ++ c'.log) = some wallet := by
    intro req wallet hc hwallet
    rw [hgrows.owner]
    exact h.login req wallet hc hwallet
  cases hplay with
  | act hact =>
      refine ⟨hact.counted hcause h, hlogin, ?_⟩
      intro hc hquiet
      rcases hact.table (h.idle hc (hquiet.earlier hgrows)) with hempty | ⟨_, hloud⟩
      · exact hempty
      · exact absurd hquiet hloud
  | list hlist =>
      refine ⟨hlist.counted h.toCounted, hlogin, ?_⟩
      intro hc hquiet
      rw [hlist.table]
      exact h.idle hc (hquiet.earlier hgrows)

/-! ## Between connections -/

/-- Without a connection nothing is under way. -/
def Unlinked (c : Core) : Prop :=
  latest Event.link? c.log ≠ some true →
    c.connected = false ∧ ∀ requestId : String, c.asyncRequests[requestId]? = none

theorem Act.connected (hact : Act world cause c c') (hcause : cause ≠ .serverConnected)
    (h : c.connected = false) : c'.connected = false := by
  cases hact with
  | connect hc => exact absurd hc hcause
  | note hnote =>
      obtain ⟨_, _⟩ := hnote
      exact h
  | takeQueued _ htake =>
      cases htake with
      | _ => exact h
  | takeArrived _ htake =>
      cases htake with
      | _ => exact h
  | hangUp => rfl
  | _ => exact h

theorem Listing.connected (hlist : Listing c c') : c'.connected = c.connected := by
  cases hlist with
  | change _ => rfl
  | shows hshow =>
      cases hshow with
      | remove _ => rfl
      | put _ _ => rfl

theorem Play.connected (hplay : Play world cause c c') (hcause : cause ≠ .serverConnected)
    (h : c.connected = false) : c'.connected = false := by
  cases hplay with
  | act hact => exact hact.connected hcause h
  | list hlist => exact hlist.connected.trans h

theorem Play.unlinked (hplay : Play world cause c c') (hcause : cause ≠ .serverConnected)
    (h : Unlinked c) : Unlinked c' := by
  intro hlink
  rw [hplay.grows.link] at hlink
  obtain ⟨hconnected, hempty⟩ := h hlink
  refine ⟨hplay.connected hcause hconnected, ?_⟩
  cases hplay with
  | act hact =>
      rcases hact.table hempty with hempty' | ⟨hon, _⟩
      · exact hempty'
      · cases hconnected.symm.trans hon
  | list hlist =>
      rw [hlist.table]
      exact hempty

end Counting

/-! ## One message -/

/-- The last words about the connection after a message. -/
theorem link_received (log : List Event) {msg : Message} (hon : msg ≠ .serverConnected)
    (hoff : msg ≠ .serverDisconnected) :
    latest Event.link? (log ++ [.received msg]) = latest Event.link? log := by
  refine latest_concat_none ?_ log
  cases msg with
  | serverConnected => exact absurd rfl hon
  | serverDisconnected => exact absurd rfl hoff
  | _ => rfl

/-- When the closing of the connection has been handled there is none. -/
theorem disconnected_clear (world : World) (d : Data) :
    (exec processWsDisconnected d).2.connected = false := by
  have hsame : exec processWsDisconnected d =
      exec processWsDisconnected { d with connected := false } := by
    unfold processWsDisconnected
    rw [exec_modify_bind, exec_modify_bind]
  rw [hsame]
  have hplays : Plays world .serverDisconnected { d with connected := false }.core
      (exec processWsDisconnected { d with connected := false }).2.core :=
    processWsDisconnected_runs { d with connected := false }
  show (exec processWsDisconnected { d with connected := false }).2.core.connected = false
  generalize (exec processWsDisconnected { d with connected := false }).2.core = c at hplays
  induction hplays with
  | refl => rfl
  | tail _ hlast ih => exact hlast.connected (by simp) ih

theorem step_unlinked (world : World) {s : System} (msg : Message) (hs : s.stopped = false)
    (h : Unlinked s.data.core) : Unlinked (step world s msg).data.core := by
  have hplays := step_plays world s msg hs
  by_cases hon : msg = .serverConnected
  · subst hon
    intro hlink
    rw [hplays.grows.link] at hlink
    refine absurd (latest_concat_some (f := Event.link?) rfl s.data.log) hlink
  by_cases hoff : msg = .serverDisconnected
  · subst hoff
    intro _
    refine ⟨?_, step_disconnected world hs⟩
    show (step world s .serverDisconnected).data.connected = false
    rw [step_data world _ hs]
    exact disconnected_clear world _
  · generalize (step world s msg).data.core = c at hplays
    induction hplays with
    | refl =>
        intro hlink
        have hsame := link_received s.data.log hon hoff
        exact h (hsame ▸ hlink)
    | tail _ hlast ih => exact hlast.unlinked hon ih

theorem login_of_owner? {msg : Message} {found : Option LoginWallet}
    (h : Event.owner? (.received msg) = some found) (hmsg : msg ≠ .ui .logout) :
    ∃ req wallet, msg = .ui (.login req) ∧ req.wallet = some wallet := by
  cases msg with
  | ui msg =>
      cases msg with
      | login req =>
          cases hwallet : req.wallet with
          | none =>
              have hnone : req.wallet.map some = some found := h
              rw [hwallet] at hnone
              cases hnone
          | some wallet => exact ⟨req, wallet, rfl, hwallet⟩
      | logout => exact absurd rfl hmsg
      | _ => cases h
  | _ => cases h

/-- A message that is not a logout arrives. -/
theorem Counted.receive {world : World} {past : List (List Event)} {s : System} {msg : Message}
    (h : Counted world past s.data.core) (hlink : Unlinked s.data.core) (hok : Orderly past s msg)
    (hmsg : msg ≠ .ui .logout) :
    Counting world past msg (s.data.emit (.received msg)).core := by
  have hlogin : ∀ req wallet, msg = .ui (.login req) → req.wallet = some wallet →
      owner (past.flatten ++ (s.data.log ++ [.received msg])) = some wallet := by
    rintro req wallet rfl hwallet
    rw [← List.append_assoc]
    unfold owner
    rw [latest_concat_some (a := some wallet)]
    · rfl
    · show req.wallet.map some = some (some wallet)
      rw [hwallet]
      rfl
  have hext : Extends world past s.data.core (s.data.emit (.received msg)).core := by
    refine ⟨⟨_, rfl⟩, fun xpubs hkeys => ?_⟩
    obtain ⟨wallet, regInfo, howner, hreg, hinfo⟩ := keys_eq_some hkeys
    -- a login names the wallet that is logged in already
    have hsame : owner (past.flatten ++ (s.data.log ++ [.received msg])) = some wallet := by
      rw [← howner]
      cases hwho : Event.owner? (.received msg) with
      | none =>
          rw [← List.append_assoc]
          unfold owner
          rw [latest_concat_none hwho]
          rfl
      | some found =>
          obtain ⟨req, wallet', rfl, hwallet⟩ := login_of_owner? hwho hmsg
          rw [hlogin req wallet' rfl hwallet, howner, hok.login req wallet' wallet rfl hwallet howner]
    show (owner (past.flatten ++ (s.data.log ++ [.received msg]))).bind _ = some xpubs
    rw [hsame]
    show s.data.regInfo.bind _ = some xpubs
    have hreg' : s.data.regInfo = some regInfo := hreg
    rw [hreg']
    show (xpubInfo world regInfo wallet).toOption = some xpubs
    rw [hinfo]
    rfl
  refine ⟨h.frame hext rfl rfl rfl rfl, hlogin, ?_⟩
  rintro rfl _
  exact (hlink (hok.link rfl)).2

/-- **ONE MESSAGE** keeps the counters true. -/
theorem step_counted {world : World} {past : List (List Event)} {s : System} {msg : Message}
    (hs : s.stopped = false) (h : Counted world past s.data.core) (hlink : Unlinked s.data.core)
    (hok : Orderly past s msg) : Counted world past (step world s msg).data.core := by
  by_cases hlogout : msg = .ui .logout
  · subst hlogout
    rw [step_logout world hs]
    refine ⟨?_, ?_, ?_⟩
    · intro accountId xpubs hwallet
      cases hwallet.symm.trans Std.TreeMap.getElem?_emptyc
    · rintro deviceKey ⟨⟩
    · rintro deviceKey ⟨⟩
  · have hplays := step_plays world s msg hs
    have hturn : Counting world past msg (step world s msg).data.core := by
      generalize (step world s msg).data.core = c at hplays
      induction hplays with
      | refl => exact h.receive hlink hok hlogout
      | tail _ hlast ih => exact hlast.counting hlogout ih
    exact hturn.toCounted

/-! ## A life -/

/-- Both invariants survive the loading of the assets. -/
theorem load_counted {world : World} {past : List (List Event)} (assets : List Asset) {d : Data}
    (h : Counted world past d.core) (hlink : Unlinked d.core) :
    Counted world past (finish (loadAssets assets) d).data.core ∧
    Unlinked (finish (loadAssets assets) d).data.core := by
  have hnotes := loadAssets_notes assets d
  generalize (finish (loadAssets assets) d).data.core = c at hnotes
  induction hnotes with
  | refl => exact ⟨h, hlink⟩
  | @tail c c' _ hlast ih =>
      have hplay : Play world .serverDisconnected c c' := .act (.note hlast)
      refine ⟨?_, hplay.unlinked (by simp) ih.2⟩
      have hgrows := hlast.grows
      obtain ⟨_, _⟩ := hlast
      exact ih.1.frame (hgrows.extends rfl) rfl rfl rfl rfl

theorem initial_unlinked (liquidAssetId : AssetId) (disableDeviceKey : Bool)
    (settings : Settings) :
    Unlinked (initialData liquidAssetId disableDeviceKey settings).core :=
  fun _ => ⟨rfl, fun _ => Std.TreeMap.getElem?_emptyc⟩

section SameKeys

variable {world world' : World} (h : world.SameKeys world')
include h

theorem World.SameKeys.xpubInfo : Client.xpubInfo world' = Client.xpubInfo world := by
  funext regInfo wallet
  unfold Client.xpubInfo
  rw [h.parse, h.path, h.account]

theorem World.SameKeys.deriveAddress :
    Client.deriveAddress world' = Client.deriveAddress world := by
  funext xpubs chain pointer
  unfold Client.deriveAddress
  have haddress : world'.address xpubs chain pointer = world.address xpubs chain pointer := by
    cases chain with
    | singleSig isInternal =>
        show world'.singleSigAddress _ _ _ = world.singleSigAddress _ _ _
        rw [h.single]
    | multiSig =>
        show world'.multiSigAddress _ _ _ = world.multiSigAddress _ _ _
        rw [h.multi]
  rw [haddress]

end SameKeys

/-- What the settings say is still true after a restart. -/
theorem Counted.restart {world world' : World} {past : List (List Event)} {d : Data}
    (h : Counted world past d.core) (hsame : world.SameKeys world') (liquidAssetId : AssetId)
    (disableDeviceKey : Bool) :
    Counted world' (past ++ [d.log])
      (initialData liquidAssetId disableDeviceKey d.settings).core := by
  have hkeys : (initialData liquidAssetId disableDeviceKey d.settings).core.keys world'
      (past ++ [d.log]) = d.core.keys world past := by
    unfold Core.keys
    rw [hsame.xpubInfo]
    show (owner ((past ++ [d.log]).flatten ++ [])).bind _ = _
    rw [List.append_nil, List.flatten_append, List.flatten_singleton]
    rfl
  refine ⟨?_, ?_, ?_⟩
  · intro accountId xpubs hwallet
    cases hwallet.symm.trans Std.TreeMap.getElem?_emptyc
  · intro deviceKey hkey chain i hi
    obtain ⟨xpubs, address, hxpubs, hderive, log, hlog, hreg⟩ :=
      h.counters deviceKey hkey chain i hi
    refine ⟨xpubs, address, hkeys.trans hxpubs, ?_, log, List.mem_append_left _ hlog, hreg⟩
    rw [hsame.deriveAddress]
    exact hderive
  · intro deviceKey _ requestId chain last hrequest
    cases hrequest.symm.trans Std.TreeMap.getElem?_emptyc

/-- Both invariants hold throughout a life. -/
theorem lives_counted {world : World} {past : List (List Event)} {s : System}
    (h : Lives world past s) : Counted world past s.data.core ∧ Unlinked s.data.core := by
  induction h with
  | install world liquidAssetId disableDeviceKey assets =>
      refine load_counted assets ⟨?_, ?_, ?_⟩ (initial_unlinked _ _ _)
      · intro accountId xpubs hwallet
        cases hwallet.symm.trans Std.TreeMap.getElem?_emptyc
      · rintro deviceKey ⟨⟩
      · rintro deviceKey ⟨⟩
  | @next world past s msg _ hok ih =>
      cases hs : s.stopped with
      | true =>
          rw [step_stopped world msg hs]
          exact ih
      | false => exact ⟨step_counted hs ih.1 ih.2 hok, step_unlinked world msg hs ih.2⟩
  | restart liquidAssetId disableDeviceKey assets _ hsame ih =>
      exact load_counted assets (ih.1.restart hsame liquidAssetId disableDeviceKey)
        (initial_unlinked _ _ _)

/-- **THE COUNTERS NEVER RUN AHEAD**: in every life of an installation, while
    there is a device key, each address below a counter is one of the wallet
    that is logged in, and was sent under that key in a request whose callback
    was called with an `Ok` response, by this process or an earlier one. -/
theorem registered_addresses_acknowledged {world : World} {past : List (List Event)} {s : System}
    (h : Lives world past s) {deviceKey : String} (hkey : s.data.deviceKey = some deviceKey)
    {chain : Chain} {i : Nat} (hi : i < s.data.registered chain) :
    ∃ wallet regInfo xpubs address, owner (past.flatten ++ s.data.log) = some wallet ∧
      s.data.regInfo = some regInfo ∧ xpubInfo world regInfo wallet = .ok xpubs ∧
      (∀ (accountId : AccountId) opened, s.data.wallets[accountId]? = some opened →
        opened = xpubs) ∧
      deriveAddress world xpubs chain i = .ok address ∧
      ∃ log ∈ past ++ [s.data.log], Registered log deviceKey address := by
  obtain ⟨hcounted, _⟩ := lives_counted h
  obtain ⟨xpubs, address, hkeys, hderive, hreg⟩ := hcounted.counters deviceKey hkey chain i hi
  obtain ⟨wallet, regInfo, howner, hinfo, hxpubs⟩ := keys_eq_some hkeys
  refine ⟨wallet, regInfo, xpubs, address, howner, hinfo, hxpubs, ?_, hderive, hreg⟩
  intro accountId opened hopened
  have hsame := hcounted.opened accountId opened hopened
  exact Option.some.inj (hsame.symm.trans hkeys)

/-- Other messages are always in order. -/
theorem orderly_other {past : List (List Event)} {s : System} {msg : Message}
    (hon : msg ≠ .serverConnected) (hlogin : ∀ req, msg ≠ .ui (.login req)) :
    Orderly past s msg :=
  ⟨fun h => absurd h hon, fun req _ _ h => absurd h (hlogin req)⟩

/-- Messages that are in order go on with a life. -/
theorem Lives.run {world : World} {past : List (List Event)} {s : System}
    (h : Lives world past s) (msgs : List Message)
    (hok : Allowed (Client.step world) (Orderly past) s msgs) :
    Lives world past (Transition.run (Client.step world) s msgs) := by
  induction msgs generalizing s with
  | nil => exact h
  | cons msg msgs ih => exact ih (h.next hok.1) hok.2

/-- A wallet logs in and connects, and the server acknowledges its external
    addresses. -/
theorem external_addresses_acknowledged :
    let s := run (Sample.world .maker) Sample.bitcoin [Sample.asset]
      (Sample.connecting ++ [.asyncResp "7" (.ok .other)])
    s.data.deviceKey = some "device" ∧ 99 < s.data.registered (.singleSig false) ∧
    owner s.data.log = some (.mnemonic "wallet") ∧
    ∃ address, Registered s.data.log "device" address := by
  intro s
  have hlives : Lives (Sample.world .maker) [] s := by
    refine (Lives.install _ Sample.bitcoin false [Sample.asset]).run _
      ⟨⟨?_, ?_⟩, ⟨?_, ?_⟩, ?_, ?_, trivial⟩
    · rintro ⟨⟩
    · intro req wallet wallet' _ _ howner
      cases howner
    · intro _ hlink
      cases hlink
    · rintro req wallet wallet' ⟨⟩
    · exact orderly_other (by simp) (by simp)
    · exact orderly_other (by simp) (by simp)
  have hkey : s.data.deviceKey = some "device" := by decide +kernel
  have hcount : 99 < s.data.registered (.singleSig false) := by decide +kernel
  have howner : owner s.data.log = some (.mnemonic "wallet") := by decide +kernel
  obtain ⟨wallet, regInfo, xpubs, address, _, _, _, _, _, log, hlog, hreg⟩ :=
    registered_addresses_acknowledged hlives hkey hcount
  rw [List.mem_singleton.mp hlog] at hreg
  exact ⟨hkey, hcount, howner, address, hreg⟩

end Client
