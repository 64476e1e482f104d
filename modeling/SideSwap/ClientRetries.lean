import SideSwap.ClientPrompts

/-! # Commands that fail

    A command of the user takes what it works on out of the state first: the
    created payment, the reviewed order, the agreed peg-out amounts, the
    session of the regular account.  When the command fails and the server has
    acknowledged nothing, the user should find it where it was and try again.

    `Refuses p d` says that a handler ends so on a state.  It has one rule for
    each way a handler goes on, so which states a handler refuses is read off
    its text. -/

namespace Client

open Api Program MachineInt Relation Transition

/-! ## What the user is told -/

/-- The commands that can be repeated. -/
inductive Command where
  | sendTx (account : AccountId)
  | accept (req : SubmitDecision)
  | pegOut (req : PegOutRequest)
  | changeNetwork

def Command.msg : Command → ToMsg
  | .sendTx account => .sendTx account
  | .accept req => .submitDecision { req with accept := true }
  | .pegOut req => .pegOutRequest req
  | .changeNetwork => .changeNetwork

/-- What the command needs is as it was. -/
def Command.Kept (before after : Data) : Command → Prop
  | .sendTx _ => after.unsignedTx = before.unsignedTx
  | .accept req => ∀ orderId, fromStr req.orderId = some orderId →
      after.activeSubmits[orderId]? = before.activeSubmits[orderId]?
  | .pegOut _ => after.pegOutServerAmounts = before.pegOutServerAmounts
  | .changeNetwork => ∀ accountId : AccountId,
      after.wallets[accountId]? = before.wallets[accountId]?

/-- The user is told that a command has failed. -/
def Event.reportsError : Event → Bool
  | .toUi (.sendResult (.error _)) => true
  | .toUi (.submitResult (.error _)) => true
  | .toUi (.submitResult (.unregisteredGaid _)) => true
  | .toUi (.swapFailed _) => true
  | .toUi (.showMessage _) => true
  | _ => false

/-- The server has acknowledged a request. -/
def Event.acks : Event → Bool
  | .request _ (.ok _) => true
  | _ => false

/-- The events of a step. -/
def newEvents (s s' : System) : List Event := s'.data.log.drop s.data.log.length

/-- A command that fails, with nothing acknowledged, can be repeated. -/
def CanRetry (world : World) (s : System) (command : Command) : Prop :=
  let s' := step world s (.ui command.msg)
  (∃ e ∈ newEvents s s', Event.reportsError e = true) →
  (∀ e ∈ newEvents s s', Event.acks e = false) → command.Kept s.data s'.data

/-! ## When something is lost -/

/-- The call has failed. -/
def Fails {α : Type} (res : Except String α) : Prop := ∃ e, res = .error e

/-- The server or the wallet does not take the offer of an order. -/
def PsetRefused (world : World) (d : Data) (req : SubmitDecision) (orderId : OrderId)
    (details : Details) (inputs : List PsetInput) (recvAddr changeAddr : Address) : Prop :=
  let accountId := accountOf d details.asset
  if details.side = .maker then
    Fails (makerInputs world d req details (req.autoSign.getD false) accountId inputs recvAddr) ∨
    ∃ offer, makerInputs world d req details (req.autoSign.getD false) accountId inputs recvAddr
        = .ok offer ∧
      Fails (world.response d.log (.psetMaker
        { orderId, price := details.price, isPrivate := req.isPrivate.getD false
          ttlSeconds := req.ttlSeconds, inputs := offer.1, recvAddr, changeAddr
          signedHalf := offer.2 }))
  else
    Fails (world.unlockHww d.log accountId) ∨
    Fails (world.response d.log
      (.psetTaker { orderId, price := details.price, inputs, recvAddr, changeAddr }))

/-- No coins can be offered for the order, or they are not taken. -/
def OfferRefused (world : World) (d : Data) (req : SubmitDecision) (orderId : OrderId)
    (details : Details) (utxos : Std.TreeMap AssetId (List UnspentOutput))
    (recvAddr changeAddr : Address) : Prop :=
  let send := sendSide d.liquidAssetId details
  let free := assetUtxos d ((utxos[send.1]?).getD []) send.2 (req.onlyUnusedUtxos.getD false)
  Fails free ∨ ∃ chosen, free = .ok chosen ∧
    ((∃ e, selectInputs chosen send.2 = .error (.error e)) ∨
      ∃ inputs, selectInputs chosen send.2 = .ok inputs ∧
        PsetRefused world d req orderId details inputs recvAddr changeAddr)

/-- A reviewed order cannot be submitted.  An AMP asset is bought with an
    address from the server, and once that has been given the server has
    acknowledged something. -/
def SubmitRefused (world : World) (d : Data) (req : SubmitDecision) (orderId : OrderId)
    (details : Details) : Prop :=
  let accountId := accountOf d details.asset
  d.assets[details.asset]? = none ∨ Fails (verifyAmounts d details) ∨
  d.wallets.contains accountId = false ∨ Fails (world.changeAddress d.log accountId) ∨
  Fails (world.utxos d.log accountId) ∨
  if details.sendBitcoins && d.ampAssets.contains details.asset then
    Fails (world.gaid d.log accountId) ∨ ∃ gaid, world.gaid d.log accountId = .ok gaid ∧
      Fails (world.response d.log (.resolveGaid orderId gaid))
  else
    Fails (world.receiveAddress d.log accountId) ∨ ∃ recvAddr changeAddr utxos,
      world.receiveAddress d.log accountId = .ok recvAddr ∧
      world.changeAddress d.log accountId = .ok changeAddr ∧
      world.utxos d.log accountId = .ok utxos ∧
      OfferRefused world d req orderId details utxos recvAddr changeAddr

/-- The command finds what it needs, takes it, and fails at a later step.  The
    data is that of the worker when it has received the command. -/
def Command.Loses (world : World) (d : Data) : Command → Prop
  | .sendTx account => d.unsignedTx.isSome = true ∧ d.wallets.contains account = false
  | .accept req =>
      (∀ sign, d.activeSign = some sign → toText sign.orderId ≠ req.orderId) ∧
      ∃ orderId resp, fromStr req.orderId = some orderId ∧
        d.activeSubmits[orderId]? = some resp ∧
        SubmitRefused world d { req with accept := true } orderId resp.details
  | .pegOut req =>
      d.connected = true ∧
      ∃ status amounts deviceKey, d.serverStatus = some status ∧
        status.minPegOutAmount ≤ req.sendAmount ∧ d.pegOutServerAmounts = some amounts ∧
        d.deviceKey = some deviceKey ∧
        Fails (world.response d.log (.peg (req.peg deviceKey amounts)))
  | .changeNetwork =>
      (d.wallets[accountIdReg]?).isSome = true ∧ Fails (world.restartSession d.log)

/-! ## The events of a handler -/

/-- The log grows by an event of a kind. -/
def Adds (P : Event → Prop) (log log' : List Event) : Prop := ∃ e, P e ∧ log' = log ++ [e]

/-- The handler records events of a kind only. -/
abbrev Emits {α : Type} (P : Event → Prop) (p : Handler α) : Prop := Follows Data.log (Adds P) p

theorem events_of_adds {P : Event → Prop} {log log' : List Event}
    (h : ReflTransGen (Adds P) log log') : ∃ es, log' = log ++ es ∧ ∀ e ∈ es, P e := by
  induction h with
  | refl => exact ⟨[], (List.append_nil _).symm, fun e he => by cases he⟩
  | tail _ hlast ih =>
      obtain ⟨es, rfl, hes⟩ := ih
      obtain ⟨e, he, rfl⟩ := hlast
      refine ⟨es ++ [e], List.append_assoc _ _ _, fun e' hmem => ?_⟩
      rcases List.mem_append.mp hmem with hmem | hmem
      · exact hes e' hmem
      · rw [List.mem_singleton.mp hmem]
        exact he

theorem Emits.events {α : Type} {P : Event → Prop} {p : Handler α} (h : Emits P p) (d : Data) :
    ∃ es, (exec p d).2.log = d.log ++ es ∧ ∀ e ∈ es, P e := events_of_adds (h d)

/-- The event neither reports an error nor acknowledges a request. -/
def Event.isSilent (e : Event) : Prop := Event.reportsError e = false ∧ Event.acks e = false

/-- The event reports no error. -/
def Event.isUnreported (e : Event) : Prop := Event.reportsError e = false

section Emitting

variable {P : Event → Prop}

theorem emits_emit {e : Event} (h : P e) : Emits P (emit e) := fun _ => .single ⟨e, h, rfl⟩

theorem emits_request {α : Type} (world : World) {req : Request} (select : Response → Option α)
    (h : ∀ res, P (.request req res)) : Emits P (request world req select) := by
  intro d
  have hone : ∀ res, ReflTransGen (Adds P) d.log (d.requested req res).log :=
    fun res => .single ⟨_, h res, rfl⟩
  show ReflTransGen (Adds P) d.log (exec (request world req select) d).2.log
  rw [exec_request]
  cases world.response d.log req with
  | error e => exact hone _
  | ok resp =>
      cases hselect : select resp with
      | none =>
          simp only [hselect]
          exact hone _
      | some a =>
          simp only [hselect]
          exact hone _

end Emitting

theorem emits_trySign (world : World) (msg : SignNotification) :
    Emits Event.isUnreported (trySign world msg) := by
  intro d
  refine Leads.get (Leads.okOr .refl fun entry _ => Leads.ensure .refl fun _ => ?_)
  refine Leads.ofResult .refl fun nonces _ => Leads.bindKeeps (keeps_getWallet _) .refl fun _ => ?_
  have hverify : Emits Event.isUnreported (verifyAndSignPset world .trySign msg.orderId
      (accountOf d entry.asset) (signAmounts d.liquidAssetId entry) msg.pset nonces) := by
    intro d'
    refine Leads.get (Leads.call (emits_emit rfl) .refl fun _ d'' _ hreach => ?_)
    exact Leads.keeps (keeps_ofResult _) hreach
  refine Leads.call hverify .refl fun signedPset d1 _ hreach => ?_
  refine Leads.call (emits_request world _ fun res => rfl) hreach fun _ d2 _ hreach => ?_
  refine Leads.get (Leads.ofPanic hreach fun entry' _ => Leads.modify (Leads.commit hreach ?_))
  split
  · exact Leads.call (emits_emit rfl) .refl fun _ _ _ hreach => hreach
  · exact .refl

/-- Closing a review shows what has waited for it. -/
theorem emits_processPendingSignPrompts : Emits Event.isSilent processPendingSignPrompts := by
  have hloop : ∀ queue, Emits Event.isSilent (showSignPrompts queue) := by
    intro queue
    induction queue with
    | nil => exact fun _ => .refl
    | cons msg rest ih =>
        intro d
        refine Leads.get ?_
        split
        · exact .refl
        · refine Leads.modify ?_
          split
          · exact Leads.commit .refl (ih _)
          · exact Leads.modify (Leads.commit (.single ⟨_, ⟨rfl, rfl⟩, rfl⟩) (ih _))
  exact fun d => Leads.get (hloop _ d)

theorem emits_processPendingSucceed : Emits Event.isSilent processPendingSucceed := by
  intro d
  refine Leads.get ?_
  split
  · exact .refl
  · exact Leads.modify (Leads.commit .refl (Follows.forM (fun item => emits_emit ⟨rfl, rfl⟩) _ _))

/-! ## Refusing -/

/-- The handler ends with an error, and the server has acknowledged nothing. -/
def Refuses {α : Type} (p : Handler α) (d : Data) : Prop :=
  (∃ e, (exec p d).1 = .error (.error e)) ∧
  ∃ es, (exec p d).2.log = d.log ++ es ∧ ∀ e ∈ es, Event.acks e = false

section Refusing

variable {α β : Type} {d : Data}

theorem refuses_bail (msg : String) : Refuses (bail msg : Handler α) d :=
  ⟨⟨msg, rfl⟩, [], (List.append_nil _).symm, fun e he => by cases he⟩

theorem refuses_get {f : Data → Handler β} : Refuses (get >>= f) d ↔ Refuses (f d) d := by
  unfold Refuses
  rw [exec_get_bind]

theorem refuses_okOr {o : Option α} {msg : String} {f : α → Handler β} :
    Refuses (okOr o msg >>= f) d ↔ o = none ∨ ∃ a, o = some a ∧ Refuses (f a) d := by
  cases o with
  | none =>
      refine iff_of_true (refuses_bail msg) (.inl rfl)
  | some a =>
      constructor
      · exact fun h => .inr ⟨a, rfl, h⟩
      · rintro (h | ⟨b, h, hf⟩)
        · cases h
        · cases h
          exact hf

theorem refuses_ofResult {r : Except String α} {f : α → Handler β} :
    Refuses (ofResult r >>= f) d ↔ Fails r ∨ ∃ a, r = .ok a ∧ Refuses (f a) d := by
  cases r with
  | error e => exact iff_of_true (refuses_bail e) (.inl ⟨e, rfl⟩)
  | ok a =>
      constructor
      · exact fun h => .inr ⟨a, rfl, h⟩
      · rintro (⟨e, h⟩ | ⟨b, h, hf⟩)
        · cases h
        · cases h
          exact hf

theorem refuses_ofStop {r : Except Stop α} {f : α → Handler β} :
    Refuses (ofStop r >>= f) d ↔
      (∃ e, r = .error (.error e)) ∨ ∃ a, r = .ok a ∧ Refuses (f a) d := by
  cases r with
  | error e =>
      cases e with
      | error msg => exact iff_of_true (refuses_bail msg) (.inl ⟨msg, rfl⟩)
      | panic p =>
          refine iff_of_false ?_ ?_
          · rintro ⟨⟨e, he⟩, _⟩
            cases he
          · rintro (⟨e, he⟩ | ⟨a, ha, _⟩)
            · cases he
            · cases ha
  | ok a =>
      constructor
      · exact fun h => .inr ⟨a, rfl, h⟩
      · rintro (⟨e, h⟩ | ⟨b, h, hf⟩)
        · cases h
        · cases h
          exact hf

theorem refuses_getWallet {accountId : AccountId} {f : Unit → Handler β} :
    Refuses (getWallet accountId >>= f) d ↔
      d.wallets.contains accountId = false ∨ Refuses (f ()) d := by
  have hexec : exec (getWallet accountId >>= f) d =
      exec (ensure (d.wallets.contains accountId) "wallet not found" >>= f) d := rfl
  unfold Refuses
  rw [hexec]
  cases d.wallets.contains accountId with
  | false => exact iff_of_true (refuses_bail "wallet not found") (.inl rfl)
  | true =>
      rw [exec_ensure_true_bind]
      constructor
      · exact fun h => .inr h
      · rintro (h | h)
        · cases h
        · exact h

/-- A request is refused by the server alone: after an acknowledgement it is too
    late, whatever follows. -/
theorem refuses_request (world : World) {req : Request} {select : Response → Option α}
    {f : α → Handler β} (hf : ∀ a, Emits (fun _ => True) (f a)) :
    Refuses (request world req select >>= f) d ↔ Fails (world.response d.log req) := by
  unfold Refuses
  rw [exec_bind, exec_request]
  have hacked : ∀ (log : List Event) resp es es', log = d.log ++ [.request req (.ok resp)] ++ es →
      log = d.log ++ es' → (∀ e ∈ es', Event.acks e = false) → False := by
    intro log resp es es' hlog hlog' hes'
    rw [hlog, List.append_assoc] at hlog'
    have hmem := hes' (.request req (.ok resp))
      (List.append_cancel_left hlog' ▸ List.mem_cons_self)
    cases hmem
  cases hres : world.response d.log req with
  | error e =>
      refine iff_of_true ⟨⟨e, rfl⟩, [.request req (.error e)], rfl, ?_⟩ ⟨e, rfl⟩
      exact List.forall_mem_singleton.mpr rfl
  | ok resp =>
      refine iff_of_false ?_ ?_
      · cases hselect : select resp with
        | none =>
            simp only [hselect]
            rintro ⟨_, es, hlog, hes⟩
            exact hacked _ resp [] es (List.append_nil _).symm hlog hes
        | some a =>
            simp only [hselect]
            rintro ⟨_, es, hlog, hes⟩
            obtain ⟨es', hlog', _⟩ := (hf a).events (d.requested req (.ok resp))
            exact hacked _ resp es' es hlog' hlog hes
      · rintro ⟨e, he⟩
        cases he

end Refusing

/-! ## Submitting an order -/

section Submitting

variable {d : Data} (world : World) (req : SubmitDecision) (orderId : OrderId)

theorem emits_sendPset (details : Details) (autoSign : Bool) (accountId : AccountId)
    (inputs : List PsetInput) (recvAddr changeAddr : Address) :
    Emits Event.isUnreported
      (sendPset world req orderId details autoSign accountId inputs recvAddr changeAddr) := by
  intro d
  refine Leads.get ?_
  split
  · exact Leads.ofResult .refl fun offer _ => emits_request world _ (fun res => rfl) d
  · exact Leads.ofResult .refl fun _ _ => emits_request world _ (fun res => rfl) d

theorem refuses_sendPset {β : Type} {details : Details} {inputs : List PsetInput}
    {recvAddr changeAddr : Address} {f : Unit → Handler β} (hf : Emits (fun _ => True) (f ())) :
    Refuses (sendPset world req orderId details (req.autoSign.getD false && details.side == .maker)
      (accountOf d details.asset) inputs recvAddr changeAddr >>= f) d ↔
    PsetRefused world d req orderId details inputs recvAddr changeAddr := by
  unfold sendPset PsetRefused
  simp only [bind_assoc]
  rw [refuses_get]
  by_cases hside : details.side = .maker
  · rw [if_pos hside, if_pos hside, bind_assoc, refuses_ofResult,
      show (req.autoSign.getD false && details.side == .maker) = req.autoSign.getD false by
        rw [hside, beq_self_eq_true, Bool.and_true]]
    refine or_congr_right (exists_congr fun offer => and_congr_right fun _ => ?_)
    exact refuses_request world fun _ => hf
  · rw [if_neg hside, if_neg hside, bind_assoc, refuses_ofResult, refuses_request world fun _ => hf]
    constructor
    · rintro (h | ⟨_, _, h⟩)
      · exact .inl h
      · exact .inr h
    · rintro (h | h)
      · exact .inl h
      · cases hunlock : world.unlockHww d.log (accountOf d details.asset) with
        | error e => exact .inl ⟨e, rfl⟩
        | ok u => exact .inr ⟨u, rfl, h⟩

/-- The record of a submission that the server has taken. -/
def recordSubmit (orderId : OrderId) (resp : LinkResponse) (autoSign : Bool)
    (inputs : List PsetInput) : Handler Bool := do
  let data ← get
  let asset ← okOr data.assets[resp.details.asset]? "unknown asset"
  let entry := acceptedEntry orderId resp asset.precision (inputs.map (·.outPoint)) autoSign
  modify fun data =>
    { data with
      submitData := data.submitData.insert orderId entry
      log := data.log ++ [.accepted orderId resp asset.precision] }
  pure (resp.details.side == .maker)

/-- The part of a submission after the addresses are known. -/
def offerSubmit (req : SubmitDecision) (orderId : OrderId) (resp : LinkResponse) (data : Data)
    (utxos : Std.TreeMap AssetId (List UnspentOutput)) (recvAddr changeAddr : Address) :
    Handler Bool := do
  let send := sendSide data.liquidAssetId resp.details
  let autoSign := req.autoSign.getD false && resp.details.side == .maker
  let chosen ← ofResult (assetUtxos data ((utxos[send.1]?).getD []) send.2
    (req.onlyUnusedUtxos.getD false))
  let inputs ← ofStop (selectInputs chosen send.2)
  sendPset world req orderId resp.details autoSign (accountOf data resp.details.asset) inputs
    recvAddr changeAddr
  recordSubmit orderId resp autoSign inputs

theorem trySubmit_eq (resp : LinkResponse) : trySubmit world req orderId resp = (do
    let data ← get
    let _ ← okOr data.assets[resp.details.asset]? "unknown asset"
    ofResult (verifyAmounts data resp.details)
    getWallet (accountOf data resp.details.asset)
    let changeAddr ← ofResult (world.changeAddress data.log (accountOf data resp.details.asset))
    let utxos ← ofResult (world.utxos data.log (accountOf data resp.details.asset))
    let recvAddr ← recvAddress world orderId resp.details (accountOf data resp.details.asset)
    offerSubmit world req orderId resp data utxos recvAddr changeAddr) := rfl

theorem emits_recordSubmit (resp : LinkResponse) (autoSign : Bool) (inputs : List PsetInput) :
    Emits Event.isUnreported (recordSubmit orderId resp autoSign inputs) := by
  intro d
  refine Leads.get (Leads.okOr .refl fun asset _ => Leads.modify ?_)
  exact .single ⟨.accepted orderId resp asset.precision, rfl, rfl⟩

theorem emits_offerSubmit (resp : LinkResponse) (data : Data)
    (utxos : Std.TreeMap AssetId (List UnspentOutput)) (recvAddr changeAddr : Address) :
    Emits Event.isUnreported
      (offerSubmit world req orderId resp data utxos recvAddr changeAddr) := by
  intro d
  refine Leads.ofResult .refl fun chosen _ => Leads.ofStop .refl fun inputs _ => ?_
  refine Leads.call (emits_sendPset world req orderId _ _ _ _ _ _) .refl fun _ d' _ hreach => ?_
  exact Leads.commit hreach (emits_recordSubmit orderId resp _ inputs d')

theorem emits_recvAddress (details : Details) (accountId : AccountId) :
    Emits Event.isUnreported (recvAddress world orderId details accountId) := by
  intro d
  refine Leads.get ?_
  split
  · refine Leads.ofResult .refl fun gaid _ => ?_
    refine Leads.call (emits_request world _ fun res => rfl) .refl fun resolved d' _ hreach => ?_
    exact Leads.get (Leads.keeps (keeps_ofResult _) hreach)
  · exact Leads.keeps (keeps_ofResult _) .refl

theorem emits_trySubmit (resp : LinkResponse) :
    Emits Event.isUnreported (trySubmit world req orderId resp) := by
  intro d
  rw [trySubmit_eq]
  refine Leads.get (Leads.okOr .refl fun asset _ => Leads.ofResult .refl fun _ _ => ?_)
  refine Leads.bindKeeps (keeps_getWallet _) .refl fun _ => ?_
  refine Leads.ofResult .refl fun changeAddr _ => Leads.ofResult .refl fun utxos _ => ?_
  refine Leads.call (emits_recvAddress world orderId _ _) .refl fun recvAddr d' _ hreach => ?_
  exact Leads.commit hreach (emits_offerSubmit world req orderId resp d utxos recvAddr changeAddr d')

theorem Emits.any {α : Type} {P : Event → Prop} {p : Handler α} (h : Emits P p) :
    Emits (fun _ => True) p := by
  refine Follows.mono ?_ h
  rintro log log' ⟨e, _, rfl⟩
  exact ⟨e, trivial, rfl⟩

theorem refuses_offerSubmit (resp : LinkResponse)
    (utxos : Std.TreeMap AssetId (List UnspentOutput)) (recvAddr changeAddr : Address) :
    Refuses (offerSubmit world req orderId resp d utxos recvAddr changeAddr) d ↔
    OfferRefused world d req orderId resp.details utxos recvAddr changeAddr := by
  unfold offerSubmit OfferRefused
  simp only [refuses_ofResult, refuses_ofStop]
  refine or_congr_right (exists_congr fun chosen => and_congr_right fun _ => ?_)
  refine or_congr_right (exists_congr fun inputs => and_congr_right fun _ => ?_)
  exact refuses_sendPset world req orderId (emits_recordSubmit orderId resp _ inputs).any

/-- Which reviewed orders are refused, with nothing acknowledged. -/
theorem refuses_trySubmit (resp : LinkResponse) :
    Refuses (trySubmit world req orderId resp) d ↔
    SubmitRefused world d req orderId resp.details := by
  have hrest : ∀ changeAddr utxos,
      Refuses (recvAddress world orderId resp.details (accountOf d resp.details.asset) >>=
        fun recvAddr => offerSubmit world req orderId resp d utxos recvAddr changeAddr) d ↔
      if resp.details.sendBitcoins && d.ampAssets.contains resp.details.asset then
        Fails (world.gaid d.log (accountOf d resp.details.asset)) ∨
        ∃ gaid, world.gaid d.log (accountOf d resp.details.asset) = .ok gaid ∧
          Fails (world.response d.log (.resolveGaid orderId gaid))
      else
        Fails (world.receiveAddress d.log (accountOf d resp.details.asset)) ∨
        ∃ recvAddr, world.receiveAddress d.log (accountOf d resp.details.asset) = .ok recvAddr ∧
          OfferRefused world d req orderId resp.details utxos recvAddr changeAddr := by
    intro changeAddr utxos
    unfold recvAddress
    simp only [bind_assoc]
    rw [refuses_get]
    split
    · simp only [bind_assoc]
      rw [refuses_ofResult]
      refine or_congr_right (exists_congr fun gaid => and_congr_right fun _ => ?_)
      refine refuses_request world fun resolved d' => ?_
      refine Leads.get (Leads.ofResult .refl fun recvAddr _ => ?_)
      exact (emits_offerSubmit world req orderId resp d utxos recvAddr changeAddr).any d'
    · rw [refuses_ofResult]
      refine or_congr_right (exists_congr fun recvAddr => and_congr_right fun _ => ?_)
      exact refuses_offerSubmit world req orderId resp utxos recvAddr changeAddr
  rw [trySubmit_eq, refuses_get]
  unfold SubmitRefused
  simp only [refuses_okOr, refuses_ofResult, refuses_getWallet, hrest]
  -- what went well before a refusal does not matter
  cases d.assets[resp.details.asset]? with
  | none => simp
  | some asset =>
      cases verifyAmounts d resp.details with
      | error e => simp [Fails]
      | ok u =>
          cases world.changeAddress d.log (accountOf d resp.details.asset) with
          | error e => simp [Fails]
          | ok changeAddr =>
              cases world.utxos d.log (accountOf d resp.details.asset) with
              | error e => simp [Fails]
              | ok utxos => simp [Fails]

end Submitting

/-! ## The commands -/

section Commands

variable {world : World} {s : System}

/-- The worker when it has received the command. -/
def Command.arrive (command : Command) (s : System) : Data :=
  s.data.emit (.received (.ui command.msg))

/-- A handled command, by the events that follow its arrival. -/
theorem canRetry_iff (hs : s.stopped = false) {command : Command} {after : Data} {es : List Event}
    (hafter : (exec (processMessage world (.ui command.msg)) (command.arrive s)).2 = after)
    (hlog : after.log = (command.arrive s).log ++ es) :
    CanRetry world s command ↔
      ((∃ e ∈ es, Event.reportsError e = true) → (∀ e ∈ es, Event.acks e = false) →
        command.Kept s.data after) := by
  have hdata : (step world s (.ui command.msg)).data = after :=
    (step_data world (.ui command.msg) hs).trans hafter
  have hnew : newEvents s (step world s (.ui command.msg)) =
      Event.received (.ui command.msg) :: es := by
    unfold newEvents
    rw [hdata, hlog]
    show (s.data.log ++ [Event.received (.ui command.msg)] ++ es).drop _ = _
    rw [List.append_assoc, List.drop_left]
    rfl
  unfold CanRetry
  simp only [hnew, hdata, List.mem_cons, exists_eq_or_imp, forall_eq_or_imp]
  simp only [Event.reportsError, Event.acks, Bool.false_eq_true, false_or, true_and]

/-- How a handler reports what its fallible part has come to. -/
structure Reports {α : Type} (command : Command) (k : Except String α → Handler Unit) : Prop where
  error : ∀ e d, ∃ es, (exec (k (.error e)) d).2.log = d.log ++ es ∧
    (∃ e ∈ es, Event.reportsError e = true) ∧ ∀ e ∈ es, Event.acks e = false
  ok : ∀ a d, ∃ es, (exec (k (.ok a)) d).2.log = d.log ++ es ∧
    ∀ e ∈ es, Event.reportsError e = false
  kept : ∀ e before d, command.Kept before (exec (k (.error e)) d).2 ↔ command.Kept before d

/-- **COMMAND RULE**: a command can be repeated unless its fallible part refuses
    and has lost something. -/
theorem canRetry_attempt {α : Type} (hs : s.stopped = false) {command : Command} {p : Handler α}
    {k : Except String α → Handler Unit}
    (hprocess : exec (processMessage world (.ui command.msg)) (command.arrive s) =
      exec (attempt p >>= k) (command.arrive s))
    (hk : Reports command k) (hp : Emits Event.isUnreported p) :
    CanRetry world s command ↔ ¬ (Refuses p (command.arrive s) ∧
      ¬ command.Kept s.data (exec p (command.arrive s)).2) := by
  have hexec := exec_attempt_bind p k (command.arrive s)
  rw [← hprocess] at hexec
  obtain ⟨es, hlog, hes⟩ := hp.events (command.arrive s)
  unfold Refuses
  generalize exec p (command.arrive s) = res at hexec hlog
  obtain ⟨res, d⟩ := res
  -- an end that reports no error promises nothing
  have hquiet : ∀ after es', after.log = d.log ++ es' →
      (∀ e ∈ es', Event.reportsError e = false) →
      (exec (processMessage world (.ui command.msg)) (command.arrive s)).2 = after →
      CanRetry world s command := by
    intro after es' hlog' hes' hafter
    have hall : after.log = (command.arrive s).log ++ (es ++ es') := by
      rw [hlog', hlog, List.append_assoc]
    rw [canRetry_iff hs hafter hall]
    rintro ⟨e, hmem, hreport⟩
    rcases List.mem_append.mp hmem with hmem | hmem
    · cases (hes e hmem).symm.trans hreport
    · cases (hes' e hmem).symm.trans hreport
  match res with
  | .ok a =>
      refine iff_of_true ?_ ?_
      · obtain ⟨es', hlog', hes'⟩ := hk.ok a d
        exact hquiet _ es' hlog' hes' (congrArg Prod.snd hexec)
      · rintro ⟨⟨⟨e, he⟩, _⟩, _⟩
        cases he
  | .error (.panic e) =>
      refine iff_of_true ?_ ?_
      · exact hquiet d [] (List.append_nil _).symm (fun e he => by cases he)
          (congrArg Prod.snd hexec)
      · rintro ⟨⟨⟨e, he⟩, _⟩, _⟩
        cases he
  | .error (.error msg) =>
      obtain ⟨es', hlog', hreport, hacks'⟩ := hk.error msg d
      have hall : (exec (k (.error msg)) d).2.log = (command.arrive s).log ++ (es ++ es') := by
        rw [hlog', hlog, List.append_assoc]
      rw [canRetry_iff hs (congrArg Prod.snd hexec) hall, hk.kept]
      constructor
      · rintro h ⟨⟨_, es'', hlog'', hacks⟩, hlost⟩
        refine hlost (h ?_ ?_)
        · obtain ⟨e, hmem, he⟩ := hreport
          exact ⟨e, List.mem_append_right es hmem, he⟩
        · have hsame : es'' = es := List.append_cancel_left (hlog''.symm.trans hlog)
          subst hsame
          exact List.forall_mem_append.mpr ⟨hacks, hacks'⟩
      · intro h _ hacks
        by_contra hlost
        exact h ⟨⟨⟨msg, rfl⟩, es, hlog, (List.forall_mem_append.mp hacks).1⟩, hlost⟩

/-- One message that reports the error. -/
theorem reports_one {α : Type} {command : Command} {k : Except String α → Handler Unit}
    (report : String → FromMsg) (herror : ∀ e, k (.error e) = uiSend (report e))
    (hreport : ∀ e, Event.reportsError (.toUi (report e)) = true)
    (hok : ∀ a d, (exec (k (.ok a)) d).2.log = d.log) : Reports command k := by
  refine ⟨?_, ?_, ?_⟩
  · intro e d
    rw [herror]
    refine ⟨[.toUi (report e)], rfl, ⟨_, List.mem_singleton_self _, hreport e⟩, ?_⟩
    exact List.forall_mem_singleton.mpr rfl
  · intro a d
    exact ⟨[], (hok a d).trans (List.append_nil _).symm, fun e he => by cases he⟩
  · intro e before d
    rw [herror]
    cases command with
    | _ => exact Iff.rfl

theorem canRetry_sendTx (hs : s.stopped = false) (account : AccountId) :
    CanRetry world s (.sendTx account) ↔
      ¬ Command.Loses world ((Command.sendTx account).arrive s) (.sendTx account) := by
  have hemits : Emits Event.isUnreported (tryProcessSendTx world account) := by
    intro d
    refine Leads.get (Leads.okOr .refl fun tx _ => Leads.modify ?_)
    refine Leads.bindKeeps (keeps_getWallet _) .refl fun _ => ?_
    refine Leads.call (emits_emit rfl) .refl fun _ d' _ hreach => Leads.commit hreach ?_
    split
    · exact .refl
    · exact Leads.modify .refl
  rw [canRetry_attempt hs (p := tryProcessSendTx world account) rfl
    (reports_one (fun e => .sendResult (.error e)) (fun _ => rfl) (fun _ => rfl)
      fun _ _ => rfl) hemits]
  refine not_congr ?_
  generalize hd : (Command.sendTx account).arrive s = d
  have htx : s.data.unsignedTx = d.unsignedTx := by
    rw [← hd]
    rfl
  show (Refuses (tryProcessSendTx world account) d ∧
    ¬ (exec (tryProcessSendTx world account) d).2.unsignedTx = s.data.unsignedTx) ↔
    d.unsignedTx.isSome = true ∧ d.wallets.contains account = false
  rw [htx]
  unfold Refuses tryProcessSendTx
  rw [exec_get_bind]
  cases hsome : d.unsignedTx with
  | none =>
      refine iff_of_false (fun h => h.2 hsome) ?_
      rintro ⟨h, _⟩
      cases h
  | some tx =>
      rw [exec_okOr_some_bind, exec_modify_bind, exec_bind]
      cases hwallet : d.wallets.contains account with
      | false =>
          have hget : exec (getWallet account) { d with unsignedTx := none } =
              (.error (.error "wallet not found"), { d with unsignedTx := none }) := by
            show exec (ensure (d.wallets.contains account) _) _ = _
            rw [hwallet]
            rfl
          rw [hget]
          refine iff_of_true ⟨⟨⟨_, rfl⟩, [], (List.append_nil _).symm, fun e he => by cases he⟩, ?_⟩
            ⟨rfl, rfl⟩
          rintro ⟨⟩
      | true =>
          have hget : exec (getWallet account) { d with unsignedTx := none } =
              (.ok (), { d with unsignedTx := none }) := by
            show exec (ensure (d.wallets.contains account) _) _ = _
            rw [hwallet]
            rfl
          rw [hget]
          refine iff_of_false ?_ (by simp)
          -- the session has been asked: it has sent the payment, or the payment is put back
          cases world.sendTx d.log account tx with
          | ok txid =>
              rintro ⟨⟨⟨e, he⟩, _⟩, _⟩
              cases he
          | error e => exact fun h => h.2 rfl

theorem canRetry_changeNetwork (hs : s.stopped = false) :
    CanRetry world s .changeNetwork ↔
      ¬ Command.Loses world (Command.changeNetwork.arrive s) .changeNetwork := by
  have hemits : Emits Event.isUnreported (tryChangeNetwork world) := by
    intro d
    refine Leads.get (Leads.okOr .refl fun xpubs _ => Leads.modify ?_)
    exact Leads.ofResult .refl fun _ _ => .refl
  rw [canRetry_attempt hs (p := tryChangeNetwork world) rfl
    (reports_one (fun e => .showMessage ("changing network failed: " ++ e)) (fun _ => rfl)
      (fun _ => rfl) fun _ _ => rfl) hemits]
  refine not_congr ?_
  generalize hd : Command.changeNetwork.arrive s = d
  have hwallets : s.data.wallets = d.wallets := by
    rw [← hd]
    rfl
  show (Refuses (tryChangeNetwork world) d ∧ ¬ ∀ accountId : AccountId,
    (exec (tryChangeNetwork world) d).2.wallets[accountId]? = s.data.wallets[accountId]?) ↔
    (d.wallets[accountIdReg]?).isSome = true ∧ Fails (world.restartSession d.log)
  have hexec : exec (tryChangeNetwork world) d =
      exec (okOr d.wallets[accountIdReg]? "no wallet" >>= fun xpubs => do
        modify fun data => { data with wallets := data.wallets.erase accountIdReg }
        ofResult (world.restartSession d.log)
        modify fun data => { data with wallets := data.wallets.insert accountIdReg xpubs }) d :=
    exec_get_bind _ _
  unfold Refuses
  rw [hwallets, hexec]
  cases hsome : d.wallets[accountIdReg]? with
  | none =>
      refine iff_of_false (fun h => h.2 fun _ => rfl) ?_
      rintro ⟨h, _⟩
      cases h
  | some xpubs =>
      rw [exec_okOr_some_bind, exec_modify_bind]
      cases world.restartSession d.log with
      | error e =>
          refine iff_of_true ⟨⟨⟨_, rfl⟩, [], (List.append_nil _).symm, fun e he => by cases he⟩, ?_⟩
            ⟨rfl, e, rfl⟩
          intro hsame
          have hreg : (d.wallets.erase accountIdReg)[accountIdReg]? = d.wallets[accountIdReg]? :=
            hsame accountIdReg
          rw [Table.getElem?_erase_eq, if_pos rfl, hsome] at hreg
          cases hreg
      | ok u =>
          refine iff_of_false ?_ ?_
          · rintro ⟨⟨⟨e, he⟩, _⟩, _⟩
            cases he
          · rintro ⟨_, e, he⟩
            cases he

/-- The peg-out once its amounts have been taken. -/
def requestPeg (world : World) (req : PegOutRequest) (deviceKey : String)
    (amounts : PegOutAmounts) : Handler OrderId := do
  let resp ← request world (.peg (req.peg deviceKey amounts)) Response.peg?
  getWallet req.account
  let data ← get
  ofResult
    (world.pegOutPayment data.log req.account req.sendAmount resp.pegAddr amounts.sendAmount)
  pure resp.orderId

def Data.takePeg (d : Data) : Data := { d with pegOutServerAmounts := none }

/-- The peg-outs that get as far as their request. -/
structure PegReady (d : Data) (req : PegOutRequest) (amounts : PegOutAmounts)
    (deviceKey : String) : Prop where
  connected : d.connected = true
  status : ∃ status, d.serverStatus = some status ∧ status.minPegOutAmount ≤ req.sendAmount
  amounts : d.pegOutServerAmounts = some amounts
  key : d.deviceKey = some deviceKey

theorem exec_pegOut_ready (world : World) {d : Data} {req : PegOutRequest} {amounts : PegOutAmounts}
    {deviceKey : String} (h : PegReady d req amounts deviceKey) :
    exec (tryProcessPegoutRequest world req) d =
      exec (requestPeg world req deviceKey amounts) d.takePeg := by
  obtain ⟨hconnected, ⟨status, hstatus, hmin⟩, hamounts, hkey⟩ := h
  unfold tryProcessPegoutRequest
  rw [exec_get_bind, hconnected, exec_ensure_true_bind, hstatus, exec_okOr_some_bind,
    decide_eq_true hmin, exec_ensure_true_bind, hamounts, exec_okOr_some_bind, hkey,
    exec_modify_bind]
  rfl

/-- Any other peg-out keeps its amounts, or panics. -/
theorem exec_pegOut_other (world : World) {d : Data} {req : PegOutRequest}
    (h : ∀ amounts deviceKey, ¬ PegReady d req amounts deviceKey) :
    (exec (tryProcessPegoutRequest world req) d).2.pegOutServerAmounts = d.pegOutServerAmounts ∨
    ∃ e, (exec (tryProcessPegoutRequest world req) d).1 = .error (.panic e) := by
  unfold tryProcessPegoutRequest
  rw [exec_get_bind]
  cases hconnected : d.connected with
  | false => exact .inl rfl
  | true =>
      rw [exec_ensure_true_bind]
      cases hstatus : d.serverStatus with
      | none => exact .inl rfl
      | some status =>
          rw [exec_okOr_some_bind]
          cases hmin : decide (status.minPegOutAmount ≤ req.sendAmount) with
          | false => exact .inl rfl
          | true =>
              rw [exec_ensure_true_bind]
              cases hamounts : d.pegOutServerAmounts with
              | none => exact .inl hamounts
              | some amounts =>
                  rw [exec_okOr_some_bind, exec_modify_bind]
                  cases hkey : d.deviceKey with
                  | none => exact .inr ⟨_, rfl⟩
                  | some deviceKey =>
                      refine absurd ⟨hconnected, ⟨status, hstatus, of_decide_eq_true hmin⟩,
                        hamounts, hkey⟩ (h amounts deviceKey)

theorem emits_requestPeg (req : PegOutRequest) (amounts : PegOutAmounts) :
    ∀ resp : PegResponse, Emits (fun _ => True) (do
      getWallet req.account
      let data ← get
      ofResult
        (world.pegOutPayment data.log req.account req.sendAmount resp.pegAddr amounts.sendAmount)
      pure resp.orderId : Handler OrderId) := by
  intro resp d
  refine Leads.bindKeeps (keeps_getWallet _) .refl fun _ => Leads.get ?_
  exact Leads.ofResult .refl fun _ _ => .refl

/-- A request for a peg-out that the server refuses has lost the amounts. -/
theorem refuses_requestPeg {d : Data} {req : PegOutRequest} {amounts : PegOutAmounts}
    {deviceKey : String} :
    (Refuses (requestPeg world req deviceKey amounts) d.takePeg ∧
      ¬ (exec (requestPeg world req deviceKey amounts) d.takePeg).2.pegOutServerAmounts =
        some amounts) ↔
      Fails (world.response d.log (.peg (req.peg deviceKey amounts))) := by
  unfold requestPeg
  rw [refuses_request world (emits_requestPeg req amounts)]
  refine and_iff_left_iff_imp.mpr ?_
  rintro ⟨e, he⟩
  have hrefused : world.response d.takePeg.log (.peg (req.peg deviceKey amounts)) = .error e := he
  rw [exec_bind, exec_request, hrefused]
  rintro ⟨⟩

theorem canRetry_pegOut (hs : s.stopped = false) (req : PegOutRequest) :
    CanRetry world s (.pegOut req) ↔
      ¬ Command.Loses world ((Command.pegOut req).arrive s) (.pegOut req) := by
  have hemits : Emits Event.isUnreported (tryProcessPegoutRequest world req) := by
    intro d
    refine Leads.get (Leads.ensure .refl fun _ => Leads.okOr .refl fun status _ => ?_)
    refine Leads.ensure .refl fun _ => Leads.okOr .refl fun amounts _ => Leads.modify ?_
    refine Leads.ofPanic .refl fun deviceKey _ => ?_
    refine Leads.call (emits_request world _ fun res => rfl) .refl fun resp d' _ hreach => ?_
    refine Leads.bindKeeps (keeps_getWallet _) hreach fun _ => Leads.get ?_
    exact Leads.ofResult hreach fun _ _ => hreach
  rw [canRetry_attempt hs (p := tryProcessPegoutRequest world req) rfl
    (reports_one .swapFailed (fun _ => rfl) (fun _ => rfl) fun _ _ => rfl) hemits]
  refine not_congr ?_
  generalize hd : (Command.pegOut req).arrive s = d
  have hamounts : s.data.pegOutServerAmounts = d.pegOutServerAmounts := by
    rw [← hd]
    rfl
  show (Refuses (tryProcessPegoutRequest world req) d ∧
    ¬ (exec (tryProcessPegoutRequest world req) d).2.pegOutServerAmounts =
      s.data.pegOutServerAmounts) ↔ d.connected = true ∧
    ∃ status amounts deviceKey, d.serverStatus = some status ∧
      status.minPegOutAmount ≤ req.sendAmount ∧ d.pegOutServerAmounts = some amounts ∧
      d.deviceKey = some deviceKey ∧
      Fails (world.response d.log (.peg (req.peg deviceKey amounts)))
  rw [hamounts]
  by_cases hready : ∃ amounts deviceKey, PegReady d req amounts deviceKey
  · obtain ⟨amounts, deviceKey, hready⟩ := hready
    have hexec := exec_pegOut_ready world hready
    have hlog : d.takePeg.log = d.log := rfl
    have hrefuses : Refuses (tryProcessPegoutRequest world req) d ↔
        Refuses (requestPeg world req deviceKey amounts) d.takePeg := by
      unfold Refuses
      rw [hexec, hlog]
    rw [hrefuses, hexec, hready.amounts, refuses_requestPeg]
    obtain ⟨hconnected, ⟨status, hstatus, hmin⟩, hsome, hkey⟩ := hready
    constructor
    · exact fun h => ⟨hconnected, status, amounts, deviceKey, hstatus, hmin, rfl, hkey, h⟩
    · rintro ⟨_, _, _, deviceKey', _, _, ⟨⟩, hkey', h⟩
      cases hkey.symm.trans hkey'
      exact h
  · refine iff_of_false ?_ ?_
    · rintro ⟨⟨⟨e, he⟩, _⟩, hlost⟩
      rcases exec_pegOut_other world (fun amounts deviceKey h =>
        hready ⟨amounts, deviceKey, h⟩) with hkept | ⟨e', he'⟩
      · exact hlost hkept
      · cases he.symm.trans he'
    · rintro ⟨hconnected, status, amounts, deviceKey, hstatus, hmin, hsome, hkey, _⟩
      exact hready ⟨amounts, deviceKey, hconnected, ⟨status, hstatus, hmin⟩, hsome, hkey⟩

/-- The end of a decision. -/
def closeReview : Handler Unit := do
  modify fun data => { data with visibleSubmit := none }
  processPendingSignPrompts
  processPendingSucceed

theorem emits_closeReview : Emits Event.isSilent closeReview := by
  intro d
  refine Leads.modify (Leads.commit .refl ?_)
  exact Follows.bind emits_processPendingSignPrompts (fun _ => emits_processPendingSucceed) _

theorem fixes_closeReview : Fixes Data.activeSubmits closeReview := by
  intro d
  refine Leads.modify (Leads.commit .refl ?_)
  refine Follows.bind (fixes_processPendingSignPrompts fun _ _ _ _ _ => rfl) (fun _ d' => ?_) _
  have hshow : ∀ item, Fixes Data.activeSubmits (uiSend (.submitResult (.swapSucceed item))) :=
    fun _ _ => .refl
  refine Leads.get ?_
  split
  · exact .refl
  · exact Leads.modify (Leads.commit .refl (Follows.forM hshow _ _))

/-- How a decision is reported. -/
def reportDecision (domainAgent : Option String) : Except String Bool → Handler Unit
  | .ok false => do
      modify fun data => { data with waitingSubmit := data.visibleSubmit, visibleSubmit := none }
      processPendingSignPrompts
      processPendingSucceed
  | .ok true => do
      uiSend (.submitResult .submitSucceed)
      closeReview
  | .error e => do
      uiSend (.submitResult (submitError domainAgent e))
      closeReview

theorem reportsError_submitError (domainAgent : Option String) (e : String) :
    Event.reportsError (.toUi (.submitResult (submitError domainAgent e))) = true := by
  unfold submitError
  split
  · split
    · rfl
    · rfl
  · rfl

theorem reports_decision (req : SubmitDecision) (domainAgent : Option String) :
    Reports (.accept req) (reportDecision domainAgent) := by
  refine ⟨?_, ?_, ?_⟩
  · intro e d
    obtain ⟨es, hlog, hes⟩ := emits_closeReview.events
      (d.emit (.toUi (.submitResult (submitError domainAgent e))))
    refine ⟨.toUi (.submitResult (submitError domainAgent e)) :: es, ?_, ?_, ?_⟩
    · show (exec closeReview (d.emit _)).2.log = _
      rw [hlog]
      exact List.append_assoc _ _ _
    · exact ⟨_, List.mem_cons_self, reportsError_submitError domainAgent e⟩
    · exact List.forall_mem_cons.mpr ⟨rfl, fun e he => (hes e he).2⟩
  · intro done d
    cases done with
    | false =>
        have hemits : Emits Event.isSilent (reportDecision domainAgent (.ok false)) := by
          intro d
          refine Leads.modify (Leads.commit .refl ?_)
          exact Follows.bind emits_processPendingSignPrompts (fun _ => emits_processPendingSucceed) _
        obtain ⟨es, hlog, hes⟩ := hemits.events d
        exact ⟨es, hlog, fun e he => (hes e he).1⟩
    | true =>
        have hemits : Emits Event.isSilent (reportDecision domainAgent (.ok true)) :=
          Follows.bind (emits_emit ⟨rfl, rfl⟩) fun _ => emits_closeReview
        obtain ⟨es, hlog, hes⟩ := hemits.events d
        exact ⟨es, hlog, fun e he => (hes e he).1⟩
  · intro e before d
    have hsame : (exec (reportDecision domainAgent (.error e)) d).2.activeSubmits =
        d.activeSubmits :=
      fixes_closeReview.eq (d.emit (.toUi (.submitResult (submitError domainAgent e))))
    show (∀ orderId, _ → (exec (reportDecision domainAgent (.error e)) d).2.activeSubmits[orderId]?
      = _) ↔ _
    rw [hsame]
    exact Iff.rfl

theorem emits_tryProcessSubmitDecision (req : SubmitDecision) :
    Emits Event.isUnreported (tryProcessSubmitDecision world req) := by
  intro d
  unfold tryProcessSubmitDecision
  split
  · exact .refl
  · refine Leads.get ?_
    split
    · exact Leads.modify (Leads.commit .refl (emits_trySign world _ _))
    · refine Leads.okOr .refl fun orderId _ => Leads.okOr .refl fun resp _ => Leads.modify ?_
      exact Leads.commit .refl (emits_trySubmit world req orderId resp _)

/-- The order that is reviewed has been taken. -/
def Data.takeSubmit (d : Data) (orderId : OrderId) : Data :=
  { d with activeSubmits := d.activeSubmits.erase orderId }

/-- A decision that submits a reviewed order. -/
theorem exec_decision_submit (world : World) {req : SubmitDecision} {d : Data} {orderId : OrderId}
    {resp : LinkResponse}
    (hprompt : ∀ sign, d.activeSign = some sign → toText sign.orderId ≠ req.orderId)
    (hid : fromStr req.orderId = some orderId) (hresp : d.activeSubmits[orderId]? = some resp) :
    exec (tryProcessSubmitDecision world { req with accept := true }) d =
      exec (trySubmit world { req with accept := true } orderId resp) (d.takeSubmit orderId) := by
  have hfilter : (d.activeSign.filter fun sign => toText sign.orderId == req.orderId) = none := by
    refine Option.filter_eq_none_iff.mpr fun sign hsign => ?_
    rw [beq_iff_eq]
    exact hprompt sign hsign
  unfold tryProcessSubmitDecision
  show exec (get >>= _) d = _
  rw [exec_get_bind]
  simp only [hfilter]
  rw [hid, exec_okOr_some_bind, hresp, exec_okOr_some_bind, exec_modify_bind]
  rfl

/-- Any other decision leaves the reviewed orders alone. -/
theorem exec_decision_other (world : World) {req : SubmitDecision} {d : Data}
    (h : ¬ ((∀ sign, d.activeSign = some sign → toText sign.orderId ≠ req.orderId) ∧
      ∃ orderId resp, fromStr req.orderId = some orderId ∧
        d.activeSubmits[orderId]? = some resp)) :
    (exec (tryProcessSubmitDecision world { req with accept := true }) d).2.activeSubmits =
      d.activeSubmits := by
  unfold tryProcessSubmitDecision
  show (exec (get >>= _) d).2.activeSubmits = _
  rw [exec_get_bind]
  split
  · next msg _ =>
      rw [exec_modify_bind]
      exact (fixes_trySign ⟨fun _ _ _ _ => rfl, fun _ _ => rfl⟩ world msg).eq _
  · next hfilter =>
      have hprompt : ∀ sign, d.activeSign = some sign → toText sign.orderId ≠ req.orderId := by
        intro sign hsign htext
        have hnot := Option.filter_eq_none_iff.mp hfilter sign hsign
        exact hnot (beq_iff_eq.mpr htext)
      show (exec (okOr (fromStr req.orderId) _ >>= _) d).2.activeSubmits = _
      cases hid : fromStr req.orderId with
      | none => rfl
      | some orderId =>
          rw [exec_okOr_some_bind]
          cases hresp : d.activeSubmits[orderId]? with
          | none => rfl
          | some resp => exact absurd ⟨hprompt, orderId, resp, hid, hresp⟩ h

theorem canRetry_accept (hs : s.stopped = false) (req : SubmitDecision) :
    CanRetry world s (.accept req) ↔
      ¬ Command.Loses world ((Command.accept req).arrive s) (.accept req) := by
  rw [canRetry_attempt hs (p := tryProcessSubmitDecision world { req with accept := true })
    (exec_get_bind _ _) (reports_decision req _) (emits_tryProcessSubmitDecision _)]
  refine not_congr ?_
  generalize hd : (Command.accept req).arrive s = d
  have hsubmits : s.data.activeSubmits = d.activeSubmits := by
    rw [← hd]
    rfl
  show (Refuses (tryProcessSubmitDecision world { req with accept := true }) d ∧
    ¬ ∀ orderId, fromStr req.orderId = some orderId →
      (exec (tryProcessSubmitDecision world { req with accept := true }) d).2.activeSubmits[orderId]?
        = s.data.activeSubmits[orderId]?) ↔
    (∀ sign, d.activeSign = some sign → toText sign.orderId ≠ req.orderId) ∧
      ∃ orderId resp, fromStr req.orderId = some orderId ∧
        d.activeSubmits[orderId]? = some resp ∧
        SubmitRefused world d { req with accept := true } orderId resp.details
  rw [hsubmits]
  by_cases htakes : (∀ sign, d.activeSign = some sign → toText sign.orderId ≠ req.orderId) ∧
      ∃ orderId resp, fromStr req.orderId = some orderId ∧ d.activeSubmits[orderId]? = some resp
  · obtain ⟨hprompt, orderId, resp, hid, hresp⟩ := htakes
    have hexec := exec_decision_submit world hprompt hid hresp
    have hlost : ¬ ∀ orderId, fromStr req.orderId = some orderId →
        (exec (tryProcessSubmitDecision world { req with accept := true })
          d).2.activeSubmits[orderId]? = d.activeSubmits[orderId]? := by
      intro hkept
      have hsame := hkept orderId hid
      rw [hexec, hresp,
        (fixes_trySubmit (f := Data.activeSubmits) ⟨fun _ _ _ _ => rfl, fun _ _ => rfl⟩ world _
          orderId resp).eq] at hsame
      have hgone : (d.activeSubmits.erase orderId)[orderId]? = some resp := hsame
      rw [Table.getElem?_erase_eq, if_pos rfl] at hgone
      cases hgone
    have hrefuses : Refuses (tryProcessSubmitDecision world { req with accept := true }) d ↔
        SubmitRefused world d { req with accept := true } orderId resp.details := by
      refine Iff.trans ?_ (refuses_trySubmit (d := d.takeSubmit orderId) world _ orderId resp)
      unfold Refuses
      rw [hexec]
      exact Iff.rfl
    rw [hrefuses, and_iff_left hlost]
    constructor
    · exact fun h => ⟨hprompt, orderId, resp, hid, hresp, h⟩
    · rintro ⟨_, orderId', resp', hid', hresp', h⟩
      cases hid.symm.trans hid'
      cases hresp.symm.trans hresp'
      exact h
  · refine iff_of_false ?_ ?_
    · rintro ⟨_, hlost⟩
      refine hlost fun orderId _ => ?_
      rw [exec_decision_other world htakes]
    · rintro ⟨hprompt, orderId, resp, hid, hresp, _⟩
      exact htakes ⟨hprompt, orderId, resp, hid, hresp⟩

end Commands

/-- **RETRIES**: in every state, a command that fails with nothing acknowledged
    can be repeated exactly when it does not fail after it has taken what it
    works on. -/
theorem command_retryable_iff (world : World) (s : System) (command : Command) :
    CanRetry world s command ↔
      s.stopped = true ∨ ¬ command.Loses world (command.arrive s) := by
  cases hs : s.stopped with
  | true =>
      refine iff_of_true ?_ (.inl rfl)
      unfold CanRetry newEvents
      rw [step_stopped world _ hs]
      rintro s' ⟨e, he, _⟩
      rw [List.drop_length] at he
      cases he
  | false =>
      rw [or_iff_right (by simp)]
      cases command with
      | sendTx account => exact canRetry_sendTx hs account
      | accept req => exact canRetry_accept hs req
      | pegOut req => exact canRetry_pegOut hs req
      | changeNetwork => exact canRetry_changeNetwork hs

namespace Sample

/-- The maker's coin has to be split before a two-step swap. -/
def splittingWorld : World :=
  { world .maker with
    sigSingleMakerTx := fun _ _ _ _ _ _ _ => .ok ⟨"proposal", some "split", coin⟩ }

/-- The user accepts a two-step swap, and has not allowed the split. -/
def twoStep : SubmitDecision := { decision order with twoStep := some true }

end Sample

/-- The user is asked to allow the split and to try again, but the order is gone. -/
theorem order_lost_before_retry :
    ∃ s, Reaches Sample.splittingWorld (fun _ _ => True) s ∧
      ¬ CanRetry Sample.splittingWorld s (.accept Sample.twoStep) := by
  let s := run Sample.splittingWorld Sample.bitcoin [Sample.asset]
    (Sample.connecting ++ [.ui (.linkOrder (toText Sample.order))])
  have hreach : Reaches Sample.splittingWorld (fun _ _ => True) s :=
    reaches_run ⟨trivial, trivial, trivial, trivial, trivial⟩
  have hreported : ∃ e ∈ newEvents s (step Sample.splittingWorld s
      (.ui (Command.accept Sample.twoStep).msg)), Event.reportsError e = true := by
    decide +kernel
  have hacks : ∀ e ∈ newEvents s (step Sample.splittingWorld s
      (.ui (Command.accept Sample.twoStep).msg)), Event.acks e = false := by
    decide +kernel
  have hbefore : (s.data.activeSubmits[Sample.order]?).isSome = true := by decide +kernel
  have hafter : ((step Sample.splittingWorld s
      (.ui (Command.accept Sample.twoStep).msg)).data.activeSubmits[Sample.order]?).isSome =
        false := by
    decide +kernel
  clear_value s
  refine ⟨s, hreach, fun hretry => ?_⟩
  have hkept := hretry hreported hacks Sample.order (fromStr_toText Sample.order)
  rw [hkept, hbefore] at hafter
  cases hafter

end Client
