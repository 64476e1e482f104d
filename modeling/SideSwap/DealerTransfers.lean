import SideSwap.DealerBalancing

/-! # A transfer moves money at most once

    The fourteen states of a transfer form a graph without cycles: `Edge` lists
    its edges with the money movement, if any, that the dealer issues on each.
    A movement that lies ahead of the present state has not been issued yet,
    and one that has been issued does not lie ahead any more.

    Every handler takes at most one edge, and saves the record it changed
    before it ends, so a restart changes nothing of this. -/

namespace Dealer

open Api Program Pricing Transition History Relation

/-! ## The graph of the states -/

/-- How money can be moved. -/
inductive Movement.Kind where
  | sendToAddress
  | withdraw
  | transfer
deriving DecidableEq, Repr

open Movement (Kind)

/-- The steps of a transfer, with what is issued on each. -/
inductive Edge : TransferState → Option Kind → TransferState → Prop where
  | fundUsdt : Edge .sendUsdtNew (some .sendToAddress) .sendUsdtWaitConfirm
  | fundUsdtFailed : Edge .sendUsdtNew (some .sendToAddress) .failed
  | usdtArrived : Edge .sendUsdtWaitConfirm none .complete
  | withdrawUsdt : Edge .recvUsdtNew (some .withdraw) .recvUsdtWaitWithdrawId
  | usdtWithdrawn : Edge .recvUsdtWaitWithdrawId none .recvUsdtWaitConfirm
  | usdtConfirmed : Edge .recvUsdtWaitConfirm none .complete
  | fundBtc : Edge .sendBtcNew (some .sendToAddress) .sendBtcWaitLbtcBalance
  | fundBtcFailed : Edge .sendBtcNew (some .sendToAddress) .failed
  | toBtc : Edge .sendBtcWaitLbtcBalance (some .transfer) .sendBtcWaitConfirm
  | btcArrived : Edge .sendBtcWaitConfirm none .complete
  | toLbtc : Edge .recvBtcNew (some .transfer) .recvBtcWaitLbtcBalance
  | withdrawBtc : Edge .recvBtcWaitLbtcBalance (some .withdraw) .recvBtcWaitWithdrawId
  | btcWithdrawn : Edge .recvBtcWaitWithdrawId none .recvBtcWaitConfirm
  | btcConfirmed : Edge .recvBtcWaitConfirm none .complete
  | fail (state) : Edge state none .failed

/-- Whether a movement may still be issued from a state on. -/
def TransferState.ahead : TransferState → Kind → Bool
  | .sendUsdtNew, .sendToAddress => true
  | .recvUsdtNew, .withdraw => true
  | .sendBtcNew, .sendToAddress => true
  | .sendBtcNew, .transfer => true
  | .sendBtcWaitLbtcBalance, .transfer => true
  | .recvBtcNew, .transfer => true
  | .recvBtcNew, .withdraw => true
  | .recvBtcWaitLbtcBalance, .withdraw => true
  | _, _ => false

/-- **NO WAY BACK**: an edge puts nothing ahead, and what it issues was ahead
    and is not any more. -/
theorem Edge.ahead {state state' : TransferState} {issue : Option Kind}
    (h : Edge state issue state') (kind : Kind) :
    (state'.ahead kind = true → state.ahead kind = true) ∧
      (issue = some kind → state.ahead kind = true ∧ state'.ahead kind = false) := by
  cases h <;> cases kind <;> simp [TransferState.ahead]

/-- Before the exchange's bitcoins are withdrawn they are converted. -/
theorem Edge.toLbtcOnly {state : TransferState} {issue : Option Kind}
    (h : Edge state issue .recvBtcWaitLbtcBalance) : issue = some .transfer := by
  cases h
  rfl

/-! ## The history -/

/-- The start of a transfer. -/
def Event.started? : Event → Option Transfer
  | .started transfer => some transfer
  | _ => none

/-- The money movement an event issues, and its amount. -/
def Event.issues? : Event → Option (Kind × ℚ)
  | .sendToAddress _ amount _ _ => some (.sendToAddress, amount)
  | .toModule (.withdraw _ _ _ _ amount _) => some (.withdraw, amount)
  | .toModule (.transfer _ _ _ _ _ _ amount) => some (.transfer, amount)
  | _ => none

/-- A `Withdraw` of bitcoins. -/
def Event.withdrawsBitcoin : Event → Bool
  | .toModule (.withdraw _ _ _ method _ _) => method == bitfinexMethodLbtc
  | _ => false

/-- The event issues a movement of this kind. -/
def Event.issues (kind : Kind) (e : Event) : Bool := (e.issues?.map (·.1)) == some kind

/-- How often a movement was issued for the latest transfer. -/
def issued (kind : Kind) (log : List Event) : Nat :=
  (since Event.started? log).countP (Event.issues kind)

/-- A money movement is the first of its kind for its transfer, moves the amount
    of the transfer, and withdraws bitcoins only after they were converted. -/
structure Due (before : List Event) (e : Event) : Prop where
  once : ∀ kind, e.issues kind = true → issued kind before = 0
  amount : ∀ kind amount, e.issues? = some (kind, amount) →
    ∃ transfer, latest Event.started? before = some transfer ∧
      amount = toBitcoin transfer.amount
  converted : e.withdrawsBitcoin = true → 0 < issued .transfer before

theorem issued_start (kind : Kind) {e : Event} {transfer : Transfer}
    (h : e.started? = some transfer) (log : List Event) : issued kind (log ++ [e]) = 0 := by
  unfold issued
  rw [since_concat_some h]
  rfl

theorem issued_concat (kind : Kind) {e : Event} (h : e.started? = none) (log : List Event) :
    issued kind (log ++ [e]) = issued kind log + if e.issues kind then 1 else 0 := by
  unfold issued
  rw [since_concat_none h, List.countP_append, List.countP_singleton]

/-- An event that starts no transfer and moves no money. -/
def Event.isQuiet (e : Event) : Bool := e.started?.isNone && e.issues?.isNone

theorem Event.started?_of_quiet {e : Event} (h : e.isQuiet = true) : e.started? = none := by
  unfold Event.isQuiet at h
  simp at h
  exact h.1

theorem Event.issues?_of_quiet {e : Event} (h : e.isQuiet = true) : e.issues? = none := by
  unfold Event.isQuiet at h
  simp at h
  exact h.2

theorem issued_quiet (kind : Kind) {e : Event} (h : e.isQuiet = true) (log : List Event) :
    issued kind (log ++ [e]) = issued kind log := by
  have hissues : e.issues kind = false := by
    unfold Event.issues
    rw [Event.issues?_of_quiet h]
    rfl
  rw [issued_concat kind (Event.started?_of_quiet h), hissues]
  rfl

/-! ## What the handlers do -/

/-- The record, what is saved of it, and the history. -/
structure Desk where
  balancing : Option Transfer
  saved : Option Transfer
  log : List Event

def Data.desk (data : Data) : Desk :=
  ⟨data.storage.balancing, data.saved.balancing, data.log⟩

/-- The record after an edge. -/
structure Advanced (transfer transfer' : Transfer) : Prop where
  amount : transfer'.amount = transfer.amount
  txid : transfer'.state = .sendUsdtWaitConfirm → transfer'.txid.isSome = true
  withdrawId : transfer'.state = .recvUsdtWaitConfirm ∨ transfer'.state = .recvBtcWaitConfirm →
    transfer'.withdrawId.isSome = true

/-- What is issued on an edge, for the record it is issued for. -/
inductive Issues (transfer : Transfer) : Option Kind → List Event → Prop where
  | none : Issues transfer none []
  | some {kind e} : e.issues? = some (kind, toBitcoin transfer.amount) →
      (e.withdrawsBitcoin = true → transfer.state = .recvBtcWaitLbtcBalance) →
      Issues transfer (some kind) [e]

/-- One thing that happens to the record. -/
inductive Move : Desk → Desk → Prop where
  | note {d e} : Event.isQuiet e = true → Move d { d with log := d.log ++ [e] }
  | start {saved log transfer} : transfer.state ≠ .recvBtcWaitLbtcBalance →
      Advanced transfer transfer →
      Move ⟨none, saved, log⟩ ⟨some transfer, some transfer, log ++ [.started transfer]⟩
  | advance {saved log transfer transfer' issue es notes} :
      Edge transfer.state issue transfer'.state → Advanced transfer transfer' →
      Issues transfer issue es → (∀ e ∈ notes, Event.isQuiet e = true) →
      Move ⟨some transfer, saved, log⟩ ⟨some transfer', some transfer', log ++ es ++ notes⟩
  | remove {d} : Move d { d with balancing := none, saved := none }

abbrev Takes {α : Type} (v : Desk) (p : Handler α) (data : Data) : Prop :=
  Leads Data.desk Move v p data

/-- The data after `update_balancing_state`. -/
def Data.advance (data : Data) (transfer : Transfer) : Data :=
  { data with
    storage := ⟨some transfer⟩
    saved := ⟨some transfer⟩
    log := data.log ++ (stateNotification transfer.state).toList.map .notification }

theorem exec_updateBalancingState (world : World) (newState : TransferState)
    (f : Transfer → Transfer) {data : Data} {transfer : Transfer}
    (h : data.storage.balancing = some transfer) :
    ∃ updatedAt, exec (updateBalancingState world newState f) data =
      (.ok (), data.advance { f transfer with state := newState, updatedAt }) := by
  refine ⟨world.now data.log, ?_⟩
  unfold updateBalancingState Data.advance
  rw [exec_get_bind, h]
  cases hnote : stateNotification newState with
  | none =>
      rw [Option.toList_none, List.map_nil, List.append_nil]
      rfl
  | some text => rfl

/-- **ONE EDGE**: an update books what was issued before it. -/
theorem updateBalancingState_takes {world : World} {newState : TransferState}
    {f : Transfer → Transfer} {data : Data} {transfer : Transfer} {saved : Option Transfer}
    {log es : List Event} {issue : Option Kind}
    (h : data.storage.balancing = some transfer) (hlog : data.log = log ++ es)
    (hedge : Edge transfer.state issue newState) (hissue : Issues transfer issue es)
    (hadvanced : ∀ updatedAt, Advanced transfer { f transfer with state := newState, updatedAt }) :
    Takes ⟨some transfer, saved, log⟩ (updateBalancingState world newState f) data := by
  obtain ⟨updatedAt, hexec⟩ := exec_updateBalancingState world newState f h
  unfold Takes Leads
  rw [hexec]
  have hquiet : ∀ e ∈ (stateNotification newState).toList.map Event.notification,
      e.isQuiet = true := by
    intro e he
    obtain ⟨text, _, rfl⟩ := List.mem_map.mp he
    rfl
  have hmove : ∀ transfer', transfer' = { f transfer with state := newState, updatedAt } →
      Move ⟨some transfer, saved, log⟩ ⟨some transfer', some transfer', data.log ++
        (stateNotification newState).toList.map .notification⟩ := by
    rintro _ rfl
    rw [hlog]
    exact .advance hedge (hadvanced updatedAt) hissue hquiet
  exact .single (hmove _ rfl)

/-- An update to a state that asks nothing of the record. -/
theorem advanced_of_state {transfer : Transfer} {newState : TransferState} {updatedAt : Nat}
    (h : newState ≠ .sendUsdtWaitConfirm) (h' : newState ≠ .recvUsdtWaitConfirm)
    (h'' : newState ≠ .recvBtcWaitConfirm) :
    Advanced transfer { id transfer with state := newState, updatedAt } :=
  ⟨rfl, fun hs => absurd hs h, fun hs => (hs.elim h' h'').elim⟩

/-- The desk of a dealer with an active transfer. -/
theorem desk_eq {data : Data} {transfer : Transfer} (h : data.storage.balancing = some transfer) :
    data.desk = ⟨some transfer, data.saved.balancing, data.log⟩ := by
  unfold Data.desk
  rw [h]

/-- An update that issues nothing. -/
theorem quietUpdate_takes {world : World} {newState : TransferState} {f : Transfer → Transfer}
    {data : Data} {transfer : Transfer} (h : data.storage.balancing = some transfer)
    (hedge : Edge transfer.state none newState)
    (hadvanced : ∀ updatedAt, Advanced transfer { f transfer with state := newState, updatedAt }) :
    Takes data.desk (updateBalancingState world newState f) data := by
  rw [desk_eq h]
  exact updateBalancingState_takes h (List.append_nil _).symm hedge .none hadvanced

/-- A handler that fails the transfer. -/
theorem fail_takes (world : World) {data : Data} {transfer : Transfer}
    (h : data.storage.balancing = some transfer) :
    Takes data.desk (updateBalancingState world .failed id) data :=
  quietUpdate_takes h (.fail _) fun _ => advanced_of_state (by decide) (by decide) (by decide)

/-- A message to the module, and the edge it is issued on. -/
theorem sendMsg_takes {world : World} {newState : TransferState} {msg : ToModule} {kind : Kind}
    {data : Data} {transfer : Transfer} (h : data.storage.balancing = some transfer)
    (hedge : Edge transfer.state (some kind) newState)
    (hissues : (Event.toModule msg).issues? = some (kind, toBitcoin transfer.amount))
    (hbitcoin : (Event.toModule msg).withdrawsBitcoin = true →
      transfer.state = .recvBtcWaitLbtcBalance)
    (hadvanced : ∀ updatedAt, Advanced transfer { id transfer with state := newState, updatedAt }) :
    Takes data.desk (do
      sendMsg msg
      updateBalancingState world newState id) data := by
  rw [desk_eq h]
  exact Leads.modify (updateBalancingState_takes h rfl hedge (.some hissues hbitcoin) hadvanced)

/-- The two outcomes of `sendtoaddress`. -/
theorem fundBitfinex_takes {world : World} {args : Args} {assetLabel : Option AssetId}
    {sent : TransferState} {data : Data} {transfer : Transfer}
    (h : data.storage.balancing = some transfer)
    (hedge : Edge transfer.state (some .sendToAddress) sent)
    (hfailed : Edge transfer.state (some .sendToAddress) .failed)
    (hsent : sent ≠ .recvUsdtWaitConfirm ∧ sent ≠ .recvBtcWaitConfirm) :
    Takes data.desk (fundBitfinex world args transfer assetLabel sent) data := by
  rw [desk_eq h]
  refine Leads.get (Leads.modify ?_)
  -- the call is logged with its result before the result is looked at
  cases world.rpc data.log with
  | ok txid =>
      refine updateBalancingState_takes h rfl hedge (.some rfl (nomatch ·)) fun updatedAt => ?_
      exact ⟨rfl, fun _ => rfl, fun hs => (hs.elim hsent.1 hsent.2).elim⟩
  | error e =>
      refine updateBalancingState_takes h rfl hfailed (.some rfl (nomatch ·)) fun updatedAt => ?_
      exact advanced_of_state (by decide) (by decide) (by decide)

theorem processBalancing_takes (world : World) (args : Args) (data : Data) :
    Takes data.desk (processBalancing world args) data := by
  refine Leads.get ?_
  cases h : data.storage.balancing with
  | none => exact .refl
  | some transfer =>
      have hkeep : ∀ {newState}, newState ≠ .sendUsdtWaitConfirm → newState ≠ .recvUsdtWaitConfirm →
          newState ≠ .recvBtcWaitConfirm → ∀ updatedAt,
          Advanced transfer { id transfer with state := newState, updatedAt } :=
        fun h1 h2 h3 _ => advanced_of_state h1 h2 h3
      cases hstate : transfer.state with
      | sendUsdtNew =>
          simp only [hstate]
          split
          · refine Leads.ofPanic .refl fun asset _ => ?_
            exact fundBitfinex_takes h (hstate ▸ .fundUsdt) (hstate ▸ .fundUsdtFailed)
              ⟨by decide, by decide⟩
          · exact .refl
      | recvUsdtNew =>
          simp only [hstate]
          split
          · exact sendMsg_takes h (hstate ▸ .withdrawUsdt) rfl
              (fun hb : (bitfinexMethodUsdt == bitfinexMethodLbtc) = true => absurd hb (by decide))
              (hkeep (by decide) (by decide) (by decide))
          · exact .refl
      | sendBtcNew =>
          simp only [hstate]
          split
          · exact fundBitfinex_takes h (hstate ▸ .fundBtc) (hstate ▸ .fundBtcFailed)
              ⟨by decide, by decide⟩
          · exact .refl
      | sendBtcWaitLbtcBalance =>
          simp only [hstate]
          split
          · exact sendMsg_takes h (hstate ▸ .toBtc) rfl (nomatch ·)
              (hkeep (by decide) (by decide) (by decide))
          · exact .refl
      | sendBtcWaitConfirm =>
          simp only [hstate]
          split
          · exact quietUpdate_takes h (hstate ▸ .btcArrived)
              (hkeep (by decide) (by decide) (by decide))
          · exact .refl
      | recvBtcNew =>
          simp only [hstate]
          split
          · exact sendMsg_takes h (hstate ▸ .toLbtc) rfl (nomatch ·)
              (hkeep (by decide) (by decide) (by decide))
          · exact .refl
      | recvBtcWaitLbtcBalance =>
          simp only [hstate]
          split
          · exact sendMsg_takes h (hstate ▸ .withdrawBtc) rfl (fun _ => hstate)
              (hkeep (by decide) (by decide) (by decide))
          · exact .refl
      | complete =>
          simp only [hstate]
          exact .single .remove
      | _ =>
          -- the other states wait for a message
          simp only [hstate]
          exact .refl

/-- A withdraw id leads on from the states that wait for one. -/
theorem withdrawConfirms_edge {state confirm : TransferState}
    (h : withdrawConfirms state = some confirm) :
    Edge state none confirm ∧ confirm ≠ .sendUsdtWaitConfirm := by
  cases state <;> cases h
  · exact ⟨.usdtWithdrawn, by decide⟩
  · exact ⟨.btcWithdrawn, by decide⟩

theorem processWithdraw_takes (world : World) (withdrawId : Int) (data : Data) :
    Takes data.desk (processWithdraw world withdrawId) data := by
  refine Leads.get ?_
  cases h : data.storage.balancing with
  | none => exact .refl
  | some transfer =>
      cases hconfirm : withdrawConfirms transfer.state with
      | none =>
          simp only [hconfirm]
          exact fail_takes world h
      | some confirm =>
          obtain ⟨hedge, hne⟩ := withdrawConfirms_edge hconfirm
          simp only [hconfirm]
          split
          · exact quietUpdate_takes h hedge fun _ =>
              ⟨rfl, fun hs => absurd hs hne, fun _ => rfl⟩
          · exact fail_takes world h

theorem processMovements_takes (world : World) (msg : Movements) (data : Data) :
    Takes data.desk (processMovements world msg) data := by
  have hcomplete : ∀ {transfer}, data.storage.balancing = some transfer →
      Edge transfer.state none .complete →
      Takes data.desk (updateBalancingState world .complete id) data := fun h hedge =>
    quietUpdate_takes h hedge fun _ => advanced_of_state (by decide) (by decide) (by decide)
  refine Leads.get ?_
  split
  · exact .refl
  · split
    · exact .refl
    · cases h : data.storage.balancing with
      | none => exact .refl
      | some transfer =>
          simp only
          split
          · next hstate =>
              refine Leads.ofPanic .refl fun txid _ => ?_
              split
              · exact hcomplete h (hstate ▸ .usdtArrived)
              · exact .refl
          · next hstate =>
              split
              · exact hcomplete h (hstate ▸ .usdtConfirmed)
              · exact .refl
          · next hstate =>
              split
              · exact hcomplete h (hstate ▸ .btcConfirmed)
              · exact .refl
          · exact .refl

theorem processTransfer_takes (world : World) (success : Bool) (data : Data) :
    Takes data.desk (processTransfer world success) data := by
  refine Leads.get ?_
  split
  · next hsome =>
      obtain ⟨transfer, h⟩ := Option.isSome_iff_exists.mp hsome
      split
      · exact fail_takes world h
      · exact .refl
  · exact .refl

/-- The first state of a requested transfer. -/
theorem newTransfer_state (req : CliRequest) (now : Nat) :
    (newTransfer req now).state ≠ .recvBtcWaitLbtcBalance ∧
      Advanced (newTransfer req now) (newTransfer req now) := by
  cases req <;> exact ⟨(nomatch ·), rfl, (nomatch ·), fun hs => by cases hs <;> contradiction⟩

theorem processCli_takes (world : World) (req : CliRequest) (data : Data) :
    Takes data.desk (processCli world req) data := by
  refine Leads.get ?_
  split
  · exact .single (.note rfl)
  · next hnone =>
      have hnone : data.storage.balancing = none := by simpa using hnone
      obtain ⟨hstate, hadvanced⟩ := newTransfer_state req (world.now data.log)
      have hdesk : data.desk = ⟨none, data.saved.balancing, data.log⟩ := by
        unfold Data.desk
        rw [hnone]
      rw [hdesk]
      refine Leads.modify (Leads.modify (Leads.modify ?_))
      exact ((ReflTransGen.single (.start hstate hadvanced)).tail (.note rfl)).tail (.note rfl)

theorem checkExchange_takes (args : Args) (data : Data) :
    Takes data.desk (checkExchange args) data := by
  refine Leads.get ?_
  split
  · exact .refl
  · split
    · exact .single (.note rfl)
    · exact .refl

/-- **SIMULATION**: a handler only makes moves. -/
theorem processMsg_takes (world : World) (args : Args) (msg : Msg) (data : Data) :
    Takes data.desk (processMsg world args msg) data := by
  cases msg with
  | timer => exact processBalancing_takes world args data
  | withdraw withdrawId => exact processWithdraw_takes world withdrawId data
  | movements msg => exact processMovements_takes world msg data
  | transfer success => exact processTransfer_takes world success data
  | cli req => exact processCli_takes world req data
  | checkExchange => exact checkExchange_takes args data
  | _ => exact .refl

/-! ## The invariant -/

/-- The record against the history of its transfer. -/
structure Held (transfer : Transfer) (log : List Event) : Prop where
  amount : ∃ first, latest Event.started? log = some first ∧ first.amount = transfer.amount
  /-- what lies ahead has not been issued -/
  ahead : ∀ kind, transfer.state.ahead kind = true → issued kind log = 0
  converted : transfer.state = .recvBtcWaitLbtcBalance → 0 < issued .transfer log
  advanced : Advanced transfer transfer

/-- What holds between two messages. -/
structure Desk.Inv (d : Desk) : Prop where
  saved : d.saved = d.balancing
  due : Justified Due d.log
  held : ∀ transfer, d.balancing = some transfer → Held transfer d.log

/-- A quiet event is always due. -/
theorem due_quiet {e : Event} (h : e.isQuiet = true) (log : List Event) : Due log e := by
  have hissues := Event.issues?_of_quiet h
  refine ⟨fun kind hk => ?_, fun kind amount hk => ?_, fun hw => ?_⟩
  · unfold Event.issues at hk
    rw [hissues] at hk
    exact nomatch hk
  · rw [hissues] at hk
    exact nomatch hk
  · cases e with
    | toModule msg =>
        cases msg with
        | withdraw key secret wallet method amount address => exact nomatch hissues
        | _ => exact nomatch hw
    | _ => exact nomatch hw

theorem Held.quiet {transfer : Transfer} {log : List Event} (h : Held transfer log) {e : Event}
    (he : e.isQuiet = true) : Held transfer (log ++ [e]) := by
  refine ⟨?_, fun kind hk => ?_, fun hs => ?_, h.advanced⟩
  · rw [latest_concat_none (Event.started?_of_quiet he)]
    exact h.amount
  · rw [issued_quiet kind he]
    exact h.ahead kind hk
  · rw [issued_quiet _ he]
    exact h.converted hs

theorem Held.notes {transfer : Transfer} {log notes : List Event} (h : Held transfer log)
    (hnotes : ∀ e ∈ notes, e.isQuiet = true) : Held transfer (log ++ notes) := by
  induction notes generalizing log with
  | nil =>
      rw [List.append_nil]
      exact h
  | cons e notes ih =>
      rw [List.append_cons]
      exact ih (h.quiet (hnotes e List.mem_cons_self)) fun e' he' =>
        hnotes e' (List.mem_cons_of_mem e he')

theorem justified_notes {log notes : List Event} (h : Justified Due log)
    (hnotes : ∀ e ∈ notes, e.isQuiet = true) : Justified Due (log ++ notes) := by
  refine h.append fun n e hn => ?_
  exact due_quiet (hnotes e (List.mem_of_getElem? hn)) _

/-- What an edge issues is due. -/
theorem Held.due {transfer : Transfer} {log : List Event} (h : Held transfer log)
    {state' : TransferState} {kind : Kind} {e : Event}
    (hedge : Edge transfer.state (some kind) state')
    (hissues : e.issues? = some (kind, toBitcoin transfer.amount))
    (hbitcoin : e.withdrawsBitcoin = true → transfer.state = .recvBtcWaitLbtcBalance) :
    Due log e := by
  refine ⟨fun kind' hk => ?_, fun kind' amount hk => ?_, fun hw => h.converted (hbitcoin hw)⟩
  · unfold Event.issues at hk
    rw [hissues] at hk
    have hkind : kind = kind' := by simpa using hk
    subst hkind
    exact h.ahead kind ((hedge.ahead kind).2 rfl).1
  · rw [hissues] at hk
    cases hk
    obtain ⟨first, hfirst, hamount⟩ := h.amount
    exact ⟨first, hfirst, by rw [hamount]⟩

/-- **ONE EDGE ON**: after an edge, less lies ahead, and what it issued counts. -/
theorem Held.advance {transfer transfer' : Transfer} {log es : List Event} {issue : Option Kind}
    (h : Held transfer log) (hedge : Edge transfer.state issue transfer'.state)
    (hadvanced : Advanced transfer transfer') (hissue : Issues transfer issue es) :
    Held transfer' (log ++ es) := by
  obtain ⟨first, hfirst, hamount⟩ := h.amount
  have hself : Advanced transfer' transfer' := ⟨rfl, hadvanced.txid, hadvanced.withdrawId⟩
  cases hissue with
  | none =>
      rw [List.append_nil]
      refine ⟨⟨first, hfirst, hamount.trans hadvanced.amount.symm⟩, fun kind hk => ?_,
        fun hs => ?_, hself⟩
      · exact h.ahead kind ((hedge.ahead kind).1 hk)
      · rw [hs] at hedge
        exact nomatch hedge.toLbtcOnly
  | @some kind e hissues hbitcoin =>
      have hstarted : e.started? = none := by
        cases e <;> first | rfl | exact nomatch hissues
      have hcount : ∀ kind', issued kind' (log ++ [e]) =
          issued kind' log + if kind = kind' then 1 else 0 := by
        intro kind'
        rw [issued_concat kind' hstarted]
        unfold Event.issues
        rw [hissues]
        simp
      refine ⟨⟨first, ?_, hamount.trans hadvanced.amount.symm⟩, fun kind' hk => ?_,
        fun hs => ?_, hself⟩
      · rw [latest_concat_none hstarted]
        exact hfirst
      · -- the kind that was issued is behind now, the others were not touched
        have hne : kind ≠ kind' := by
          rintro rfl
          rw [((hedge.ahead kind).2 rfl).2] at hk
          exact nomatch hk
        rw [hcount, if_neg hne]
        exact h.ahead kind' ((hedge.ahead kind').1 hk)
      · rw [hs] at hedge
        have hkind : kind = .transfer := Option.some.inj hedge.toLbtcOnly
        rw [hcount, if_pos hkind]
        omega

theorem Move.inv {d d' : Desk} (h : Move d d') (hi : d.Inv) : d'.Inv := by
  cases h with
  | note hquiet =>
      exact ⟨hi.saved, hi.due.concat (due_quiet hquiet _), fun transfer ht =>
        (hi.held transfer ht).quiet hquiet⟩
  | @start saved log transfer hstate hadvanced =>
      have hzero : ∀ kind, issued kind (log ++ [Event.started transfer]) = 0 := fun kind =>
        issued_start kind (e := .started transfer) rfl log
      have hdue : Due log (.started transfer) := by
        refine ⟨fun kind hk => ?_, fun kind amount hk => ?_, fun hw => ?_⟩
        · exact nomatch hk
        · exact nomatch hk
        · exact nomatch hw
      refine ⟨rfl, hi.due.concat hdue, fun transfer' ht => ?_⟩
      cases ht
      have hlatest : latest Event.started? (log ++ [Event.started transfer]) = some transfer :=
        latest_concat_some (f := Event.started?) rfl log
      exact ⟨⟨transfer, hlatest, rfl⟩, fun kind _ => hzero kind, fun hs => absurd hs hstate,
        hadvanced⟩
  | @advance saved log transfer transfer' issue es notes hedge hadvanced hissue hnotes =>
      have hheld := hi.held transfer rfl
      have hdue : Justified Due (log ++ es) := by
        cases hissue with
        | none =>
            rw [List.append_nil]
            exact hi.due
        | some hissues hbitcoin => exact hi.due.concat (hheld.due hedge hissues hbitcoin)
      refine ⟨rfl, justified_notes hdue hnotes, fun transfer'' ht => ?_⟩
      cases ht
      exact (hheld.advance hedge hadvanced hissue).notes hnotes
  | remove => exact ⟨rfl, hi.due, fun transfer ht => nomatch ht⟩

theorem moves_inv {d d' : Desk} (h : ReflTransGen Move d d') (hi : d.Inv) : d'.Inv := by
  induction h with
  | refl => exact hi
  | tail _ hlast ih => exact hlast.inv ih

theorem Leads.inv {p : Handler Unit} {data : Data} (h : Takes data.desk p data)
    (hi : data.desk.Inv) : (exec p data).2.desk.Inv :=
  moves_inv h hi

theorem finish_data (p : Handler Unit) (data : Data) : (finish p data).data = (exec p data).2 := by
  unfold finish
  rcases exec p data with ⟨(_ | _) | _, data'⟩ <;> rfl

theorem finish_panic {p : Handler Unit} {data : Data} {e : Panic}
    (h : (finish p data).panic = some e) :
    exec p data = (.error (.panic e), (finish p data).data) := by
  unfold finish at h ⊢
  rcases hexec : exec p data with ⟨(_ | _) | _, data'⟩
  all_goals
    rw [hexec] at h
    cases h
  rfl

theorem first_inv : first.data.desk.Inv :=
  ⟨rfl, justified_nil _, fun _ ht => nomatch ht⟩

theorem Desk.Inv.note {d : Desk} (h : d.Inv) {e : Event} (he : e.isQuiet = true) :
    Desk.Inv { d with log := d.log ++ [e] } := by
  have hmove : Move d { d with log := d.log ++ [e] } := .note he
  exact hmove.inv h

/-- A message, or a restart. -/
theorem step_inv (world : World) (args : Args) {s : System} (h : s.data.desk.Inv) (i : Input) :
    (step world args s i).data.desk.Inv := by
  cases i with
  | restart =>
      -- what was saved is the record, so the restart only adds an event
      have hstorage : s.data.saved.balancing = s.data.storage.balancing := h.saved
      refine ⟨rfl, h.due.concat (due_quiet rfl _), fun transfer ht => ?_⟩
      exact (h.held transfer (hstorage.symm.trans ht)).quiet rfl
  | message msg =>
      show (if s.panic.isSome then s else
        finish (processMsg world args msg) (s.data.emit (.received msg))).data.desk.Inv
      split
      · exact h
      · rw [finish_data]
        have hreceived : (s.data.emit (.received msg)).desk.Inv := h.note rfl
        exact Leads.inv (processMsg_takes world args msg _) hreceived

/-- The record and the history of every reachable dealer. -/
theorem reaches_inv {world : World} {args : Args} {s : System} (h : Reaches world args s) :
    s.data.desk.Inv := by
  refine Reach.invariant (I := fun s => s.data.desk.Inv) ?_ ?_ h
  · rintro s rfl
    exact first_inv
  · intro s i _ hi _
    exact step_inv world args hi i

/-- A history in which every movement was due has at most one of each kind for
    a transfer. -/
theorem issued_le_one {log : List Event} (h : Justified Due log) (kind : Kind) :
    issued kind log ≤ 1 := by
  induction log using List.reverseRecOn with
  | nil => exact Nat.zero_le 1
  | append_singleton log e ih =>
      cases hstarted : e.started? with
      | some transfer =>
          rw [issued_start kind hstarted]
          exact Nat.zero_le 1
      | none =>
          rw [issued_concat kind hstarted]
          cases hissues : e.issues kind with
          | false => exact ih h.of_append
          | true =>
              rw [h.last.once kind hissues]
              exact Nat.le_refl 1

theorem always_issued_le_one {log : List Event} (h : Justified Due log) :
    Always (fun log => ∀ kind, issued kind log ≤ 1) log := by
  intro n kind
  have hall : Justified Due (log.take n ++ log.drop n) := by
    rw [List.take_append_drop]
    exact h
  exact issued_le_one hall.of_append kind

/-! ## The expects -/

/-- The server has not listed the asset that is to be sent. -/
def Data.lacksUsdt (data : Data) : Prop :=
  (data.assets.find? fun asset => asset.ticker == tickerUsdt) = none

/-- A handler that panics for want of an asset at most. -/
def PanicsForAsset (p : Handler Unit) (data : Data) : Prop :=
  ∀ e data', exec p data = (.error (.panic e), data') →
    e.msg = "must be known" ∧ data'.lacksUsdt

theorem panicsForAsset_of_ok {p : Handler Unit} {data data' : Data} {r : Except Stop Unit}
    (h : exec p data = (r, data')) (hr : r = .ok ()) : PanicsForAsset p data := by
  intro e data'' hexec
  rw [h, hr] at hexec
  exact nomatch hexec

theorem panicsForAsset_update {world : World} {newState : TransferState}
    {f : Transfer → Transfer} {data : Data} {transfer : Transfer}
    (h : data.storage.balancing = some transfer) :
    PanicsForAsset (updateBalancingState world newState f) data := by
  obtain ⟨updatedAt, hexec⟩ := exec_updateBalancingState world newState f h
  exact panicsForAsset_of_ok hexec rfl

theorem PanicsForAsset.get {f : Data → Handler Unit} {data : Data}
    (h : PanicsForAsset (f data) data) : PanicsForAsset (MonadState.get >>= f) data := by
  intro e data' hexec
  rw [exec_get_bind] at hexec
  exact h e data' hexec

theorem PanicsForAsset.modify {g : Data → Data} {f : Unit → Handler Unit} {data : Data}
    (h : PanicsForAsset (f ()) (g data)) :
    PanicsForAsset (MonadState.modifyGet (fun s => ((), g s)) >>= f) data := by
  intro e data' hexec
  rw [show exec (MonadState.modifyGet (fun s => ((), g s)) >>= f) data = exec (f ()) (g data) from
    exec_modify_bind g f data] at hexec
  exact h e data' hexec

theorem panicsForAsset_pure (data : Data) : PanicsForAsset (pure ()) data :=
  panicsForAsset_of_ok (exec_pure () data) rfl

theorem panicsForAsset_fundBitfinex {world : World} {args : Args} {assetLabel : Option AssetId}
    {sent : TransferState} {data : Data} {transfer : Transfer}
    (h : data.storage.balancing = some transfer) :
    PanicsForAsset (fundBitfinex world args transfer assetLabel sent) data := by
  refine PanicsForAsset.get (PanicsForAsset.modify ?_)
  cases world.rpc data.log with
  | ok txid => exact panicsForAsset_update h
  | error e => exact panicsForAsset_update h

theorem panicsForAsset_processBalancing (world : World) (args : Args) (data : Data) :
    PanicsForAsset (processBalancing world args) data := by
  refine PanicsForAsset.get ?_
  cases h : data.storage.balancing with
  | none => exact panicsForAsset_pure data
  | some transfer =>
      have hsend : ∀ msg newState, PanicsForAsset (do
          sendMsg msg
          updateBalancingState world newState id) data := fun msg newState =>
        PanicsForAsset.modify (panicsForAsset_update h)
      simp only
      split
      · split
        · cases hasset : data.assets.find? fun asset => asset.ticker == tickerUsdt with
          | none =>
              intro e data' hexec
              cases hexec
              exact ⟨rfl, hasset⟩
          | some asset => exact panicsForAsset_fundBitfinex h
        · exact panicsForAsset_pure data
      · split
        · exact hsend _ _
        · exact panicsForAsset_pure data
      · split
        · exact panicsForAsset_fundBitfinex h
        · exact panicsForAsset_pure data
      · split
        · exact hsend _ _
        · exact panicsForAsset_pure data
      · split
        · exact panicsForAsset_update h
        · exact panicsForAsset_pure data
      · split
        · exact hsend _ _
        · exact panicsForAsset_pure data
      · split
        · exact hsend _ _
        · exact panicsForAsset_pure data
      · exact panicsForAsset_of_ok rfl rfl
      all_goals exact panicsForAsset_pure data

theorem panicsForAsset_processWithdraw (world : World) (withdrawId : Int) (data : Data) :
    PanicsForAsset (processWithdraw world withdrawId) data := by
  refine PanicsForAsset.get ?_
  cases h : data.storage.balancing with
  | none => exact panicsForAsset_pure data
  | some transfer =>
      simp only
      split
      · split
        · exact panicsForAsset_update h
        · exact panicsForAsset_update h
      · exact panicsForAsset_update h

/-- **THE TXID IS KNOWN**: a transfer that waits for its transaction has one. -/
theorem panicsForAsset_processMovements (world : World) (msg : Movements) {data : Data}
    (hi : data.desk.Inv) : PanicsForAsset (processMovements world msg) data := by
  refine PanicsForAsset.get ?_
  split
  · exact panicsForAsset_pure data
  · split
    · exact panicsForAsset_of_ok rfl rfl
    · cases h : data.storage.balancing with
      | none => exact panicsForAsset_pure data
      | some transfer =>
          have hadvanced := (hi.held transfer h).advanced
          simp only
          split
          · next hstate =>
              obtain ⟨txid, htxid⟩ := Option.isSome_iff_exists.mp (hadvanced.txid hstate)
              rw [htxid, expect_some]
              show PanicsForAsset (if _ then _ else _) data
              split
              · exact panicsForAsset_update h
              · exact panicsForAsset_pure data
          · split
            · exact panicsForAsset_update h
            · exact panicsForAsset_pure data
          · split
            · exact panicsForAsset_update h
            · exact panicsForAsset_pure data
          · exact panicsForAsset_pure data

theorem panicsForAsset_processTransfer (world : World) (success : Bool) (data : Data) :
    PanicsForAsset (processTransfer world success) data := by
  refine PanicsForAsset.get ?_
  split
  · next hsome =>
      obtain ⟨transfer, h⟩ := Option.isSome_iff_exists.mp hsome
      split
      · exact panicsForAsset_update h
      · exact panicsForAsset_pure data
  · exact panicsForAsset_pure data

theorem panicsForAsset_processMsg (world : World) (args : Args) (msg : Msg) {data : Data}
    (hi : data.desk.Inv) : PanicsForAsset (processMsg world args msg) data := by
  cases msg with
  | timer => exact panicsForAsset_processBalancing world args data
  | withdraw withdrawId => exact panicsForAsset_processWithdraw world withdrawId data
  | movements msg => exact panicsForAsset_processMovements world msg hi
  | transfer success => exact panicsForAsset_processTransfer world success data
  | cli req =>
      refine PanicsForAsset.get ?_
      split
      · exact panicsForAsset_of_ok rfl rfl
      · exact panicsForAsset_of_ok rfl rfl
  | checkExchange =>
      refine PanicsForAsset.get ?_
      split
      · exact panicsForAsset_pure data
      · split
        · exact panicsForAsset_of_ok rfl rfl
        · exact panicsForAsset_pure data
  | _ => exact panicsForAsset_of_ok rfl rfl

theorem reaches_panic {world : World} {args : Args} {s : System} (h : Reaches world args s) :
    ∀ e, s.panic = some e → e.msg = "must be known" ∧ s.data.lacksUsdt := by
  refine Reach.invariant (I := fun s => ∀ e, s.panic = some e →
    e.msg = "must be known" ∧ s.data.lacksUsdt) ?_ ?_ h
  · rintro s rfl e he
    exact nomatch he
  · intro s i hr hi _ e he
    cases i with
    | restart => exact nomatch he
    | message msg =>
        by_cases hp : s.panic.isSome
        · rw [show step world args s (.message msg) = s from if_pos hp] at he ⊢
          exact hi e he
        · rw [show step world args s (.message msg) =
            finish (processMsg world args msg) (s.data.emit (.received msg)) from if_neg hp] at he ⊢
          have hinv : (s.data.emit (.received msg)).desk.Inv := (reaches_inv hr).note rfl
          have hpanics := panicsForAsset_processMsg world args msg hinv
          exact hpanics _ _ (finish_panic he)

/-- **MONEY IS MOVED AT MOST ONCE**: at every point of the history each kind of
    movement was issued at most once for the transfer in hand, for its amount,
    bitcoins are withdrawn only after they were converted, a transfer that waits
    for a confirmation knows what it waits for, and no `expect` about the
    record is ever met: the one that can be met is about the server's assets. -/
theorem transfers_move_money_once {world : World} {args : Args} {s : System}
    (h : Reaches world args s) :
    Always (fun log => ∀ kind, issued kind log ≤ 1) s.data.log ∧
    Justified Due s.data.log ∧
    (∀ transfer, s.data.storage.balancing = some transfer →
      (transfer.state = .sendUsdtWaitConfirm → transfer.txid.isSome = true) ∧
      (transfer.state = .recvUsdtWaitConfirm ∨ transfer.state = .recvBtcWaitConfirm →
        transfer.withdrawId.isSome = true)) ∧
    (∀ e, s.panic = some e → e.msg = "must be known" ∧ s.data.lacksUsdt) := by
  have hi := reaches_inv h
  refine ⟨always_issued_le_one hi.due, hi.due, fun transfer ht => ?_, reaches_panic h⟩
  have hadvanced := (hi.held transfer ht).advanced
  exact ⟨hadvanced.txid, hadvanced.withdrawId⟩

/-! ## A run -/

namespace Sample

def args : Args where
  mainnet := true
  bitfinexKey := "key"
  bitfinexSecret := "secret"
  bitfinexWithdrawAddress := "withdraw"
  bitfinexFundAddress := "fund"
  bitfinexCurrencyBtc := "BTC"
  bitfinexCurrencyLbtc := "LBT"
  bitfinexCurrencyUsdt := "UST"

def world : World := ⟨fun _ => .ok "txid", fun log => 20000 + log.length⟩

/-- Bitcoins are received: converted, withdrawn after a restart, and confirmed. -/
def receiving : List Input :=
  [.message .moduleConnected, .message (.walletUpdate "BTC" (.fin 2)),
    .message (.cli (.testRecvBtc (.fin 1))), .message .timer, .restart,
    .message .moduleConnected, .message (.walletUpdate "LBT" (.fin 1)), .message .timer,
    .message .timer, .message (.withdraw 7)]

end Sample

/-- One conversion and one withdrawal, each once. -/
theorem receiving_moves_money_once :
    let s := run (step Sample.world Sample.args) first Sample.receiving
    (s.data.storage.balancing.map (·.state) = some .recvBtcWaitConfirm ∧
      issued .transfer s.data.log = 1 ∧ issued .withdraw s.data.log = 1) ∧
    Always (fun log => ∀ kind, issued kind log ≤ 1) s.data.log := by
  have hallowed : Allowed (step Sample.world Sample.args) (fun _ _ => True) first
      Sample.receiving := by decide +kernel
  have hstart : Reaches Sample.world Sample.args first := .start rfl
  exact ⟨by decide +kernel, (transfers_move_money_once (hstart.run _ hallowed)).1⟩

end Dealer
