import SideSwap.DealerTransfers

/-! # A dealer that stops at any point

    A message is handled by a sequence of effects: calls, messages and
    notifications go out, and the storage file is written.  The process may be
    stopped between any two of them, also by `save_storage` itself, which
    aborts it if the file cannot be written; it is then started from what was
    last written.

    Money is moved first and the record written afterwards.  A process that is
    stopped between the two will move the money again. -/

namespace Dealer

open Api Program Pricing Transition History Relation
open Movement (Kind)

/-! ## Effects -/

/-- What others can see of a handler. -/
inductive Effect where
  /-- a call, a message or a notification -/
  | act (e : Event)
  /-- the file is written with a new record -/
  | create (transfer : Transfer)
  /-- the file is written -/
  | write (storage : Storage)

/-- The storage file and the history. -/
structure Disk where
  saved : Storage
  log : List Event

def Disk.apply (d : Disk) : Effect → Disk
  | .act e => { d with log := d.log ++ [e] }
  | .create transfer => ⟨⟨some transfer⟩, d.log ++ [.started transfer]⟩
  | .write storage => { d with saved := storage }

def Disk.run (d : Disk) (effects : List Effect) : Disk := effects.foldl Disk.apply d

def Data.disk (data : Data) : Disk := ⟨data.saved, data.log⟩

/-- `update_balancing_state`: it notifies and writes. -/
def updateEffects (world : World) (newState : TransferState) (f : Transfer → Transfer)
    (balancing : Transfer) (log : List Event) : List Effect :=
  (stateNotification newState).toList.map (fun text => .act (.notification text)) ++
    [.write ⟨some { f balancing with state := newState, updatedAt := world.now log }⟩]

/-- The call of `sendtoaddress`, and the update after it. -/
def fundEffects (world : World) (args : Args) (balancing : Transfer)
    (assetLabel : Option AssetId) (sent : TransferState) (log : List Event) : List Effect :=
  let res := world.rpc log
  let call := Event.sendToAddress args.bitfinexFundAddress (toBitcoin balancing.amount) assetLabel
    res
  .act call :: match res with
    | .ok txid =>
        updateEffects world sent (fun balancing => { balancing with txid := some txid }) balancing
          (log ++ [call])
    | .error _ => updateEffects world .failed id balancing (log ++ [call])

/-- A message to the module, and the update after it. -/
def messageEffects (world : World) (msg : ToModule) (newState : TransferState)
    (balancing : Transfer) (log : List Event) : List Effect :=
  .act (.toModule msg) :: updateEffects world newState id balancing (log ++ [.toModule msg])

/-- The effects of `process_balancing`. -/
def balancingEffects (world : World) (args : Args) (data : Data) : List Effect :=
  match data.storage.balancing with
  | none => []
  | some balancing =>
      let amount := toBitcoin balancing.amount
      match balancing.state with
      | .sendUsdtNew =>
          if (balanceOf data.walletBalancesConfirmed tickerUsdt).ge amount
              && (balanceOf data.walletBalancesConfirmed tickerLbtc).gt 0
              && data.moduleConnected then
            match data.assets.find? fun asset => asset.ticker == tickerUsdt with
            | some asset =>
                fundEffects world args balancing (some asset.assetId) .sendUsdtWaitConfirm data.log
            | none => []
          else []
      | .recvUsdtNew =>
          if ((balanceOf data.exchangeBalances args.bitfinexCurrencyUsdt).ge amount
              || !args.mainnet) && data.moduleConnected then
            messageEffects world (withdrawMsg args bitfinexMethodUsdt balancing)
              .recvUsdtWaitWithdrawId balancing data.log
          else []
      | .sendBtcNew =>
          if (balanceOf data.walletBalancesConfirmed tickerLbtc).ge amount
              && data.moduleConnected then
            fundEffects world args balancing none .sendBtcWaitLbtcBalance data.log
          else []
      | .sendBtcWaitLbtcBalance =>
          if (balanceOf data.exchangeBalances args.bitfinexCurrencyLbtc).eq amount
              && data.moduleConnected then
            messageEffects world
              (transferMsg args args.bitfinexCurrencyLbtc args.bitfinexCurrencyBtc balancing)
              .sendBtcWaitConfirm balancing data.log
          else []
      | .sendBtcWaitConfirm =>
          if (data.exchangeBalances[args.bitfinexCurrencyLbtc]?).elim false (·.eq 0) then
            updateEffects world .complete id balancing data.log
          else []
      | .recvBtcNew =>
          if ((balanceOf data.exchangeBalances args.bitfinexCurrencyBtc).ge amount
              || !args.mainnet) && data.moduleConnected then
            messageEffects world
              (transferMsg args args.bitfinexCurrencyBtc args.bitfinexCurrencyLbtc balancing)
              .recvBtcWaitLbtcBalance balancing data.log
          else []
      | .recvBtcWaitLbtcBalance =>
          if (balanceOf data.exchangeBalances args.bitfinexCurrencyLbtc).eq amount
              && data.moduleConnected then
            messageEffects world (withdrawMsg args bitfinexMethodLbtc balancing)
              .recvBtcWaitWithdrawId balancing data.log
          else []
      | .complete => [.write ⟨none⟩]
      | .sendUsdtWaitConfirm => []
      | .recvUsdtWaitWithdrawId => []
      | .recvUsdtWaitConfirm => []
      | .recvBtcWaitWithdrawId => []
      | .recvBtcWaitConfirm => []
      | .failed => []

/-- The effects of `process_withdraw`. -/
def withdrawEffects (world : World) (withdrawId : Int) (data : Data) : List Effect :=
  match data.storage.balancing with
  | none => []
  | some balancing =>
      match withdrawConfirms balancing.state with
      | some confirm =>
          if 0 < withdrawId ∧ balancing.withdrawId = none then
            updateEffects world confirm
              (fun balancing => { balancing with withdrawId := some withdrawId }) balancing data.log
          else updateEffects world .failed id balancing data.log
      | none => updateEffects world .failed id balancing data.log

/-- Whether movements confirm a transfer. -/
def confirmed (balancing : Transfer) (msg : Movements) : Bool :=
  match balancing.state with
  | .sendUsdtWaitConfirm => msg.movements.any fun item =>
      some item.transactionId == balancing.txid && item.status == bitfinexStatusCompleted
  | .recvUsdtWaitConfirm => msg.movements.any fun item =>
      some item.id == balancing.withdrawId && item.status == bitfinexStatusCompleted
  | .recvBtcWaitConfirm => msg.movements.any fun item =>
      some item.id == balancing.withdrawId && item.status == bitfinexStatusCompleted
  | _ => false

/-- The effects of `process_movements`. -/
def movementsEffects (world : World) (msg : Movements) (data : Data) : List Effect :=
  if !msg.success then []
  else if data.movements ≠ some msg then []
  else match data.storage.balancing with
    | none => []
    | some balancing =>
        if confirmed balancing msg then updateEffects world .complete id balancing data.log else []

/-- The effects of `process_transfer`. -/
def transferEffects (world : World) (success : Bool) (data : Data) : List Effect :=
  match data.storage.balancing with
  | none => []
  | some balancing => if !success then updateEffects world .failed id balancing data.log else []

/-- The effects of a `Cli` message. -/
def cliEffects (world : World) (req : CliRequest) (data : Data) : List Effect :=
  if data.storage.balancing.isSome then [.act (.cliResponse (.error "already started"))]
  else
    [.create (newTransfer req (world.now data.log)),
      .act (.startNotification req.start.2.2 req.start.2.1),
      .act (.cliResponse (.success "success"))]

/-- The effects of `CheckExchange`. -/
def checkExchangeEffects (args : Args) (data : Data) : List Effect :=
  match data.storage.balancing with
  | none => []
  | some balancing =>
      if data.moduleConnected then
        [.act (.toModule (.movements args.bitfinexKey args.bitfinexSecret
          (some (balancing.createdAt - 10000))))]
      else []

/-- The effects of a message. -/
def effects (world : World) (args : Args) (data : Data) : Msg → List Effect
  | .timer => balancingEffects world args data
  | .withdraw withdrawId => withdrawEffects world withdrawId data
  | .movements msg => movementsEffects world msg data
  | .transfer success => transferEffects world success data
  | .cli req => cliEffects world req data
  | .checkExchange => checkExchangeEffects args data
  | _ => []

/-! ## The effects are those of the handlers -/

/-- A handler has these effects. -/
abbrev Does (p : Handler Unit) (data : Data) (effects : List Effect) : Prop :=
  (exec p data).2.disk = data.disk.run effects

theorem does_updateBalancingState (world : World) (newState : TransferState)
    (f : Transfer → Transfer) (data : Data) {transfer : Transfer}
    (h : data.storage.balancing = some transfer) :
    Does (updateBalancingState world newState f) data
      (updateEffects world newState f transfer data.log) := by
  unfold Does updateBalancingState updateEffects
  rw [exec_get_bind, h]
  cases stateNotification newState with
  | none => rfl
  | some text => rfl

theorem does_sendMsg {world : World} {newState : TransferState} {msg : ToModule} {data : Data}
    {transfer : Transfer} (h : data.storage.balancing = some transfer) :
    Does (do
      sendMsg msg
      updateBalancingState world newState id) data
      (messageEffects world msg newState transfer data.log) :=
  does_updateBalancingState world newState id (data.emit (.toModule msg)) h

theorem does_fundBitfinex {world : World} {args : Args} {assetLabel : Option AssetId}
    {sent : TransferState} {data : Data} {transfer : Transfer}
    (h : data.storage.balancing = some transfer) :
    Does (fundBitfinex world args transfer assetLabel sent) data
      (fundEffects world args transfer assetLabel sent data.log) := by
  have hupdate := fun newState f (res : Except String String) =>
    does_updateBalancingState world newState f (data.emit (.sendToAddress args.bitfinexFundAddress
      (toBitcoin transfer.amount) assetLabel res)) h
  unfold Does fundBitfinex fundEffects
  rw [exec_get_bind]
  cases world.rpc data.log with
  | ok txid => exact hupdate sent (fun balancing => { balancing with txid := some txid }) (.ok txid)
  | error e => exact hupdate .failed id (.error e)

theorem does_processBalancing (world : World) (args : Args) (data : Data) :
    Does (processBalancing world args) data (balancingEffects world args data) := by
  unfold Does processBalancing balancingEffects
  rw [exec_get_bind]
  cases h : data.storage.balancing with
  | none => rfl
  | some transfer =>
      dsimp only
      cases hstate : transfer.state with
      | sendUsdtNew =>
          dsimp only
          split
          · cases hasset : data.assets.find? fun asset => asset.ticker == tickerUsdt with
            | none => rfl
            | some asset => exact does_fundBitfinex h
          · rfl
      | recvUsdtNew =>
          dsimp only
          split
          · exact does_sendMsg h
          · rfl
      | sendBtcNew =>
          dsimp only
          split
          · exact does_fundBitfinex h
          · rfl
      | sendBtcWaitLbtcBalance =>
          dsimp only
          split
          · exact does_sendMsg h
          · rfl
      | sendBtcWaitConfirm =>
          dsimp only
          split
          · exact does_updateBalancingState world .complete id data h
          · rfl
      | recvBtcNew =>
          dsimp only
          split
          · exact does_sendMsg h
          · rfl
      | recvBtcWaitLbtcBalance =>
          dsimp only
          split
          · exact does_sendMsg h
          · rfl
      | complete => rfl
      | sendUsdtWaitConfirm => rfl
      | recvUsdtWaitWithdrawId => rfl
      | recvUsdtWaitConfirm => rfl
      | recvBtcWaitWithdrawId => rfl
      | recvBtcWaitConfirm => rfl
      | failed => rfl

theorem does_processWithdraw (world : World) (withdrawId : Int) (data : Data) :
    Does (processWithdraw world withdrawId) data (withdrawEffects world withdrawId data) := by
  unfold Does processWithdraw withdrawEffects
  rw [exec_get_bind]
  cases h : data.storage.balancing with
  | none => rfl
  | some transfer =>
      dsimp only
      cases withdrawConfirms transfer.state with
      | none => exact does_updateBalancingState world .failed id data h
      | some confirm =>
          dsimp only
          split
          · exact does_updateBalancingState world confirm _ data h
          · exact does_updateBalancingState world .failed id data h

/-- A record that waits for a transaction knows which one. -/
theorem does_processMovements (world : World) (msg : Movements) {data : Data}
    (hinv : data.desk.Inv) :
    Does (processMovements world msg) data (movementsEffects world msg data) := by
  unfold Does processMovements movementsEffects
  rw [exec_get_bind]
  split
  · rfl
  · split
    · rfl
    · cases h : data.storage.balancing with
      | none => rfl
      | some transfer =>
          dsimp only
          cases hstate : transfer.state with
          | sendUsdtWaitConfirm =>
              obtain ⟨txid, htxid⟩ :=
                Option.isSome_iff_exists.mp ((hinv.held transfer h).advanced.txid hstate)
              have hconfirmed : confirmed transfer msg = msg.movements.any fun item =>
                  item.transactionId == txid && item.status == bitfinexStatusCompleted := by
                unfold confirmed
                rw [hstate, htxid]
                rfl
              dsimp only
              rw [hconfirmed, htxid]
              show (exec (if _ then _ else _) data).2.disk = _
              split
              · exact does_updateBalancingState world .complete id data h
              · rfl
          | recvUsdtWaitConfirm =>
              have hconfirmed : confirmed transfer msg = msg.movements.any fun item =>
                  some item.id == transfer.withdrawId && item.status == bitfinexStatusCompleted := by
                unfold confirmed
                rw [hstate]
              dsimp only
              rw [hconfirmed]
              split
              · exact does_updateBalancingState world .complete id data h
              · rfl
          | recvBtcWaitConfirm =>
              have hconfirmed : confirmed transfer msg = msg.movements.any fun item =>
                  some item.id == transfer.withdrawId && item.status == bitfinexStatusCompleted := by
                unfold confirmed
                rw [hstate]
              dsimp only
              rw [hconfirmed]
              split
              · exact does_updateBalancingState world .complete id data h
              · rfl
          | _ =>
              have hconfirmed : confirmed transfer msg = false := by
                unfold confirmed
                rw [hstate]
              rw [hconfirmed]
              rfl

theorem does_processTransfer (world : World) (success : Bool) (data : Data) :
    Does (processTransfer world success) data (transferEffects world success data) := by
  unfold Does processTransfer transferEffects
  rw [exec_get_bind]
  cases h : data.storage.balancing with
  | none => rfl
  | some transfer =>
      cases success with
      | true => rfl
      | false => exact does_updateBalancingState world .failed id data h

theorem does_processCli (world : World) (req : CliRequest) (data : Data) :
    Does (processCli world req) data (cliEffects world req data) := by
  unfold Does processCli cliEffects
  rw [exec_get_bind]
  cases h : data.storage.balancing with
  | none => rfl
  | some transfer => rfl

theorem does_checkExchange (args : Args) (data : Data) :
    Does (checkExchange args) data (checkExchangeEffects args data) := by
  unfold Does checkExchange checkExchangeEffects
  rw [exec_get_bind]
  cases h : data.storage.balancing with
  | none => rfl
  | some transfer =>
      dsimp only
      split
      · rfl
      · rfl

/-- **THE EFFECTS**: a handler that is not stopped writes and sends what its
    effects say. -/
theorem does_processMsg (world : World) (args : Args) (msg : Msg) {data : Data}
    (hinv : data.desk.Inv) :
    Does (processMsg world args msg) data (effects world args data msg) := by
  cases msg with
  | timer => exact does_processBalancing world args data
  | withdraw withdrawId => exact does_processWithdraw world withdrawId data
  | movements msg => exact does_processMovements world msg hinv
  | transfer success => exact does_processTransfer world success data
  | cli req => exact does_processCli world req data
  | checkExchange => exact does_checkExchange args data
  | _ => rfl

/-! ## Stopping between two effects -/

/-- Money is moved. -/
def Effect.issues : Effect → Bool
  | .act e => e.issues?.isSome
  | _ => false

/-- The file is written. -/
def Effect.writes : Effect → Bool
  | .act _ => false
  | _ => true

/-- The effects so far are booked: if money was moved, that has been written. -/
def Booked (effects : List Effect) : Prop :=
  effects.any Effect.issues = true → effects.any Effect.writes = true

instance (effects : List Effect) : Decidable (Booked effects) :=
  inferInstanceAs (Decidable (_ → _))

/-- The forms that the effects of a message have, from a desk. -/
inductive Form : Desk → List Effect → Prop where
  | notes {d} {notes : List Event} : (∀ e ∈ notes, e.isQuiet = true) → Form d (notes.map .act)
  | create {saved log transfer} {notes : List Event} :
      transfer.state ≠ .recvBtcWaitLbtcBalance → Advanced transfer transfer →
      (∀ e ∈ notes, e.isQuiet = true) →
      Form ⟨none, saved, log⟩ (.create transfer :: notes.map .act)
  | update {saved log transfer transfer' issue} {es notes : List Event} :
      Edge transfer.state issue transfer'.state → Advanced transfer transfer' →
      Issues transfer issue es → (∀ e ∈ notes, e.isQuiet = true) →
      Form ⟨some transfer, saved, log⟩
        (es.map .act ++ notes.map .act ++ [.write ⟨some transfer'⟩])
  | remove {d} : Form d [.write ⟨none⟩]

theorem run_acts (d : Disk) (es : List Event) : d.run (es.map .act) = ⟨d.saved, d.log ++ es⟩ := by
  induction es generalizing d with
  | nil =>
      rw [List.append_nil]
      rfl
  | cons e es ih =>
      show (d.apply (.act e)).run (es.map .act) = _
      rw [ih, List.append_cons]
      rfl

theorem run_append (d : Disk) (l l' : List Effect) : d.run (l ++ l') = (d.run l).run l' :=
  List.foldl_append

theorem moves_notes {d : Desk} {notes : List Event}
    (h : ∀ e ∈ notes, Event.isQuiet e = true) :
    ReflTransGen Move d { d with log := d.log ++ notes } := by
  induction notes generalizing d with
  | nil =>
      rw [List.append_nil]
  | cons e notes ih =>
      have hfirst : Move d { d with log := d.log ++ [e] } := .note (h e List.mem_cons_self)
      have hrest := ih (d := { d with log := d.log ++ [e] }) fun e' he' =>
        h e' (List.mem_cons_of_mem e he')
      rw [List.append_assoc, List.singleton_append] at hrest
      exact .head hfirst hrest

/-- Before anything is written, no money has been moved. -/
theorem not_issues_of_booked {es : List Event} (h : Booked (es.map Effect.act)) {e : Event}
    (he : e ∈ es) : Event.issues? e = none := by
  by_contra hissues
  have hany : (es.map Effect.act).any Effect.issues = true := by
    rw [List.any_map, List.any_eq_true]
    exact ⟨e, he, Option.isSome_iff_ne_none.mpr hissues⟩
  obtain ⟨effect, hmem, hwrites⟩ := List.any_eq_true.mp (h hany)
  obtain ⟨e', _, rfl⟩ := List.mem_map.mp hmem
  cases hwrites

/-- What is issued for an update moves money. -/
theorem Issues.moves_money {transfer : Transfer} {issue : Option Kind} {es : List Event}
    (h : Issues transfer issue es) {e : Event} (he : e ∈ es) : (Event.issues? e).isSome = true := by
  cases h with
  | none => exact absurd he List.not_mem_nil
  | some hsome _ =>
      rw [List.mem_singleton.mp he, hsome]
      rfl

/-- **A STOP**: what is written and sent by the first effects of a message, if
    they are booked, is what some moves lead to. -/
theorem Form.stops {d : Desk} {effects : List Effect} (h : Form d effects) {k : Nat}
    (hbooked : Booked (effects.take k)) :
    ∃ d', ReflTransGen Move d d' ∧
      Disk.run ⟨⟨d.saved⟩, d.log⟩ (effects.take k) = ⟨⟨d'.saved⟩, d'.log⟩ := by
  have hquiet : ∀ {notes : List Event} {n : Nat}, (∀ e ∈ notes, Event.isQuiet e = true) →
      ∀ e ∈ notes.take n, Event.isQuiet e = true :=
    fun hnotes e he => hnotes e (List.mem_of_mem_take he)
  cases h with
  | notes hnotes =>
      rw [← List.map_take, run_acts]
      exact ⟨_, moves_notes (hquiet hnotes), rfl⟩
  | @create saved log transfer notes hstate hadvanced hnotes =>
      cases k with
      | zero => exact ⟨_, .refl, rfl⟩
      | succ k =>
          rw [List.take_succ_cons, ← List.map_take]
          have hmoves : ReflTransGen Move ⟨some transfer, some transfer, log ++ [.started transfer]⟩
              ⟨some transfer, some transfer, log ++ [.started transfer] ++ notes.take k⟩ :=
            moves_notes (hquiet hnotes)
          refine ⟨_, .head (.start hstate hadvanced) hmoves, ?_⟩
          exact run_acts ⟨⟨some transfer⟩, log ++ [.started transfer]⟩ _
  | remove =>
      cases k with
      | zero => exact ⟨_, .refl, rfl⟩
      | succ k =>
          rw [List.take_succ_cons, List.take_nil]
          exact ⟨_, .single .remove, rfl⟩
  | @update saved log transfer transfer' issue es notes hedge hadvanced hissue hnotes =>
      rw [← List.map_append] at hbooked ⊢
      by_cases hall : (es ++ notes).length < k
      · -- the record has been written
        have hlength : ((es ++ notes).map Effect.act ++ [Effect.write ⟨some transfer'⟩]).length ≤ k := by
          rw [List.length_append, List.length_map, List.length_singleton]
          exact hall
        refine ⟨_, .single (.advance hedge hadvanced hissue hnotes), ?_⟩
        rw [List.take_of_length_le hlength, run_append, run_acts, ← List.append_assoc]
        rfl
      · -- it has not, so no money was moved
        rw [List.take_append_of_le_length (by simpa using hall), ← List.map_take] at hbooked ⊢
        have hquiet' : ∀ e ∈ (es ++ notes).take k, Event.isQuiet e = true := by
          intro e he
          rcases List.mem_append.mp (List.mem_of_mem_take he) with hes | hnote
          · have hissues := hissue.moves_money hes
            rw [not_issues_of_booked hbooked he] at hissues
            cases hissues
          · exact hnotes e hnote
        rw [run_acts]
        exact ⟨_, moves_notes hquiet', rfl⟩

/-- An update, after what was issued for it. -/
theorem form_update {world : World} {newState : TransferState} {f : Transfer → Transfer}
    {data : Data} {transfer : Transfer} {issue : Option Kind} {es : List Event}
    (h : data.storage.balancing = some transfer) (hedge : Edge transfer.state issue newState)
    (hissue : Issues transfer issue es)
    (hadvanced : ∀ updatedAt, Advanced transfer { f transfer with state := newState, updatedAt })
    (log : List Event) :
    Form data.desk (es.map .act ++ updateEffects world newState f transfer log) := by
  have hquiet : ∀ e ∈ (stateNotification newState).toList.map Event.notification,
      e.isQuiet = true := by
    intro e he
    obtain ⟨text, _, rfl⟩ := List.mem_map.mp he
    rfl
  have hform : ∀ transfer', transfer' =
      { f transfer with state := newState, updatedAt := world.now log } →
      Form ⟨some transfer, data.saved.balancing, data.log⟩ (es.map .act ++
        ((stateNotification newState).toList.map Event.notification).map .act ++
        [.write ⟨some transfer'⟩]) := by
    rintro _ rfl
    exact .update hedge (hadvanced _) hissue hquiet
  rw [desk_eq h]
  unfold updateEffects
  rw [← List.append_assoc]
  have hmap : ((stateNotification newState).toList.map Event.notification).map Effect.act =
      (stateNotification newState).toList.map fun text => .act (.notification text) :=
    List.map_map
  exact hmap ▸ hform _ rfl

theorem form_quietUpdate {world : World} {newState : TransferState} {f : Transfer → Transfer}
    {data : Data} {transfer : Transfer} (h : data.storage.balancing = some transfer)
    (hedge : Edge transfer.state none newState)
    (hadvanced : ∀ updatedAt, Advanced transfer { f transfer with state := newState, updatedAt }) :
    Form data.desk (updateEffects world newState f transfer data.log) :=
  form_update h hedge .none hadvanced data.log

theorem form_fail (world : World) {data : Data} {transfer : Transfer}
    (h : data.storage.balancing = some transfer) :
    Form data.desk (updateEffects world .failed id transfer data.log) :=
  form_quietUpdate h (.fail _) fun _ => advanced_of_state (by decide) (by decide) (by decide)

theorem form_complete (world : World) {data : Data} {transfer : Transfer}
    (h : data.storage.balancing = some transfer) (hedge : Edge transfer.state none .complete) :
    Form data.desk (updateEffects world .complete id transfer data.log) :=
  form_quietUpdate h hedge fun _ => advanced_of_state (by decide) (by decide) (by decide)

theorem form_message {world : World} {newState : TransferState} {msg : ToModule} {kind : Kind}
    {data : Data} {transfer : Transfer} (h : data.storage.balancing = some transfer)
    (hedge : Edge transfer.state (some kind) newState)
    (hissues : (Event.toModule msg).issues? = some (kind, toBitcoin transfer.amount))
    (hbitcoin : (Event.toModule msg).withdrawsBitcoin = true →
      transfer.state = .recvBtcWaitLbtcBalance)
    (hstate : newState ≠ .sendUsdtWaitConfirm ∧ newState ≠ .recvUsdtWaitConfirm ∧
      newState ≠ .recvBtcWaitConfirm) :
    Form data.desk (messageEffects world msg newState transfer data.log) :=
  form_update h hedge (.some hissues hbitcoin)
    (fun _ => advanced_of_state hstate.1 hstate.2.1 hstate.2.2) _

theorem form_fund {world : World} {args : Args} {assetLabel : Option AssetId}
    {sent : TransferState} {data : Data} {transfer : Transfer}
    (h : data.storage.balancing = some transfer)
    (hedge : Edge transfer.state (some .sendToAddress) sent)
    (hfailed : Edge transfer.state (some .sendToAddress) .failed)
    (hsent : sent ≠ .recvUsdtWaitConfirm ∧ sent ≠ .recvBtcWaitConfirm) :
    Form data.desk (fundEffects world args transfer assetLabel sent data.log) := by
  unfold fundEffects
  cases world.rpc data.log with
  | ok txid =>
      refine form_update h hedge (.some rfl (by rintro ⟨⟩)) (fun updatedAt => ?_) _
      exact ⟨rfl, fun _ => rfl, fun hs => (hs.elim hsent.1 hsent.2).elim⟩
  | error e =>
      refine form_update h hfailed (.some rfl (by rintro ⟨⟩)) (fun updatedAt => ?_) _
      exact advanced_of_state (by decide) (by decide) (by decide)

theorem form_nil (d : Desk) : Form d [] :=
  Form.notes (List.forall_mem_nil _)

theorem form_note {d : Desk} {e : Event} (h : e.isQuiet = true) : Form d [.act e] := by
  have hquiet : ∀ e' ∈ [e], e'.isQuiet = true := List.forall_mem_singleton.mpr h
  exact Form.notes hquiet

theorem form_balancingEffects (world : World) (args : Args) (data : Data) :
    Form data.desk (balancingEffects world args data) := by
  unfold balancingEffects
  cases h : data.storage.balancing with
  | none => exact form_nil _
  | some transfer =>
      dsimp only
      cases hstate : transfer.state with
      | sendUsdtNew =>
          dsimp only
          split
          · split
            · exact form_fund h (hstate ▸ .fundUsdt) (hstate ▸ .fundUsdtFailed)
                ⟨by decide, by decide⟩
            · exact form_nil _
          · exact form_nil _
      | recvUsdtNew =>
          dsimp only
          split
          · exact form_message h (hstate ▸ .withdrawUsdt) rfl
              (fun hb : (bitfinexMethodUsdt == bitfinexMethodLbtc) = true => absurd hb (by decide))
              ⟨by decide, by decide, by decide⟩
          · exact form_nil _
      | sendBtcNew =>
          dsimp only
          split
          · exact form_fund h (hstate ▸ .fundBtc) (hstate ▸ .fundBtcFailed) ⟨by decide, by decide⟩
          · exact form_nil _
      | sendBtcWaitLbtcBalance =>
          dsimp only
          split
          · exact form_message h (hstate ▸ .toBtc) rfl (nomatch ·)
              ⟨by decide, by decide, by decide⟩
          · exact form_nil _
      | sendBtcWaitConfirm =>
          dsimp only
          split
          · exact form_complete world h (hstate ▸ .btcArrived)
          · exact form_nil _
      | recvBtcNew =>
          dsimp only
          split
          · exact form_message h (hstate ▸ .toLbtc) rfl (nomatch ·)
              ⟨by decide, by decide, by decide⟩
          · exact form_nil _
      | recvBtcWaitLbtcBalance =>
          dsimp only
          split
          · exact form_message h (hstate ▸ .withdrawBtc) rfl (fun _ => hstate)
              ⟨by decide, by decide, by decide⟩
          · exact form_nil _
      | complete => exact .remove
      | sendUsdtWaitConfirm => exact form_nil _
      | recvUsdtWaitWithdrawId => exact form_nil _
      | recvUsdtWaitConfirm => exact form_nil _
      | recvBtcWaitWithdrawId => exact form_nil _
      | recvBtcWaitConfirm => exact form_nil _
      | failed => exact form_nil _

theorem form_withdrawEffects (world : World) (withdrawId : Int) (data : Data) :
    Form data.desk (withdrawEffects world withdrawId data) := by
  unfold withdrawEffects
  cases h : data.storage.balancing with
  | none => exact form_nil _
  | some transfer =>
      dsimp only
      cases hconfirm : withdrawConfirms transfer.state with
      | none => exact form_fail world h
      | some confirm =>
          obtain ⟨hedge, hne⟩ := withdrawConfirms_edge hconfirm
          dsimp only
          split
          · exact form_quietUpdate h hedge fun _ =>
              ⟨rfl, fun hs => absurd hs hne, fun _ => rfl⟩
          · exact form_fail world h

/-- Movements confirm only what waits for them. -/
theorem confirmed_edge {transfer : Transfer} {msg : Movements}
    (h : confirmed transfer msg = true) : Edge transfer.state none .complete := by
  unfold confirmed at h
  cases hstate : transfer.state with
  | sendUsdtWaitConfirm => exact .usdtArrived
  | recvUsdtWaitConfirm => exact .usdtConfirmed
  | recvBtcWaitConfirm => exact .btcConfirmed
  | _ =>
      rw [hstate] at h
      cases h

theorem form_movementsEffects (world : World) (msg : Movements) (data : Data) :
    Form data.desk (movementsEffects world msg data) := by
  unfold movementsEffects
  split
  · exact form_nil _
  · split
    · exact form_nil _
    · cases h : data.storage.balancing with
      | none => exact form_nil _
      | some transfer =>
          dsimp only
          split
          · next hconfirmed => exact form_complete world h (confirmed_edge hconfirmed)
          · exact form_nil _

theorem form_transferEffects (world : World) (success : Bool) (data : Data) :
    Form data.desk (transferEffects world success data) := by
  unfold transferEffects
  cases h : data.storage.balancing with
  | none => exact form_nil _
  | some transfer =>
      cases success with
      | true => exact form_nil _
      | false => exact form_fail world h

theorem form_cliEffects (world : World) (req : CliRequest) (data : Data) :
    Form data.desk (cliEffects world req data) := by
  unfold cliEffects
  split
  · exact form_note rfl
  · next hnone =>
      have hdesk : data.desk = ⟨none, data.saved.balancing, data.log⟩ := by
        unfold Data.desk
        rw [show data.storage.balancing = none by simpa using hnone]
      obtain ⟨hstate, hadvanced⟩ := newTransfer_state req (world.now data.log)
      rw [hdesk]
      have hquiet : ∀ e ∈ [Event.startNotification req.start.2.2 req.start.2.1,
          Event.cliResponse (.success "success")], e.isQuiet = true :=
        List.forall_mem_cons.mpr ⟨rfl, List.forall_mem_singleton.mpr rfl⟩
      exact Form.create hstate hadvanced hquiet

theorem form_checkExchangeEffects (args : Args) (data : Data) :
    Form data.desk (checkExchangeEffects args data) := by
  unfold checkExchangeEffects
  split
  · exact form_nil _
  · split
    · exact form_note rfl
    · exact form_nil _

theorem form_effects (world : World) (args : Args) (data : Data) (msg : Msg) :
    Form data.desk (effects world args data msg) := by
  cases msg with
  | timer => exact form_balancingEffects world args data
  | withdraw withdrawId => exact form_withdrawEffects world withdrawId data
  | movements msg => exact form_movementsEffects world msg data
  | transfer success => exact form_transferEffects world success data
  | cli req => exact form_cliEffects world req data
  | checkExchange => exact form_checkExchangeEffects args data
  | _ => exact form_nil _

/-! ## Runs -/

/-- What happens to a dealer that may be stopped. -/
inductive CrashInput where
  | input (i : Input)
  /-- stopped after the first effects of a message, and started again -/
  | stop (msg : Msg) (k : Nat)

/-- The dealer takes an input, or is stopped on the way. -/
def crashStep (world : World) (args : Args) (s : System) : CrashInput → System
  | .input i => step world args s i
  | .stop msg k =>
      if s.panic.isSome then s
      else
        let data := s.data.emit (.received msg)
        let disk := data.disk.run ((effects world args data msg).take k)
        ⟨load disk.saved (disk.log ++ [.restarted]), none⟩

/-- It is not stopped after money was moved and before that was written. -/
def StopsBooked (world : World) (args : Args) (s : System) : CrashInput → Prop
  | .input _ => True
  | .stop msg k => s.panic.isSome = true ∨
      Booked ((effects world args (s.data.emit (.received msg)) msg).take k)

instance (world : World) (args : Args) (s : System) :
    (i : CrashInput) → Decidable (StopsBooked world args s i)
  | .input _ => .isTrue trivial
  | .stop _ _ => inferInstanceAs (Decidable (_ ∨ _))

/-- What a message leaves in the file and in the history. -/
theorem step_message_disk {world : World} {args : Args} {s : System} (h : s.data.desk.Inv)
    (hpanic : s.panic = none) (msg : Msg) :
    (step world args s (.message msg)).data.disk = (s.data.emit (.received msg)).disk.run
      (effects world args (s.data.emit (.received msg)) msg) := by
  have hreceived : (s.data.emit (.received msg)).desk.Inv := h.note rfl
  have hrunning : ¬ s.panic.isSome = true := by
    rw [hpanic]
    exact Bool.false_ne_true
  rw [← does_processMsg world args msg hreceived]
  show (if s.panic.isSome then s else _ : System).data.disk = _
  rw [if_neg hrunning, finish_data]

/-- A stop after all effects of a message is a restart after the message. -/
theorem stop_after_all {world : World} {args : Args} {s : System} (h : s.data.desk.Inv)
    (hpanic : s.panic = none) {msg : Msg} {k : Nat}
    (hk : (effects world args (s.data.emit (.received msg)) msg).length ≤ k) :
    crashStep world args s (.stop msg k) =
      step world args (step world args s (.message msg)) .restart := by
  have hrunning : ¬ s.panic.isSome = true := by
    rw [hpanic]
    exact Bool.false_ne_true
  show (if s.panic.isSome then s else _) = _
  rw [if_neg hrunning, List.take_of_length_le hk, ← step_message_disk h hpanic msg]
  rfl

theorem crashStep_inv {world : World} {args : Args} {s : System} (h : s.data.desk.Inv)
    {i : CrashInput} (hok : StopsBooked world args s i) :
    (crashStep world args s i).data.desk.Inv := by
  cases i with
  | input i => exact step_inv world args h i
  | stop msg k =>
      show (if s.panic.isSome then s else _ : System).data.desk.Inv
      split
      · exact h
      · next hpanic =>
          have hbooked := hok.resolve_left hpanic
          have hreceived : (s.data.emit (.received msg)).desk.Inv := h.note rfl
          obtain ⟨d, hmoves, hdisk⟩ := (form_effects world args _ msg).stops hbooked
          -- what is loaded is the record after the moves
          have hd : d.Inv := moves_inv hmoves hreceived
          have hloaded : Desk.Inv ⟨d.saved, d.saved, d.log⟩ := by
            refine ⟨rfl, hd.due, fun transfer ht => hd.held transfer ?_⟩
            exact hd.saved.symm.trans ht
          have hrun : (s.data.emit (.received msg)).disk.run
              ((effects world args (s.data.emit (.received msg)) msg).take k) =
              ⟨⟨d.saved⟩, d.log⟩ := hdisk
          dsimp only
          rw [hrun]
          exact hloaded.note rfl

/-- **STOPPED AND STARTED AGAIN**: a dealer that is not stopped between a
    movement of money and the write after it moves money at most once for a
    transfer. -/
theorem stopped_dealer_moves_money_once {world : World} {args : Args} {s : System}
    (h : Reach (· = first) (crashStep world args) (StopsBooked world args) s) :
    Always (fun log => ∀ kind, issued kind log ≤ 1) s.data.log := by
  have hinv : s.data.desk.Inv := by
    refine Reach.invariant (I := fun s => s.data.desk.Inv) ?_ ?_ h
    · rintro s rfl
      exact first_inv
    · intro s i _ hi hok
      exact crashStep_inv hi hok
  exact always_issued_le_one hinv.due

namespace Sample

/-- The asset that the wallet holds. -/
def lbtc : Asset where
  assetId := 7
  name := "Liquid Bitcoin"
  ticker := tickerLbtc
  icon := none
  precision := 8
  iconUrl := none
  instantSwaps := none
  domain := none
  domainAgent := none
  alwaysShow := none

/-- Bitcoins are to be sent, and the wallet and the module are ready. -/
def ready : List CrashInput :=
  [.input (.message (.connected [lbtc])), .input (.message (.reloadUtxo [(lbtc.assetId, .fin 2)])),
    .input (.message .moduleConnected)]

/-- A transfer is started, and the process is stopped after `k` effects of the timer. -/
def stopped (k : Nat) : List CrashInput :=
  .input (.message (.cli (.testSendBtc (.fin 1)))) :: ready ++ [.stop .timer k] ++ ready ++
    [.input (.message .timer)]

end Sample

/-- Stopped before the call, the dealer has called once in the end. -/
theorem stopped_before_call_sends_once :
    let s := run (crashStep Sample.world Sample.args) first (Sample.stopped 0)
    issued .sendToAddress s.data.log = 1 ∧
    Always (fun log => ∀ kind, issued kind log ≤ 1) s.data.log := by
  have hallowed : Allowed (crashStep Sample.world Sample.args) (StopsBooked Sample.world Sample.args)
      first (Sample.stopped 0) := by decide +kernel
  have hstart : Reach (· = first) (crashStep Sample.world Sample.args)
      (StopsBooked Sample.world Sample.args) first := .start rfl
  exact ⟨by decide +kernel, stopped_dealer_moves_money_once (hstart.run _ hallowed)⟩

/-- **PAID TWICE**: stopped after `sendtoaddress` and before the write, the
    dealer calls it again for the same transfer. -/
theorem stopped_after_call_sends_twice :
    issued .sendToAddress
      (run (crashStep Sample.world Sample.args) first (Sample.stopped 1)).data.log = 2 := by
  decide +kernel

end Dealer
