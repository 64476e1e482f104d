import SideSwap.Api
import SideSwap.Handler
import SideSwap.History
import SideSwap.Pricing
import SideSwap.Table
import SideSwap.Transition

/-! # The balancing of the Bitfinex dealer

    `sideswap_dealer_bitfinex`: the handlers of `balancing.rs` and the part of
    the loop of `main.rs` that feeds them.  At most one `Transfer` is active at
    a time; it is advanced by timer ticks and by the replies of the exchange
    module, and every change is saved before the next message is taken.

    An automatic start is a `Cli` message that the timer sends to the loop
    itself, so the runs below, in which any `Cli` message may arrive, include
    it.  A panic ends the process; a restart loads what was saved. -/

namespace Dealer

open Api Program Pricing Transition

/-! ## Data -/

/-- `TransferState`. -/
inductive TransferState where
  | sendUsdtNew
  | sendUsdtWaitConfirm
  | recvUsdtNew
  | recvUsdtWaitWithdrawId
  | recvUsdtWaitConfirm
  | sendBtcNew
  | sendBtcWaitLbtcBalance
  | sendBtcWaitConfirm
  | recvBtcNew
  | recvBtcWaitLbtcBalance
  | recvBtcWaitWithdrawId
  | recvBtcWaitConfirm
  | complete
  | failed
deriving DecidableEq, Repr

/-- `Transfer`; the times are milliseconds. -/
structure Transfer where
  withdrawId : Option Int
  state : TransferState
  amount : Int
  createdAt : Nat
  updatedAt : Nat
  txid : Option String
deriving DecidableEq, Repr

/-- `Storage`. -/
structure Storage where
  balancing : Option Transfer
deriving DecidableEq, Repr

/-- `proto::from::movements::Movement`. -/
structure Movement where
  id : Int
  status : String
  transactionId : String
deriving DecidableEq, Repr

/-- `proto::from::Movements`. -/
structure Movements where
  success : Bool
  key : String
  movements : List Movement
deriving DecidableEq, Repr

/-- `CliRequest`. -/
inductive CliRequest where
  | testSendUsdt (amount : Double)
  | testRecvUsdt (amount : Double)
  | testSendBtc (amount : Double)
  | testRecvBtc (amount : Double)
deriving DecidableEq, Repr

/-- `CliResponse`. -/
inductive CliResponse where
  | success (text : String)
  | error (text : String)
deriving DecidableEq, Repr

/-- `proto::to::Msg`, as far as balancing sends it. -/
inductive ToModule where
  | withdraw (key secret wallet method : String) (amount : ℚ) (address : String)
  | transfer (key secret source target currency currencyTo : String) (amount : ℚ)
  | movements (key secret : String) (start : Option Int)
deriving DecidableEq, Repr

/-- `Args`, as far as balancing reads it. -/
structure Args where
  mainnet : Bool
  bitfinexKey : String
  bitfinexSecret : String
  bitfinexWithdrawAddress : String
  bitfinexFundAddress : String
  bitfinexCurrencyBtc : String
  bitfinexCurrencyLbtc : String
  bitfinexCurrencyUsdt : String

/-- `Msg`; the balances of `ReloadUtxo` are what `listunspent` reports. -/
inductive Msg where
  | timer
  | connected (assets : List Asset)
  | moduleConnected
  | moduleDisconnected
  | walletUpdate (currency : String) (balance : Double)
  | withdraw (withdrawId : Int)
  | movements (msg : Movements)
  | transfer (success : Bool)
  | reloadUtxo (amountsConfirmed : List (AssetId × Double))
  | cli (req : CliRequest)
  | checkExchange
  | other

/-- What the dealer receives and does. -/
inductive Event where
  | received (msg : Msg)
  | restarted
  | started (transfer : Transfer)
  /-- a call of `sendtoaddress` with its result -/
  | sendToAddress (address : String) (amount : ℚ) (assetLabel : Option AssetId)
      (res : Except String String)
  | toModule (msg : ToModule)
  | cliResponse (resp : CliResponse)
  | notification (text : String)
  /-- the notification of a new transfer -/
  | startNotification (name : String) (amount : Double)

/-- The node's answers, and the clock. -/
structure World where
  rpc : List Event → Except String String
  now : List Event → Nat

/-- The state of the loop that balancing depends on, the storage file and the log. -/
structure Data where
  storage : Storage
  saved : Storage
  movements : Option Movements
  walletBalancesConfirmed : Std.TreeMap String Double
  exchangeBalances : Std.TreeMap String Double
  moduleConnected : Bool
  assets : List Asset
  log : List Event

abbrev Handler (α : Type) := Prog Data α

/-- Record an event. -/
def Data.emit (data : Data) (e : Event) : Data := { data with log := data.log ++ [e] }

@[inherit_doc Data.emit] def emit (e : Event) : Handler Unit := modify fun data => data.emit e

/-- `send_msg`. -/
def sendMsg (msg : ToModule) : Handler Unit := emit (.toModule msg)

/-- `send_notification`. -/
def sendNotification (text : String) : Handler Unit := emit (.notification text)

/-- `save_storage`. -/
def saveStorage : Handler Unit := modify fun data => { data with saved := data.storage }

/-! ## Constants -/

def tickerLbtc : String := "L-BTC"
def tickerUsdt : String := "USDt"
def tickers : List String := [tickerLbtc, tickerUsdt, "EURx", "LCAD", "AUDL"]
def bitfinexWalletExchange : String := "exchange"
def bitfinexMethodUsdt : String := "tetherusl"
def bitfinexMethodLbtc : String := "LBT"
def bitfinexStatusCompleted : String := "COMPLETED"

/-! ## Handlers -/

/-- What `update_balancing_state` says about the new state. -/
def stateNotification : TransferState → Option String
  | .failed => some ":fire: balancing failed"
  | .complete => some "balancing complete"
  | _ => none

/-- `update_balancing_state`, after the caller's own change `f` of the record. -/
def updateBalancingState (world : World) (newState : TransferState)
    (f : Transfer → Transfer) : Handler Unit := do
  let data ← get
  let balancing ← ofPanic (expect data.storage.balancing "balancing must be active")
  modify fun data =>
    { data with
      storage :=
        ⟨some { f balancing with state := newState, updatedAt := world.now data.log }⟩ }
  (stateNotification newState).toList.forM sendNotification
  saveStorage

/-- `get(..).cloned().unwrap_or_default()`. -/
def balanceOf (balances : Std.TreeMap String Double) (ticker : String) : Double :=
  (balances[ticker]?).getD (.fin 0)

/-- The call of `sendtoaddress` of the two send states, and what follows from its result. -/
def fundBitfinex (world : World) (args : Args) (balancing : Transfer)
    (assetLabel : Option AssetId) (sent : TransferState) : Handler Unit := do
  let data ← get
  let res := world.rpc data.log
  emit (.sendToAddress args.bitfinexFundAddress (toBitcoin balancing.amount) assetLabel res)
  match res with
  | .ok txid => updateBalancingState world sent fun balancing => { balancing with txid := some txid }
  | .error _ => updateBalancingState world .failed id

/-- The `Withdraw` message of the two receive states. -/
def withdrawMsg (args : Args) (method : String) (balancing : Transfer) : ToModule :=
  .withdraw args.bitfinexKey args.bitfinexSecret bitfinexWalletExchange method
    (toBitcoin balancing.amount) args.bitfinexWithdrawAddress

/-- The `Transfer` message between two currencies of the exchange wallet. -/
def transferMsg (args : Args) (currency currencyTo : String) (balancing : Transfer) : ToModule :=
  .transfer args.bitfinexKey args.bitfinexSecret bitfinexWalletExchange bitfinexWalletExchange
    currency currencyTo (toBitcoin balancing.amount)

/-- `process_balancing`. -/
def processBalancing (world : World) (args : Args) : Handler Unit := do
  let data ← get
  match data.storage.balancing with
  | none => pure ()
  | some balancing =>
      let amount := toBitcoin balancing.amount
      match balancing.state with
      | .sendUsdtNew =>
          if (balanceOf data.walletBalancesConfirmed tickerUsdt).ge amount
              && (balanceOf data.walletBalancesConfirmed tickerLbtc).gt 0
              && data.moduleConnected then do
            let asset ← ofPanic
              (expect (data.assets.find? fun asset => asset.ticker == tickerUsdt) "must be known")
            fundBitfinex world args balancing (some asset.assetId) .sendUsdtWaitConfirm
          else pure ()
      | .recvUsdtNew =>
          if ((balanceOf data.exchangeBalances args.bitfinexCurrencyUsdt).ge amount
              || !args.mainnet) && data.moduleConnected then do
            sendMsg (withdrawMsg args bitfinexMethodUsdt balancing)
            updateBalancingState world .recvUsdtWaitWithdrawId id
          else pure ()
      | .sendBtcNew =>
          if (balanceOf data.walletBalancesConfirmed tickerLbtc).ge amount
              && data.moduleConnected then
            fundBitfinex world args balancing none .sendBtcWaitLbtcBalance
          else pure ()
      | .sendBtcWaitLbtcBalance =>
          if (balanceOf data.exchangeBalances args.bitfinexCurrencyLbtc).eq amount
              && data.moduleConnected then do
            sendMsg (transferMsg args args.bitfinexCurrencyLbtc args.bitfinexCurrencyBtc balancing)
            updateBalancingState world .sendBtcWaitConfirm id
          else pure ()
      | .sendBtcWaitConfirm =>
          if (data.exchangeBalances[args.bitfinexCurrencyLbtc]?).elim false (·.eq 0) then
            updateBalancingState world .complete id
          else pure ()
      | .recvBtcNew =>
          if ((balanceOf data.exchangeBalances args.bitfinexCurrencyBtc).ge amount
              || !args.mainnet) && data.moduleConnected then do
            sendMsg (transferMsg args args.bitfinexCurrencyBtc args.bitfinexCurrencyLbtc balancing)
            updateBalancingState world .recvBtcWaitLbtcBalance id
          else pure ()
      | .recvBtcWaitLbtcBalance =>
          if (balanceOf data.exchangeBalances args.bitfinexCurrencyLbtc).eq amount
              && data.moduleConnected then do
            sendMsg (withdrawMsg args bitfinexMethodLbtc balancing)
            updateBalancingState world .recvBtcWaitWithdrawId id
          else pure ()
      | .complete => do
          modify fun data => { data with storage := ⟨none⟩ }
          saveStorage
      | .sendUsdtWaitConfirm => pure ()
      | .recvUsdtWaitWithdrawId => pure ()
      | .recvUsdtWaitConfirm => pure ()
      | .recvBtcWaitWithdrawId => pure ()
      | .recvBtcWaitConfirm => pure ()
      | .failed => pure ()

/-- The state a withdraw id is waited for in, and the state it leads to. -/
def withdrawConfirms : TransferState → Option TransferState
  | .recvUsdtWaitWithdrawId => some .recvUsdtWaitConfirm
  | .recvBtcWaitWithdrawId => some .recvBtcWaitConfirm
  | _ => none

/-- `process_withdraw`. -/
def processWithdraw (world : World) (withdrawId : Int) : Handler Unit := do
  let data ← get
  match data.storage.balancing with
  | none => pure ()
  | some balancing =>
      match withdrawConfirms balancing.state with
      | some confirm =>
          if 0 < withdrawId ∧ balancing.withdrawId = none then
            updateBalancingState world confirm fun balancing =>
              { balancing with withdrawId := some withdrawId }
          else updateBalancingState world .failed id
      | none => updateBalancingState world .failed id

/-- `process_movements`: the same list must arrive twice in a row before it counts. -/
def processMovements (world : World) (msg : Movements) : Handler Unit := do
  let data ← get
  if !msg.success then pure ()
  else if data.movements ≠ some msg then
    modify fun data => { data with movements := some msg }
  else match data.storage.balancing with
    | none => pure ()
    | some balancing =>
        match balancing.state with
        | .sendUsdtWaitConfirm => do
            let txid ← ofPanic (expect balancing.txid "txid must be known")
            if msg.movements.any fun item =>
                item.transactionId == txid && item.status == bitfinexStatusCompleted then
              updateBalancingState world .complete id
            else pure ()
        | .recvUsdtWaitConfirm =>
            if msg.movements.any fun item =>
                some item.id == balancing.withdrawId && item.status == bitfinexStatusCompleted then
              updateBalancingState world .complete id
            else pure ()
        | .recvBtcWaitConfirm =>
            if msg.movements.any fun item =>
                some item.id == balancing.withdrawId && item.status == bitfinexStatusCompleted then
              updateBalancingState world .complete id
            else pure ()
        | _ => pure ()

/-- `process_transfer`. -/
def processTransfer (world : World) (success : Bool) : Handler Unit := do
  let data ← get
  if data.storage.balancing.isSome then
    if !success then updateBalancingState world .failed id else pure ()
  else pure ()

/-! ## The loop -/

/-- The first state, the amount and the name of a requested transfer. -/
def CliRequest.start : CliRequest → TransferState × Double × String
  | .testSendUsdt amount => (.sendUsdtNew, amount, "send usdt")
  | .testRecvUsdt amount => (.recvUsdtNew, amount, "recv usdt")
  | .testSendBtc amount => (.sendBtcNew, amount, "send btc")
  | .testRecvBtc amount => (.recvBtcNew, amount, "recv btc")

/-- The record of a new transfer. -/
def newTransfer (req : CliRequest) (now : Nat) : Transfer where
  amount := fromBitcoin req.start.2.1
  createdAt := now
  updatedAt := now
  state := req.start.1
  txid := none
  withdrawId := none

/-- `Msg::Cli`. -/
def processCli (world : World) (req : CliRequest) : Handler Unit := do
  let data ← get
  if data.storage.balancing.isSome then
    emit (.cliResponse (.error "already started"))
  else do
    let transfer := newTransfer req (world.now data.log)
    modify fun data =>
      { data with
        movements := none
        storage := ⟨some transfer⟩
        log := data.log ++ [.started transfer] }
    saveStorage
    emit (.startNotification req.start.2.2 req.start.2.1)
    emit (.cliResponse (.success "success"))

/-- `Msg::CheckExchange`. -/
def checkExchange (args : Args) : Handler Unit := do
  let data ← get
  match data.storage.balancing with
  | none => pure ()
  | some balancing =>
      if data.moduleConnected then
        sendMsg (.movements args.bitfinexKey args.bitfinexSecret
          (some (balancing.createdAt - 10000)))
      else pure ()

/-- The confirmed balances of `ReloadUtxo`: those of the known assets that the
    server has listed. -/
def convertBalances (assets : List Asset) (amounts : List (AssetId × Double)) :
    Std.TreeMap String Double :=
  assets.foldl (fun balances asset =>
    match amounts.lookup asset.assetId with
    | some balance =>
        if asset.ticker ∈ tickers then balances.insert asset.ticker balance else balances
    | none => balances) ∅

/-- The body of the loop of `main.rs`. -/
def processMsg (world : World) (args : Args) (msg : Msg) : Handler Unit :=
  match msg with
  | .timer => processBalancing world args
  | .connected assets => modify fun data => { data with assets }
  | .moduleConnected => modify fun data => { data with moduleConnected := true }
  | .moduleDisconnected => modify fun data => { data with moduleConnected := false }
  | .walletUpdate currency balance => modify fun data =>
      { data with exchangeBalances := data.exchangeBalances.insert currency balance }
  | .withdraw withdrawId => processWithdraw world withdrawId
  | .movements msg => processMovements world msg
  | .transfer success => processTransfer world success
  | .reloadUtxo amounts => modify fun data =>
      { data with walletBalancesConfirmed := convertBalances data.assets amounts }
  | .cli req => processCli world req
  | .checkExchange => checkExchange args
  | .other => pure ()

/-- The process: its data, and how it panicked. -/
structure System where
  data : Data
  panic : Option Panic

/-- Run a handler to its end. -/
def finish (p : Handler Unit) (data : Data) : System :=
  match exec p data with
  | (.error (.panic e), data) => ⟨data, some e⟩
  | (.error (.error _), data) => ⟨data, none⟩
  | (.ok (), data) => ⟨data, none⟩

/-- What happens to the dealer. -/
inductive Input where
  | message (msg : Msg)
  | restart

/-- What a started process knows: the storage it loads, and nothing else. -/
def load (saved : Storage) (log : List Event) : Data where
  storage := saved
  saved := saved
  movements := none
  walletBalancesConfirmed := ∅
  exchangeBalances := ∅
  moduleConnected := false
  assets := []
  log := log

/-- The dealer takes a message, or is started again. -/
def step (world : World) (args : Args) (s : System) : Input → System
  | .message msg =>
      if s.panic.isSome then s
      else finish (processMsg world args msg) (s.data.emit (.received msg))
  | .restart => ⟨load s.data.saved (s.data.log ++ [.restarted]), none⟩

/-- The first start: there is no storage file. -/
def first : System := ⟨load ⟨none⟩ [], none⟩

/-- The states of the dealer's runs. -/
abbrev Reaches (world : World) (args : Args) : System → Prop :=
  Reach (· = first) (step world args) fun _ _ => True

end Dealer
