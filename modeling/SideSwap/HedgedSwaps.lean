import SideSwap.ExchangeDealer
import SideSwap.LiveOrders

/-! # What the Bitfinex dealer tells, signs and hedges

    As for the order dealer, the history of the process decides its tables: the
    assets, the prices that the order dealer was told, the coins of the wallet
    and the open instant swaps.  A restart begins a new history.

    From that agreement: prices are told and broadcast as the exchange has
    published them, an instant swap gets the signatures of its own asset only,
    and each swap is hedged once, so that the bitcoins of the swaps and those of
    the orders on the exchange cancel out but for dust and rounding. -/

namespace Exchange

open Api Program Pricing Transition History Relation
open OrderDealer (DealerTicker PricePair UnspentItem Utxos PsetSlot To From SwapSucceed
  tickerFromAsset reloadUtxos expectOk)

/-! ## The history -/

/-- A swap of the dealer. -/
structure Hedge where
  ticker : Option DealerTicker
  bitcoinAmount : Int
  sendBitcoins : Bool
deriving DecidableEq

/-- What a history amounts to. -/
structure Account where
  assets : List Asset
  told : DealerTicker → Option PricePair
  connected : Bool
  coins : Utxos
  swaps : OrderId → Option AssetId
  present : Option Msg
  hedges : List Hedge
  submits : List (ℚ × String)

def Account.start : Account :=
  ⟨[], fun _ => none, false, ∅, fun _ => none, none, [], []⟩

/-- An instant swap that was made, by the assets then known. -/
def SwapDoneNotification.hedge (swap : SwapDoneNotification) (args : Args) (assets : List Asset) :
    Hedge where
  ticker := (assets.find? fun asset => asset.assetId == (swap.amounts args.policyAsset).1).bind
    fun asset => dealerTickers.find? fun ticker => ticker.text == asset.ticker
  bitcoinAmount := (swap.amounts args.policyAsset).2
  sendBitcoins := swap.sendBitcoins args.policyAsset

/-- The end of an instant swap, which was made if there is a transaction. -/
def Account.done (args : Args) (a : Account) (swap : SwapDoneNotification) : Account :=
  { a with
    swaps := Function.update a.swaps swap.orderId none
    hedges := a.hedges ++
      if (a.swaps swap.orderId).isSome ∧ swap.status = .success ∧ swap.txid.isSome then
        [swap.hedge args a.assets]
      else [] }

/-- The account after a message. -/
def Account.receive (args : Args) (a : Account) : Msg → Account
  | .disconnected => { a with connected := false }
  | .reloadUtxo (.ok unspent) => { a with coins := reloadUtxos a.coins (unspent.map (·.item)) }
  | .swapDone swap => a.done args swap
  | .dealer (.swap swap) =>
      { a with hedges := a.hedges ++ [⟨some swap.ticker, swap.bitcoinAmount, swap.sendBitcoins⟩] }
  | _ => a

/-- The present message has started an instant swap. -/
def Account.opened (a : Account) : Account :=
  match a.present with
  | some (.startSwapDealer orderId sendAsset) =>
      { a with swaps := Function.update a.swaps orderId (some sendAsset) }
  | _ => a

/-- The account after an event. -/
def Account.record (args : Args) (a : Account) : Event → Account
  | .received _ msg => { a.receive args msg with present := some msg }
  | .restarted => Account.start
  | .request .assets (some (.ok (.assets list))) => { a with assets := list }
  | .request .serverStatus (some (.ok .serverStatus)) => { a with connected := true }
  | .request (.startSwapDealer _ _ _ _) (some (.error _)) => a.opened
  | .request (.startSwapDealer _ _ _ _) (some (.ok .startSwapDealer)) => a.opened
  | .toDealer (.price ticker pair) => { a with told := Function.update a.told ticker pair }
  | .toDealer .resetPrices => { a with told := fun _ => none }
  | .toModule (.orderSubmit _ _ amount bookName) =>
      { a with submits := a.submits ++ [(amount, bookName)] }
  | _ => a

/-- The account of a history. -/
def account (args : Args) (log : List Event) : Account :=
  log.foldl (Account.record args) Account.start

theorem account_concat (args : Args) (log : List Event) (e : Event) :
    account args (log ++ [e]) = (account args log).record args e := by
  simp [account]

/-! ## What is asked of it -/

/-- The swap is worth an order. -/
def Hedge.isBig (h : Hedge) : Bool := decide (minHedgeAmount ≤ toBitcoin h.bitcoinAmount)

/-- An order hedges a swap: what was sent is bought, with the fee, and what was received is
    sold, in the book of its ticker. -/
structure Hedges (args : Args) (h : Hedge) (order : ℚ × String) : Prop where
  amount : order.1 = args.signedBitcoinAmount h.bitcoinAmount h.sendBitcoins
  book : ∃ ticker, h.ticker = some ticker ∧ args.bookName ticker = some order.2

/-- At most the coins of one asset get a signature. -/
structure SignsOnly (coins : Utxos) (sendAsset : AssetId) (slot signed : PsetSlot) : Prop where
  output : signed.previousOutput = slot.previousOutput
  own : signed = slot ∨
    ∃ coin, coins[slot.previousOutput]? = some coin ∧ isSwapCoin sendAsset coin = true

/-- What is told, asked and signed is due to the history. -/
def Fair (world : World) (args : Args) (before : List Event) : Event → Prop
  | .toDealer (.price ticker (some pair)) =>
      ∃ bookName, (account args before).present = some (.bookUpdate bookName pair) ∧
        args.bookTicker bookName = some ticker
  | .request (.priceUpdateBroadcast assetId price) _ =>
      (account args before).connected = true ∧ args.apiKey.isSome = true ∧
      ∃ ticker pair asset interest, (account args before).told ticker = some pair ∧
        (account args before).assets.find? (·.ticker == ticker.text) = some asset ∧
        asset.assetId = assetId ∧ args.interestOf assetId = .ok interest ∧
        price = withInterest pair interest
  | .request (.startSwapDealer orderId inputs _ _) _ =>
      ∃ sendAsset, (account args before).present = some (.startSwapDealer orderId sendAsset) ∧
        ∀ input ∈ inputs, ∃ coin ∈ (account args before).coins.values,
          isSwapCoin sendAsset coin = true ∧ psetInput coin = .ok input
  | .request (.signedSwapDealer orderId text) _ =>
      ∃ pset sendAsset slots signed,
        (account args before).present = some (.blindedSwapDealer orderId pset) ∧
        (account args before).swaps orderId = some sendAsset ∧
        world.decodePset pset = .ok slots ∧ text = world.encodePset signed ∧
        List.Forall₂ (SignsOnly (account args before).coins sendAsset) slots signed
  | _ => True

/-! ## What the handlers do -/

/-- The tables that the history decides, and the history. -/
structure Book where
  assets : List Asset
  prices : DealerTicker → Option Price
  connected : Bool
  coins : Utxos
  swaps : OrderId → Option AssetId
  log : List Event

def Data.book (data : Data) : Book where
  assets := data.balancing.assets
  prices := data.modulePrices
  connected := data.serverConnected
  coins := data.utxos
  swaps := data.instantSwaps
  log := data.log

/-- The tables say what an account says. -/
structure Book.Agrees (b : Book) (a : Account) : Prop where
  assets : b.assets = a.assets
  prices : ∀ ticker, (b.prices ticker).map Price.pair = a.told ticker
  connected : b.connected = a.connected
  coins : b.coins = a.coins
  swaps : b.swaps = a.swaps

/-- The events of a hedge: none for a small swap. -/
def Covers (args : Args) (h : Hedge) (es : List Event) : Prop :=
  (h.isBig = false ∧ es = []) ∨
  (h.isBig = true ∧ ∃ time cid order, Hedges args h order ∧
    es = [.toModule (.orderSubmit time cid order.1 order.2)])

/-- One thing that happens to the trades. -/
inductive Act (world : World) (args : Args) : Book → Book → Prop where
  /-- an event that changes no table -/
  | act {b e} : (∀ a : Account, a.record args e = a) →
      (b.Agrees (account args b.log) → Fair world args b.log e) →
      Act world args b { b with log := b.log ++ [e] }
  | receive {b now msg} : (∀ a : Account, a.receive args msg = a) →
      Act world args b { b with log := b.log ++ [.received now msg] }
  | load {b list} : Act world args b
      { b with assets := list, log := b.log ++ [.request .assets (some (.ok (.assets list)))] }
  | online {b} : Act world args b
      { b with
        connected := true
        log := b.log ++ [.request .serverStatus (some (.ok .serverStatus))] }
  | offline {b now} : Act world args b
      { b with connected := false, log := b.log ++ [.received now .disconnected] }
  | reload {b now unspent} : Act world args b
      { b with
        coins := reloadUtxos b.coins (unspent.map WalletCoin.item)
        log := b.log ++ [.received now (.reloadUtxo (.ok unspent))] }
  | price {b ticker pair timestamp bookName} :
      (account args b.log).present = some (.bookUpdate bookName pair) →
      args.bookTicker bookName = some ticker →
      Act world args b
        { b with
          prices := Function.update b.prices ticker (some ⟨pair.bid, pair.ask, timestamp⟩)
          log := b.log ++ [.toDealer (.price ticker (some pair))] }
  | expire {b ticker} : Act world args b
      { b with
        prices := Function.update b.prices ticker none
        log := b.log ++ [.toDealer (.price ticker none)] }
  | withdraw {b} : Act world args b
      { b with
        prices := fun _ => none
        log := b.log ++ [.toDealer (.price .eurx none)] ++ [.toDealer (.price .usdt none)] }
  | start {b orderId sendAsset inputs recvAddr changeAddr res} :
      (account args b.log).present = some (.startSwapDealer orderId sendAsset) →
      (∀ input ∈ inputs, ∃ coin ∈ b.coins.values, isSwapCoin sendAsset coin = true ∧
        psetInput coin = .ok input) →
      ((∃ e, res = some (.error e)) ∨ res = some (.ok .startSwapDealer)) →
      Act world args b
        { b with
          swaps := Function.update b.swaps orderId (some sendAsset)
          log := b.log ++ [.request (.startSwapDealer orderId inputs recvAddr changeAddr) res] }
  /-- a swap of the order dealer -/
  | swap {b now swap es} :
      Covers args ⟨some swap.ticker, swap.bitcoinAmount, swap.sendBitcoins⟩ es →
      Act world args b
        { b with log := b.log ++ [.received now (.dealer (.swap swap))] ++ es }
  /-- an instant swap that was not made -/
  | fail {b now swap} :
      (b.swaps swap.orderId).isNone = true ∨ swap.status ≠ .success ∨ swap.txid = none →
      Act world args b
        { b with
          swaps := Function.update b.swaps swap.orderId none
          log := b.log ++ [.received now (.swapDone swap)] }
  | done {b now swap es} :
      (b.swaps swap.orderId).isSome = true → swap.status = .success → swap.txid.isSome = true →
      Covers args (swap.hedge args b.assets) es →
      Act world args b
        { b with
          swaps := Function.update b.swaps swap.orderId none
          log := b.log ++ [.received now (.swapDone swap)] ++ es }

/-! ## The invariant -/

/-- Only the tickers of the books have a price. -/
def Book.Listed (b : Book) : Prop := ∀ ticker, ticker ∉ sortedTickers → b.prices ticker = none

/-- The tables agree with the history, in which everything is fair and hedged. -/
structure Book.Inv (world : World) (args : Args) (b : Book) : Prop where
  agrees : b.Agrees (account args b.log)
  listed : b.Listed
  fair : Justified (Fair world args) b.log
  hedged : List.Forall₂ (Hedges args) ((account args b.log).hedges.filter Hedge.isBig)
    (account args b.log).submits

section Invariant

variable {world : World} {args : Args} {b b' : Book}

/-- An event that hedges nothing. -/
theorem Book.Inv.event {e : Event} (h : b.Inv world args) (hlog : b'.log = b.log ++ [e])
    (hfair : Fair world args b.log e) (hlisted : b'.Listed)
    (hsame : ((account args b.log).record args e).hedges = (account args b.log).hedges)
    (hsubmits : ((account args b.log).record args e).submits = (account args b.log).submits)
    (ha : b'.Agrees ((account args b.log).record args e)) : b'.Inv world args := by
  constructor
  · rw [hlog, account_concat]
    exact ha
  · exact hlisted
  · rw [hlog]
    exact h.fair.concat hfair
  · rw [hlog, account_concat, hsame, hsubmits]
    exact h.hedged

/-- A new price is told as it is noted. -/
theorem agrees_price {a : Account} (ha : b.Agrees a) (ticker : DealerTicker) (price : Option Price)
    (log : List Event) :
    ({ b with prices := Function.update b.prices ticker price, log } : Book).Agrees
      { a with told := Function.update a.told ticker (price.map Price.pair) } := by
  refine ⟨ha.assets, fun ticker' => ?_, ha.connected, ha.coins, ha.swaps⟩
  by_cases hticker : ticker' = ticker
  · subst hticker
    simp only [Function.update_self]
  · simp only [Function.update_of_ne hticker]
    exact ha.prices ticker'

theorem Book.Listed.update (h : b.Listed) {ticker : DealerTicker} {price : Option Price}
    (hticker : price = none ∨ ticker ∈ sortedTickers) :
    ∀ ticker', ticker' ∉ sortedTickers → Function.update b.prices ticker price ticker' = none := by
  intro ticker' hother
  by_cases heq : ticker' = ticker
  · subst heq
    rw [Function.update_self]
    exact hticker.resolve_right hother
  · rw [Function.update_of_ne heq]
    exact h ticker' hother

/-- A book is one of those that are listed. -/
theorem bookTicker_mem {bookName : String} {ticker : DealerTicker}
    (h : args.bookTicker bookName = some ticker) : ticker ∈ sortedTickers := by
  simp only [Args.bookTicker] at h
  split at h
  · cases h
    decide
  · split at h
    · cases h
      decide
    · cases h

/-- The hedge of a swap. -/
theorem Book.Inv.hedge {es : List Event} {e : Event} {hedge : Hedge} (h : b.Inv world args)
    (hlog : b'.log = b.log ++ [e] ++ es) (hcovers : Covers args hedge es)
    (hfair : Fair world args b.log e) (hlisted : b'.Listed)
    (hhedges : ((account args b.log).record args e).hedges = (account args b.log).hedges ++ [hedge])
    (hsubmits : ((account args b.log).record args e).submits = (account args b.log).submits)
    (ha : b'.Agrees ((account args b.log).record args e)) : b'.Inv world args := by
  rcases hcovers with ⟨hsmall, rfl⟩ | ⟨hbig, time, cid, order, hhedge, rfl⟩
  · rw [List.append_nil] at hlog
    constructor
    · rw [hlog, account_concat]
      exact ha
    · exact hlisted
    · rw [hlog]
      exact h.fair.concat hfair
    · rw [hlog, account_concat, hhedges, hsubmits, List.filter_append, List.filter_singleton, hsmall]
      rw [cond_false, List.append_nil]
      exact h.hedged
  · constructor
    · rw [hlog, account_concat, account_concat]
      exact ⟨ha.assets, ha.prices, ha.connected, ha.coins, ha.swaps⟩
    · exact hlisted
    · rw [hlog]
      exact (h.fair.concat hfair).concat trivial
    · rw [hlog, account_concat, account_concat]
      show List.Forall₂ (Hedges args)
        (((account args b.log).record args e).hedges.filter Hedge.isBig)
        (((account args b.log).record args e).submits ++ [order])
      rw [hhedges, hsubmits, List.filter_append, List.filter_singleton, hbig]
      exact List.rel_append h.hedged (.cons hhedge .nil)

theorem opened_of_present {a : Account} {orderId : OrderId} {sendAsset : AssetId}
    (h : a.present = some (.startSwapDealer orderId sendAsset)) :
    a.opened = { a with swaps := Function.update a.swaps orderId (some sendAsset) } := by
  simp only [Account.opened, h]

/-- **ONE ACT**: the tables keep agreeing with the history. -/
theorem Act.inv (hact : Act world args b b') (h : b.Inv world args) : b'.Inv world args := by
  have ha := h.agrees
  have hsame : ∀ log, ({ b with log } : Book).Agrees (account args b.log) := fun log =>
    ⟨ha.assets, ha.prices, ha.connected, ha.coins, ha.swaps⟩
  cases hact with
  | @act e hrecord hfair =>
      refine h.event rfl (hfair ha) h.listed (by rw [hrecord]) (by rw [hrecord]) ?_
      rw [hrecord]
      exact hsame _
  | @receive now msg hreceive =>
      have hrecord : (account args b.log).record args (.received now msg) =
          { account args b.log with present := some msg } := by
        simp only [Account.record, hreceive]
      refine h.event rfl trivial h.listed (by rw [hrecord]) (by rw [hrecord]) ?_
      rw [hrecord]
      exact ⟨ha.assets, ha.prices, ha.connected, ha.coins, ha.swaps⟩
  | load =>
      exact h.event rfl trivial h.listed rfl rfl ⟨rfl, ha.prices, ha.connected, ha.coins, ha.swaps⟩
  | online =>
      exact h.event rfl trivial h.listed rfl rfl ⟨ha.assets, ha.prices, rfl, ha.coins, ha.swaps⟩
  | offline =>
      exact h.event rfl trivial h.listed rfl rfl ⟨ha.assets, ha.prices, rfl, ha.coins, ha.swaps⟩
  | @reload now unspent =>
      refine h.event rfl trivial h.listed rfl rfl
        ⟨ha.assets, ha.prices, ha.connected, ?_, ha.swaps⟩
      exact congrArg (reloadUtxos · (unspent.map WalletCoin.item)) ha.coins
  | @price ticker pair timestamp bookName hpresent hbook =>
      exact h.event rfl ⟨bookName, hpresent, hbook⟩
        (h.listed.update (.inr (bookTicker_mem hbook))) rfl rfl (agrees_price ha ticker _ _)
  | @expire ticker =>
      exact h.event rfl trivial (h.listed.update (.inl rfl)) rfl rfl (agrees_price ha ticker none _)
  | withdraw =>
      have hlast : ({ b with
          prices := Function.update (Function.update b.prices .eurx none) .usdt none
          log := b.log ++ [.toDealer (.price .eurx none)] ++ [.toDealer (.price .usdt none)] } :
            Book).Inv world args := by
        have hfirst : ({ b with
            prices := Function.update b.prices .eurx none
            log := b.log ++ [.toDealer (.price .eurx none)] } : Book).Inv world args :=
          h.event rfl trivial (h.listed.update (.inl rfl)) rfl rfl (agrees_price ha .eurx none _)
        refine hfirst.event rfl trivial (hfirst.listed.update (.inl rfl)) rfl rfl ?_
        exact agrees_price hfirst.agrees .usdt none _
      have hnone : Function.update (Function.update b.prices .eurx none) .usdt none =
          fun _ => none := by
        funext ticker
        by_cases hmem : ticker ∈ sortedTickers
        · rcases List.mem_pair.mp hmem with rfl | rfl
          · rfl
          · rfl
        · exact Book.Listed.update (b := { b with prices := Function.update b.prices .eurx none })
            (h.listed.update (.inl rfl)) (.inl rfl) ticker hmem
      rw [hnone] at hlast
      exact hlast
  | @start orderId sendAsset inputs recvAddr changeAddr res hpresent hinputs hres =>
      rw [ha.coins] at hinputs
      have hrecord : (account args b.log).record args
          (.request (.startSwapDealer orderId inputs recvAddr changeAddr) res) =
          { account args b.log with
            swaps := Function.update (account args b.log).swaps orderId (some sendAsset) } := by
        rw [← opened_of_present hpresent]
        rcases hres with ⟨e, rfl⟩ | rfl
        · rfl
        · rfl
      refine h.event rfl ⟨sendAsset, hpresent, hinputs⟩ h.listed (by rw [hrecord])
        (by rw [hrecord]) ?_
      rw [hrecord]
      refine ⟨ha.assets, ha.prices, ha.connected, ha.coins, ?_⟩
      exact congrArg (Function.update · orderId (some sendAsset)) ha.swaps
  | @swap now swap es hcovers =>
      exact h.hedge rfl hcovers trivial h.listed rfl rfl
        ⟨ha.assets, ha.prices, ha.connected, ha.coins, ha.swaps⟩
  | @fail now swap hnot =>
      rw [ha.swaps] at hnot
      have hnot : ¬ (((account args b.log).swaps swap.orderId).isSome = true ∧
          swap.status = .success ∧ swap.txid.isSome = true) := by
        rintro ⟨hsome, hsuccess, htxid⟩
        rcases hnot with hnone | hfailed | hnone
        · rw [Option.isNone_iff_eq_none.mp hnone] at hsome
          cases hsome
        · exact hfailed hsuccess
        · rw [hnone] at htxid
          cases htxid
      refine h.event rfl trivial h.listed ?_ rfl ⟨ha.assets, ha.prices, ha.connected, ha.coins, ?_⟩
      · simp only [Account.record, Account.receive, Account.done, if_neg hnot, List.append_nil]
      · exact congrArg (Function.update · swap.orderId none) ha.swaps
  | @done now swap es hsome hsuccess htxid hcovers =>
      rw [ha.assets] at hcovers
      rw [ha.swaps] at hsome
      refine h.hedge rfl hcovers trivial h.listed ?_ rfl
        ⟨ha.assets, ha.prices, ha.connected, ha.coins, ?_⟩
      · simp only [Account.record, Account.receive, Account.done]
        rw [if_pos ⟨hsome, hsuccess, htxid⟩]
      · exact congrArg (Function.update · swap.orderId none) ha.swaps

/-- The invariant is kept by everything that happens. -/
theorem Book.Inv.reach (h : b.Inv world args) (hreach : ReflTransGen (Act world args) b b') :
    b'.Inv world args := by
  induction hreach with
  | refl => exact h
  | tail _ hact ih => exact hact.inv ih

end Invariant

/-! ## The balancing leaves the trades alone -/

section Balancing

variable (world : Dealer.World)

theorem updateBalancingState_assets (newState : Dealer.TransferState)
    (f : Dealer.Transfer → Dealer.Transfer) :
    Fixes Dealer.Data.assets (Dealer.updateBalancingState world newState f) := by
  intro data
  refine Leads.get (Leads.ofPanic .refl fun balancing _ => Leads.modify ?_)
  have hnotify : ∀ text, Fixes Dealer.Data.assets (Dealer.sendNotification text) :=
    fun _ _ => .refl
  exact Leads.call (Follows.forM hnotify _) .refl fun _ _ _ hreach => hreach

theorem fundBitfinex_assets (args : Dealer.Args) (balancing : Dealer.Transfer)
    (assetLabel : Option AssetId) (sent : Dealer.TransferState) :
    Fixes Dealer.Data.assets (Dealer.fundBitfinex world args balancing assetLabel sent) := by
  intro data
  refine Leads.get (Leads.modify ?_)
  cases world.rpc data.log with
  | error e => exact updateBalancingState_assets world _ _ (data.emit _)
  | ok txid => exact updateBalancingState_assets world _ _ (data.emit _)

theorem processBalancing_assets (args : Dealer.Args) :
    Fixes Dealer.Data.assets (Dealer.processBalancing world args) := by
  have hsend : ∀ (msg : Dealer.ToModule) (newState : Dealer.TransferState),
      Fixes Dealer.Data.assets (do
        Dealer.sendMsg msg
        Dealer.updateBalancingState world newState id) := fun _ newState =>
    Follows.bind (fun _ => .refl) fun _ => updateBalancingState_assets world newState id
  intro data
  refine Leads.get ?_
  cases data.storage.balancing with
  | none => exact .refl
  | some balancing =>
      dsimp only
      split
      · split
        · exact Leads.ofPanic .refl fun _ _ => fundBitfinex_assets world args _ _ _ _
        · exact .refl
      · split
        · exact hsend _ _ _
        · exact .refl
      · split
        · exact fundBitfinex_assets world args _ _ _ _
        · exact .refl
      · split
        · exact hsend _ _ _
        · exact .refl
      · split
        · exact updateBalancingState_assets world _ _ _
        · exact .refl
      · split
        · exact hsend _ _ _
        · exact .refl
      · split
        · exact hsend _ _ _
        · exact .refl
      all_goals exact .refl

theorem processWithdraw_assets (withdrawId : Int) :
    Fixes Dealer.Data.assets (Dealer.processWithdraw world withdrawId) := by
  intro data
  refine Leads.get ?_
  cases data.storage.balancing with
  | none => exact .refl
  | some balancing =>
      dsimp only
      split
      · split
        · exact updateBalancingState_assets world _ _ _
        · exact updateBalancingState_assets world _ _ _
      · exact updateBalancingState_assets world _ _ _

theorem processMovements_assets (msg : Dealer.Movements) :
    Fixes Dealer.Data.assets (Dealer.processMovements world msg) := by
  have hcomplete : ∀ (b : Bool), Fixes Dealer.Data.assets
      (if b then Dealer.updateBalancingState world .complete id else pure ()) := by
    intro b
    cases b with
    | false => exact fun _ => .refl
    | true => exact updateBalancingState_assets world _ _
  intro data
  refine Leads.get ?_
  split
  · exact .refl
  · split
    · exact .refl
    · cases data.storage.balancing with
      | none => exact .refl
      | some balancing =>
          dsimp only
          split
          · exact Leads.ofPanic .refl fun _ _ => hcomplete _ _
          · exact hcomplete _ _
          · exact hcomplete _ _
          · exact .refl

theorem processTransfer_assets (success : Bool) :
    Fixes Dealer.Data.assets (Dealer.processTransfer world success) := by
  intro data
  refine Leads.get ?_
  split
  · split
    · exact updateBalancingState_assets world _ _ _
    · exact .refl
  · exact .refl

/-- Only the server changes the assets. -/
theorem processMsg_assets (args : Dealer.Args) {msg : Dealer.Msg}
    (hmsg : ∀ list, msg ≠ .connected list) :
    Fixes Dealer.Data.assets (Dealer.processMsg world args msg) := by
  cases msg with
  | timer => exact processBalancing_assets world args
  | connected list => exact absurd rfl (hmsg list)
  | withdraw withdrawId => exact processWithdraw_assets world withdrawId
  | movements msg => exact processMovements_assets world msg
  | transfer success => exact processTransfer_assets world success
  | cli req =>
      intro data
      refine Leads.get ?_
      split
      · exact .refl
      · exact .refl
  | checkExchange =>
      intro data
      refine Leads.get ?_
      cases data.storage.balancing with
      | none => exact .refl
      | some balancing =>
          dsimp only
          split
          · exact .refl
          · exact .refl
  | _ => exact fun _ => .refl

end Balancing

/-! ## The handlers -/

section Handlers

variable {world : World} {args : Args}

abbrev Acts {α : Type} (world : World) (args : Args) (v : Book) (p : Handler α) (data : Data) :
    Prop := Leads Data.book (Act world args) v p data

/-- An event that says nothing about the trades. -/
theorem Act.quiet {b : Book} {e : Event} (hrecord : ∀ a : Account, a.record args e = a)
    (hfair : Fair world args b.log e) : Act world args b { b with log := b.log ++ [e] } :=
  .act hrecord fun _ => hfair

theorem balance_fixes {msg : Dealer.Msg} (hmsg : ∀ list, msg ≠ .connected list) :
    Fixes Data.book (balance world args msg) := by
  have hassets : Fixes Dealer.Data.assets (do
      Dealer.emit (.received msg)
      Dealer.processMsg world.balancing args.toArgs msg) :=
    Follows.bind (fun _ => .refl) fun _ => processMsg_assets world.balancing args.toArgs hmsg
  refine Fixes.zoom hassets fun balancing data h => ?_
  simp only [Data.book, h]

theorem balance_acts {msg : Dealer.Msg} (hmsg : ∀ list, msg ≠ .connected list) :
    Follows Data.book (Act world args) (balance world args msg) :=
  (balance_fixes hmsg).mono fun _ _ h => h.elim

theorem broadcastPrice_acts (now : Nat) (ticker : DealerTicker) :
    Follows Data.book (Act world args) (broadcastPrice world args now ticker) := by
  intro data
  refine Leads.get ?_
  cases hprice : data.modulePrices ticker with
  | none => exact .refl
  | some price =>
      dsimp only
      split
      · next hexpired =>
          refine Leads.ofPanic .refl fun asset hasset => ?_
          refine Leads.ofPanic .refl fun interest hinterest => ?_
          split
          · next hstatus =>
              obtain ⟨-, hconnected⟩ := Bool.and_eq_true_iff.mp hexpired
              obtain ⟨hkey, -⟩ := Bool.and_eq_true_iff.mp hstatus
              have hsent : ∀ res, Act world args data.book (data.emit (.request
                  (.priceUpdateBroadcast asset.assetId (withInterest price.pair interest)) res)).book := by
                intro res
                refine .act (fun _ => rfl) fun ha => ?_
                refine ⟨ha.connected.symm.trans hconnected, hkey, ticker, price.pair, asset, interest,
                  ?_, ?_, rfl, hinterest, rfl⟩
                · rw [← ha.prices ticker]
                  exact congrArg (Option.map Price.pair) hprice
                · rw [← ha.assets]
                  exact expect_ok hasset
              have hrest : ∀ data : Data, Acts world args data.book (do
                  let list ← ofPanic (getPrices args ticker (withInterest price.pair interest)
                    data.balancing.assets data.utxos data.balancing.exchangeBalances)
                  let _ ← sendRequest world (.broadcastPriceStream asset.assetId list
                      data.balancing.storage.balancing.isSome) fun resp =>
                    if resp = .broadcastPriceStream then some () else none
                  modify fun data =>
                    { data with
                      broadcastTimestamps :=
                        Function.update data.broadcastTimestamps ticker (some now) }) data := by
                intro data
                refine Leads.ofPanic .refl fun list _ => ?_
                have hnote : ∀ res, Act world args data.book (data.emit (.request
                    (.broadcastPriceStream asset.assetId list
                      data.balancing.storage.balancing.isSome) res)).book :=
                  fun res => .quiet (fun _ => rfl) trivial
                exact Leads.request (fun res _ => .single (hnote res)) (fun e => .single (hnote _))
                  fun resp _ _ => .single (hnote _)
              exact Leads.request (fun res _ => .single (hsent res))
                (fun e => Leads.commit (.single (hsent _)) (hrest _))
                fun resp _ _ => Leads.commit (.single (hsent _)) (hrest _)
          · exact .refl
      · exact .refl

variable (world args) in
/-- What a hedge does: it is skipped, or an order is submitted, or the book is not known. -/
theorem hedgeOrder_cases (ticker : DealerTicker) (bitcoinAmount : Int) (sendBitcoins : Bool)
    (data : Data) :
    (∃ es data', exec (hedgeOrder world args ticker bitcoinAmount sendBitcoins) data =
        (.ok (), data') ∧ data'.book = { data.book with log := data.log ++ es } ∧
      Covers args ⟨some ticker, bitcoinAmount, sendBitcoins⟩ es) ∨
    ∃ p data', exec (hedgeOrder world args ticker bitcoinAmount sendBitcoins) data =
        (.error (.panic p), data') ∧ data'.book = data.book := by
  simp only [hedgeOrder]
  rw [exec_get_bind, exec_modify_bind]
  by_cases hbig : minHedgeAmount ≤ toBitcoin bitcoinAmount
  · rw [if_pos hbig, exec_modify_bind]
    cases hbook : args.bookName ticker with
    | none => exact .inr ⟨_, _, rfl, rfl⟩
    | some bookName =>
        refine .inl ⟨_, _, rfl, rfl, .inr ⟨decide_eq_true hbig, _, _, ⟨_, bookName⟩, ⟨rfl, ?_⟩, rfl⟩⟩
        exact ⟨ticker, rfl, hbook⟩
  · rw [if_neg hbig]
    refine .inl ⟨[], _, rfl, ?_, .inl ⟨decide_eq_false hbig, rfl⟩⟩
    rw [List.append_nil]
    rfl
/-- Each result of a loop comes from one of its rounds. -/
theorem exists_of_mem_mapM {ε α β : Type} {f : α → Except ε β} {as : List α} {bs : List β} {b : β}
    (h : as.mapM f = .ok bs) (hmem : b ∈ bs) : ∃ a ∈ as, f a = .ok b := by
  have hall := mapM_returns h
  clear h
  induction hall with
  | nil => cases hmem
  | @cons a b' as bs hok _ ih =>
      rcases List.mem_cons.mp hmem with rfl | hmem
      · exact ⟨a, List.mem_cons_self, hok⟩
      · obtain ⟨a', hmem', hok'⟩ := ih hmem
        exact ⟨a', List.mem_cons_of_mem a hmem', hok'⟩

theorem startSwapDealer_acts {orderId : OrderId} {sendAsset : AssetId} {data : Data}
    (hpresent : (account args data.log).present = some (.startSwapDealer orderId sendAsset)) :
    Acts world args data.book (startSwapDealer world orderId sendAsset) data := by
  refine Leads.get (Leads.ofPanic .refl fun inputs hinputs => ?_)
  refine Leads.ofPanic .refl fun recvAddr _ => Leads.ofPanic .refl fun changeAddr _ => ?_
  have hcoins : ∀ input ∈ inputs, ∃ coin ∈ data.utxos.values, isSwapCoin sendAsset coin = true ∧
      psetInput coin = .ok input := by
    intro input hmem
    obtain ⟨coin, hcoin, hok⟩ := exists_of_mem_mapM hinputs hmem
    obtain ⟨hvalue, hswap⟩ := List.mem_filter.mp hcoin
    exact ⟨coin, hvalue, hswap, hok⟩
  have hstart : ∀ res, (∃ e, res = some (.error e)) ∨ res = some (.ok .startSwapDealer) →
      Act world args data.book
        { data.book with
          swaps := Function.update data.instantSwaps orderId (some sendAsset)
          log := data.log ++
            [.request (.startSwapDealer orderId inputs recvAddr changeAddr) res] } :=
    fun res hres => .start hpresent hcoins hres
  refine Leads.request ?_ (fun e => .single (hstart _ (.inl ⟨e, rfl⟩))) ?_
  · intro res hres
    refine .single (.act ?_ fun ha => ?_)
    · intro a
      rcases res with _ | e | resp
      · rfl
      · exact absurd rfl (hres.1 e)
      · cases resp with
        | startSwapDealer => exact absurd rfl (hres.2 .startSwapDealer () rfl)
        | _ => rfl
    · refine ⟨sendAsset, hpresent, ?_⟩
      rw [← ha.coins]
      exact hcoins
  · intro resp a hvalue
    split at hvalue
    · next heq =>
        subst heq
        exact .single (hstart _ (.inr rfl))
    · cases hvalue

theorem signSlot_only {log : List Event} {utxos : Utxos} {sendAsset : AssetId}
    {slots : List PsetSlot} {index : Nat} {slot signed : PsetSlot}
    (h : signSlot world log utxos sendAsset slots index slot = .ok signed) :
    SignsOnly utxos sendAsset slot signed := by
  simp only [signSlot] at h
  split at h
  · cases h
    exact ⟨rfl, .inl rfl⟩
  · next utxo hfound =>
      obtain ⟨privKey, _, h⟩ := bind_returns h
      cases h
      obtain ⟨hutxo, hswap⟩ := Option.filter_eq_some_iff.mp hfound
      exact ⟨rfl, .inr ⟨utxo, hutxo, hswap⟩⟩

theorem signSlots_only {log : List Event} {utxos : Utxos} {sendAsset : AssetId}
    {slots signed : List PsetSlot}
    (h : (slots.zipIdx.mapM fun slot => signSlot world log utxos sendAsset slots slot.2 slot.1) =
      .ok signed) : List.Forall₂ (SignsOnly utxos sendAsset) slots signed := by
  have hall : List.Forall₂ (fun slot signed => SignsOnly utxos sendAsset slot.1 signed)
      slots.zipIdx signed := (mapM_returns h).imp fun slot signed hsigned => signSlot_only hsigned
  have hslots := List.forall₂_map_left_iff.mpr hall
  rwa [List.zipIdx_map_fst] at hslots

theorem blindedSwapDealer_acts {orderId : OrderId} {pset : String} {data : Data}
    (hpresent : (account args data.log).present = some (.blindedSwapDealer orderId pset)) :
    Acts world args data.book (blindedSwapDealer world orderId pset) data := by
  refine Leads.get (Leads.ofPanic .refl fun slots hslots => ?_)
  refine Leads.ofPanic .refl fun sendAsset hswap => Leads.ofPanic .refl fun signed hsigned => ?_
  have hsent : ∀ res, Act world args data.book
      (data.emit (.request (.signedSwapDealer orderId (world.encodePset signed)) res)).book := by
    intro res
    refine .act (fun _ => rfl) fun ha => ?_
    refine ⟨pset, sendAsset, slots, signed, hpresent, ?_, OrderDealer.expectOk_ok hslots, rfl, ?_⟩
    · rw [← ha.swaps]
      exact expect_ok hswap
    · rw [← ha.coins]
      exact signSlots_only hsigned
  exact Leads.request (fun res _ => .single (hsent res)) (fun e => .single (hsent _))
    fun resp _ _ => .single (hsent _)

theorem processConnected_acts : Follows Data.book (Act world args) (processConnected world args) := by
  have hkey : ∀ apiKey, Follows Data.book (Act world args) (do
      let res ← sendRequest world (.loginDealer apiKey) fun resp =>
        if resp = .loginDealer then some () else none
      ofPanic (expectOk res "dealer login failed")) := by
    intro apiKey data
    have hnote : ∀ res, Act world args data.book (data.emit (.request (.loginDealer apiKey) res)).book :=
      fun res => .quiet (fun _ => rfl) trivial
    refine Leads.request (fun res _ => .single (hnote res)) (fun e => .single (hnote _))
      fun resp _ _ => .single (hnote _)
  have hlogin : ∀ (data : Data) res, Act world args data.book (data.emit (.request .login res)).book :=
    fun data res => .quiet (fun _ => rfl) trivial
  intro data
  refine Leads.modify (Leads.commit (.single (.quiet (fun _ => rfl) trivial)) ?_)
  refine Leads.call (Follows.forM hkey _) .refl fun _ data1 _ hreach => Leads.commit hreach ?_
  refine Leads.request ?_ (fun e => .single (.quiet (fun _ => rfl) trivial)) fun resp list hlist => ?_
  · intro res hres
    refine .single (.quiet (fun _ => ?_) trivial)
    rcases res with _ | e | resp
    · rfl
    · rfl
    · cases resp with
      | assets list => exact absurd rfl (hres.2 (.assets list) list rfl)
      | _ => rfl
  cases resp with
  | assets list' =>
      cases hlist
      refine Leads.ofReturned ?_
      have hload : Act world args data1.book
          { data1.book with
            assets := list
            log := data1.log ++ [.request .assets (some (.ok (.assets list)))] } := .load
      refine Leads.bind (.single hload) fun _ data2 _ hreach => Leads.commit hreach ?_
      refine Leads.request (fun res _ => .single (hlogin _ res)) (fun e => .single (hlogin _ _))
        fun resp login _ => ?_
      refine Leads.commit (.single (hlogin _ _)) (Leads.ofPanic .refl fun _ _ => ?_)
      refine Leads.request ?_ (fun e => .single (.quiet (fun _ => rfl) trivial))
        fun resp _ hstatus => ?_
      · intro res hres
        refine .single (.quiet (fun _ => ?_) trivial)
        rcases res with _ | e | resp
        · rfl
        · rfl
        · cases resp with
          | serverStatus => exact absurd rfl (hres.2 .serverStatus () rfl)
          | _ => rfl
      · split at hstatus
        · next heq =>
            subst heq
            exact .tail (.single .online) (.quiet (fun _ => rfl) trivial)
        · cases hstatus
  | _ => cases hlist

theorem processModuleConnected_acts :
    Follows Data.book (Act world args) (processModuleConnected world args) := by
  have hemit : ∀ (data : Data) e, (∀ a : Account, a.record args e = a) →
      Fair world args data.log e →
      ReflTransGen (Act world args) data.book (data.emit e).book :=
    fun _ _ hrecord hfair => .single (.quiet hrecord hfair)
  intro data
  refine Leads.call (balance_acts (by simp)) .refl fun _ data1 _ hreach => ?_
  refine Leads.commit hreach (Leads.modify (Leads.commit (hemit _ _ (fun _ => rfl) trivial) ?_))
  refine Leads.modify (Leads.commit (hemit _ _ (fun _ => rfl) trivial) ?_)
  have hround : ∀ bookName, Follows Data.book (Act world args)
      (emit (.toModule (.subscribe bookName))) :=
    fun bookName data => hemit data _ (fun _ => rfl) trivial
  refine Leads.call (Follows.forM hround _) .refl fun _ data2 _ hreach => ?_
  exact hreach.trans (hemit data2 _ (fun _ => rfl) trivial)

theorem processModuleDisconnected_acts :
    Follows Data.book (Act world args) (processModuleDisconnected world args) := by
  intro data
  refine Leads.call (balance_acts (by simp)) .refl fun _ data1 _ hreach => ?_
  refine Leads.commit hreach (Leads.modify (Leads.commit (.single (.quiet (fun _ => rfl) trivial)) ?_))
  exact .single .withdraw

theorem processBookUpdate_acts {now : Nat} {bookName : String} {pair : PricePair} {data : Data}
    (hpresent : (account args data.log).present = some (.bookUpdate bookName pair)) :
    Acts world args data.book (processBookUpdate args now bookName pair) data := by
  refine Leads.ofPanic .refl fun ticker hticker => Leads.get (Leads.modify (Leads.modify ?_))
  refine Leads.commit (.single (.price hpresent (expect_ok hticker))) ?_
  split
  · exact .single (.quiet (fun _ => rfl) trivial)
  · exact .refl

theorem processWalletUpdate_acts (currency : String) (amount : Double) :
    Follows Data.book (Act world args) (processWalletUpdate world args currency amount) := by
  intro data
  refine Leads.get ?_
  dsimp only
  split
  · have hround : ∀ ticker, Follows Data.book (Act world args)
        (emit (.toDealer (.limitBalance ticker true (amount.scale bfReserve)))) :=
      fun ticker data => .single (.quiet (fun _ => rfl) trivial)
    refine Leads.call (Follows.forM hround _) .refl fun _ data1 _ hreach => ?_
    refine Leads.commit hreach (Leads.call (balance_acts (by simp)) .refl fun _ data2 _ hreach => ?_)
    refine Leads.commit hreach ?_
    split
    · exact .single (.quiet (fun _ => rfl) trivial)
    · exact .refl
  · exact .refl

theorem reloadUtxo_acts {now : Nat} {res : Except String (List WalletCoin)} {data : Data} :
    Acts world args data.book (reloadUtxo world args res)
      (data.emit (.received now (.reloadUtxo res))) := by
  cases res with
  | error e => exact .single (.receive fun _ => rfl)
  | ok unspent =>
      refine Leads.ofReturned (Leads.get ?_)
      have hreload : Act world args data.book
          { data.book with
            coins := reloadUtxos data.utxos (unspent.map WalletCoin.item)
            log := data.log ++ [.received now (.reloadUtxo (.ok unspent))] } := .reload
      refine Leads.bindEnds (fun e data1 hexec => nomatch hexec) fun _ data1 hexec => ?_
      cases hexec
      dsimp only
      split
      · exact .tail (.single hreload) (.quiet (fun _ => rfl) trivial)
      · exact .single hreload

theorem proposeBalancing_acts (now : Nat) (b : TimerBalances) :
    Follows Data.book (Act world args) (proposeBalancing world args now b) := by
  have hround : ∀ req, Follows Data.book (Act world args) (emit (.posted (.cli req))) :=
    fun req data => .single (.quiet (fun _ => rfl) trivial)
  intro data
  refine Leads.get ?_
  cases data.modulePrices .usdt with
  | none => exact .refl
  | some price =>
      dsimp only
      split
      · exact Follows.forM hround _ data
      · exact .refl

theorem expirePrice_acts (now : Nat) (ticker : DealerTicker) :
    Follows Data.book (Act world args) (expirePrice args now ticker) := by
  intro data
  refine Leads.get ?_
  cases data.modulePrices ticker with
  | none => exact .refl
  | some price =>
      dsimp only
      split
      · refine Leads.modify (Leads.commit (.single (.quiet (fun _ => rfl) trivial)) ?_)
        exact .single .expire
      · exact .refl

theorem reportExchangeBalances_acts :
    Follows Data.book (Act world args) reportExchangeBalances := by
  intro data
  refine Leads.get ?_
  split
  · exact .single (.quiet (fun _ => rfl) trivial)
  · exact .refl

theorem reportProfits_acts (b : TimerBalances) :
    Follows Data.book (Act world args) (reportProfits world args b) := by
  intro data
  refine Leads.get ?_
  cases data.profitReports with
  | none => exact .refl
  | some report =>
      dsimp only
      split
      · exact .refl
      · split
        · exact .single (.quiet (fun _ => rfl) trivial)
        · exact .refl

theorem dropOrder_acts (cid : Int) : Follows Data.book (Act world args) (dropOrder cid) :=
  fun _ => .single (.quiet (fun _ => rfl) trivial)

theorem processTimer_acts (now : Nat) :
    Follows Data.book (Act world args) (processTimer world args now) := by
  intro data
  refine Leads.get (Leads.ofPanic .refl fun expired _ => Leads.modify ?_)
  refine Leads.call (proposeBalancing_acts now _) .refl fun _ data1 _ hreach => ?_
  refine Leads.commit hreach ?_
  refine Leads.call (Follows.forM (expirePrice_acts now) _) .refl fun _ data2 _ hreach => ?_
  refine Leads.commit hreach ?_
  refine Leads.call reportExchangeBalances_acts .refl fun _ data3 _ hreach => ?_
  refine Leads.commit hreach ?_
  refine Leads.call (balance_acts (by simp)) .refl fun _ data4 _ hreach => ?_
  refine Leads.commit hreach (Leads.get ?_)
  have hrest : Follows Data.book (Act world args) (do
      reportProfits world args (timerBalances args data.walletBalances
        data.balancing.exchangeBalances)
      let data ← get
      (expiredOrders now data.pendingOrders).forM dropOrder) := by
    intro data5
    refine Leads.call (reportProfits_acts _) .refl fun _ data6 _ hreach => ?_
    exact Leads.commit hreach (Leads.get (Follows.forM dropOrder_acts _ data6))
  split
  · refine Leads.modify (Leads.commit (.single (.quiet (fun _ => rfl) trivial)) ?_)
    exact Leads.modify (Leads.commit .refl (hrest _))
  · exact hrest data4

theorem account_present (log : List Event) (now : Nat) (msg : Msg) :
    (account args (log ++ [.received now msg])).present = some msg := by
  rw [account_concat]
  rfl

/-- The messages that may tell of a swap. -/
def Msg.isSwap : Msg → Bool
  | .swapDone _ => true
  | .dealer (.swap _) => true
  | _ => false

/-- **ONE MESSAGE**, if it tells of no swap: what it does to the trades is a run of acts. -/
theorem processMsg_acts {now : Nat} {msg : Msg} {data : Data} (hmsg : msg.isSwap = false) :
    Acts world args data.book (processMsg world args now msg) (data.emit (.received now msg)) := by
  have hreceive : ∀ {msg : Msg}, (∀ a : Account, a.receive args msg = a) →
      ReflTransGen (Act world args) data.book (data.emit (.received now msg)).book :=
    fun h => .single (.receive h)
  have hbalance : ∀ {msg : Msg} {msg' : Dealer.Msg}, (∀ a : Account, a.receive args msg = a) →
      (∀ list, msg' ≠ .connected list) →
      Acts world args data.book (balance world args msg') (data.emit (.received now msg)) :=
    fun h h' => Leads.commit (hreceive h) (balance_acts h' _)
  cases msg with
  | timer => exact Leads.commit (hreceive fun _ => rfl) (processTimer_acts now _)
  | connected => exact Leads.commit (hreceive fun _ => rfl) (processConnected_acts _)
  | disconnected => exact .tail (.single .offline) (.quiet (fun _ => rfl) trivial)
  | serverStatus => exact hreceive fun _ => rfl
  | orderCreated order =>
      simp only [processMsg]
      split
      · exact (hreceive fun _ => rfl).tail (.quiet (fun _ => rfl) trivial)
      · exact hreceive fun _ => rfl
  | startSwapDealer orderId sendAsset =>
      exact Leads.commit (hreceive fun _ => rfl) (startSwapDealer_acts (account_present _ _ _))
  | blindedSwapDealer orderId pset =>
      exact Leads.commit (hreceive fun _ => rfl) (blindedSwapDealer_acts (account_present _ _ _))
  | swapDone swap => cases hmsg
  | moduleConnected => exact Leads.commit (hreceive fun _ => rfl) (processModuleConnected_acts _)
  | moduleDisconnected =>
      exact Leads.commit (hreceive fun _ => rfl) (processModuleDisconnected_acts _)
  | bookUpdate bookName pair =>
      exact Leads.commit (hreceive fun _ => rfl) (processBookUpdate_acts (account_present _ _ _))
  | orderConfirm cid => exact hreceive fun _ => rfl
  | walletUpdate currency amount =>
      exact Leads.commit (hreceive fun _ => rfl) (processWalletUpdate_acts currency amount _)
  | withdraw withdrawId => exact hbalance (fun _ => rfl) (by simp)
  | movements msg => exact hbalance (fun _ => rfl) (by simp)
  | transfer success => exact hbalance (fun _ => rfl) (by simp)
  | moduleError error => exact (hreceive fun _ => rfl).tail (.quiet (fun _ => rfl) trivial)
  | reloadUtxo res => exact reloadUtxo_acts
  | cli req => exact hbalance (fun _ => rfl) (by simp)
  | checkExchange => exact hbalance (fun _ => rfl) (by simp)
  | dealer msg =>
      cases msg with
      | swap swap => cases hmsg
      | walletBalanceUpdated => exact (hreceive fun _ => rfl).tail (.quiet (fun _ => rfl) trivial)
  | exit => exact hreceive fun _ => rfl
  | other => exact hreceive fun _ => rfl

/-- A swap of the order dealer is hedged, or the process stops. -/
theorem processSwap_cases (now : Nat) (swap : SwapSucceed) (data : Data) :
    Acts world args data.book (processMsg world args now (.dealer (.swap swap)))
      (data.emit (.received now (.dealer (.swap swap)))) ∨
    ∃ p data', exec (processMsg world args now (.dealer (.swap swap)))
        (data.emit (.received now (.dealer (.swap swap)))) = (.error (.panic p), data') ∧
      data'.log = data.log ++ [.received now (.dealer (.swap swap))] := by
  obtain ⟨es, data', hexec, hbook, hcovers⟩ | ⟨p, data', hexec, hbook⟩ :=
    hedgeOrder_cases world args swap.ticker swap.bitcoinAmount swap.sendBitcoins
      (data.emit (.received now (.dealer (.swap swap))))
  · left
    show ReflTransGen _ _ (exec (hedgeOrder world args swap.ticker swap.bitcoinAmount
      swap.sendBitcoins) (data.emit (.received now (.dealer (.swap swap))))).2.book
    rw [hexec]
    dsimp only
    rw [hbook]
    exact .single (.swap hcovers)
  · exact .inr ⟨p, data', hexec, congrArg Book.log hbook⟩

/-- The process after an instant swap has ended. -/
def Data.close (data : Data) (now : Nat) (swap : SwapDoneNotification) : Data :=
  { data with
    instantSwaps := Function.update data.instantSwaps swap.orderId none
    log := data.log ++ [.received now (.swapDone swap)] }

/-- The rest of `SwapDone`, for a swap that was made. -/
def hedgeSwap (world : World) (args : Args) (swap : SwapDoneNotification) (assets : List Asset) :
    Handler Unit := do
  let asset ← ofPanic (expect
    (assets.find? fun asset => asset.assetId == (swap.amounts args.policyAsset).1)
    "asset must be known")
  let ticker ← ofPanic (expect (dealerTickers.find? fun ticker => ticker.text == asset.ticker)
    "dealer ticker must known")
  hedgeOrder world args ticker (swap.amounts args.policyAsset).2 (swap.sendBitcoins args.policyAsset)

theorem exec_swapDone {now : Nat} {swap : SwapDoneNotification} {data : Data} {sendAsset : AssetId}
    (hswap : data.instantSwaps swap.orderId = some sendAsset) :
    exec (swapDone world args swap) (data.emit (.received now (.swapDone swap))) =
      if swap.status = .success then
        exec (do
          let _ ← ofPanic (expect swap.txid "called `Option::unwrap()` on a `None` value")
          hedgeSwap world args swap data.balancing.assets) (data.close now swap)
      else (.ok (), data.close now swap) := by
  simp only [swapDone]
  rw [exec_get_bind]
  show exec (ofPanic (expect (data.instantSwaps swap.orderId) _) >>= _) _ = _
  rw [hswap, expect_some, exec_ofPanic_ok_bind rfl, exec_modify_bind]
  split
  · rfl
  · rfl

variable (world args) in
theorem hedgeSwap_cases (swap : SwapDoneNotification) (assets : List Asset) (data : Data) :
    (∃ es data', exec (hedgeSwap world args swap assets) data = (.ok (), data') ∧
      data'.book = { data.book with log := data.log ++ es } ∧
      Covers args (swap.hedge args assets) es) ∨
    ∃ p data', exec (hedgeSwap world args swap assets) data = (.error (.panic p), data') ∧
      data'.book = data.book := by
  simp only [hedgeSwap]
  cases hasset : assets.find? fun asset => asset.assetId == (swap.amounts args.policyAsset).1 with
  | none => exact .inr ⟨_, _, rfl, rfl⟩
  | some asset =>
      rw [expect_some, exec_ofPanic_ok_bind rfl]
      cases hticker : dealerTickers.find? fun ticker => ticker.text == asset.ticker with
      | none => exact .inr ⟨_, _, rfl, rfl⟩
      | some ticker =>
          rw [expect_some, exec_ofPanic_ok_bind rfl]
          have hhedge : swap.hedge args assets = ⟨some ticker, (swap.amounts args.policyAsset).2,
              swap.sendBitcoins args.policyAsset⟩ := by
            simp only [SwapDoneNotification.hedge, hasset, Option.bind_some, hticker]
          rw [hhedge]
          exact hedgeOrder_cases world args _ _ _ _

/-- An instant swap that was made is hedged, or the process stops. -/
theorem swapDone_cases (now : Nat) (swap : SwapDoneNotification) (data : Data) :
    Acts world args data.book (processMsg world args now (.swapDone swap))
      (data.emit (.received now (.swapDone swap))) ∨
    ∃ p data', exec (processMsg world args now (.swapDone swap))
        (data.emit (.received now (.swapDone swap))) = (.error (.panic p), data') ∧
      data'.log = data.log ++ [.received now (.swapDone swap)] := by
  simp only [processMsg, Leads]
  cases hswap : data.instantSwaps swap.orderId with
  | none =>
      refine .inr ⟨⟨"order not found"⟩, data.emit (.received now (.swapDone swap)), ?_, rfl⟩
      simp only [swapDone]
      rw [exec_get_bind]
      show exec (ofPanic (expect (data.instantSwaps swap.orderId) _) >>= _) _ = _
      rw [hswap]
      rfl
  | some sendAsset =>
      have hfail : (data.instantSwaps swap.orderId).isNone = true ∨ swap.status ≠ .success ∨
          swap.txid = none → Act world args data.book (data.close now swap).book :=
        fun hnot => .fail hnot
      rw [exec_swapDone hswap]
      split
      · next hsuccess =>
          cases htxid : swap.txid with
          | none => exact .inr ⟨_, _, rfl, rfl⟩
          | some txid =>
              rw [expect_some, exec_ofPanic_ok_bind rfl]
              obtain ⟨es, data', hexec, hbook, hcovers⟩ | ⟨p, data', hexec, hbook⟩ :=
                hedgeSwap_cases world args swap data.balancing.assets
                  (data.close now swap)
              · left
                rw [hexec]
                dsimp only
                rw [hbook]
                refine .single (.done ?_ hsuccess ?_ hcovers)
                · exact Option.isSome_iff_exists.mpr ⟨sendAsset, hswap⟩
                · exact Option.isSome_iff_exists.mpr ⟨txid, htxid⟩
              · exact .inr ⟨p, data', hexec, congrArg Book.log hbook⟩
      · next hfailed => exact .inl (.single (hfail (.inr (.inl hfailed))))

variable (world args) in
/-- A turn of the loop: a run of acts, or the process stops at a swap. -/
theorem processLoop_cases (now : Nat) (msg : Msg) (data : Data) :
    Acts world args data.book (processLoop world args now msg) data ∨
    ∃ b p data', ReflTransGen (Act world args) data.book b ∧
      exec (processLoop world args now msg) data = (.error (.panic p), data') ∧
      data'.log = b.log ++ [.received now msg] := by
  have hbroadcast : Follows Data.book (Act world args)
      (sortedTickers.forM (broadcastPrice world args now)) :=
    Follows.forM (broadcastPrice_acts now) _
  have hreach := hbroadcast data
  simp only [processLoop, Leads] at hreach ⊢
  rw [exec_bind]
  rcases hexec : exec (sortedTickers.forM (broadcastPrice world args now)) data with ⟨e | _, data1⟩
  · rw [hexec] at hreach
    exact .inl hreach
  · rw [hexec] at hreach
    have hturn : Acts world args data1.book (processMsg world args now msg)
          (data1.emit (.received now msg)) ∨
        ∃ p data', exec (processMsg world args now msg) (data1.emit (.received now msg)) =
          (.error (.panic p), data') ∧ data'.log = data1.log ++ [.received now msg] := by
      cases msg with
      | swapDone swap => exact swapDone_cases now swap data1
      | dealer msg =>
          cases msg with
          | swap swap => exact processSwap_cases now swap data1
          | walletBalanceUpdated => exact .inl (processMsg_acts rfl)
      | _ => exact .inl (processMsg_acts rfl)
    rcases hturn with hacts | ⟨p, data', hpanic, hlog⟩
    · exact .inl (hreach.trans hacts)
    · exact .inr ⟨data1.book, p, data', hreach, hpanic, hlog⟩

end Handlers

/-! ## The runs -/

section Runs

variable {world : World} {args : Args}

/-- The orders are those of the swaps that are worth one, in their order; all but the one
    at which the process has stopped. -/
structure System.Sound (world : World) (args : Args) (s : System) : Prop where
  fair : Justified (Fair world args) s.data.log
  tables : s.stopped = false → s.data.book.Inv world args
  hedged : ∃ done late, (account args s.data.log).hedges.filter Hedge.isBig = done ++ late ∧
    List.Forall₂ (Hedges args) done (account args s.data.log).submits ∧ late.length ≤ 1 ∧
    (s.stopped = false → late = [])

theorem Book.Inv.sound {s : System} (h : s.data.book.Inv world args) : s.Sound world args where
  fair := h.fair
  tables := fun _ => h
  hedged := ⟨_, [], (List.append_nil _).symm, h.hedged, Nat.zero_le 1, fun _ => rfl⟩

variable (args) in
/-- A message tells of one swap at most. -/
theorem receive_hedges (a : Account) (now : Nat) (msg : Msg) :
    ∃ late, (a.record args (.received now msg)).hedges.filter Hedge.isBig =
      a.hedges.filter Hedge.isBig ++ late ∧ late.length ≤ 1 ∧
      (a.record args (.received now msg)).submits = a.submits := by
  have hone : ∀ l : List Hedge, l.length ≤ 1 → (l.filter Hedge.isBig).length ≤ 1 := fun l hl =>
    (List.length_filter_le _ _).trans hl
  have hnone : a.hedges.filter Hedge.isBig = a.hedges.filter Hedge.isBig ++ [] :=
    (List.append_nil _).symm
  simp only [Account.record]
  fun_cases Account.receive args a msg with
  | case1 => exact ⟨[], hnone, Nat.zero_le 1, rfl⟩
  | case2 unspent => exact ⟨[], hnone, Nat.zero_le 1, rfl⟩
  | case3 swap =>
      refine ⟨_, List.filter_append _ _, hone _ ?_, rfl⟩
      split
      · exact Nat.le_refl 1
      · exact Nat.zero_le 1
  | case4 swap => exact ⟨_, List.filter_append _ _, hone _ (Nat.le_refl 1), rfl⟩
  | case5 => exact ⟨[], hnone, Nat.zero_le 1, rfl⟩

/-- A process that stops at a swap has hedged all the earlier ones. -/
theorem sound_stopped {b : Book} (h : b.Inv world args) {data : Data} {now : Nat} {msg : Msg}
    (hlog : data.log = b.log ++ [.received now msg]) : System.Sound world args ⟨data, true⟩ := by
  obtain ⟨late, hhedges, hlate, hsubmits⟩ := receive_hedges args (account args b.log) now msg
  refine ⟨?_, fun hrun => absurd hrun Bool.noConfusion,
    (account args b.log).hedges.filter Hedge.isBig, late, ?_, ?_, hlate,
    fun hrun => absurd hrun Bool.noConfusion⟩
  · dsimp only
    rw [hlog]
    exact h.fair.concat trivial
  · dsimp only
    rw [hlog, account_concat]
    exact hhedges
  · dsimp only
    rw [hlog, account_concat, hsubmits]
    exact h.hedged

theorem load_inv (world : World) (args : Args) {balancing : Dealer.Data} {log : List Event}
    (hassets : balancing.assets = []) (hfair : Justified (Fair world args) log)
    (haccount : account args log = Account.start) :
    (load world balancing log).book.Inv world args := by
  refine ⟨?_, fun _ _ => rfl, hfair, ?_⟩
  · rw [show (load world balancing log).book.log = log from rfl, haccount]
    exact ⟨hassets, fun _ => rfl, rfl, rfl, rfl⟩
  · rw [show (load world balancing log).book.log = log from rfl, haccount]
    exact .nil

theorem step_sound {s : System} (h : s.Sound world args) (i : Input) :
    (step world args s i).Sound world args := by
  cases i with
  | message msg =>
      simp only [step]
      split
      · exact h
      · next hrun =>
          have hinv := h.tables (Bool.eq_false_iff.mpr hrun)
          rcases processLoop_cases world args (world.now s.data.log) msg s.data
            with hacts | ⟨b, p, data', hreach, hexec, hlog⟩
          · have hinv' := hinv.reach hacts
            refine Book.Inv.sound ?_
            simp only [finish]
            split <;> next hexec =>
              rw [hexec] at hinv'
              exact hinv'
          · simp only [finish, hexec]
            exact sound_stopped (hinv.reach hreach) hlog
  | restart =>
      refine (load_inv world args rfl (h.fair.concat (e := .restarted) trivial) ?_).sound
      rw [account_concat]
      rfl

theorem reaches_sound {s : System} (h : Reaches world args s) : s.Sound world args := by
  refine h.invariant ?_ ?_
  · rintro s rfl
    exact (load_inv world args rfl (justified_nil _) rfl).sound
  · intro s i _ hsound _
    exact step_sound hsound i

end Runs

/-! ## Results -/

section Results

variable {world : World} {args : Args}

/-- **EACH SWAP IS HEDGED ONCE**: since the process was started, the orders on the exchange
    are those of the swaps that are worth one, one each and in their order, with the amount
    and the book of the swap.  Only a process that has stopped may be one order short. -/
theorem swaps_hedged_once {s : System} (h : Reaches world args s) :
    ∃ done late, (account args s.data.log).hedges.filter Hedge.isBig = done ++ late ∧
      List.Forall₂ (Hedges args) done (account args s.data.log).submits ∧ late.length ≤ 1 ∧
      (s.stopped = false → late = []) :=
  (reaches_sound h).hedged

/-- **FAIR ACTS**: a price is told as the exchange has just published it and broadcast, with
    its interest, while it is the last one told; an instant swap is offered the coins of the
    promised asset, and signatures go to such coins of a swap that is open. -/
theorem acts_fair {s : System} (h : Reaches world args s) :
    Justified (Fair world args) s.data.log :=
  (reaches_sound h).fair

/-- The order dealer was told the prices that the process holds. -/
theorem told_prices {s : System} (h : Reaches world args s) (hrun : s.stopped = false)
    (ticker : DealerTicker) :
    (s.data.modulePrices ticker).map Price.pair = (account args s.data.log).told ticker :=
  ((reaches_sound h).tables hrun).agrees.prices ticker

end Results

namespace Sample

def args : Args where
  mainnet := true
  bitfinexKey := "key"
  bitfinexSecret := "secret"
  bitfinexWithdrawAddress := "withdraw"
  bitfinexFundAddress := "fund"
  bitfinexCurrencyBtc := "BTC"
  bitfinexCurrencyLbtc := "LBT"
  bitfinexCurrencyUsdt := "UST"
  apiKey := some "api"
  policyAsset := 1
  assetUsdt := 2
  assetEurx := 3
  bitfinexBooknameUsdt := "tBTCUST"
  bitfinexBooknameEurx := "tBTCEUR"
  bitfinexCurrencyEur := "EUR"
  balancingEnabled := false

/-- A server that accepts everything. -/
def world : World where
  balancing := ⟨fun _ => .error "not used", fun _ => 0⟩
  reply _ req := some (.ok (match req with
    | .loginDealer _ => .loginDealer
    | .assets => .assets [OrderDealer.Sample.asset 1 .lbtc, OrderDealer.Sample.asset 2 .usdt]
    | .login => .login ⟨0, []⟩
    | .serverStatus => .serverStatus
    | .priceUpdateBroadcast _ _ => .priceUpdateBroadcast
    | .broadcastPriceStream _ _ _ => .broadcastPriceStream
    | .startSwapDealer _ _ _ _ => .startSwapDealer
    | .signedSwapDealer _ _ => .signedSwapDealer))
  newAddress _ _ := .ok "address"
  now _ := 0
  timestampNow log := log.length
  systemTime _ := 0
  oddBalancing _ := .none
  decodePset _ := .ok [⟨(100, 0), none, none⟩, ⟨(101, 0), none, none⟩]
  encodePset _ := "signed"
  dumpPrivKey _ _ := .ok "key"
  signInput _ _ key := [key]
  pushScript script := script

/-- An instant swap of 0.1 bitcoins, and a small swap of the order dealer. -/
def inputs : List Input :=
  [.message .moduleConnected, .message (.bookUpdate "tBTCUST" ⟨.fin 29000, .fin 30000⟩),
    .message .connected, .message (.reloadUtxo (.ok [⟨OrderDealer.Sample.coin, 1⟩])),
    .message (.startSwapDealer 5 1), .message (.blindedSwapDealer 5 "pset"),
    .message (.swapDone ⟨5, .success, some 77, 2, 300000000000, 1, 10000000⟩),
    .message (.dealer (.swap ⟨55, .usdt, 10000, false⟩))]

end Sample

/-- The instant swap is hedged, with the fee of the exchange; the small swap is not. -/
theorem instant_swap_hedged :
    let s := run (step Sample.world Sample.args) (first Sample.world) Sample.inputs
    (account Sample.args s.data.log).submits = [(10017029 / 100000000, "tBTCUST")] ∧
      ∃ done late, (account Sample.args s.data.log).hedges.filter Hedge.isBig = done ++ late ∧
        List.Forall₂ (Hedges Sample.args) done (account Sample.args s.data.log).submits ∧
        late.length ≤ 1 ∧ (s.stopped = false → late = []) := by
  have hstart : Reaches Sample.world Sample.args (first Sample.world) := .start rfl
  refine ⟨by decide +kernel, swaps_hedged_once (hstart.run Sample.inputs ?_)⟩
  decide +kernel

/-- The instant swap is offered one coin, and signed. -/
theorem instant_swap_signed :
    let s := run (step Sample.world Sample.args) (first Sample.world) Sample.inputs
    (s.data.log.filterMap fun
      | .request (.signedSwapDealer orderId pset) _ => some (orderId, pset)
      | _ => none) = [(5, "signed")] ∧
      Justified (Fair Sample.world Sample.args) s.data.log := by
  have hstart : Reaches Sample.world Sample.args (first Sample.world) := .start rfl
  refine ⟨by decide +kernel, acts_fair (hstart.run Sample.inputs ?_)⟩
  decide +kernel

end Exchange
