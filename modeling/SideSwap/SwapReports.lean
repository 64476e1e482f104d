import SideSwap.DealerTrading
import SideSwap.LiveOrders

/-! # What the order dealer signs, takes and reports

    The history of a worker says what the market looks like: the assets, the
    prices it was last told, the orders of others, those it has taken, and the
    orders it has signed for and not seen completed.  `account` reads all this
    from the history, and the worker's own tables agree with it.

    From that agreement: a completed swap is reported once and with the amounts
    that were signed, and no order is signed or taken unless it pays the
    dealer's interest over the last price the dealer was told. -/

namespace OrderDealer

open Api Program Pricing Transition History Relation

/-! ## The history -/

/-- A completed swap: its transaction, the signed terms, and the assets then known. -/
structure Completion where
  txid : Txid
  details : Details
  assets : List Asset

/-- What a history amounts to. -/
structure Account where
  assets : List Asset
  told : DealerTicker → Option PricePair
  listed : OrderId → Option OrderCreatedNotification
  taken : OrderId → Bool
  /-- the last message that asked for a signature -/
  signing : Option SignNotification
  signed : OrderId → Option Details
  completions : List Completion

/-- The orders of others after a list of them was received. -/
def listOrders (listed : OrderId → Option OrderCreatedNotification)
    (list : List OrderCreatedNotification) : OrderId → Option OrderCreatedNotification :=
  list.foldl (fun listed order => Function.update listed order.orderId (some order)) listed

/-- A completion, if a transaction came of a signed order. -/
def Account.complete (a : Account) (msg : CompleteNotification) : Account :=
  { a with
    signed := Function.update a.signed msg.orderId none
    completions := a.completions ++ match msg.txid, a.signed msg.orderId with
      | some txid, some details => [⟨txid, details, a.assets⟩]
      | _, _ => [] }

/-- What is told about prices. -/
def Account.tell (a : Account) : To → Account
  | .price ticker price => { a with told := Function.update a.told ticker price }
  | .limitBalance _ _ _ => a
  | .resetPrices => { a with told := fun _ => none }

/-- The account after a message. -/
def Account.receive (a : Account) : TradeMsg → Account
  | .disconnected => { a with listed := fun _ => none, taken := fun _ => false }
  | .orderCreated order =>
      if order.own.isNone then { a with listed := Function.update a.listed order.orderId (some order) }
      else a
  | .orderRemoved orderId => { a with listed := Function.update a.listed orderId none }
  | .sign order => { a with signing := some order }
  | .complete msg => a.complete msg
  | .msgTo msg => a.tell msg
  | _ => a

/-- The account after an event. -/
def Account.record (a : Account) : TradeEvent → Account
  | .received msg => a.receive msg
  | .request .assets (some (.ok (.assets list))) => { a with assets := list }
  | .request (.subscribe _) (some (.ok (.subscribe list))) =>
      { a with listed := listOrders a.listed list }
  | .request (.psetTaker req) (some (.ok .psetTaker)) =>
      { a with taken := Function.update a.taken req.orderId true }
  | .request (.sign req) (some (.ok .sign)) =>
      { a with signed := Function.update a.signed req.orderId (a.signing.map SignNotification.details) }
  | _ => a

/-- The account of a history. -/
def account (log : List TradeEvent) : Account :=
  log.foldl Account.record
    ⟨[], fun _ => none, fun _ => none, fun _ => false, none, fun _ => none, []⟩

theorem account_concat (log : List TradeEvent) (e : TradeEvent) :
    account (log ++ [e]) = (account log).record e := by
  simp [account]

/-- The swap of a report. -/
def TradeEvent.swap? : TradeEvent → Option SwapSucceed
  | .reported (.swap swap) => some swap
  | _ => none

/-- The reported swaps. -/
def reports (log : List TradeEvent) : List SwapSucceed := log.filterMap TradeEvent.swap?

/-- A report tells a completion: the amount is what the dealer pays with the fee, or
    gets without it. -/
structure Reports (c : Completion) (swap : SwapSucceed) : Prop where
  txid : swap.txid = c.txid
  sendBitcoins : swap.sendBitcoins = c.details.sendBitcoins
  amount : swap.bitcoinAmount = MachineInt.i64 (
    if c.details.sendBitcoins then c.details.bitcoinAmount + c.details.serverFee
    else c.details.bitcoinAmount - c.details.serverFee)
  ticker : ∃ asset ∈ c.assets, asset.assetId = c.details.asset ∧ asset.ticker = swap.ticker.text

/-! ## Terms that pay the interest -/

/-- The price of an order without the server's fee. -/
def actualPrice (details : Details) (asset : Asset) : Double :=
  Double.div (assetFloatAmount details.assetAmount asset.precision)
    (toBitcoin (MachineInt.i64 (
      if details.sendBitcoins then details.bitcoinAmount + details.serverFee
      else details.bitcoinAmount - details.serverFee)))

/-- The terms are within the dealer's limits and pay an interest over a price it was
    told: `usdt` or `eurx`, by their asset. -/
structure Pays (params : TradeParams) (usdt eurx : ℚ) (a : Account) (details : Details) : Prop where
  min_le : params.bitcoinAmountMin ≤ details.bitcoinAmount
  le_max : details.bitcoinAmount ≤ params.bitcoinAmountMax
  pays : ∃ asset ticker index interest, a.assets.find? (·.assetId == details.asset) = some asset ∧
    tickerFromAsset asset = some ticker ∧ a.told ticker = some index ∧
    params.interestOf usdt eurx details.asset = .ok interest ∧
    PaysInterest details.sendBitcoins index interest (actualPrice details asset)

/-- The message that the worker is busy with. -/
def TradeEvent.received? : TradeEvent → Option TradeMsg
  | .received msg => some msg
  | _ => none

/-- A signature answers the present message, and an order is taken once while it is
    listed; both pay the interest. -/
def Fair (params : TradeParams) (before : List TradeEvent) : TradeEvent → Prop
  | .request (.sign req) _ =>
      ∃ order, latest TradeEvent.received? before = some (.sign order) ∧
        order.orderId = req.orderId ∧
        Pays params params.interestSignUsdt params.interestSignEurx (account before) order.details
  | .request (.psetTaker req) _ =>
      (account before).taken req.orderId = false ∧
      ∃ order, (account before).listed req.orderId = some order ∧
        Pays params params.interestSubmitUsdt params.interestSubmitEurx (account before)
          order.details
  | _ => True

/-! ## What the handlers do -/

/-- The tables of the worker that the history decides, and the history. -/
structure Blotter where
  assets : List Asset
  prices : DealerTicker → Option PriceTimestamp
  orders : OrderId → Option OrderCreatedNotification
  taken : OrderId → Bool
  pending : OrderId → Option Details
  log : List TradeEvent

def Worker.blotter (w : Worker) : Blotter where
  assets := w.data.assets
  prices := w.data.indexPrices
  orders := fun orderId => w.orders[orderId]?
  taken := w.takenOrders
  pending := w.pendingSigns
  log := w.log

/-- An event that says nothing about the trades. -/
structure Quiet (params : TradeParams) (e : TradeEvent) : Prop where
  record : ∀ a : Account, a.record e = a
  swap : e.swap? = none
  fair : ∀ before, Fair params before e

/-- The check of an order is passed, at the assets and prices of the blotter. -/
def Blotter.Passes (params : TradeParams) (b : Blotter) (usdt eurx : ℚ) (details : Details) :
    Prop :=
  ∃ (text : Double → String) (all : AllBalances) (interest : ℚ),
    params.interestOf usdt eurx details.asset = .ok interest ∧
    takeOrder text params.toSignParams b.assets details all b.prices interest = .ok ()

/-- One thing that happens to the trades. -/
inductive Deal (params : TradeParams) : Blotter → Blotter → Prop where
  | note {b e} : Quiet params e → Deal params b { b with log := b.log ++ [e] }
  | expire {b prices} : (∀ ticker price, prices ticker = some price →
      b.prices ticker = some price) → Deal params b { b with prices }
  | load {b list} : Deal params b
      { b with assets := list, log := b.log ++ [.request .assets (some (.ok (.assets list)))] }
  | subscribe {b asset list} : Deal params b
      { b with
        orders := listOrders b.orders list
        log := b.log ++ [.request (.subscribe asset) (some (.ok (.subscribe list)))] }
  | disconnect {b} : Deal params b
      { b with
        orders := fun _ => none
        taken := fun _ => false
        log := b.log ++ [.received .disconnected] }
  | list {b order} : order.own.isNone = true → Deal params b
      { b with
        orders := Function.update b.orders order.orderId (some order)
        log := b.log ++ [.received (.orderCreated order)] }
  | remove {b orderId} : Deal params b
      { b with
        orders := Function.update b.orders orderId none
        log := b.log ++ [.received (.orderRemoved orderId)] }
  | price {b ticker price timestamp} : Deal params b
      { b with
        prices := Function.update b.prices ticker (price.map fun price => ⟨price, timestamp⟩)
        log := b.log ++ [.received (.msgTo (.price ticker price))] }
  | reset {b} : Deal params b
      { b with prices := fun _ => none, log := b.log ++ [.received (.msgTo .resetPrices)] }
  | matched {b order} : Deal params b { b with log := b.log ++ [.received (.sign order)] }
  /-- a signature is not accepted -/
  | sign {b order req res} : latest TradeEvent.received? b.log = some (.sign order) →
      order.orderId = req.orderId →
      b.Passes params params.interestSignUsdt params.interestSignEurx order.details →
      res ≠ some (.ok .sign) →
      Deal params b { b with log := b.log ++ [.request (.sign req) res] }
  | signed {b order req} : latest TradeEvent.received? b.log = some (.sign order) →
      order.orderId = req.orderId →
      b.Passes params params.interestSignUsdt params.interestSignEurx order.details →
      Deal params b
        { b with
          pending := Function.update b.pending req.orderId (some order.details)
          log := b.log ++ [.request (.sign req) (some (.ok .sign))] }
  /-- an order is not given to the dealer -/
  | ask {b order req res} : b.taken req.orderId = false → b.orders req.orderId = some order →
      b.Passes params params.interestSubmitUsdt params.interestSubmitEurx order.details →
      res ≠ some (.ok .psetTaker) →
      Deal params b { b with log := b.log ++ [.request (.psetTaker req) res] }
  | take {b order req} : b.taken req.orderId = false → b.orders req.orderId = some order →
      b.Passes params params.interestSubmitUsdt params.interestSubmitEurx order.details →
      Deal params b
        { b with
          taken := Function.update b.taken req.orderId true
          log := b.log ++ [.request (.psetTaker req) (some (.ok .psetTaker))] }
  /-- nothing came of an order, or it was not signed for -/
  | drop {b msg} : msg.txid = none ∨ b.pending msg.orderId = none →
      Deal params b
        { b with
          pending := Function.update b.pending msg.orderId none
          log := b.log ++ [.received (.complete msg)] }
  | complete {b msg txid details swap} : msg.txid = some txid →
      b.pending msg.orderId = some details → Reports ⟨txid, details, b.assets⟩ swap →
      Deal params b
        { b with
          pending := Function.update b.pending msg.orderId none
          log := b.log ++ [.received (.complete msg)] ++ [.reported (.swap swap)] }

/-! ## The invariant -/

/-- The tables say what an account says; prices may have been forgotten. -/
structure Blotter.Agrees (b : Blotter) (a : Account) : Prop where
  assets : b.assets = a.assets
  prices : ∀ ticker price, b.prices ticker = some price → a.told ticker = some price.price
  orders : b.orders = a.listed
  taken : b.taken = a.taken
  pending : b.pending = a.signed

/-- They agree with the history, in which everything is fair and reported. -/
structure Blotter.Inv (params : TradeParams) (b : Blotter) : Prop where
  agrees : b.Agrees (account b.log)
  fair : Justified (Fair params) b.log
  reported : List.Forall₂ Reports (account b.log).completions (reports b.log)

/-- A check that is passed makes the order pay. -/
theorem Blotter.Passes.pays {params : TradeParams} {b : Blotter} {usdt eurx : ℚ}
    {details : Details} {a : Account} (h : b.Passes params usdt eurx details)
    (ha : b.Agrees a) : Pays params usdt eurx a details := by
  obtain ⟨text, all, interest, hinterest, hok⟩ := h
  simp only [takeOrder, applyInterest] at hok
  rw [require_bind, require_bind, getOr_bind] at hok
  obtain ⟨hmin, hmax, asset, hasset, hok⟩ := hok
  rw [getOr_bind] at hok
  obtain ⟨ticker, hticker, hok⟩ := hok
  rw [require_bind, getOr_bind] at hok
  obtain ⟨-, index, hindex, hok⟩ := hok
  rw [bind_assoc, require_bind] at hok
  obtain ⟨-, hok⟩ := hok
  rw [pure_bind] at hok
  refine ⟨of_decide_eq_true hmin, of_decide_eq_true hmax, asset, ticker, index.price, interest, ?_,
    hticker, ha.prices ticker index hindex, hinterest, ?_⟩
  · rw [← ha.assets]
    exact hasset
  · cases hsend : details.sendBitcoins with
    | true =>
        simp only [hsend, if_true, require_bind] at hok
        simp only [PaysInterest, actualPrice, hsend, if_true]
        exact hok.1
    | false =>
        simp only [hsend, Bool.false_eq_true, if_false, require_bind] at hok
        simp only [PaysInterest, actualPrice, hsend, Bool.false_eq_true, if_false]
        exact hok.1

theorem reports_concat_none {e : TradeEvent} (h : e.swap? = none) (log : List TradeEvent) :
    reports (log ++ [e]) = reports log := by
  simp [reports, h]

theorem reports_concat_some {e : TradeEvent} {swap : SwapSucceed} (h : e.swap? = some swap)
    (log : List TradeEvent) : reports (log ++ [e]) = reports log ++ [swap] := by
  simp [reports, h]

/-- An event that completes nothing leaves the reports as they are. -/
theorem Blotter.Inv.event {params : TradeParams} {b b' : Blotter} {e : TradeEvent}
    (h : b.Inv params) (hlog : b'.log = b.log ++ [e]) (hfair : Fair params b.log e)
    (hswap : e.swap? = none)
    (hsame : ((account b.log).record e).completions = (account b.log).completions)
    (ha : b'.Agrees ((account b.log).record e)) : b'.Inv params := by
  constructor
  · rw [hlog, account_concat]
    exact ha
  · rw [hlog]
    exact h.fair.concat hfair
  · rw [hlog, account_concat, hsame, reports_concat_none hswap]
    exact h.reported

theorem record_request_signing (a : Account) (req : TradeRequest)
    (res : Option (Except String TradeResponse)) :
    (a.record (.request req res)).signing = a.signing := by
  simp only [Account.record]
  split
  · next heq => exact nomatch heq
  all_goals rfl

/-- The message that the worker is busy with is the last one to ask for a signature. -/
theorem account_signing {log : List TradeEvent} {order : SignNotification}
    (h : latest TradeEvent.received? log = some (.sign order)) :
    (account log).signing = some order := by
  induction log using List.reverseRecOn with
  | nil => exact nomatch h
  | append_singleton log e ih =>
      rw [account_concat]
      cases e with
      | received msg =>
          rw [latest_concat_some (f := TradeEvent.received?) rfl] at h
          cases h
          rfl
      | request req res =>
          rw [latest_concat_none (f := TradeEvent.received?) rfl] at h
          rw [record_request_signing]
          exact ih h
      | reported msg =>
          rw [latest_concat_none (f := TradeEvent.received?) rfl] at h
          exact ih h

/-- A signature that is refused changes no account. -/
theorem record_unsigned {req : SignRequest} {res : Option (Except String TradeResponse)}
    (h : res ≠ some (.ok .sign)) (a : Account) : a.record (.request (.sign req) res) = a := by
  rcases res with _ | _ | resp
  · rfl
  · rfl
  · cases resp with
    | sign => exact absurd rfl h
    | _ => rfl

/-- A request that is refused an order changes no account. -/
theorem record_refused {req : PsetTakerRequest} {res : Option (Except String TradeResponse)}
    (h : res ≠ some (.ok .psetTaker)) (a : Account) :
    a.record (.request (.psetTaker req) res) = a := by
  rcases res with _ | _ | resp
  · rfl
  · rfl
  · cases resp with
    | psetTaker => exact absurd rfl h
    | _ => rfl

/-- **ONE DEAL**: the tables keep agreeing with the history. -/
theorem Deal.inv {params : TradeParams} {b b' : Blotter} (hd : Deal params b b')
    (h : b.Inv params) : b'.Inv params := by
  have ha := h.agrees
  cases hd with
  | @note e hquiet =>
      refine h.event rfl (hquiet.fair b.log) hquiet.swap (by rw [hquiet.record]) ?_
      rw [hquiet.record]
      exact ⟨ha.assets, ha.prices, ha.orders, ha.taken, ha.pending⟩
  | @expire prices hkept =>
      refine ⟨⟨ha.assets, ?_, ha.orders, ha.taken, ha.pending⟩, h.fair, h.reported⟩
      intro ticker price hprice
      exact ha.prices ticker price (hkept ticker price hprice)
  | load =>
      exact h.event rfl trivial rfl rfl ⟨rfl, ha.prices, ha.orders, ha.taken, ha.pending⟩
  | @subscribe asset list =>
      refine h.event rfl trivial rfl rfl ⟨ha.assets, ha.prices, ?_, ha.taken, ha.pending⟩
      exact congrArg (listOrders · list) ha.orders
  | disconnect =>
      exact h.event rfl trivial rfl rfl ⟨ha.assets, ha.prices, rfl, rfl, ha.pending⟩
  | @list order hown =>
      have hrecord : (account b.log).record (.received (.orderCreated order)) =
          { account b.log with
            listed := Function.update (account b.log).listed order.orderId (some order) } :=
        if_pos hown
      refine h.event rfl trivial rfl (by rw [hrecord]) ?_
      rw [hrecord]
      refine ⟨ha.assets, ha.prices, ?_, ha.taken, ha.pending⟩
      exact congrArg (Function.update · order.orderId (some order)) ha.orders
  | @remove orderId =>
      refine h.event rfl trivial rfl rfl ⟨ha.assets, ha.prices, ?_, ha.taken, ha.pending⟩
      exact congrArg (Function.update · orderId none) ha.orders
  | @price ticker price timestamp =>
      refine h.event rfl trivial rfl rfl ⟨ha.assets, ?_, ha.orders, ha.taken, ha.pending⟩
      intro ticker' price' hprice
      simp only [Account.record, Account.receive, Account.tell]
      by_cases hticker : ticker' = ticker
      · subst hticker
        simp only [Function.update_self] at hprice ⊢
        obtain ⟨pair, rfl, rfl⟩ := Option.map_eq_some_iff.mp hprice
        rfl
      · simp only [Function.update_of_ne hticker] at hprice ⊢
        exact ha.prices ticker' price' hprice
  | reset =>
      refine h.event rfl trivial rfl rfl ⟨ha.assets, ?_, ha.orders, ha.taken, ha.pending⟩
      intro ticker price hprice
      cases hprice
  | @matched order =>
      exact h.event rfl trivial rfl rfl
        ⟨ha.assets, ha.prices, ha.orders, ha.taken, ha.pending⟩
  | @sign order req res hlast hid hpasses hres =>
      refine h.event rfl ⟨order, hlast, hid, hpasses.pays ha⟩ rfl
        (by rw [record_unsigned hres]) ?_
      rw [record_unsigned hres]
      exact ⟨ha.assets, ha.prices, ha.orders, ha.taken, ha.pending⟩
  | @signed order req hlast hid hpasses =>
      refine h.event rfl ⟨order, hlast, hid, hpasses.pays ha⟩ rfl rfl
        ⟨ha.assets, ha.prices, ha.orders, ha.taken, ?_⟩
      show Function.update b.pending req.orderId (some order.details) =
        Function.update (account b.log).signed req.orderId
          ((account b.log).signing.map SignNotification.details)
      rw [account_signing hlast, ha.pending]
      rfl
  | @ask order req res htaken hlisted hpasses hres =>
      rw [ha.taken] at htaken
      rw [ha.orders] at hlisted
      refine h.event rfl ⟨htaken, order, hlisted, hpasses.pays ha⟩ rfl
        (by rw [record_refused hres]) ?_
      rw [record_refused hres]
      exact ⟨ha.assets, ha.prices, ha.orders, ha.taken, ha.pending⟩
  | @take order req htaken hlisted hpasses =>
      rw [ha.taken] at htaken
      rw [ha.orders] at hlisted
      refine h.event rfl ⟨htaken, order, hlisted, hpasses.pays ha⟩ rfl rfl
        ⟨ha.assets, ha.prices, ha.orders, ?_, ha.pending⟩
      exact congrArg (Function.update · req.orderId true) ha.taken
  | @drop msg hnothing =>
      rw [ha.pending] at hnothing
      refine h.event rfl trivial rfl ?_ ⟨ha.assets, ha.prices, ha.orders, ha.taken, ?_⟩
      · simp only [Account.record, Account.receive, Account.complete]
        rcases hnothing with htxid | hpending
        · simp [htxid]
        · simp [hpending]
      · exact congrArg (Function.update · msg.orderId none) ha.pending
  | @complete msg txid details swap htxid hpending hreports =>
      have haccount : account (b.log ++ [.received (.complete msg)] ++ [.reported (.swap swap)]) =
          { account b.log with
            signed := Function.update (account b.log).signed msg.orderId none
            completions := (account b.log).completions ++ [⟨txid, details, b.assets⟩] } := by
        rw [account_concat, account_concat, ha.assets]
        rw [ha.pending] at hpending
        simp only [Account.record, Account.receive, Account.complete, hpending, htxid]
      constructor
      · dsimp only
        rw [haccount]
        refine ⟨ha.assets, ha.prices, ha.orders, ha.taken, ?_⟩
        exact congrArg (Function.update · msg.orderId none) ha.pending
      · exact (h.fair.concat (e := .received (.complete msg)) trivial).concat trivial
      · dsimp only
        rw [haccount, reports_concat_some rfl, reports_concat_none rfl]
        exact List.rel_append h.reported (List.Forall₂.cons hreports .nil)

/-! ## The handlers -/

section Handlers

variable {world : TradeWorld} {params : TradeParams}

abbrev Deals {α : Type} (params : TradeParams) (v : Blotter) (p : Trader α) (w : Worker) : Prop :=
  Leads Worker.blotter (Deal params) v p w

/-- What a handler of the own orders leaves alone. -/
def Data.market (data : Data) : List Asset × (DealerTicker → Option PriceTimestamp) :=
  (data.assets, data.indexPrices)

theorem own_follows {α : Type} {p : Handler α} (h : Fixes Data.market p) :
    Follows Worker.blotter (Deal params) (own p) := by
  have hfixes : Fixes Worker.blotter (own p) := by
    refine Fixes.zoom h fun data w hmarket => ?_
    obtain ⟨hassets, hprices⟩ := Prod.ext_iff.mp hmarket
    simp only [Worker.blotter]
    exact congrArg₂ (fun assets prices => Blotter.mk assets prices _ _ _ _) hassets hprices
  exact hfixes.mono fun _ _ h => h.elim

theorem cancelOrder_fixes (world : World) (key : OwnOrderKey) (order : OwnOrder) :
    Fixes Data.market (cancelOrder world key order) :=
  fun _ => sendRequest_leads (fun _ _ => .refl) (fun _ => .refl) fun _ _ _ => .refl

theorem submitOrder_fixes (world : World) (params : Params) (key : OwnOrderKey) (asset : AssetId)
    (price : Double) (bitcoinAmount : Int) :
    Fixes Data.market (submitOrder world params key asset price bitcoinAmount) := by
  intro data
  refine sendRequest_leads (fun _ _ => .refl) (fun _ => .refl) fun resp submitResp _ => ?_
  refine Leads.get (Leads.attemptStop .refl (fun _ _ => .refl) fun req _ => ?_)
  exact sendRequest_leads (fun _ _ => .refl) (fun _ => .refl) fun _ _ _ => .refl

theorem editOrder_fixes (world : World) (key : OwnOrderKey) (order : OwnOrder) (price : Double) :
    Fixes Data.market (editOrder world key order price) := by
  intro data
  refine sendRequest_leads (fun _ _ => .refl) (fun e => ?_) fun _ _ _ => .refl
  exact sendRequest_leads (fun _ _ => .refl) (fun _ => .refl) fun _ _ _ => .refl

theorem updatePrice_fixes (world : World) (params : Params) (key : OwnOrderKey) :
    Fixes Data.market (updatePrice world params key) := by
  intro data
  refine Leads.get (Leads.ofPanic .refl fun asset _ => Leads.ofPanic .refl fun interest _ => ?_)
  dsimp only
  generalize (data.indexPrices key.ticker).map _ = price
  cases data.ownOrders key with
  | none =>
      cases price with
      | none => exact .refl
      | some price =>
          dsimp only
          split
          · exact submitOrder_fixes world params key asset.assetId price _ data
          · exact .refl
  | some order =>
      cases price with
      | none => exact cancelOrder_fixes world key order data
      | some price =>
          dsimp only
          split
          · exact cancelOrder_fixes world key order data
          · split
            · exact editOrder_fixes world key order price data
            · exact .refl

theorem updatePrices_fixes (world : World) (params : Params) :
    Fixes Data.market (updatePrices world params) := by
  intro data
  refine Leads.get ?_
  dsimp only
  split
  · refine Leads.call (Follows.forM (updatePrice_fixes world params) _) .refl ?_
    exact fun _ _ _ hreach => hreach
  · exact .refl

theorem expirePrices_deals (world : World) (w : Worker) :
    Deals params w.blotter (own (expirePrices world)) w := by
  refine .single (.expire fun ticker price hprice => ?_)
  exact (Option.filter_eq_some_iff.mp hprice).1

/-- A signature is for the order of its message. -/
theorem signPset_orderId {log : List TradeEvent} {utxos : Utxos} {order : SignNotification}
    {req : SignRequest} (h : signPset world log utxos order = .ok req) :
    order.orderId = req.orderId := by
  simp only [signPset] at h
  obtain ⟨slots, _, h⟩ := bind_returns h
  obtain ⟨signed, _, h⟩ := bind_returns h
  cases h
  rfl

theorem processSign_deals {order : SignNotification} {w : Worker}
    (hlast : latest TradeEvent.received? w.log = some (.sign order)) :
    Deals params w.blotter (processSign world params order) w := by
  refine Leads.get (Leads.ofPanic .refl fun interest hinterest => ?_)
  refine Leads.attemptStop .refl (fun _ _ => .refl) fun _ hcheck => ?_
  refine Leads.ofPanic .refl fun req hreq => ?_
  have hid := signPset_orderId (expectOk_ok hreq)
  have hpasses : w.blotter.Passes params params.interestSignUsdt params.interestSignEurx
      order.details := ⟨world.text, w.data.allBalances, interest, hinterest, hcheck⟩
  have hsent : ∀ res, res ≠ some (.ok .sign) →
      Deal params w.blotter (w.emit (.request (.sign req) res)).blotter :=
    fun res hres => .sign hlast hid hpasses hres
  have hsigned : Deal params w.blotter
      { w.blotter with
        pending := Function.update w.pendingSigns order.orderId (some order.details)
        log := w.log ++ [.request (.sign req) (some (.ok .sign))] } := by
    rw [hid]
    exact .signed hlast hid hpasses
  refine Leads.request ?_ (fun e => .single (hsent _ (by simp))) ?_
  · intro res hres
    refine .single (hsent res ?_)
    rintro rfl
    exact hres.2 .sign () rfl rfl
  · intro resp a hvalue
    split at hvalue
    · next heq =>
        subst heq
        exact .single hsigned
    · cases hvalue

theorem takeOther_fixes (order : OrderCreatedNotification) :
    Fixes Worker.orders (takeOther world params order) := by
  intro w
  refine Leads.get ?_
  split
  · exact .refl
  refine Leads.ofPanic .refl fun interest _ => ?_
  refine Leads.attemptStop .refl (fun _ _ => .refl) fun _ _ => ?_
  refine Leads.attemptStop .refl (fun _ _ => .refl) fun req _ => ?_
  exact Leads.request (fun _ _ => .refl) (fun _ => .refl) fun _ _ _ => .refl

theorem takeOther_deals {order : OrderCreatedNotification} {w : Worker}
    (hlisted : w.orders[order.orderId]? = some order) :
    Deals params w.blotter (takeOther world params order) w := by
  refine Leads.get ?_
  split
  · exact .refl
  next htaken =>
  refine Leads.ofPanic .refl fun interest hinterest => ?_
  refine Leads.attemptStop .refl (fun _ _ => .refl) fun _ hcheck => ?_
  refine Leads.attemptStop .refl (fun _ _ => .refl) fun req hreq => ?_
  have hpasses : w.blotter.Passes params params.interestSubmitUsdt params.interestSubmitEurx
      order.details := ⟨world.text, w.data.allBalances, interest, hinterest, hcheck⟩
  -- the request is for the order that was looked at
  rw [← getPset_orderId hreq] at hlisted htaken ⊢
  have htaken := Bool.eq_false_of_not_eq_true htaken
  have hask : ∀ res, res ≠ some (.ok .psetTaker) →
      Deal params w.blotter (w.emit (.request (.psetTaker (takerRequest req)) res)).blotter :=
    fun res hres => .ask htaken hlisted hpasses hres
  have htake : Deal params w.blotter
      { w.blotter with
        taken := Function.update w.takenOrders req.orderId true
        log := w.log ++ [.request (.psetTaker (takerRequest req)) (some (.ok .psetTaker))] } :=
    @Deal.take params w.blotter order (takerRequest req) htaken hlisted hpasses
  refine Leads.request ?_ (fun e => .single (hask _ (by simp))) ?_
  · intro res hres
    refine .single (hask res ?_)
    rintro rfl
    exact hres.2 .psetTaker () rfl rfl
  · intro resp a hvalue
    split at hvalue
    · next heq =>
        subst heq
        exact .single htake
    · cases hvalue

/-- The loop over the orders of others, each of which is listed. -/
theorem takeOthers_deals : ∀ (list : List OrderCreatedNotification) (w : Worker),
    (∀ order ∈ list, w.orders[order.orderId]? = some order) →
    Deals params w.blotter (list.forM (takeOther world params)) w
  | [], _, _ => .refl
  | order :: list, w, h => by
      refine Leads.bind (takeOther_deals (h order List.mem_cons_self)) fun _ w1 hexec hreach => ?_
      refine Leads.commit hreach (takeOthers_deals list w1 fun order' hmem => ?_)
      rw [(takeOther_fixes order).of_exec hexec]
      exact h order' (List.mem_cons_of_mem order hmem)

theorem quiet_walletBalance : Quiet params (.reported .walletBalanceUpdated) :=
  ⟨fun _ => rfl, rfl, fun _ => trivial⟩

theorem checkWallet_deals (w : Worker) : Deals params w.blotter (checkWallet world) w := by
  refine Leads.get ?_
  split
  · exact .refl
  · split
    · exact .refl
    · exact .single (.note quiet_walletBalance)

theorem processTick_deals {w : Worker}
    (hkeyed : ∀ orderId (order : OrderCreatedNotification), w.orders[orderId]? = some order →
      order.orderId = orderId) :
    Deals params w.blotter (processTick world params) w := by
  have hfixes : Fixes Worker.orders (own (updatePrices (world.own w.log) params.toParams)) :=
    Fixes.zoom (updatePrices_fixes _ _) fun _ _ _ => rfl
  refine Leads.get (Leads.call (own_follows (updatePrices_fixes _ _)) .refl fun _ w1 hexec hreach => ?_)
  refine Leads.commit hreach (Leads.get ?_)
  refine Leads.bind (takeOthers_deals _ w1 fun order hmem => ?_) fun _ w2 _ hreach => ?_
  · obtain ⟨orderId, hfound⟩ := Table.mem_values_iff.mp hmem
    rw [hfixes.of_exec hexec] at hfound
    rw [hfixes.of_exec hexec, hkeyed orderId order hfound]
    exact hfound
  · refine Leads.commit hreach ?_
    refine Leads.bind (checkWallet_deals w2) fun _ w3 _ hreach => ?_
    exact Leads.commit hreach (Leads.get (expirePrices_deals _ w3))

/-! ### Messages -/

/-- The worker's list of orders grows as the account's. -/
theorem addOrders_eq (orders : Orders) (list : List OrderCreatedNotification) :
    (fun orderId => (addOrders orders list)[orderId]?) =
      listOrders (fun orderId => orders[orderId]?) list := by
  induction list generalizing orders with
  | nil => rfl
  | cons order list ih =>
      show (fun orderId => (addOrders (orders.insert order.orderId order) list)[orderId]?) = _
      rw [ih, Table.getElem?_insert_update]
      rfl

theorem quiet_request {req : TradeRequest} {res : Option (Except String TradeResponse)}
    (h : ∀ a : Account, a.record (.request req res) = a)
    (hfair : ∀ before, Fair params before (.request req res)) : Quiet params (.request req res) :=
  ⟨h, rfl, hfair⟩

theorem subscribeAsset_deals (asset : AssetId) :
    Follows Worker.blotter (Deal params) (subscribeAsset world asset) := by
  intro w
  have hquiet : ∀ res, (∀ resp list, res = some (.ok resp) →
      TradeResponse.subscribe? resp ≠ some list) →
      Quiet params (.request (.subscribe asset) res) := by
    intro res hres
    refine quiet_request (fun a => ?_) fun _ => trivial
    rcases res with _ | _ | resp
    · rfl
    · rfl
    · cases resp with
      | subscribe list => exact absurd rfl (hres _ list rfl)
      | _ => rfl
  refine Leads.request (fun res hres => .single (.note (hquiet res hres.2)))
    (fun e => .single (.note (hquiet _ (by simp)))) fun resp list hlist => ?_
  cases resp with
  | subscribe list' =>
      cases hlist
      refine .single ?_
      show Deal params w.blotter
        { w.blotter with
          orders := fun orderId => (addOrders w.orders list)[orderId]?
          log := w.log ++ [.request (.subscribe asset) (some (.ok (.subscribe list)))] }
      rw [addOrders_eq]
      exact .subscribe
  | _ => cases hlist

theorem processConnected_deals (w : Worker) :
    Deals params w.blotter (processConnected world params) w := by
  have hquiet : ∀ res, (∀ resp list, res = some (.ok resp) →
      TradeResponse.assets? resp ≠ some list) → Quiet params (.request .assets res) := by
    intro res hres
    refine quiet_request (fun a => ?_) fun _ => trivial
    rcases res with _ | _ | resp
    · rfl
    · rfl
    · cases resp with
      | assets list => exact absurd rfl (hres _ list rfl)
      | _ => rfl
  have hlogin : ∀ (w : Worker) res, Deal params w.blotter (w.emit (.request .login res)).blotter :=
    fun w res => .note (quiet_request (fun _ => rfl) fun _ => trivial)
  refine Leads.request (fun res hres => .single (.note (hquiet res hres.2)))
    (fun e => .single (.note (hquiet _ (by simp)))) fun resp list hlist => ?_
  cases resp with
  | assets list' =>
      cases hlist
      refine Leads.ofReturned (Leads.modify ?_)
      have hload : Deal params w.blotter
          ({ w with
            data := { w.data with assets := list }
            log := w.log ++ [.request .assets (some (.ok (.assets list)))] } : Worker).blotter :=
        .load
      refine Leads.commit (.single hload) ?_
      refine Leads.request (fun res _ => .single (hlogin _ res)) (fun e => .single (hlogin _ _))
        fun resp login _ => ?_
      refine Leads.commit (.single (hlogin _ _)) ?_
      refine Leads.ofPanic .refl fun login _ => Leads.ofPanic .refl fun _ _ => ?_
      have hloop := Follows.forM (fun asset : Asset =>
        @subscribeAsset_deals world params asset.assetId)
      refine Leads.call (hloop _) .refl fun _ w2 _ hreach => ?_
      have hconnect : Fixes Data.market
          (modify fun data => { data with serverConnected := true } : Handler Unit) := fun _ => .refl
      exact Leads.commit hreach (own_follows hconnect w2)
  | _ => cases hlist

variable (world params) in
/-- **ONE MESSAGE**, but for completions: what it does to the trades is a run of deals. -/
theorem processTrade_deals {msg : TradeMsg} {w : Worker}
    (hkeyed : ∀ orderId (order : OrderCreatedNotification), w.orders[orderId]? = some order →
      order.orderId = orderId)
    (hmsg : ∀ done, msg ≠ .complete done) :
    Deals params w.blotter (processTrade world params msg) (w.emit (.received msg)) := by
  have hquiet : ∀ {msg : TradeMsg}, (∀ a : Account, a.receive msg = a) →
      Deal params w.blotter (w.emit (.received msg)).blotter :=
    fun h => .note ⟨h, rfl, fun _ => trivial⟩
  cases msg with
  | connected =>
      exact Leads.commit (.single (hquiet fun _ => rfl)) (processConnected_deals _)
  | disconnected =>
      refine .single ?_
      show Deal params w.blotter
        { w.blotter with
          orders := fun orderId => (∅ : Orders)[orderId]?
          taken := fun _ => false
          log := w.log ++ [.received .disconnected] }
      simp only [Std.TreeMap.getElem?_emptyc]
      exact .disconnect
  | orderCreated order =>
      simp only [processTrade]
      split
      · next hown =>
          refine .single ?_
          show Deal params w.blotter
            { w.blotter with
              orders := fun orderId => (w.orders.insert order.orderId order)[orderId]?
              log := w.log ++ [.received (.orderCreated order)] }
          rw [Table.getElem?_insert_update]
          exact .list hown
      · next hown => exact .single (hquiet fun _ => if_neg hown)
  | orderRemoved orderId =>
      refine .single ?_
      show Deal params w.blotter
        { w.blotter with
          orders := fun id => (w.orders.erase orderId)[id]?
          log := w.log ++ [.received (.orderRemoved orderId)] }
      rw [Table.getElem?_erase_update]
      exact .remove
  | sign order =>
      refine Leads.commit (.single .matched) (processSign_deals ?_)
      exact latest_concat_some (f := TradeEvent.received?) rfl w.log
  | complete done => exact absurd rfl (hmsg done)
  | reloadUtxo unspent =>
      exact Leads.commit (.single (hquiet fun _ => rfl))
        (own_follows (p := processReloadUtxo unspent) (fun _ => .refl) _)
  | msgTo msg =>
      cases msg with
      | price ticker price => exact .single .price
      | limitBalance ticker recvLimit balance =>
          refine Leads.commit (.single (hquiet fun _ => rfl)) (Leads.get (own_follows ?_ _))
          cases recvLimit with
          | true => exact fun _ => .refl
          | false => exact fun _ => .refl
      | resetPrices => exact .single .reset
  | timer => exact Leads.commit (.single (hquiet fun _ => rfl)) (processTick_deals hkeyed)
  | other => exact .single (hquiet fun _ => rfl)

/-- The worker after a completion, before it is reported. -/
def Worker.close (w : Worker) (msg : CompleteNotification) : Worker :=
  { w with
    data := (exec (processComplete msg.orderId) w.data).2
    pendingSigns := Function.update w.pendingSigns msg.orderId none
    log := w.log ++ [.received (.complete msg)] }

/-- A ticker that is found is that of its asset. -/
theorem tickerFromAsset_text {asset : Asset} {ticker : DealerTicker}
    (h : tickerFromAsset asset = some ticker) : asset.ticker = ticker.text := by
  have hfound := List.find?_some h
  exact (beq_iff_eq.mp hfound).symm

variable (params) in
/-- How a completion ends: it is dropped or reported, or the worker stops. -/
theorem processCompletion_cases (msg : CompleteNotification) (w : Worker) :
    (∃ w', exec (processCompletion msg) (w.emit (.received (.complete msg))) = (.ok (), w') ∧
      Deal params w.blotter w'.blotter) ∨
    ∃ p, exec (processCompletion msg) (w.emit (.received (.complete msg))) =
      (.error (.panic p), w.close msg) := by
  cases htxid : msg.txid with
  | none =>
      refine .inl ⟨w.close msg, ?_, .drop (.inl htxid)⟩
      simp only [processCompletion, htxid]
      rfl
  | some txid =>
      cases hpending : w.pendingSigns msg.orderId with
      | none =>
          refine .inr ⟨⟨"details must exists"⟩, ?_⟩
          simp only [processCompletion, htxid]
          rw [exec_bind]
          show exec (ofPanic (expect (w.pendingSigns msg.orderId) _) >>= _) (w.close msg) = _
          rw [hpending]
          rfl
      | some details =>
          have hstep : exec (processCompletion msg) (w.emit (.received (.complete msg))) =
              exec (do
                let asset ← ofPanic (expect (w.data.assets.find? fun asset =>
                  asset.assetId == details.asset) "called `Option::unwrap()` on a `None` value")
                let ticker ← ofPanic (expect (tickerFromAsset asset)
                  "called `Result::unwrap()` on an `Err` value")
                emitTrade (.reported (.swap (swapSucceed txid ticker details)))) (w.close msg) := by
            simp only [processCompletion, htxid]
            rw [exec_bind]
            show exec (ofPanic (expect (w.pendingSigns msg.orderId) _) >>= _) (w.close msg) = _
            rw [hpending]
            rfl
          rw [hstep]
          cases hasset : w.data.assets.find? fun asset => asset.assetId == details.asset with
          | none => exact .inr ⟨_, rfl⟩
          | some asset =>
              cases hticker : tickerFromAsset asset with
              | none =>
                  refine .inr ⟨⟨"called `Result::unwrap()` on an `Err` value"⟩, ?_⟩
                  rw [expect_some]
                  show exec (ofPanic (expect (tickerFromAsset asset) _) >>= _) (w.close msg) = _
                  rw [hticker]
                  rfl
              | some ticker =>
                  refine .inl ⟨(w.close msg).emit (.reported (.swap
                    (swapSucceed txid ticker details))), ?_, .complete htxid hpending ?_⟩
                  · rw [expect_some]
                    show exec (ofPanic (expect (tickerFromAsset asset) _) >>= _) (w.close msg) = _
                    rw [hticker]
                    rfl
                  · refine ⟨rfl, rfl, rfl, asset, List.mem_of_find?_eq_some hasset, ?_,
                      tickerFromAsset_text hticker⟩
                    have hfound := List.find?_some hasset
                    exact beq_iff_eq.mp hfound

/-- The invariant is kept by everything that happens. -/
theorem Blotter.Inv.reach {b b' : Blotter} (h : b.Inv params)
    (hreach : ReflTransGen (Deal params) b b') : b'.Inv params := by
  induction hreach with
  | refl => exact h
  | tail _ hd ih => exact hd.inv ih

end Handlers

/-! ## The orders are listed under their ids -/

/-- Every order stands under its id. -/
def Keyed (listed : OrderId → Option OrderCreatedNotification) : Prop :=
  ∀ orderId order, listed orderId = some order → order.orderId = orderId

theorem Keyed.insert {listed : OrderId → Option OrderCreatedNotification} (h : Keyed listed)
    (order : OrderCreatedNotification) :
    Keyed (Function.update listed order.orderId (some order)) := by
  intro orderId found hfound
  by_cases hid : orderId = order.orderId
  · subst hid
    rw [Function.update_self] at hfound
    cases hfound
    rfl
  · rw [Function.update_of_ne hid] at hfound
    exact h orderId found hfound

theorem Keyed.remove {listed : OrderId → Option OrderCreatedNotification} (h : Keyed listed)
    (orderId : OrderId) : Keyed (Function.update listed orderId none) := by
  intro id found hfound
  by_cases hid : id = orderId
  · subst hid
    rw [Function.update_self] at hfound
    cases hfound
  · rw [Function.update_of_ne hid] at hfound
    exact h id found hfound

theorem Keyed.insertAll {listed : OrderId → Option OrderCreatedNotification} (h : Keyed listed)
    (list : List OrderCreatedNotification) : Keyed (listOrders listed list) := by
  induction list generalizing listed with
  | nil => exact h
  | cons order list ih => exact ih (h.insert order)

theorem Keyed.record {a : Account} (h : Keyed a.listed) (e : TradeEvent) :
    Keyed (a.record e).listed := by
  fun_cases Account.record a e with
  | case1 msg =>
      fun_cases Account.receive a msg with
      | case1 => exact fun _ _ hfound => nomatch hfound
      | case2 order hown => exact h.insert order
      | case3 order hown => exact h
      | case4 orderId => exact h.remove orderId
      | case5 order => exact h
      | case6 msg => exact h
      | case7 msg => cases msg <;> exact h
      | case8 => exact h
  | case2 list => exact h
  | case3 asset list => exact h.insertAll list
  | case4 req => exact h
  | case5 req => exact h
  | case6 => exact h

theorem keyed_account (log : List TradeEvent) : Keyed (account log).listed := by
  induction log using List.reverseRecOn with
  | nil => exact fun _ _ hfound => nomatch hfound
  | append_singleton log e ih =>
      rw [account_concat]
      exact ih.record e

/-! ## The runs -/

section Runs

variable {world : TradeWorld} {params : TradeParams}

/-- The reports are those of the completed swaps, in their order; all but the one at
    which the worker has stopped. -/
structure Trading.Sound (params : TradeParams) (s : Trading) : Prop where
  fair : Justified (Fair params) s.worker.log
  tables : s.stopped = false → s.worker.blotter.Inv params
  reported : ∃ done late, (account s.worker.log).completions = done ++ late ∧
    List.Forall₂ Reports done (reports s.worker.log) ∧ late.length ≤ 1 ∧
    (s.stopped = false → late = [])

theorem Blotter.Inv.sound {s : Trading} (h : s.worker.blotter.Inv params) : s.Sound params where
  fair := h.fair
  tables := fun _ => h
  reported := ⟨_, [], (List.append_nil _).symm, h.reported, Nat.zero_le 1, fun _ => rfl⟩

/-- The orders of a worker stand under their ids. -/
theorem Blotter.Inv.keyed {w : Worker} (h : w.blotter.Inv params) (orderId : OrderId)
    (order : OrderCreatedNotification) (hfound : w.orders[orderId]? = some order) :
    order.orderId = orderId := by
  refine keyed_account w.log orderId order ?_
  rw [show w.log = w.blotter.log from rfl, ← h.agrees.orders]
  exact hfound

/-- A worker that stops at a completion has reported all the earlier ones. -/
theorem sound_close {w : Worker} (h : w.blotter.Inv params) (msg : CompleteNotification) :
    Trading.Sound params ⟨w.close msg, true⟩ := by
  have hreports : reports (w.close msg).log = reports w.log := reports_concat_none rfl w.log
  have hcompletions : (account (w.close msg).log).completions = (account w.log).completions ++
      match msg.txid, (account w.log).signed msg.orderId with
      | some txid, some details => [⟨txid, details, (account w.log).assets⟩]
      | _, _ => [] := by
    show (account (w.log ++ [.received (.complete msg)])).completions = _
    rw [account_concat]
    rfl
  refine ⟨?_, fun hrun => ?_, _, _, hcompletions, ?_, ?_, fun hrun => ?_⟩
  · have hfair : Justified (Fair params) (w.log ++ [.received (.complete msg)]) :=
      h.fair.concat trivial
    exact hfair
  · exact absurd hrun Bool.noConfusion
  · rw [hreports]
    exact h.reported
  · split
    · exact Nat.le_refl 1
    · exact Nat.zero_le 1
  · exact absurd hrun Bool.noConfusion

/-- **ONE MESSAGE** keeps the worker sound. -/
theorem trade_sound {s : Trading} (h : s.Sound params) (msg : TradeMsg) :
    (trade world params s msg).Sound params := by
  simp only [trade]
  split
  · exact h
  · next hrun =>
      have hinv := h.tables (Bool.eq_false_iff.mpr hrun)
      by_cases hmsg : ∃ done, msg = .complete done
      · obtain ⟨done, rfl⟩ := hmsg
        simp only [finishTrade, processTrade]
        obtain ⟨w', hexec, hdeal⟩ | ⟨p, hexec⟩ :=
          processCompletion_cases params done s.worker
        · rw [hexec]
          exact (hdeal.inv hinv).sound
        · rw [hexec]
          exact sound_close hinv done
      · have hdeals := processTrade_deals world params hinv.keyed
          fun done hdone => hmsg ⟨done, hdone⟩
        have hinv' := hinv.reach hdeals
        refine Blotter.Inv.sound ?_
        simp only [finishTrade]
        split <;> next hexec =>
          rw [hexec] at hinv'
          exact hinv'

theorem firstTrading_sound : (firstTrading world).Sound params := by
  refine Blotter.Inv.sound ⟨⟨rfl, ?_, ?_, rfl, rfl⟩, justified_nil _, .nil⟩
  · intro ticker price hprice
    cases hprice
  · funext orderId
    exact Std.TreeMap.getElem?_emptyc

theorem trades_sound {s : Trading} (h : Trades world params s) : s.Sound params := by
  refine h.invariant ?_ ?_
  · rintro s rfl
    exact firstTrading_sound
  · intro s msg _ hsound _
    exact trade_sound hsound msg

/-- **EACH SWAP IS REPORTED ONCE**: the reports are those of the completed orders that
    were signed for, one each and in their order, with the signed amounts.  Only a
    worker that has stopped may be one report short. -/
theorem swaps_reported_once {s : Trading} (h : Trades world params s) :
    ∃ done late, (account s.worker.log).completions = done ++ late ∧
      List.Forall₂ Reports done (reports s.worker.log) ∧ late.length ≤ 1 ∧
      (s.stopped = false → late = []) :=
  (trades_sound h).reported

/-- **FAIR TRADES**: every signature answers the message that the worker is busy with,
    every order is taken while it is listed and not taken yet, and each of them pays its
    interest over the last price that the worker was told. -/
theorem trades_pay_interest {s : Trading} (h : Trades world params s) :
    Justified (Fair params) s.worker.log :=
  (trades_sound h).fair

end Runs

namespace TradeSample

def params : TradeParams where
  toParams := Sample.params
  interestSignUsdt := 1005 / 1000
  interestSignEurx := 1005 / 1000
  bitcoinAmountMax := 20000000
  assetUsdt := 2
  assetEurx := 3

/-- The dealer sends 0.1 bitcoins and the fee for 3100 USDt. -/
def details : Details :=
  ⟨2, 10000000, 310000000000, 30969, 10000, .taker, true, .bitcoin, .stablecoin, none⟩

/-- A server that lists one order and accepts everything. -/
def world : TradeWorld where
  own _ :=
    { reply := fun _ _ => none
      newAddress := fun _ _ => .ok "address"
      now := fun _ => 0 }
  tradeReply _ req := some (.ok (match req with
    | .assets => .assets [Sample.asset 1 .lbtc, Sample.asset 2 .usdt]
    | .login => .login ⟨0, []⟩
    | .subscribe _ => .subscribe [⟨9, details, 0, none, false, none⟩]
    | .psetTaker _ => .psetTaker
    | .sign _ => .sign))
  walletInfo _ := .error "not used"
  decodePset _ := .ok [⟨(100, 0), none, none⟩, ⟨(101, 0), none, none⟩]
  encodePset _ := "signed"
  dumpPrivKey _ _ := .ok "key"
  signInput _ _ key := [key]
  pushScript script := script
  text _ := ""

/-- The order is taken, signed for, and completed by a transaction. -/
def inputs : List TradeMsg :=
  [.msgTo (.price .usdt (some ⟨.fin 29000, .fin 30000⟩)), .connected, .reloadUtxo [Sample.coin],
    .timer, .sign ⟨9, "pset", details, none⟩, .complete ⟨9, some 55⟩]

end TradeSample

/-- A taken order is reported with the fee that the dealer has paid. -/
theorem taken_order_reported :
    let s := run (trade TradeSample.world TradeSample.params) (firstTrading TradeSample.world)
      TradeSample.inputs
    reports s.worker.log = [⟨55, .usdt, 10010000, true⟩] ∧
      ∃ done late, (account s.worker.log).completions = done ++ late ∧
        List.Forall₂ Reports done (reports s.worker.log) ∧ late.length ≤ 1 ∧
        (s.stopped = false → late = []) := by
  have hstart : Trades TradeSample.world TradeSample.params (firstTrading TradeSample.world) :=
    .start rfl
  refine ⟨by decide +kernel, swaps_reported_once (hstart.run TradeSample.inputs ?_)⟩
  decide +kernel

/-- The same order is taken and signed for. -/
theorem taken_order_pays :
    let s := run (trade TradeSample.world TradeSample.params) (firstTrading TradeSample.world)
      TradeSample.inputs
    (account s.worker.log).taken 9 = true ∧ Justified (Fair TradeSample.params) s.worker.log := by
  have hstart : Trades TradeSample.world TradeSample.params (firstTrading TradeSample.world) :=
    .start rfl
  refine ⟨by decide +kernel, trades_pay_interest (hstart.run TradeSample.inputs ?_)⟩
  decide +kernel

end OrderDealer
