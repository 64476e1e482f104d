import SideSwap.HedgeWatch
import SideSwap.DealerQueues

/-! # The threads of the Bitfinex dealer

    The loop of `main` and the loop of the order dealer run side by side in one
    process.  Each sends to the other through a queue; the messages of the
    outside, and the queues, are taken in any order.  A panic in one of the two
    ends both.

    What the two halves guarantee adds up to what the process is for: the order
    dealer trades at prices that the exchange has published, and what it trades
    is hedged there, each swap once. -/

namespace DealerThreads

open Api Program Pricing Transition History Relation
open OrderDealer (DealerTicker PricePair To From SwapSucceed TradeMsg TradeEvent TradeWorld
  TradeParams Trading Completion Reports reports tell toldOf takenTolds told_received dealer_told
  swapIn reports_sent takenTolds_receipts receipts_trade trade_grows)

/-! ## The process -/

/-- The `Params` that `main` starts the order dealer with. -/
def dealerParams (args : Exchange.Args) (submit min max : Int) : TradeParams where
  policyAsset := args.policyAsset
  interestSubmitUsdt := Exchange.interestDefaultUsdt
  interestSubmitEurx := Exchange.interestDefaultEurx
  tickers := Exchange.sortedTickers
  bitcoinAmountSubmit := submit
  bitcoinAmountMin := min
  interestSignUsdt := 10050 / 10000
  interestSignEurx := 10025 / 10000
  bitcoinAmountMax := max
  assetUsdt := args.assetUsdt
  assetEurx := args.assetEurx

/-- The outside of the process, and how it is configured. -/
structure Setup where
  exchange : Exchange.World
  market : TradeWorld
  args : Exchange.Args
  bitcoinAmountSubmit : Int
  bitcoinAmountMin : Int
  bitcoinAmountMax : Int

def Setup.params (setup : Setup) : TradeParams :=
  dealerParams setup.args setup.bitcoinAmountSubmit setup.bitcoinAmountMin setup.bitcoinAmountMax

/-- The two threads and the queues between them. -/
structure Threads where
  main : Exchange.System
  dealer : Trading
  toDealer : List To
  toMain : List From

inductive Input where
  /-- a message from outside to `main` -/
  | main (msg : Exchange.Msg)
  /-- `main` takes a message of the order dealer -/
  | mainTakes
  /-- a message from outside to the order dealer -/
  | dealer (msg : TradeMsg)
  /-- the order dealer takes a message of `main` -/
  | dealerTakes

/-- The message does not come from the other thread. -/
def Input.External : Input → Prop
  | .main msg => ∀ msg', msg ≠ .dealer msg'
  | .dealer msg => ∀ msg', msg ≠ .msgTo msg'
  | _ => True

/-- What an event of `main` sends to the order dealer. -/
def sentToDealer : Exchange.Event → Option To
  | .toDealer msg => some msg
  | _ => none

/-- `main` handles a message. -/
def mainStep (setup : Setup) (t : Threads) (msg : Exchange.Msg) : Threads :=
  let main := Exchange.step setup.exchange setup.args t.main (.message msg)
  { t with main, toDealer := t.toDealer ++ news sentToDealer t.main.data.log main.data.log }

/-- The order dealer handles a message. -/
def dealerStep (setup : Setup) (t : Threads) (msg : TradeMsg) : Threads :=
  let dealer := OrderDealer.trade setup.market setup.params t.dealer msg
  { t with dealer, toMain := t.toMain ++ news TradeEvent.sent? t.dealer.worker.log dealer.worker.log }

/-- One of the threads moves, while both of them run. -/
def step (setup : Setup) (t : Threads) (i : Input) : Threads :=
  if t.main.stopped || t.dealer.stopped then t
  else match i with
    | .main msg => mainStep setup t msg
    | .mainTakes =>
        match t.toMain with
        | [] => t
        | msg :: toMain => mainStep setup { t with toMain } (.dealer msg)
    | .dealer msg => dealerStep setup t msg
    | .dealerTakes =>
        match t.toDealer with
        | [] => t
        | msg :: toDealer => dealerStep setup { t with toDealer } (.msgTo msg)

/-- Both threads are started with empty queues. -/
def first (setup : Setup) : Threads where
  main := Exchange.first setup.exchange
  dealer := OrderDealer.firstTrading setup.market
  toDealer := []
  toMain := []

/-- The states of the process's runs. -/
abbrev Runs (setup : Setup) : Threads → Prop :=
  Reach (· = first setup) (step setup) fun _ i => i.External

/-! ## The logs grow -/

theorem act_grows {world : Exchange.World} {args : Exchange.Args} {b b' : Exchange.Book}
    (h : Exchange.Act world args b b') : b.log <+: b'.log := by
  cases h with
  | withdraw => exact (List.prefix_append _ _).trans (List.prefix_append _ _)
  | swap _ => exact (List.prefix_append _ _).trans (List.prefix_append _ _)
  | done _ _ _ _ => exact (List.prefix_append _ _).trans (List.prefix_append _ _)
  | _ => exact List.prefix_append _ _

theorem acts_grow {world : Exchange.World} {args : Exchange.Args} {b b' : Exchange.Book}
    (h : ReflTransGen (Exchange.Act world args) b b') : b.log <+: b'.log := by
  induction h with
  | refl => exact List.prefix_rfl
  | tail _ hact ih => exact ih.trans (act_grows hact)

theorem exchange_grows (world : Exchange.World) (args : Exchange.Args) (s : Exchange.System)
    (msg : Exchange.Msg) :
    s.data.log <+: (Exchange.step world args s (.message msg)).data.log := by
  simp only [Exchange.step]
  split
  · exact List.prefix_rfl
  · rcases Exchange.processLoop_cases world args (world.now s.data.log) msg
      s.data with hacts | ⟨b, p, data', hreach, hexec, hlog⟩
    · have hgrow := acts_grow hacts
      simp only [Exchange.finish]
      split <;> next hexec =>
        rw [hexec] at hgrow
        exact hgrow
    · simp only [Exchange.finish, hexec]
      rw [hlog]
      exact (acts_grow hreach).trans (List.prefix_append _ _)

/-! ## What `main` has taken -/

/-- The swap of a message of the order dealer. -/
def swapOfMsg : Exchange.Msg → Option SwapSucceed
  | .dealer (.swap swap) => some swap
  | _ => none

def swapOf : Exchange.Event → Option SwapSucceed
  | .received _ msg => swapOfMsg msg
  | _ => none

/-- The swaps that `main` was told. -/
def takenSwaps (log : List Exchange.Event) : List SwapSucceed := log.filterMap swapOf

/-- An order is sent to the exchange, or given up, or a transfer is requested. -/
def isWait : Exchange.Event → Bool
  | .toModule (.orderSubmit _ _ _ _) => true
  | .posted (.cli _) => true
  | .notice (.orderTimeout _) => true
  | _ => false

theorem waits_append {v v' : Exchange.Waits} (h : ReflTransGen Exchange.Wait v v') :
    ∃ es, v'.2 = v.2 ++ es ∧ ∀ e ∈ es, isWait e = true := by
  induction h with
  | refl => exact ⟨[], (List.append_nil _).symm, List.forall_mem_nil _⟩
  | tail _ hw ih =>
      obtain ⟨es, heq, hall⟩ := ih
      have hone : ∀ e : Exchange.Event, isWait e = true →
          ∀ e' ∈ es ++ [e], isWait e' = true := by
        intro e he e' hmem
        rcases List.mem_append.mp hmem with hmem | hmem
        · exact hall e' hmem
        · rw [List.mem_singleton.mp hmem]
          exact he
      cases hw with
      | submit => exact ⟨es ++ [_], by rw [heq, List.append_assoc], hone _ rfl⟩
      | timeout => exact ⟨es ++ [_], by rw [heq, List.append_assoc], hone _ rfl⟩
      | propose => exact ⟨es ++ [_], by rw [heq, List.append_assoc], hone _ rfl⟩

/-- `main` notes the message of a turn once. -/
theorem loud_step {world : Exchange.World} {args : Exchange.Args} {s : Exchange.System}
    {msg : Exchange.Msg} (hrun : (Exchange.step world args s (.message msg)).stopped = false)
    (hbefore : s.stopped = false) :
    ∃ es, (Exchange.step world args s (.message msg)).data.log.filter Exchange.Event.isLoud =
        s.data.log.filter Exchange.Event.isLoud ++ [.received (world.now s.data.log) msg] ++ es ∧
      ∀ e ∈ es, isWait e = true := by
  simp only [Exchange.step, hbefore, Bool.false_eq_true, if_false, Exchange.finish] at hrun ⊢
  split at hrun
  · cases hrun
  · next data' hexec =>
      obtain ⟨data1, hwaits, hexec⟩ := Exchange.processLoop_waits hexec
      have hnoted : (data1.emit (.received (world.now s.data.log) msg)).waits.2 =
          s.data.log.filter Exchange.Event.isLoud ++ [.received (world.now s.data.log) msg] := by
        rw [Exchange.emit_loud rfl, hwaits]
        rfl
      by_cases hconfirm : ∃ cid, msg = .orderConfirm cid
      · obtain ⟨cid, rfl⟩ := hconfirm
        cases hexec
        exact ⟨[], hnoted.trans (List.append_nil _).symm, List.forall_mem_nil _⟩
      · have hreach := Exchange.processMsg_waits world args
          (world.now s.data.log) (fun cid heq => hconfirm ⟨cid, heq⟩)
          (data1.emit (.received (world.now s.data.log) msg))
        simp only [Leads] at hreach
        rw [hexec] at hreach
        obtain ⟨es, heq, hall⟩ := waits_append hreach
        rw [hnoted] at heq
        exact ⟨es, heq, hall⟩

theorem takenSwaps_loud (log : List Exchange.Event) :
    takenSwaps (log.filter Exchange.Event.isLoud) = takenSwaps log := by
  have hquiet : (fun e : Exchange.Event => if e.isLoud then swapOf e else none) = swapOf := by
    funext e
    cases e with
    | received now msg => rfl
    | _ => exact ite_self _
  rw [takenSwaps, List.filterMap_filter, hquiet]
  rfl

/-- `main` takes a swap with its message, once. -/
theorem takenSwaps_step {world : Exchange.World} {args : Exchange.Args} {s : Exchange.System}
    {msg : Exchange.Msg} (hrun : (Exchange.step world args s (.message msg)).stopped = false)
    (hbefore : s.stopped = false) :
    takenSwaps (Exchange.step world args s (.message msg)).data.log =
      takenSwaps s.data.log ++ (swapOfMsg msg).toList := by
  obtain ⟨es, heq, hall⟩ := loud_step hrun hbefore
  have hwaits : es.filterMap swapOf = [] := by
    refine List.filterMap_eq_nil_iff.mpr fun e hmem => ?_
    have he := hall e hmem
    cases e with
    | received now msg => cases he
    | _ => rfl
  rw [← takenSwaps_loud, heq, takenSwaps, List.filterMap_append, hwaits, List.append_nil,
    List.filterMap_append]
  refine congrArg₂ (· ++ ·) (takenSwaps_loud s.data.log) ?_
  cases hswap : swapOfMsg msg with
  | none => exact List.filterMap_cons_none (f := swapOf) hswap
  | some swap => exact List.filterMap_cons_some (f := swapOf) hswap

/-- The process was not started anew. -/
def Unbroken (log : List Exchange.Event) : Prop := Exchange.Event.restarted ∉ log

theorem unbroken_step {world : Exchange.World} {args : Exchange.Args} {s : Exchange.System}
    {msg : Exchange.Msg} (hrun : (Exchange.step world args s (.message msg)).stopped = false)
    (hbefore : s.stopped = false) (h : Unbroken s.data.log) :
    Unbroken (Exchange.step world args s (.message msg)).data.log := by
  obtain ⟨es, heq, hall⟩ := loud_step hrun hbefore
  intro hmem
  have hloud : Exchange.Event.restarted ∈
      (Exchange.step world args s (.message msg)).data.log.filter Exchange.Event.isLoud :=
    List.mem_filter.mpr ⟨hmem, rfl⟩
  rw [heq] at hloud
  rcases List.mem_append.mp hloud with hloud | hloud
  · rcases List.mem_append.mp hloud with hloud | hloud
    · exact h (List.mem_filter.mp hloud).1
    · cases List.mem_singleton.mp hloud
  · cases hall _ hloud

/-- The swap of the order dealer, as `main` counts it. -/
def hedgeOf (swap : SwapSucceed) : Exchange.Hedge :=
  ⟨some swap.ticker, swap.bitcoinAmount, swap.sendBitcoins⟩

theorem receive_grows (args : Exchange.Args) (a : Exchange.Account) (msg : Exchange.Msg) :
    a.hedges <+: (a.receive args msg).hedges := by
  fun_cases Exchange.Account.receive args a msg with
  | case3 swap => exact List.prefix_append _ _
  | case4 swap => exact List.prefix_append _ _
  | _ => exact List.prefix_refl _

theorem hedges_grow (args : Exchange.Args) (a : Exchange.Account) {e : Exchange.Event}
    (h : e ≠ .restarted) : a.hedges <+: (a.record args e).hedges := by
  have hopened : a.opened.hedges = a.hedges := by
    simp only [Exchange.Account.opened]
    split
    · rfl
    · rfl
  fun_cases Exchange.Account.record args a e with
  | case1 now msg => exact receive_grows args a msg
  | case2 => exact absurd rfl h
  | case5 => rw [hopened]
  | case6 => rw [hopened]
  | case9 => exact List.prefix_refl _
  | _ => exact List.prefix_refl _

/-- Since the start `main` counts all the swaps that it was told. -/
theorem takenSwaps_sublist (args : Exchange.Args) {log : List Exchange.Event} (h : Unbroken log) :
    ((takenSwaps log).map hedgeOf).Sublist (Exchange.account args log).hedges := by
  induction log using List.reverseRecOn with
  | nil => exact .slnil
  | append_singleton log e ih =>
      have ih := ih fun hmem => h (List.mem_append_left _ hmem)
      have he : e ≠ .restarted := by
        rintro rfl
        exact h (List.mem_append_right _ List.mem_cons_self)
      rw [Exchange.account_concat, takenSwaps, List.filterMap_append]
      cases hswap : swapOf e with
      | none =>
          rw [List.filterMap_cons_none hswap, List.filterMap_nil, List.append_nil]
          exact ih.trans (hedges_grow args _ he).sublist
      | some swap =>
          have hmsg : ∃ now, e = .received now (.dealer (.swap swap)) := by
            simp only [swapOf, swapOfMsg] at hswap
            split at hswap
            · next now msg =>
                split at hswap
                · cases hswap
                  exact ⟨now, rfl⟩
                · cases hswap
            · cases hswap
          obtain ⟨now, rfl⟩ := hmsg
          rw [List.filterMap_cons_some hswap, List.filterMap_nil, List.map_append]
          exact ih.append (List.Sublist.refl _)

/-! ## What was told -/

/-- What `main` tells changes the prices of its account. -/
theorem main_told_record (args : Exchange.Args) (a : Exchange.Account) {e : Exchange.Event}
    (h : e ≠ .restarted) :
    (a.record args e).told = (sentToDealer e).elim a.told (tell a.told) := by
  cases e with
  | received now msg =>
      simp only [Exchange.Account.record]
      fun_cases Exchange.Account.receive args a msg with
      | _ => rfl
  | restarted => exact absurd rfl h
  | toDealer msg => cases msg <;> rfl
  | request req res =>
      have hopened : a.opened.told = a.told := by
        simp only [Exchange.Account.opened]
        split
        · rfl
        · rfl
      simp only [Exchange.Account.record]
      split
      all_goals first | rfl | exact hopened | next heq => cases heq
  | toModule msg => cases msg <;> rfl
  | _ => rfl

/-- The prices that `main` has told are those after all that it has sent. -/
theorem main_told (args : Exchange.Args) {log : List Exchange.Event} (h : Unbroken log) :
    (Exchange.account args log).told = (log.filterMap sentToDealer).foldl tell fun _ => none := by
  induction log using List.reverseRecOn with
  | nil => rfl
  | append_singleton log e ih =>
      have ih := ih fun hmem => h (List.mem_append_left _ hmem)
      have he : e ≠ .restarted := by
        rintro rfl
        exact h (List.mem_append_right _ List.mem_cons_self)
      rw [Exchange.account_concat, main_told_record args _ he, ih, List.filterMap_append]
      cases hsent : sentToDealer e with
      | none =>
          rw [List.filterMap_cons_none hsent, List.filterMap_nil, List.append_nil, Option.elim_none]
      | some msg =>
          rw [List.filterMap_cons_some hsent, List.filterMap_nil, List.foldl_concat, Option.elim_some]

/-! ## Nothing is lost between the threads -/

/-- Both threads are sound; what one has sent the other has received, or it is still in the
    queue.  A `main` that has stopped may have lost the message it was handed last. -/
structure Threads.Linked (setup : Setup) (t : Threads) : Prop where
  main : t.main.Sound setup.exchange setup.args
  dealer : t.dealer.Sound setup.params
  told : takenTolds t.dealer.worker.log ++ t.toDealer = t.main.data.log.filterMap sentToDealer
  swaps : t.main.stopped = false →
    takenSwaps t.main.data.log ++ t.toMain.filterMap swapIn = reports t.dealer.worker.log
  unbroken : t.main.stopped = false → Unbroken t.main.data.log

section Linked

variable {setup : Setup} {t : Threads}

/-- `main` takes a message: from outside, or the next swap of the queue. -/
theorem mainStep_linked {msg : Exchange.Msg} (hrun : t.main.stopped = false)
    (hmain : t.main.Sound setup.exchange setup.args) (hdealer : t.dealer.Sound setup.params)
    (htold : takenTolds t.dealer.worker.log ++ t.toDealer = t.main.data.log.filterMap sentToDealer)
    (hswaps : takenSwaps t.main.data.log ++ (swapOfMsg msg).toList ++ t.toMain.filterMap swapIn =
      reports t.dealer.worker.log)
    (hunbroken : Unbroken t.main.data.log) : (mainStep setup t msg).Linked setup where
  main := Exchange.step_sound hmain (.message msg)
  dealer := hdealer
  told := by
    simp only [mainStep]
    rw [filterMap_news sentToDealer (exchange_grows setup.exchange setup.args t.main msg),
      ← htold, List.append_assoc]
  swaps := by
    intro hrun'
    simp only [mainStep] at hrun' ⊢
    rw [takenSwaps_step hrun' hrun, hswaps]
  unbroken := fun hrun' => unbroken_step hrun' hrun hunbroken

/-- The order dealer takes a message: from outside, or the next one of the queue. -/
theorem dealerStep_linked {msg : TradeMsg} (hrun : t.dealer.stopped = false)
    (hmain : t.main.Sound setup.exchange setup.args) (hdealer : t.dealer.Sound setup.params)
    (htold : takenTolds t.dealer.worker.log ++ (toldOf msg).toList ++ t.toDealer =
      t.main.data.log.filterMap sentToDealer)
    (hswaps : t.main.stopped = false →
      takenSwaps t.main.data.log ++ t.toMain.filterMap swapIn = reports t.dealer.worker.log)
    (hunbroken : t.main.stopped = false → Unbroken t.main.data.log) :
    (dealerStep setup t msg).Linked setup where
  main := hmain
  dealer := OrderDealer.trade_sound hdealer msg
  told := by
    simp only [dealerStep]
    rw [takenTolds_receipts, receipts_trade hrun, List.filterMap_append, ← takenTolds_receipts,
      ← htold]
    refine congrArg (takenTolds t.dealer.worker.log ++ · ++ t.toDealer) ?_
    cases htaken : toldOf msg with
    | none => exact List.filterMap_cons_none htaken
    | some msg' => exact List.filterMap_cons_some htaken
  swaps := by
    intro hrun'
    simp only [dealerStep] at hrun' ⊢
    have hgrow := trade_grows setup.market hdealer msg
    rw [reports_sent, filterMap_news TradeEvent.sent? hgrow, List.filterMap_append, List.filterMap_append,
      ← reports_sent, ← hswaps hrun', List.append_assoc]
  unbroken := hunbroken

/-- **ONE MOVE** of either thread loses nothing. -/
theorem step_linked {i : Input} (h : t.Linked setup) (hok : i.External) :
    (step setup t i).Linked setup := by
  simp only [step]
  split
  · exact h
  · next hrun =>
      simp only [Bool.or_eq_true, not_or, Bool.not_eq_true] at hrun
      obtain ⟨hmain, hdealer⟩ := hrun
      cases i with
      | main msg =>
          refine mainStep_linked hmain h.main h.dealer h.told ?_ (h.unbroken hmain)
          have hnone : swapOfMsg msg = none := by
            fun_cases swapOfMsg msg with
            | case1 swap => exact absurd rfl (hok _)
            | case2 => rfl
          rw [hnone, Option.toList_none, List.append_nil]
          exact h.swaps hmain
      | mainTakes =>
          dsimp only
          split
          · exact h
          · next msg toMain hqueue =>
              refine mainStep_linked (t := { t with toMain }) hmain h.main h.dealer h.told ?_
                (h.unbroken hmain)
              have hswaps := h.swaps hmain
              rw [hqueue] at hswaps
              rw [← hswaps, List.append_assoc]
              refine congrArg (takenSwaps t.main.data.log ++ ·) ?_
              cases msg with
              | swap swap => rfl
              | walletBalanceUpdated => rfl
      | dealer msg =>
          refine dealerStep_linked hdealer h.main h.dealer ?_ h.swaps h.unbroken
          have hnone : toldOf msg = none := by
            fun_cases toldOf msg with
            | case1 msg => exact absurd rfl (hok _)
            | case2 => rfl
          rw [hnone, Option.toList_none, List.append_nil]
          exact h.told
      | dealerTakes =>
          dsimp only
          split
          · exact h
          · next msg toDealer hqueue =>
              refine dealerStep_linked (t := { t with toDealer }) hdealer h.main h.dealer ?_
                h.swaps h.unbroken
              have htold := h.told
              rw [hqueue] at htold
              rw [← htold, List.append_assoc]
              rfl

theorem first_linked : (first setup).Linked setup where
  main := Exchange.reaches_sound (.start rfl)
  dealer := OrderDealer.trades_sound (.start rfl)
  told := rfl
  swaps := fun _ => rfl
  unbroken := fun _ => List.not_mem_nil

theorem runs_linked (h : Runs setup t) : t.Linked setup := by
  refine h.invariant ?_ ?_
  · rintro t rfl
    exact first_linked
  · intro t i _ hlinked hok
    exact step_linked hlinked hok

end Linked

/-! ## Every trade is hedged -/

/-- What the dealer pays or gets for a completed order. -/
def signedAmount (c : Completion) : Int :=
  MachineInt.i64 (
    if c.details.sendBitcoins then c.details.bitcoinAmount + c.details.serverFee
    else c.details.bitcoinAmount - c.details.serverFee)

/-- It is worth an order on the exchange. -/
def isBig (c : Completion) : Bool := decide (Exchange.minHedgeAmount ≤ toBitcoin (signedAmount c))

/-- An order on the exchange hedges a completed order: the amount that was signed for, with
    the fee of the exchange if it is bought, in the book of the asset. -/
structure Covered (args : Exchange.Args) (c : Completion) (order : ℚ × String) : Prop where
  amount : order.1 = args.signedBitcoinAmount (signedAmount c) c.details.sendBitcoins
  book : ∃ asset ∈ c.assets, ∃ ticker : DealerTicker, asset.assetId = c.details.asset ∧
    asset.ticker = ticker.text ∧ args.bookName ticker = some order.2

/-- A report, and the order for the reported swap. -/
theorem covered_of_reports {args : Exchange.Args} {c : Completion} {swap : SwapSucceed}
    {order : ℚ × String} (h : Reports c swap) (hhedges : Exchange.Hedges args (hedgeOf swap) order) :
    Covered args c order := by
  obtain ⟨asset, hmem, hid, hname⟩ := h.ticker
  obtain ⟨ticker, hticker, hbook⟩ := hhedges.book
  cases hticker
  refine ⟨?_, asset, hmem, swap.ticker, hid, hname, hbook⟩
  rw [hhedges.amount]
  exact congrArg₂ args.signedBitcoinAmount h.amount h.sendBitcoins

theorem isBig_of_reports {c : Completion} {swap : SwapSucceed} (h : Reports c swap) :
    isBig c = (hedgeOf swap).isBig := by
  simp only [isBig, Exchange.Hedge.isBig, hedgeOf, h.amount]
  rfl

/-- What is paired with a list is paired with a part of it. -/
theorem forall₂_sublist {α β : Type} {R : α → β → Prop} {as as' : List α} {bs : List β}
    (h : List.Forall₂ R as bs) (hsub : as'.Sublist as) :
    ∃ bs', bs'.Sublist bs ∧ List.Forall₂ R as' bs' := by
  induction hsub generalizing bs with
  | slnil => exact ⟨[], List.nil_sublist bs, .nil⟩
  | cons a _ ih =>
      cases h with
      | @cons _ b _ bs _ h =>
          obtain ⟨bs', hbs, hall⟩ := ih h
          exact ⟨bs', hbs.cons b, hall⟩
  | cons_cons a _ ih =>
      cases h with
      | @cons _ b _ bs hab h =>
          obtain ⟨bs', hbs, hall⟩ := ih h
          exact ⟨b :: bs', hbs.cons_cons b, .cons hab hall⟩

/-- Two pairings make one. -/
theorem forall₂_comp {α β γ : Type} {R : α → β → Prop} {S : β → γ → Prop} {T : α → γ → Prop}
    (hT : ∀ a b c, R a b → S b c → T a c) {as : List α} {bs : List β} {cs : List γ}
    (h : List.Forall₂ R as bs) (h' : List.Forall₂ S bs cs) : List.Forall₂ T as cs := by
  induction h generalizing cs with
  | nil =>
      cases h'
      exact .nil
  | cons hab _ ih =>
      cases h' with
      | cons hbc h' => exact .cons (hT _ _ _ hab hbc) (ih h')

section Results

variable {setup : Setup} {t : Threads}

/-- **EVERY TRADE IS HEDGED ONCE**: while both threads run, the completed orders are those
    whose swaps `main` has taken, in their order, and then those whose swaps wait in the
    queue.  The former, as far as they are worth it, have an order on the exchange each. -/
theorem trades_hedged_once (h : Runs setup t) (hmain : t.main.stopped = false)
    (hdealer : t.dealer.stopped = false) :
    ∃ done waiting orders,
      (OrderDealer.account t.dealer.worker.log).completions = done ++ waiting ∧
      List.Forall₂ Reports waiting (t.toMain.filterMap swapIn) ∧
      orders.Sublist (Exchange.account setup.args t.main.data.log).submits ∧
      List.Forall₂ (Covered setup.args) (done.filter isBig) orders := by
  have hlinked := runs_linked h
  have hreported : List.Forall₂ Reports (OrderDealer.account t.dealer.worker.log).completions
      (reports t.dealer.worker.log) := (hlinked.dealer.tables hdealer).reported
  have hhedged := (hlinked.main.tables hmain).hedged
  have htaken := takenSwaps_sublist setup.args (hlinked.unbroken hmain)
  rw [← hlinked.swaps hmain] at hreported
  have hdone := List.forall₂_take_append _ _ _ hreported
  have hwaiting := List.forall₂_drop_append _ _ _ hreported
  obtain ⟨orders, hsub, horders⟩ :=
    forall₂_sublist hhedged (htaken.filter Exchange.Hedge.isBig)
  have hbig : List.Forall₂ Reports
      ((List.take (takenSwaps t.main.data.log).length
        (OrderDealer.account t.dealer.worker.log).completions).filter isBig)
      ((takenSwaps t.main.data.log).filter (Exchange.Hedge.isBig ∘ hedgeOf)) := by
    refine List.rel_filter (fun c swap hreports => ?_) hdone
    exact Iff.of_eq (congrArg (· = true) (isBig_of_reports hreports))
  rw [List.filter_map, List.forall₂_map_left_iff] at horders
  refine ⟨_, _, orders, (List.take_append_drop _ _).symm, hwaiting, hsub, ?_⟩
  refine forall₂_comp (fun c swap order hreports hhedges => ?_) hbig horders
  exact covered_of_reports hreports hhedges

/-! ## The prices of the trades -/

/-- The exchange has published a price in the book of a ticker. -/
def Published (args : Exchange.Args) (log : List Exchange.Event) (ticker : DealerTicker)
    (pair : PricePair) : Prop :=
  ∃ now bookName, .received now (.bookUpdate bookName pair) ∈ log ∧
    args.bookTicker bookName = some ticker

/-- The terms pay an interest over a price that the exchange has published. -/
def Earns (setup : Setup) (published : List Exchange.Event) (usdt eurx : ℚ)
    (assets : List Asset) (details : Details) : Prop :=
  ∃ asset ticker pair interest, assets.find? (·.assetId == details.asset) = some asset ∧
    OrderDealer.tickerFromAsset asset = some ticker ∧
    setup.params.interestOf usdt eurx details.asset = .ok interest ∧
    Published setup.args published ticker pair ∧
    OrderDealer.PaysInterest details.sendBitcoins pair interest
      (OrderDealer.actualPrice details asset)

/-- What the dealer signs or takes earns the interest that `main` has set for it. -/
def Earned (setup : Setup) (published : List Exchange.Event) (before : List TradeEvent) :
    TradeEvent → Prop
  | .request (.sign req) _ =>
      ∃ order, latest TradeEvent.received? before = some (.sign order) ∧
        order.orderId = req.orderId ∧
        Earns setup published (10050 / 10000) (10025 / 10000)
          (OrderDealer.account before).assets order.details
  | .request (.psetTaker req) _ =>
      ∃ order, (OrderDealer.account before).listed req.orderId = some order ∧
        Earns setup published (10075 / 10000) (10040 / 10000)
          (OrderDealer.account before).assets order.details
  | _ => True

/-- The message in hand after an event. -/
def presentAfter (present : Option Exchange.Msg) : Exchange.Event → Option Exchange.Msg
  | .received _ msg => some msg
  | .restarted => none
  | _ => present

theorem present_record (args : Exchange.Args) (a : Exchange.Account) (e : Exchange.Event) :
    (a.record args e).present = presentAfter a.present e := by
  have hopened : a.opened.present = a.present := by
    simp only [Exchange.Account.opened]
    split
    · rfl
    · rfl
  cases e with
  | request req res =>
      simp only [Exchange.Account.record]
      split
      all_goals first | rfl | exact hopened | next heq => cases heq
  | toDealer msg => cases msg <;> rfl
  | toModule msg => cases msg <;> rfl
  | _ => rfl

/-- The message that is handled was received. -/
theorem present_mem {args : Exchange.Args} {log : List Exchange.Event} {msg : Exchange.Msg}
    (h : (Exchange.account args log).present = some msg) : ∃ now, .received now msg ∈ log := by
  induction log using List.reverseRecOn with
  | nil => cases h
  | append_singleton log e ih =>
      rw [Exchange.account_concat, present_record] at h
      cases e with
      | received now msg' =>
          cases h
          exact ⟨now, List.mem_append_right _ List.mem_cons_self⟩
      | restarted => cases h
      | _ =>
          obtain ⟨now, hmem⟩ := ih h
          exact ⟨now, List.mem_append_left _ hmem⟩

/-- A price that the dealer was told was published. -/
theorem published_of_told (h : t.Linked setup) {n : Nat} {ticker : DealerTicker}
    {pair : PricePair}
    (htold : (OrderDealer.account (t.dealer.worker.log.take n)).told ticker = some pair) :
    Published setup.args t.main.data.log ticker pair := by
  have hreceived := List.mem_of_mem_take (told_received htold)
  have hsent : To.price ticker (some pair) ∈ t.main.data.log.filterMap sentToDealer := by
    rw [← h.told]
    exact List.mem_append_left _ (List.mem_filterMap.mpr ⟨_, hreceived, rfl⟩)
  obtain ⟨e, hmem, he⟩ := List.mem_filterMap.mp hsent
  have hevent : e = .toDealer (.price ticker (some pair)) := by
    cases e with
    | toDealer msg =>
        cases he
        rfl
    | _ => cases he
  obtain ⟨k, hk⟩ := List.mem_iff_getElem?.mp hmem
  rw [hevent] at hk
  obtain ⟨bookName, hpresent, hbook⟩ := h.main.fair k _ hk
  obtain ⟨now, hnow⟩ := present_mem hpresent
  exact ⟨now, bookName, List.mem_of_mem_take hnow, hbook⟩

theorem earns_of_pays (h : t.Linked setup) {n : Nat} {usdt eurx : ℚ} {details : Details}
    (hpays : OrderDealer.Pays setup.params usdt eurx
      (OrderDealer.account (t.dealer.worker.log.take n)) details) :
    Earns setup t.main.data.log usdt eurx
      (OrderDealer.account (t.dealer.worker.log.take n)).assets details := by
  obtain ⟨asset, ticker, pair, interest, hasset, hticker, htold, hinterest, hpays⟩ := hpays.pays
  exact ⟨asset, ticker, pair, interest, hasset, hticker, hinterest, published_of_told h htold, hpays⟩

/-- **TRADES AT PUBLISHED PRICES**: whatever the order dealer signs or takes pays its interest
    over a price that the exchange has published to `main` before. -/
theorem trades_earn (h : Runs setup t) :
    Justified (Earned setup t.main.data.log) t.dealer.worker.log := by
  have hlinked := runs_linked h
  intro n e he
  have hfair := hlinked.dealer.fair n e he
  fun_cases Earned setup t.main.data.log (t.dealer.worker.log.take n) e with
  | case1 req res =>
      obtain ⟨order, hlatest, hid, hpays⟩ := hfair
      exact ⟨order, hlatest, hid, earns_of_pays hlinked hpays⟩
  | case2 req res =>
      obtain ⟨-, order, hlisted, hpays⟩ := hfair
      exact ⟨order, hlisted, earns_of_pays hlinked hpays⟩
  | case3 => trivial

/-- **NO STALE PRICE**: once the order dealer has taken all that `main` has sent, the prices it
    trades at are those that `main` holds. -/
theorem prices_agree (h : Runs setup t) (hmain : t.main.stopped = false)
    (hdealer : t.dealer.stopped = false) (htaken : t.toDealer = []) {ticker : DealerTicker}
    {price : OrderDealer.PriceTimestamp}
    (hprice : t.dealer.worker.data.indexPrices ticker = some price) :
    (t.main.data.modulePrices ticker).map Exchange.Price.pair = some price.price := by
  have hlinked := runs_linked h
  have htold := hlinked.told
  rw [htaken, List.append_nil] at htold
  have hdealerTold : (OrderDealer.account t.dealer.worker.log).told ticker = some price.price :=
    (hlinked.dealer.tables hdealer).agrees.prices ticker price hprice
  have hmainTold : (t.main.data.modulePrices ticker).map Exchange.Price.pair =
      (Exchange.account setup.args t.main.data.log).told ticker :=
    (hlinked.main.tables hmain).agrees.prices ticker
  rw [dealer_told, htold, ← main_told setup.args (hlinked.unbroken hmain), ← hmainTold] at hdealerTold
  exact hdealerTold

end Results

namespace Sample

/-- A dealer of USDt, and servers that accept everything. -/
def setup : Setup where
  exchange := Exchange.Sample.world
  market := OrderDealer.TradeSample.world
  args := Exchange.Sample.args
  bitcoinAmountSubmit := 10000000
  bitcoinAmountMin := 10000
  bitcoinAmountMax := 20000000

/-- A price is published, and an order is taken at it, signed for, completed and hedged. -/
def inputs : List Input :=
  [.main .moduleConnected, .main (.bookUpdate "tBTCUST" ⟨.fin 29000, .fin 30000⟩), .dealerTakes,
    .dealer .connected, .dealer (.reloadUtxo [OrderDealer.Sample.coin]), .dealer .timer,
    .dealer (.sign ⟨9, "pset", OrderDealer.TradeSample.details, none⟩),
    .dealer (.complete ⟨9, some 55⟩), .mainTakes]

theorem runs : Runs setup (run (step setup) (first setup) inputs) := by
  have hstart : Runs setup (first setup) := .start rfl
  refine hstart.run inputs ?_
  simp [inputs, Allowed, Input.External]

end Sample

/-- The order that was taken is hedged with both fees. -/
theorem taken_order_hedged :
    let t := run (step Sample.setup) (first Sample.setup) Sample.inputs
    (Exchange.account Sample.setup.args t.main.data.log).submits =
        [(10027046 / 100000000, "tBTCUST")] ∧
      ∃ done waiting orders,
        (OrderDealer.account t.dealer.worker.log).completions = done ++ waiting ∧
        List.Forall₂ Reports waiting (t.toMain.filterMap swapIn) ∧
        orders.Sublist (Exchange.account Sample.setup.args t.main.data.log).submits ∧
        List.Forall₂ (Covered Sample.setup.args) (done.filter isBig) orders := by
  refine ⟨by decide +kernel, trades_hedged_once Sample.runs ?_ ?_⟩
  · decide +kernel
  · decide +kernel

/-- It was taken and signed for at the published price. -/
theorem taken_order_earns :
    let t := run (step Sample.setup) (first Sample.setup) Sample.inputs
    (OrderDealer.account t.dealer.worker.log).taken 9 = true ∧
      Justified (Earned Sample.setup t.main.data.log) t.dealer.worker.log := by
  exact ⟨by decide +kernel, trades_earn Sample.runs⟩

/-- Both threads hold the published price. -/
theorem taken_price_agrees :
    let t := run (step Sample.setup) (first Sample.setup) Sample.inputs
    (t.main.data.modulePrices .usdt).map Exchange.Price.pair = some ⟨.fin 29000, .fin 30000⟩ := by
  intro t
  have hprice : t.dealer.worker.data.indexPrices .usdt =
      some ⟨⟨.fin 29000, .fin 30000⟩, 0⟩ := by
    decide +kernel
  refine prices_agree Sample.runs ?_ ?_ ?_ hprice
  · decide +kernel
  · decide +kernel
  · decide +kernel

end DealerThreads
