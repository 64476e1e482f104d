import SideSwap.HedgedSwaps

/-! # The orders that the exchange has to confirm

    An order that is sent to the exchange is pending until it is confirmed.  Once
    half a minute has passed the next timer message gives it up, with an alarm.
    So no order is forgotten: at any such message it has been confirmed or
    reported, unless its id, a time in milliseconds, was used again. -/

namespace Exchange

open Api Program Pricing Transition History Relation
open OrderDealer (DealerTicker PricePair From SwapSucceed)

/-! ## The history -/

/-- The pending orders, with their times and the timer messages since. -/
abbrev Watch := Int → Option (Nat × List Nat)

/-- The pending orders after an event. -/
def watchAfter (watch : Watch) : Event → Watch
  | .restarted => fun _ => none
  | .received now .timer => fun cid => (watch cid).map fun order => (order.1, order.2 ++ [now])
  | .received _ (.orderConfirm cid) => Function.update watch cid none
  | .notice (.orderTimeout cid) => Function.update watch cid none
  | .toModule (.orderSubmit time cid _ _) => Function.update watch cid (some (time, []))
  | _ => watch

/-- The pending orders of a history. -/
def watch (log : List Event) : Watch := log.foldl watchAfter fun _ => none

theorem watch_concat (log : List Event) (e : Event) :
    watch (log ++ [e]) = watchAfter (watch log) e := by
  simp [watch]

/-- The event ends the wait for an order. -/
def Event.settles (cid : Int) : Event → Bool
  | .restarted => true
  | .received _ (.orderConfirm cid') => cid' == cid
  | .notice (.orderTimeout cid') => cid' == cid
  | .toModule (.orderSubmit _ cid' _ _) => cid' == cid
  | _ => false

/-- The time of a timer message. -/
def Event.timer? : Event → Option Nat
  | .received now .timer => some now
  | _ => none

/-- An event that does not end the wait leaves the order, and counts if it is a timer message. -/
theorem watchAfter_unsettled {w : Watch} {cid : Int} {time : Nat} {timers : List Nat} {e : Event}
    (h : w cid = some (time, timers)) (he : e.settles cid = false) :
    watchAfter w e cid = some (time, timers ++ e.timer?.toList) := by
  have hother : ∀ cid', (cid' == cid) = false → ∀ order,
      Function.update w cid' order cid = some (time, timers ++ (none : Option Nat).toList) := by
    intro cid' hne order
    rw [Function.update_of_ne (beq_eq_false_iff_ne.mp hne).symm, h, Option.toList_none,
      List.append_nil]
  have hsame : w cid = some (time, timers ++ (none : Option Nat).toList) := by
    rw [h, Option.toList_none, List.append_nil]
  cases e with
  | restarted => cases he
  | received now msg =>
      cases msg with
      | timer =>
          simp only [watchAfter, h, Option.map_some]
          rfl
      | orderConfirm cid' => exact hother cid' he none
      | _ => exact hsame
  | notice notice =>
      cases notice with
      | orderTimeout cid' => exact hother cid' he none
      | _ => exact hsame
  | toModule msg =>
      cases msg with
      | orderSubmit time' cid' amount bookName => exact hother cid' he (some (time', []))
      | _ => exact hsame
  | _ => exact hsame

/-- An order that nothing settles is pending. -/
theorem watch_of_unsettled (before : List Event) {after : List Event} {cid : Int} (time : Nat)
    (amount : ℚ) (bookName : String) (h : ∀ e ∈ after, e.settles cid = false) :
    watch (before ++ .toModule (.orderSubmit time cid amount bookName) :: after) cid =
      some (time, after.filterMap Event.timer?) := by
  induction after using List.reverseRecOn with
  | nil =>
      rw [watch_concat]
      exact Function.update_self ..
  | append_singleton after e ih =>
      have ih := ih fun e' he' => h e' (List.mem_append_left _ he')
      have he := h e (List.mem_append_right _ List.mem_cons_self)
      rw [← List.cons_append, ← List.append_assoc, watch_concat, watchAfter_unsettled ih he,
        List.filterMap_append, List.filterMap_cons, List.filterMap_nil]
      cases e.timer? with
      | none => rfl
      | some now => rfl

/-! ## The handlers -/

/-- The events that matter to the pending orders, and the requests for a transfer; the
    others are quiet. -/
def Event.isLoud : Event → Bool
  | .received _ _ => true
  | .restarted => true
  | .posted (.cli _) => true
  | .notice (.orderTimeout _) => true
  | .toModule (.orderSubmit _ _ _ _) => true
  | _ => false

/-- The pending orders, and the history of what matters to them. -/
abbrev Waits := (Int → Option Nat) × List Event

def Data.waits (data : Data) : Waits :=
  (fun cid => data.pendingOrders[cid]?, data.log.filter Event.isLoud)

/-- The pending orders, the whole history, and the time of the last hedge. -/
abbrev Hedging := ((Int → Option Nat) × List Event) × Nat

def Data.hedging (data : Data) : Hedging :=
  ((fun cid => data.pendingOrders[cid]?, data.log), data.balancingBlocked)

/-- The same, and the balancing. -/
def Data.apart (data : Data) : Hedging × Dealer.Data := (data.hedging, data.balancing)

/-- A quiet event. -/
def Hush (v v' : Hedging) : Prop :=
  ∃ e : Event, e.isLoud = false ∧ v' = ((v.1.1, v.1.2 ++ [e]), v.2)

/-- A quiet event, which leaves the balancing alone. -/
def HushApart (v v' : Hedging × Dealer.Data) : Prop := Hush v.1 v'.1 ∧ v'.2 = v.2

/-- The quiet events change nothing. -/
theorem watchAfter_quiet {e : Event} (h : e.isLoud = false) (w : Watch) : watchAfter w e = w := by
  cases e with
  | restarted => cases h
  | received now msg => cases h
  | posted msg =>
      cases msg with
      | cli req => cases h
      | _ => rfl
  | notice notice =>
      cases notice with
      | orderTimeout cid => cases h
      | _ => rfl
  | toModule msg =>
      cases msg with
      | orderSubmit time cid amount bookName => cases h
      | _ => rfl
  | _ => rfl

theorem watch_loud (log : List Event) : watch (log.filter Event.isLoud) = watch log := by
  induction log using List.reverseRecOn with
  | nil => rfl
  | append_singleton log e ih =>
      rw [List.filter_append, List.filter_singleton, watch_concat]
      cases hloud : e.isLoud with
      | true =>
          rw [cond_true, watch_concat, ih]
      | false =>
          rw [cond_false, List.append_nil, ih, watchAfter_quiet hloud]

/-- The part that matters to the pending orders. -/
def Hedging.waits (v : Hedging) : Waits := (v.1.1, v.1.2.filter Event.isLoud)

theorem Hedging.waits_quiet {v : Hedging} {e : Event} (h : e.isLoud = false) :
    Hedging.waits ((v.1.1, v.1.2 ++ [e]), v.2) = v.waits := by
  refine Prod.ext rfl ?_
  show (v.1.2 ++ [e]).filter Event.isLoud = v.1.2.filter Event.isLoud
  rw [List.filter_append, List.filter_singleton, h, cond_false, List.append_nil]

section Handlers

variable {world : World} {args : Args}

theorem emit_loud {e : Event} (h : e.isLoud = true) (data : Data) :
    (data.emit e).waits = (data.waits.1, data.waits.2 ++ [e]) := by
  refine Prod.ext rfl ?_
  show (data.log ++ [e]).filter Event.isLoud = data.log.filter Event.isLoud ++ [e]
  rw [List.filter_append, List.filter_singleton, h, cond_true]

theorem emit_hush {e : Event} (h : e.isLoud = false) : Follows Data.apart HushApart (emit e) :=
  fun _ => .single ⟨⟨e, h, rfl⟩, rfl⟩

/-- What is quiet beside the balancing is quiet. -/
theorem hush_of_apart {α : Type} {p : Handler α} (h : Follows Data.apart HushApart p) :
    Follows Data.hedging Hush p :=
  h.lift Prod.fst fun _ _ hush => .single hush.1

theorem sendRequest_hush {α : Type} (req : Request) (value : Response → Option α) :
    Follows Data.apart HushApart (sendRequest world req value) := by
  have hnote : ∀ (data : Data) res,
      ReflTransGen HushApart data.apart (data.emit (.request req res)).apart :=
    fun data res => .single ⟨⟨_, rfl, rfl⟩, rfl⟩
  intro data
  rw [← bind_pure (sendRequest world req value)]
  exact Leads.request (fun res _ => hnote data res) (fun e => hnote data _) fun resp a _ => hnote data _

theorem balance_hush (msg : Dealer.Msg) : Follows Data.hedging Hush (balance world args msg) :=
  fun _ => .refl

theorem broadcastPrice_hush (now : Nat) (ticker : DealerTicker) :
    Follows Data.apart HushApart (broadcastPrice world args now ticker) := by
  intro data
  refine Leads.get ?_
  cases data.modulePrices ticker with
  | none => exact .refl
  | some price =>
      dsimp only
      split
      · refine Leads.ofPanic .refl fun asset _ => Leads.ofPanic .refl fun interest _ => ?_
        split
        · refine Leads.call (sendRequest_hush _ _) .refl fun _ data1 _ hreach => ?_
          refine Leads.commit hreach (Leads.ofPanic .refl fun list _ => ?_)
          refine Leads.call (sendRequest_hush _ _) .refl fun _ data2 _ hreach => ?_
          exact hreach
        · exact .refl
      · exact .refl

theorem startSwapDealer_hush (orderId : OrderId) (sendAsset : AssetId) :
    Follows Data.apart HushApart (startSwapDealer world orderId sendAsset) := by
  intro data
  refine Leads.get (Leads.ofPanic .refl fun inputs _ => ?_)
  refine Leads.ofPanic .refl fun recvAddr _ => Leads.ofPanic .refl fun changeAddr _ => ?_
  exact Leads.call (sendRequest_hush _ _) .refl fun _ _ _ hreach => hreach

theorem blindedSwapDealer_hush (orderId : OrderId) (pset : String) :
    Follows Data.apart HushApart (blindedSwapDealer world orderId pset) := by
  intro data
  refine Leads.get (Leads.ofPanic .refl fun slots _ => ?_)
  refine Leads.ofPanic .refl fun sendAsset _ => Leads.ofPanic .refl fun signed _ => ?_
  exact Leads.call (sendRequest_hush _ _) .refl fun _ _ _ hreach => hreach

theorem expirePrice_hush (now : Nat) (ticker : DealerTicker) :
    Follows Data.apart HushApart (expirePrice args now ticker) := by
  intro data
  refine Leads.get ?_
  cases data.modulePrices ticker with
  | none => exact .refl
  | some price =>
      dsimp only
      split
      · refine Leads.call (emit_hush rfl) .refl fun _ data1 _ hreach => ?_
        refine Leads.commit hreach (Leads.modify ?_)
        exact emit_hush rfl _
      · exact .refl

theorem reportExchangeBalances_hush : Follows Data.apart HushApart reportExchangeBalances := by
  intro data
  refine Leads.get ?_
  split
  · exact Leads.modify (emit_hush rfl _)
  · exact .refl

theorem reportProfits_hush (b : TimerBalances) :
    Follows Data.apart HushApart (reportProfits world args b) := by
  intro data
  refine Leads.get ?_
  cases data.profitReports with
  | none => exact .refl
  | some report =>
      dsimp only
      split
      · exact .refl
      · split
        · exact Leads.call (emit_hush rfl) .refl fun _ _ _ hreach => hreach
        · exact .refl

theorem reloadUtxo_hush (res : Except String (List WalletCoin)) :
    Follows Data.hedging Hush (reloadUtxo world args res) := by
  intro data
  refine Leads.ofPanic .refl fun unspent _ => Leads.get ?_
  refine Leads.call (balance_hush _) .refl fun _ data1 _ hreach => Leads.commit hreach ?_
  split
  · refine Leads.modify (Leads.call (hush_of_apart (emit_hush rfl)) .refl fun _ _ _ hreach => ?_)
    exact hreach
  · exact .refl

theorem processConnected_hush : Follows Data.hedging Hush (processConnected world args) := by
  have hkey : ∀ apiKey, Follows Data.hedging Hush (do
      let res ← sendRequest world (.loginDealer apiKey) fun resp =>
        if resp = .loginDealer then some () else none
      ofPanic (OrderDealer.expectOk res "dealer login failed")) := fun apiKey =>
    Follows.bind (hush_of_apart (sendRequest_hush _ _)) fun res => by
      intro data
      cases res with
      | ok _ => exact .refl
      | error _ => exact .refl
  intro data
  refine Leads.call (hush_of_apart (emit_hush rfl)) .refl fun _ _ _ hreach => Leads.commit hreach ?_
  refine Leads.call (Follows.forM hkey _) .refl fun _ _ _ hreach => Leads.commit hreach ?_
  refine Leads.call (hush_of_apart (sendRequest_hush _ _)) .refl fun res _ _ hreach => Leads.commit hreach ?_
  refine Leads.ofPanic .refl fun assets _ => ?_
  refine Leads.call (balance_hush _) .refl fun _ _ _ hreach => Leads.commit hreach ?_
  refine Leads.call (hush_of_apart (sendRequest_hush _ _)) .refl fun res _ _ hreach => Leads.commit hreach ?_
  refine Leads.ofPanic .refl fun login _ => ?_
  refine Leads.call (hush_of_apart (sendRequest_hush _ _)) .refl fun res _ _ hreach => Leads.commit hreach ?_
  exact Leads.ofPanic .refl fun _ _ => Leads.modify (hush_of_apart (emit_hush rfl) _)

theorem processModuleConnected_hush : Follows Data.hedging Hush (processModuleConnected world args) := by
  refine Follows.bind (balance_hush _) fun _ => ?_
  refine Follows.bind (hush_of_apart (emit_hush rfl)) fun _ => ?_
  refine Follows.bind (hush_of_apart (emit_hush rfl)) fun _ => ?_
  exact Follows.bind (Follows.forM (fun _ => hush_of_apart (emit_hush rfl)) _) fun _ =>
    hush_of_apart (emit_hush rfl)

theorem processModuleDisconnected_hush :
    Follows Data.hedging Hush (processModuleDisconnected world args) := by
  refine Follows.bind (balance_hush _) fun _ => ?_
  refine Follows.bind (hush_of_apart (emit_hush rfl)) fun _ => fun data => ?_
  refine Leads.modify (Leads.commit .refl ?_)
  exact Follows.forM (fun _ => hush_of_apart (emit_hush rfl)) _ _

theorem processBookUpdate_hush (now : Nat) (bookName : String) (pair : PricePair) :
    Follows Data.apart HushApart (processBookUpdate args now bookName pair) := by
  intro data
  refine Leads.ofPanic .refl fun ticker _ => Leads.get (Leads.modify ?_)
  refine Leads.call (emit_hush rfl) .refl fun _ data1 _ hreach => Leads.commit hreach ?_
  split
  · exact emit_hush rfl data1
  · exact .refl

theorem processWalletUpdate_hush (currency : String) (amount : Double) :
    Follows Data.hedging Hush (processWalletUpdate world args currency amount) := by
  intro data
  refine Leads.get ?_
  dsimp only
  split
  · refine Leads.call (Follows.forM (fun _ => hush_of_apart (emit_hush rfl)) _) .refl
      fun _ _ _ hreach => Leads.commit hreach ?_
    refine Leads.call (balance_hush _) .refl fun _ data1 _ hreach => Leads.commit hreach ?_
    split
    · exact hush_of_apart (emit_hush rfl) data1
    · exact .refl
  · exact .refl

/-! ## What ends or begins a wait -/

/-- A change of the pending orders, which their history follows. -/
inductive Wait : Waits → Waits → Prop where
  | submit {v time cid amount bookName} : Wait v (Function.update v.1 cid (some time),
      v.2 ++ [.toModule (.orderSubmit time cid amount bookName)])
  | timeout {v cid} : Wait v (Function.update v.1 cid none, v.2 ++ [.notice (.orderTimeout cid)])
  | propose {v req} : Wait v (v.1, v.2 ++ [.posted (.cli req)])

/-- The history knows the pending orders, and no timer message has found one that was older
    than half a minute, but for the message that is in hand. -/
structure Timely (present : Option Nat) (v : Waits) : Prop where
  agrees : ∀ cid, v.1 cid = (watch v.2 cid).map Prod.fst
  timers : ∀ cid time timers, watch v.2 cid = some (time, timers) →
    ∀ now ∈ timers, now - time ≤ 30000 ∨ present = some now

/-- One order begins or ends to wait. -/
theorem Timely.change {present : Option Nat} {v : Waits} (h : Timely present v) {cid : Int}
    {time : Option Nat} {e : Event}
    (he : watchAfter (watch v.2) e =
      Function.update (watch v.2) cid (time.map fun time => (time, []))) :
    Timely present (Function.update v.1 cid time, v.2 ++ [e]) := by
  constructor
  · intro cid'
    dsimp only
    rw [watch_concat, he]
    by_cases heq : cid' = cid
    · subst heq
      simp [Function.comp_def]
    · simp only [Function.update_of_ne heq]
      exact h.agrees cid'
  · intro cid' time' timers hfound now hmem
    dsimp only at hfound
    rw [watch_concat, he] at hfound
    by_cases heq : cid' = cid
    · subst heq
      rw [Function.update_self] at hfound
      obtain ⟨t, -, ht⟩ := Option.map_eq_some_iff.mp hfound
      cases ht
      cases hmem
    · rw [Function.update_of_ne heq] at hfound
      exact h.timers cid' time' timers hfound now hmem

theorem Wait.timely {present : Option Nat} {v v' : Waits} (hw : Wait v v')
    (h : Timely present v) : Timely present v' := by
  cases hw with
  | submit => exact h.change rfl
  | timeout => exact h.change rfl
  | @propose req =>
      have hsame : watch (v.2 ++ [.posted (.cli req)]) = watch v.2 := watch_concat ..
      refine ⟨fun cid => ?_, ?_⟩
      · rw [hsame]
        exact h.agrees cid
      · dsimp only
        rw [hsame]
        exact h.timers

theorem Timely.reach {present : Option Nat} {v v' : Waits} (h : Timely present v)
    (hreach : ReflTransGen Wait v v') : Timely present v' := by
  induction hreach with
  | refl => exact h
  | tail _ hw ih => exact hw.timely ih

theorem waits_of_hedging {α : Type} {p : Handler α} (h : Follows Data.hedging Hush p) :
    Follows Data.waits Wait p :=
  h.lift Hedging.waits fun v v' hush => by
    obtain ⟨e, he, rfl⟩ := hush
    rw [Hedging.waits_quiet he]

theorem waits_of_apart {α : Type} {p : Handler α} (h : Follows Data.apart HushApart p) :
    Follows Data.waits Wait p :=
  waits_of_hedging (hush_of_apart h)

theorem proposeBalancing_waits (now : Nat) (b : TimerBalances) :
    Follows Data.waits Wait (proposeBalancing world args now b) := by
  have hpropose : ∀ req, Follows Data.waits Wait (emit (.posted (.cli req))) := by
    intro req data
    refine .single ?_
    rw [show (exec (emit (.posted (.cli req))) data).2 = data.emit (.posted (.cli req)) from rfl,
      emit_loud rfl]
    exact .propose
  intro data
  refine Leads.get ?_
  cases data.modulePrices .usdt with
  | none => exact .refl
  | some price =>
      dsimp only
      split
      · exact Follows.forM hpropose _ data
      · exact .refl

theorem hedgeOrder_waits (ticker : DealerTicker) (bitcoinAmount : Int) (sendBitcoins : Bool) :
    Follows Data.waits Wait (hedgeOrder world args ticker bitcoinAmount sendBitcoins) := by
  intro data
  refine Leads.get (Leads.modify ?_)
  split
  · refine Leads.modify (Leads.ofPanic .refl fun bookName _ => Leads.modify ?_)
    generalize world.now data.log = now
    generalize world.timestampNow _ = cid
    generalize args.signedBitcoinAmount _ _ = amount
    refine .single ?_
    show Wait data.waits (fun cid' => (data.pendingOrders.insert cid now)[cid']?,
      (data.log ++ [Event.toModule (.orderSubmit now cid amount bookName)]).filter Event.isLoud)
    rw [Table.getElem?_insert_update, List.filter_append]
    exact .submit
  · exact .refl

theorem dropOrder_waits (cid : Int) : Follows Data.waits Wait (dropOrder cid) := by
  intro data
  refine .single ?_
  show Wait data.waits (fun cid' => (data.pendingOrders.erase cid)[cid']?,
    (data.log ++ [Event.notice (.orderTimeout cid)]).filter Event.isLoud)
  rw [Table.getElem?_erase_update, List.filter_append]
  exact .timeout

theorem swapDone_waits (swap : SwapDoneNotification) :
    Follows Data.waits Wait (swapDone world args swap) := by
  intro data
  refine Leads.get (Leads.ofPanic .refl fun sendAsset _ => Leads.modify ?_)
  split
  · refine Leads.ofPanic .refl fun txid _ => Leads.ofPanic .refl fun asset _ => ?_
    exact Leads.ofPanic .refl fun ticker _ => Leads.commit .refl (hedgeOrder_waits _ _ _ _)
  · exact .refl

theorem processTimer_waits (now : Nat) :
    Follows Data.waits Wait (processTimer world args now) := by
  intro data
  refine Leads.get (Leads.ofPanic .refl fun expired _ => Leads.modify ?_)
  refine Leads.call (proposeBalancing_waits now _) .refl fun _ data1 _ hreach => ?_
  refine Leads.commit hreach ?_
  refine Leads.call (waits_of_apart (Follows.forM (expirePrice_hush now) _)) .refl
    fun _ data2 _ hreach => Leads.commit hreach ?_
  refine Leads.call (waits_of_apart reportExchangeBalances_hush) .refl
    fun _ data3 _ hreach => Leads.commit hreach ?_
  refine Leads.call (waits_of_hedging (balance_hush _)) .refl
    fun _ data4 _ hreach => Leads.commit hreach (Leads.get ?_)
  have hrest : Follows Data.waits Wait (do
      reportProfits world args (timerBalances args data.walletBalances
        data.balancing.exchangeBalances)
      let data ← get
      (expiredOrders now data.pendingOrders).forM dropOrder) := by
    intro data5
    refine Leads.call (waits_of_apart (reportProfits_hush _)) .refl fun _ data6 _ hreach => ?_
    exact Leads.commit hreach (Leads.get (Follows.forM dropOrder_waits _ data6))
  split
  · refine Leads.call (waits_of_apart (emit_hush rfl)) .refl fun _ data5 _ hreach => ?_
    exact Leads.commit hreach (Leads.modify (Leads.commit .refl (hrest _)))
  · exact hrest data4

/-- What a loop of them leaves pending. -/
theorem dropOrders_pending (cid : Int) : ∀ (cids : List Int) (data : Data),
    (exec (cids.forM dropOrder) data).2.pendingOrders[cid]? =
      if cid ∈ cids then none else data.pendingOrders[cid]?
  | [], data => by
      rw [if_neg List.not_mem_nil]
      rfl
  | first :: cids, data => by
      show (exec (dropOrder first >>= fun _ => cids.forM dropOrder) data).2.pendingOrders[cid]? = _
      rw [exec_bind]
      show (exec (cids.forM dropOrder) { data.emit (.notice (.orderTimeout first)) with
        pendingOrders := data.pendingOrders.erase first }).2.pendingOrders[cid]? = _
      rw [dropOrders_pending cid cids]
      dsimp only
      rw [Table.getElem?_erase_eq]
      by_cases hmem : cid ∈ cids
      · rw [if_pos hmem, if_pos (List.mem_cons_of_mem first hmem)]
      · rw [if_neg hmem]
        by_cases heq : first = cid
        · rw [if_pos heq, if_pos (by simp [heq])]
        · rw [if_neg heq, if_neg (by simp [Ne.symm heq, hmem])]

/-- No pending order is older than half a minute. -/
def Fresh (now : Nat) (data : Data) : Prop :=
  ∀ (cid : Int) (time : Nat), data.pendingOrders[cid]? = some time → now - time ≤ 30000

theorem dropExpired_fresh (now : Nat) : Leaves (Fresh now) (do
    let data ← get
    (expiredOrders now data.pendingOrders).forM dropOrder) := by
  intro data _ data' hexec cid time hpending
  rw [exec_get_bind] at hexec
  have hdropped := dropOrders_pending cid (expiredOrders now data.pendingOrders) data
  rw [hexec] at hdropped
  dsimp only at hdropped
  rw [hpending] at hdropped
  split at hdropped
  · cases hdropped
  · next hkept =>
      by_contra hold
      refine hkept (List.mem_map.mpr ⟨(cid, time), List.mem_filter.mpr ⟨?_, ?_⟩, rfl⟩)
      · exact Std.TreeMap.mem_toList_iff_getElem?_eq_some.mpr hdropped.symm
      · exact decide_eq_true (by omega)

/-- A timer message that is done leaves no old order. -/
theorem processTimer_fresh (now : Nat) : Leaves (Fresh now) (processTimer world args now) := by
  refine Leaves.after fun data => Leaves.after fun expired => Leaves.after fun _ => ?_
  refine Leaves.after fun _ => Leaves.after fun _ => Leaves.after fun _ => Leaves.after fun _ => ?_
  refine Leaves.after fun data4 => ?_
  split
  · refine Leaves.after fun _ => Leaves.after fun _ => Leaves.after fun _ => ?_
    exact dropExpired_fresh now
  · exact Leaves.after fun _ => dropExpired_fresh now

/-! ## The messages -/

variable (world args) in
/-- What a message does after it was noted. -/
theorem processMsg_waits (now : Nat) {msg : Msg} (hmsg : ∀ cid, msg ≠ .orderConfirm cid) :
    Follows Data.waits Wait (processMsg world args now msg) := by
  have hpure : Follows Data.waits Wait (pure () : Handler Unit) := fun _ => .refl
  cases msg with
  | timer => exact processTimer_waits now
  | connected => exact waits_of_hedging processConnected_hush
  | disconnected => exact waits_of_hedging (Follows.bind (hush_of_apart (emit_hush rfl)) fun _ _ => .refl)
  | serverStatus => exact fun _ => .refl
  | orderCreated order =>
      simp only [processMsg]
      split
      · exact waits_of_apart (emit_hush rfl)
      · exact hpure
  | startSwapDealer orderId sendAsset => exact waits_of_apart (startSwapDealer_hush _ _)
  | blindedSwapDealer orderId pset => exact waits_of_apart (blindedSwapDealer_hush _ _)
  | swapDone swap => exact swapDone_waits swap
  | moduleConnected => exact waits_of_hedging processModuleConnected_hush
  | moduleDisconnected => exact waits_of_hedging processModuleDisconnected_hush
  | bookUpdate bookName pair => exact waits_of_apart (processBookUpdate_hush _ _ _)
  | orderConfirm cid => exact absurd rfl (hmsg cid)
  | walletUpdate currency amount => exact waits_of_hedging (processWalletUpdate_hush _ _)
  | withdraw withdrawId => exact waits_of_hedging (balance_hush _)
  | movements msg => exact waits_of_hedging (balance_hush _)
  | transfer success => exact waits_of_hedging (balance_hush _)
  | moduleError error => exact waits_of_apart (emit_hush rfl)
  | reloadUtxo res => exact waits_of_hedging (reloadUtxo_hush res)
  | cli req => exact waits_of_hedging (balance_hush _)
  | checkExchange => exact waits_of_hedging (balance_hush _)
  | dealer msg =>
      cases msg with
      | swap swap => exact hedgeOrder_waits _ _ _
      | walletBalanceUpdated => exact waits_of_apart (emit_hush rfl)
  | exit => exact hpure
  | other => exact hpure

/-- A message that is no timer message. -/
theorem message_timely {v : Waits} (h : Timely none v) {now : Nat} {msg : Msg}
    (hconfirm : ∀ cid, msg ≠ .orderConfirm cid) (htimer : msg ≠ .timer) :
    Timely none (v.1, v.2 ++ [.received now msg]) := by
  have hsame : watchAfter (watch v.2) (.received now msg) = watch v.2 := by
    cases msg with
    | timer => exact absurd rfl htimer
    | orderConfirm cid => exact absurd rfl (hconfirm cid)
    | _ => rfl
  constructor
  · intro cid
    rw [watch_concat, hsame]
    exact h.agrees cid
  · dsimp only
    rw [watch_concat, hsame]
    exact h.timers

/-- A timer message is counted. -/
theorem tick_timely {v : Waits} (h : Timely none v) (now : Nat) :
    Timely (some now) (v.1, v.2 ++ [.received now .timer]) := by
  constructor
  · intro cid
    rw [watch_concat, h.agrees cid]
    simp only [watchAfter, Option.map_map]
    rfl
  · intro cid time timers hfound now' hmem
    rw [watch_concat] at hfound
    obtain ⟨order, horder, heq⟩ := Option.map_eq_some_iff.mp hfound
    cases heq
    rcases List.mem_append.mp hmem with hmem | hmem
    · exact .inl ((h.timers cid order.1 order.2 horder now' hmem).resolve_right nofun)
    · exact .inr (congrArg some (List.mem_singleton.mp hmem).symm)

/-- A timer message that is done has found no old order. -/
theorem Timely.done {data : Data} {now : Nat} (h : Timely (some now) data.waits)
    (hfresh : Fresh now data) : Timely none data.waits := by
  refine ⟨h.agrees, fun cid time timers hfound now' hmem => .inl ?_⟩
  rcases h.timers cid time timers hfound now' hmem with hle | heq
  · exact hle
  · cases heq
    refine hfresh cid time ?_
    have hagrees := h.agrees cid
    rw [hfound] at hagrees
    exact hagrees

/-- **ONE TURN**: the message is noted once, and what follows begins or ends waits. -/
theorem processLoop_waits {now : Nat} {msg : Msg} {data data' : Data}
    (hexec : exec (processLoop world args now msg) data = (.ok (), data')) :
    ∃ data1 : Data, data1.waits = data.waits ∧
      exec (processMsg world args now msg) (data1.emit (.received now msg)) = (.ok (), data') := by
  have hbroadcast : Fixes Data.waits (sortedTickers.forM (broadcastPrice world args now)) :=
    (hush_of_apart (Follows.forM (broadcastPrice_hush now) _)).lift Hedging.waits fun v v' hush => by
      obtain ⟨e, he, rfl⟩ := hush
      rw [Hedging.waits_quiet he]
  simp only [processLoop] at hexec
  rw [exec_bind] at hexec
  rcases hfirst : exec (sortedTickers.forM (broadcastPrice world args now)) data with ⟨e | _, data1⟩
  · rw [hfirst] at hexec
    cases hexec
  · rw [hfirst] at hexec
    exact ⟨data1, hbroadcast.of_exec hfirst, hexec⟩

theorem processLoop_timely {now : Nat} {msg : Msg} {data data' : Data}
    (h : Timely none data.waits) (hexec : exec (processLoop world args now msg) data = (.ok (), data')) :
    Timely none data'.waits := by
  obtain ⟨data1, hwaits, hexec⟩ := processLoop_waits hexec
  rw [← hwaits] at h
  by_cases hconfirm : ∃ cid, msg = .orderConfirm cid
  · obtain ⟨cid, rfl⟩ := hconfirm
    cases hexec
    have hlog := congrArg Prod.snd (emit_loud (e := .received now (.orderConfirm cid)) rfl data1)
    have hview : { data1.emit (.received now (.orderConfirm cid)) with
        pendingOrders := data1.pendingOrders.erase cid }.waits =
        (Function.update data1.waits.1 cid none,
          data1.waits.2 ++ [.received now (.orderConfirm cid)]) :=
      Prod.ext (Table.getElem?_erase_update _ _) hlog
    show Timely none { data1.emit (.received now (.orderConfirm cid)) with
      pendingOrders := data1.pendingOrders.erase cid }.waits
    rw [hview]
    exact h.change rfl
  · have hconfirm : ∀ cid, msg ≠ .orderConfirm cid := fun cid heq => hconfirm ⟨cid, heq⟩
    have hreach := processMsg_waits world args now hconfirm
      (data1.emit (.received now msg))
    simp only [Leads] at hreach
    rw [hexec, emit_loud rfl] at hreach
    by_cases hmsg : msg = .timer
    · subst hmsg
      exact ((tick_timely h now).reach hreach).done (processTimer_fresh now _ _ _ hexec)
    · exact (message_timely h hconfirm hmsg).reach hreach

theorem load_timely (balancing : Dealer.Data) {log : List Event} (h : watch log = fun _ => none) :
    Timely none (load world balancing log).waits := by
  have hwatch : watch (load world balancing log).waits.2 = fun _ => none :=
    (watch_loud log).trans h
  refine ⟨fun cid => ?_, fun cid time timers hfound => ?_⟩
  · rw [hwatch]
    exact Std.TreeMap.getElem?_emptyc
  · rw [hwatch] at hfound
    cases hfound

theorem reaches_timely {s : System} (h : Reaches world args s) (hrun : s.stopped = false) :
    Timely none s.data.waits := by
  refine Reach.invariant (I := fun s => s.stopped = false → Timely none s.data.waits) ?_ ?_ h hrun
  · rintro s rfl _
    exact load_timely _ rfl
  · intro s i _ hi _ hrun
    cases i with
    | restart =>
        refine load_timely _ ?_
        rw [watch_concat]
        rfl
    | message msg =>
        simp only [step] at hrun ⊢
        split at hrun
        · next hstopped => exact absurd (hrun.symm.trans hstopped) Bool.noConfusion
        · next hrunning =>
            have htimely := hi (Bool.eq_false_iff.mpr hrunning)
            rw [if_neg hrunning]
            simp only [finish] at hrun ⊢
            split at hrun
            · cases hrun
            · next hexec =>
                exact processLoop_timely htimely hexec

/-- **NO ORDER IS FORGOTTEN**: while the process runs, an order that was submitted more than
    half a minute before a timer message that followed it has been confirmed or reported, or
    its id was used again, or the process was started anew. -/
theorem no_order_forgotten {s : System} (h : Reaches world args s) (hrun : s.stopped = false)
    {before after : List Event} {time : Nat} {cid : Int} {amount : ℚ} {bookName : String}
    (hlog : s.data.log = before ++ .toModule (.orderSubmit time cid amount bookName) :: after)
    {now : Nat} (htimer : .received now .timer ∈ after) (hlate : 30000 < now - time) :
    ∃ e ∈ after, e.settles cid = true := by
  by_contra hnone
  have hunsettled : ∀ e ∈ after, e.settles cid = false := by
    intro e hmem
    exact Bool.eq_false_iff.mpr fun he => hnone ⟨e, hmem, he⟩
  have hwatch := watch_of_unsettled before time amount bookName hunsettled
  rw [← hlog] at hwatch
  have hmem : now ∈ after.filterMap Event.timer? := List.mem_filterMap.mpr ⟨_, htimer, rfl⟩
  have hle := (reaches_timely h hrun).timers cid time _ ((congrFun (watch_loud _) cid).trans hwatch)
    now hmem
  rcases hle with hle | heq
  · omega
  · cases heq

end Handlers

/-- A clock that goes on by a quarter of a minute with each event. -/
def Sample.slowWorld : World := { Sample.world with now := fun log => 15000 * log.length }

/-- A swap is hedged, and the exchange says nothing. -/
def Sample.silence : List Input :=
  [.message (.dealer (.swap ⟨55, .usdt, 10000000, false⟩)), .message .timer, .message .timer,
    .message .timer]

/-- The order is reported by the third timer message. -/
theorem silent_order_reported :
    let s := run (step Sample.slowWorld Sample.args) (first Sample.slowWorld) Sample.silence
    s.data.pendingOrders[(1 : Int)]? = none ∧
      ∃ e ∈ s.data.log.drop 2, e.settles 1 = true := by
  have hstart : Reaches Sample.slowWorld Sample.args (first Sample.slowWorld) := .start rfl
  intro s
  have hlog : s.data.log = s.data.log.take 1 ++
      .toModule (.orderSubmit 15000 1 (-1 / 10) "tBTCUST") :: s.data.log.drop 2 := by
    decide +kernel
  have htimer : Event.received 60000 .timer ∈ s.data.log.drop 2 := by
    decide +kernel
  refine ⟨by decide +kernel, ?_⟩
  exact no_order_forgotten (hstart.run Sample.silence (by decide +kernel)) (by decide +kernel)
    hlog htimer (by decide)

end Exchange
