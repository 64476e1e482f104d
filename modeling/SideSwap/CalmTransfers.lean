import SideSwap.HedgeWatch

/-! # Transfers that the dealer asks for itself

    Between the wallet and the exchange the dealer moves money by itself, to
    balance them.  A swap that has just been hedged is not settled yet, and the
    balances do not show it, so after a hedge, and after the start, the dealer
    leaves the balances alone for a minute. -/

namespace Exchange

open Api Program Pricing Transition History Relation
open OrderDealer (DealerTicker PricePair From SwapSucceed)

/-! ## What is asked of a request -/

/-- A message, with the time at which it was taken. -/
def Event.received? : Event → Option (Nat × Msg)
  | .received now msg => some (now, msg)
  | _ => none

/-- The process starts with this history. -/
def Starts (log : List Event) : Prop := log = [] ∨ ∃ before, log = before ++ [.restarted]

/-- No time runs backwards. -/
def Monotone (world : World) : Prop :=
  ∀ {before log : List Event}, before <+: log → world.now before ≤ world.now log

/-- A transfer is requested by a timer message, if the dealer may do so, more than a minute
    after every hedge and every start. -/
def Calm (world : World) (args : Args) (before : List Event) : Event → Prop
  | .posted (.cli _) =>
      args.mainnet = true ∧ args.balancingEnabled = true ∧
      ∃ now, latest Event.received? before = some (now, .timer) ∧
        (∀ start, start <+: before → Starts start → 60000 < now - world.now start) ∧
        ∀ time cid amount bookName, .toModule (.orderSubmit time cid amount bookName) ∈ before →
          60000 < now - time
  | _ => True

/-! ## What the handlers do -/

/-- Neither a hedge, nor a request, nor a start. -/
def Event.isIdle : Event → Bool
  | .posted (.cli _) => false
  | .toModule (.orderSubmit _ _ _ _) => false
  | .restarted => false
  | _ => true

theorem Event.isIdle_of_quiet {e : Event} (h : e.isLoud = false) : e.isIdle = true := by
  fun_cases Event.isIdle e with
  | case1 => cases h
  | case2 => cases h
  | case3 => cases h
  | case4 => rfl

/-- What matters to the requests: an idle event, an order that is settled, the time of a hedge,
    its order, a request. -/
inductive Turn (world : World) (args : Args) : Hedging → Hedging → Prop where
  | note {v pending e} : e.isIdle = true → Turn world args v ((pending, v.1.2 ++ [e]), v.2)
  | settle {v pending} : Turn world args v ((pending, v.1.2), v.2)
  | block {v} : Turn world args v (v.1, world.now v.1.2)
  | submit {v pending cid amount bookName} : Turn world args v
      ((pending, v.1.2 ++ [.toModule (.orderSubmit v.2 cid amount bookName)]), v.2)
  | propose {v now req} : args.mainnet = true → args.balancingEnabled = true →
      latest Event.received? v.1.2 = some (now, .timer) → 60000 < now - v.2 →
      Turn world args v ((v.1.1, v.1.2 ++ [.posted (.cli req)]), v.2)

/-- Every hedge and every start lies before the time that is kept, and every request was made
    in a calm. -/
structure Blocks (world : World) (args : Args) (v : Hedging) : Prop where
  started : ∀ start, start <+: v.1.2 → Starts start → world.now start ≤ v.2
  submits : ∀ time cid amount bookName, .toModule (.orderSubmit time cid amount bookName) ∈ v.1.2 →
    time ≤ v.2
  past : v.2 ≤ world.now v.1.2
  calm : Justified (Calm world args) v.1.2

section Handlers

variable {world : World} {args : Args}

theorem Starts.of_concat {log start : List Event} {e : Event} (hstart : Starts start)
    (he : e ≠ .restarted) (h : start <+: log ++ [e]) : start <+: log := by
  rcases List.prefix_concat_iff.mp h with rfl | h
  · rcases hstart with hnil | ⟨before, heq⟩
    · cases List.append_ne_nil_of_right_ne_nil log (List.cons_ne_nil e []) hnil
    · exact absurd (List.append_inj' heq rfl).2 (by simpa using he)
  · exact h

/-- An event that is no start, at the same time that is kept. -/
theorem Blocks.concat {v : Hedging} (hclock : Monotone world) (h : Blocks world args v)
    {pending : Int → Option Nat} {e : Event} (he : e ≠ .restarted)
    (hsubmit : ∀ time cid amount bookName, e = .toModule (.orderSubmit time cid amount bookName) →
      time ≤ v.2)
    (hcalm : Calm world args v.1.2 e) : Blocks world args ((pending, v.1.2 ++ [e]), v.2) where
  started := fun start hprefix hstart => h.started start (hstart.of_concat he hprefix) hstart
  submits := by
    intro time cid amount bookName hmem
    rcases List.mem_append.mp hmem with hmem | hmem
    · exact h.submits time cid amount bookName hmem
    · exact hsubmit time cid amount bookName (List.mem_singleton.mp hmem).symm
  past := h.past.trans (hclock (List.prefix_append _ _))
  calm := h.calm.concat hcalm

/-- **ONE TURN** keeps the calm. -/
theorem Turn.blocks (hclock : Monotone world) {v v' : Hedging} (hturn : Turn world args v v')
    (h : Blocks world args v) : Blocks world args v' := by
  cases hturn with
  | @note _ e hidle =>
      refine h.concat hclock ?_ ?_ ?_
      · rintro rfl
        cases hidle
      · rintro time cid amount bookName rfl
        cases hidle
      · fun_cases Calm world args v.1.2 e with
        | case1 => cases hidle
        | case2 => trivial
  | settle => exact ⟨h.started, h.submits, h.past, h.calm⟩
  | block =>
      exact ⟨fun start hprefix _ => hclock hprefix,
        fun time cid amount bookName hmem => (h.submits time cid amount bookName hmem).trans h.past,
        le_rfl, h.calm⟩
  | submit =>
      refine h.concat hclock (by simp) ?_ trivial
      intro time cid amount bookName heq
      cases heq
      exact le_rfl
  | @propose now req hmainnet henabled hlatest hlate =>
      refine h.concat hclock (by simp) (by simp) ⟨hmainnet, henabled, now, hlatest, ?_, ?_⟩
      · intro start hprefix hstart
        have hle := h.started start hprefix hstart
        omega
      · intro time cid amount bookName hmem
        have hle := h.submits time cid amount bookName hmem
        omega

theorem Blocks.reach (hclock : Monotone world) {v v' : Hedging} (h : Blocks world args v)
    (hreach : ReflTransGen (Turn world args) v v') : Blocks world args v' := by
  induction hreach with
  | refl => exact h
  | tail _ hturn ih => exact hturn.blocks hclock ih

theorem turns_of_hush {α : Type} {p : Handler α} (h : Follows Data.hedging Hush p) :
    Follows Data.hedging (Turn world args) p :=
  h.mono fun v v' hush => by
    obtain ⟨e, he, rfl⟩ := hush
    exact .note (Event.isIdle_of_quiet he)

theorem turns_of_apart {α : Type} {p : Handler α} (h : Follows Data.apart HushApart p) :
    Follows Data.hedging (Turn world args) p :=
  turns_of_hush (hush_of_apart h)

theorem hedgeOrder_turns (ticker : DealerTicker) (bitcoinAmount : Int) (sendBitcoins : Bool) :
    Follows Data.hedging (Turn world args)
      (hedgeOrder world args ticker bitcoinAmount sendBitcoins) := by
  intro data
  refine Leads.get (Leads.modify (Leads.commit (.single .block) ?_))
  split
  · refine Leads.modify (Leads.ofPanic .refl fun bookName _ => Leads.modify ?_)
    exact .single .submit
  · exact .refl

theorem swapDone_turns (swap : SwapDoneNotification) :
    Follows Data.hedging (Turn world args) (swapDone world args swap) := by
  intro data
  refine Leads.get (Leads.ofPanic .refl fun sendAsset _ => Leads.modify ?_)
  split
  · refine Leads.ofPanic .refl fun txid _ => Leads.ofPanic .refl fun asset _ => ?_
    exact Leads.ofPanic .refl fun ticker _ => Leads.commit .refl (hedgeOrder_turns _ _ _ _)
  · exact .refl

/-- The condition of a request is that of the dealer's time. -/
theorem proposeBalancing_turns {now : Nat} {data : Data}
    (hpresent : latest Event.received? data.log = some (now, .timer)) (b : TimerBalances) :
    Leads Data.hedging (Turn world args) data.hedging (proposeBalancing world args now b) data := by
  refine Leads.get ?_
  cases data.modulePrices .usdt with
  | none => exact .refl
  | some price =>
      dsimp only
      split
      · next hcalm =>
          simp only [Bool.and_eq_true, decide_eq_true_eq] at hcalm
          obtain ⟨⟨⟨-, hmainnet⟩, hlate⟩, henabled⟩ := hcalm
          cases requestOf (proposal (world.oddBalancing data.log) b price.pair) with
          | none => exact .refl
          | some req => exact .single (.propose hmainnet henabled hpresent hlate)
      · exact .refl

theorem processTimer_turns {now : Nat} {data : Data}
    (hpresent : latest Event.received? data.log = some (now, .timer)) :
    Leads Data.hedging (Turn world args) data.hedging (processTimer world args now) data := by
  have hdrop : ∀ cid, Follows Data.hedging (Turn world args) (dropOrder cid) := fun cid data =>
    .single (.note rfl)
  have hrest : ∀ b, Follows Data.hedging (Turn world args) (do
      reportProfits world args b
      let data ← get
      (expiredOrders now data.pendingOrders).forM dropOrder) := by
    intro b data1
    refine Leads.call (turns_of_apart (reportProfits_hush b)) .refl fun _ data2 _ hreach => ?_
    exact Leads.commit hreach (Leads.get (Follows.forM hdrop _ data2))
  refine Leads.get (Leads.ofPanic .refl fun expired _ => Leads.modify ?_)
  refine Leads.bind (Leads.commit .refl (proposeBalancing_turns ?_ _))
    fun _ data1 _ hreach => Leads.commit hreach ?_
  · exact hpresent
  refine Leads.call (turns_of_apart (Follows.forM (expirePrice_hush now) _)) .refl
    fun _ data2 _ hreach => Leads.commit hreach ?_
  refine Leads.call (turns_of_apart reportExchangeBalances_hush) .refl
    fun _ data3 _ hreach => Leads.commit hreach ?_
  refine Leads.call (turns_of_hush (balance_hush _)) .refl
    fun _ data4 _ hreach => Leads.commit hreach (Leads.get ?_)
  split
  · refine Leads.call (turns_of_apart (emit_hush rfl)) .refl fun _ data5 _ hreach => ?_
    exact Leads.commit hreach (Leads.modify (Leads.commit .refl (hrest _ _)))
  · exact hrest _ data4

theorem processMsg_turns {now : Nat} {msg : Msg} {data : Data}
    (hpresent : latest Event.received? data.log = some (now, msg)) :
    Leads Data.hedging (Turn world args) data.hedging (processMsg world args now msg) data := by
  cases msg with
  | timer => exact processTimer_turns hpresent
  | connected => exact turns_of_hush processConnected_hush data
  | disconnected =>
      refine turns_of_hush (Follows.bind (hush_of_apart (emit_hush rfl)) fun _ => ?_) data
      exact fun _ => .refl
  | serverStatus => exact .refl
  | orderCreated order =>
      simp only [processMsg]
      split
      · exact turns_of_apart (emit_hush rfl) data
      · exact .refl
  | startSwapDealer orderId sendAsset => exact turns_of_apart (startSwapDealer_hush _ _) data
  | blindedSwapDealer orderId pset => exact turns_of_apart (blindedSwapDealer_hush _ _) data
  | swapDone swap => exact swapDone_turns swap data
  | moduleConnected => exact turns_of_hush processModuleConnected_hush data
  | moduleDisconnected => exact turns_of_hush processModuleDisconnected_hush data
  | bookUpdate bookName pair => exact turns_of_apart (processBookUpdate_hush _ _ _) data
  | orderConfirm cid => exact .single .settle
  | walletUpdate currency amount => exact turns_of_hush (processWalletUpdate_hush _ _) data
  | withdraw withdrawId => exact turns_of_hush (balance_hush _) data
  | movements msg => exact turns_of_hush (balance_hush _) data
  | transfer success => exact turns_of_hush (balance_hush _) data
  | moduleError error => exact turns_of_apart (emit_hush rfl) data
  | reloadUtxo res => exact turns_of_hush (reloadUtxo_hush res) data
  | cli req => exact turns_of_hush (balance_hush _) data
  | checkExchange => exact turns_of_hush (balance_hush _) data
  | dealer msg =>
      cases msg with
      | swap swap => exact hedgeOrder_turns _ _ _ data
      | walletBalanceUpdated => exact turns_of_apart (emit_hush rfl) data
  | exit => exact .refl
  | other => exact .refl

theorem processLoop_turns (now : Nat) (msg : Msg) :
    Follows Data.hedging (Turn world args) (processLoop world args now msg) := by
  intro data
  refine Leads.call (turns_of_apart (Follows.forM (broadcastPrice_hush now) _)) .refl
    fun _ data1 _ hreach => Leads.commit hreach ?_
  refine Leads.modify (Leads.commit (.single (.note rfl)) (processMsg_turns ?_))
  exact latest_concat_some (f := Event.received?) rfl data1.log

end Handlers

/-! ## The runs -/

section Runs

variable {world : World} {args : Args}

theorem load_blocks (balancing : Dealer.Data) {log : List Event} (hclock : Monotone world)
    (hsubmits : ∀ time cid amount bookName,
      .toModule (.orderSubmit time cid amount bookName) ∈ log → time ≤ world.now log)
    (hcalm : Justified (Calm world args) log) :
    Blocks world args (load world balancing log).hedging :=
  ⟨fun _ hprefix _ => hclock hprefix, hsubmits, le_rfl, hcalm⟩

theorem reaches_blocks {s : System} (hclock : Monotone world) (h : Reaches world args s) :
    Blocks world args s.data.hedging := by
  refine Reach.invariant (I := fun s => Blocks world args s.data.hedging) ?_ ?_ h
  · rintro s rfl
    exact load_blocks _ hclock (fun _ _ _ _ hmem => absurd hmem List.not_mem_nil) (justified_nil _)
  · intro s i _ hblocks _
    cases i with
    | restart =>
        refine load_blocks _ hclock ?_ (hblocks.calm.concat trivial)
        intro time cid amount bookName hmem
        rcases List.mem_append.mp hmem with hmem | hmem
        · have hle := (hblocks.submits time cid amount bookName hmem).trans hblocks.past
          exact hle.trans (hclock (List.prefix_append _ _))
        · cases List.mem_singleton.mp hmem
    | message msg =>
        simp only [step]
        split
        · exact hblocks
        · have hblocks' := hblocks.reach hclock
            (processLoop_turns (world.now s.data.log) msg s.data)
          simp only [finish]
          split <;> next hexec =>
            rw [hexec] at hblocks'
            exact hblocks'

/-- **TRANSFERS WAIT FOR CALM**: if no time runs backwards, the dealer asks for a transfer only
    at a timer message, when it may, and more than a minute after it was started and after
    every order that it has sent to the exchange. -/
theorem transfers_wait_for_calm {s : System} (hclock : Monotone world)
    (h : Reaches world args s) : Justified (Calm world args) s.data.log :=
  (reaches_blocks hclock h).calm

end Runs

/-- The clock does not run backwards. -/
theorem Sample.slowWorld_monotone : Monotone Sample.slowWorld := fun h =>
  Nat.mul_le_mul_left 15000 h.length_le

def Sample.balancingArgs : Args := { Sample.args with balancingEnabled := true }

def Sample.usdtCoin : OrderDealer.UnspentItem :=
  { OrderDealer.Sample.coin with txid := 101, asset := 2, amount := 200000000000 }

/-- The wallet lacks USDt, and a swap is hedged before the timer message. -/
def Sample.unbalanced : List Input :=
  [.message .moduleConnected, .message (.bookUpdate "tBTCUST" ⟨.fin 29000, .fin 30000⟩),
    .message .connected, .message (.walletUpdate "BTC" (.fin (1 / 2))),
    .message (.walletUpdate "UST" (.fin 18000)),
    .message (.dealer (.swap ⟨55, .usdt, 10000000, false⟩)),
    .message (.reloadUtxo (.ok [⟨OrderDealer.Sample.coin, 1⟩, ⟨Sample.usdtCoin, 1⟩])),
    .message .timer]

/-- USDt are asked for 75 seconds after the hedge. -/
theorem usdt_wait_for_calm :
    let s := run (step Sample.slowWorld Sample.balancingArgs) (first Sample.slowWorld)
      Sample.unbalanced
    .posted (.cli (.testRecvUsdt (.fin 8000))) ∈ s.data.log ∧
      .toModule (.orderSubmit 405000 27 (-1 / 10) "tBTCUST") ∈ s.data.log ∧
      .received 480000 .timer ∈ s.data.log ∧
      Justified (Calm Sample.slowWorld Sample.balancingArgs) s.data.log := by
  have hstart : Reaches Sample.slowWorld Sample.balancingArgs (first Sample.slowWorld) := .start rfl
  refine ⟨by decide +kernel, by decide +kernel, by decide +kernel, ?_⟩
  refine transfers_wait_for_calm Sample.slowWorld_monotone (hstart.run Sample.unbalanced ?_)
  decide +kernel

end Exchange
