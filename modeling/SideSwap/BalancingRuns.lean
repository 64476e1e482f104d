import SideSwap.DealerTransfers
import SideSwap.HedgeWatch

/-! # The balancing within the whole dealer

    `Dealer` models the balancing on its own, with its messages in any order.  In
    the whole loop each of them comes with another message, and the loop goes on
    after it.  Yet the loop keeps the balancing in a state of its own runs, and
    ends with it, so what holds of every run of the balancing holds of the loop:
    no money is moved twice for one transfer. -/

namespace Exchange

open Api Program Pricing Transition History Relation
open OrderDealer (DealerTicker PricePair SwapSucceed)

/-- The balancing is in a state of its runs, and goes on. -/
def Balanced (world : World) (args : Args) (balancing : Dealer.Data) : Prop :=
  Dealer.Reaches world.balancing args.toArgs ⟨balancing, none⟩

/-- It is in a state of its runs, or has panicked in it. -/
def Reached (world : World) (args : Args) (balancing : Dealer.Data) : Prop :=
  ∃ panic, Dealer.Reaches world.balancing args.toArgs ⟨balancing, panic⟩

/-- The handler keeps the balancing going. -/
abbrev Balances {α : Type} (world : World) (args : Args) (p : Handler α) : Prop :=
  Upholds (fun data => Balanced world args data.balancing)
    (fun data => Reached world args data.balancing) p

section Handlers

variable {world : World} {args : Args}

theorem Balanced.reached {balancing : Dealer.Data} (h : Balanced world args balancing) :
    Reached world args balancing := ⟨none, h⟩

theorem balances_of_fixes {α : Type} {p : Handler α} (h : Fixes Data.balancing p) :
    Balances world args p :=
  Upholds.of_fixes h fun _ => Balanced.reached

/-- What is quiet beside the balancing leaves the balancing alone. -/
theorem balancing_of_apart {α : Type} {p : Handler α} (h : Follows Data.apart HushApart p) :
    Fixes Data.balancing p :=
  h.lift Prod.snd fun v v' hush => by
    rw [hush.2]

theorem balances_of_apart {α : Type} {p : Handler α} (h : Follows Data.apart HushApart p) :
    Balances world args p :=
  balances_of_fixes (balancing_of_apart h)

theorem emit_fixes_balancing (e : Event) : Fixes Data.balancing (emit e) := fun _ => .refl

theorem emit_balances (e : Event) : Balances world args (emit e) :=
  balances_of_fixes (emit_fixes_balancing e)

theorem ofPanic_balances {α : Type} (res : Except Panic α) :
    Balances world args (ofPanic res : Handler α) :=
  balances_of_fixes fun _ => by
    cases res with
    | ok a => exact .refl
    | error p => exact .refl

theorem sendRequest_balances {α : Type} (req : Request) (value : Response → Option α) :
    Balances world args (sendRequest world req value) :=
  balances_of_apart (sendRequest_hush req value)

/-- **ONE MESSAGE** to the balancing is a step of its run. -/
theorem balance_balances (msg : Dealer.Msg) : Balances world args (balance world args msg) := by
  have hstep : ∀ data : Data, Balanced world args data.balancing →
      Dealer.Reaches world.balancing args.toArgs (Dealer.finish
        (Dealer.processMsg world.balancing args.toArgs msg)
        (data.balancing.emit (.received msg))) := fun data h =>
    Reach.next (i := Dealer.Input.message msg) h trivial
  have hexec : ∀ data : Data, exec (balance world args msg) data =
      ((exec (Dealer.processMsg world.balancing args.toArgs msg)
          (data.balancing.emit (.received msg))).1,
        { data with
          balancing := (exec (Dealer.processMsg world.balancing args.toArgs msg)
            (data.balancing.emit (.received msg))).2 }) := fun _ => rfl
  constructor
  · intro data _ data' h hrun
    have hreach := hstep data h
    rw [hexec] at hrun
    simp only [Dealer.finish] at hreach
    rcases hend : exec (Dealer.processMsg world.balancing args.toArgs msg)
      (data.balancing.emit (.received msg)) with ⟨e | a, balancing⟩
    · rw [hend] at hrun
      cases hrun
    · rw [hend] at hrun hreach
      cases hrun
      exact hreach
  · intro data e data' h hrun
    have hreach := hstep data h
    rw [hexec] at hrun
    simp only [Dealer.finish] at hreach
    rcases hend : exec (Dealer.processMsg world.balancing args.toArgs msg)
      (data.balancing.emit (.received msg)) with ⟨(_ | p) | a, balancing⟩
    · rw [hend] at hrun hreach
      cases hrun
      exact ⟨none, hreach⟩
    · rw [hend] at hrun hreach
      cases hrun
      exact ⟨some p, hreach⟩
    · rw [hend] at hrun
      cases hrun

theorem hedgeOrder_balances (ticker : DealerTicker) (bitcoinAmount : Int) (sendBitcoins : Bool) :
    Balances world args (hedgeOrder world args ticker bitcoinAmount sendBitcoins) := by
  refine balances_of_fixes fun data => Leads.get (Leads.modify ?_)
  split
  · exact Leads.modify (Leads.ofPanic .refl fun bookName _ => .refl)
  · exact .refl

theorem swapDone_balances (swap : SwapDoneNotification) :
    Balances world args (swapDone world args swap) := by
  refine Upholds.get fun data => Upholds.bind (ofPanic_balances _) fun sendAsset => ?_
  refine Upholds.bind (balances_of_fixes fun _ => .refl) fun _ => ?_
  split
  · refine Upholds.bind (ofPanic_balances _) fun txid => ?_
    refine Upholds.bind (ofPanic_balances _) fun asset => ?_
    exact Upholds.bind (ofPanic_balances _) fun ticker => hedgeOrder_balances _ _ _
  · exact balances_of_fixes fun _ => .refl

theorem reloadUtxo_balances (res : Except String (List WalletCoin)) :
    Balances world args (reloadUtxo world args res) := by
  refine Upholds.bind (ofPanic_balances _) fun unspent => Upholds.get fun data => ?_
  refine Upholds.bind (balance_balances _) fun _ => ?_
  split
  · refine Upholds.bind (balances_of_fixes fun _ => .refl) fun _ => ?_
    exact Upholds.bind (emit_balances _) fun _ => balances_of_fixes fun _ => .refl
  · exact balances_of_fixes fun _ => .refl

theorem proposeBalancing_fixes_balancing (now : Nat) (b : TimerBalances) :
    Fixes Data.balancing (proposeBalancing world args now b) := by
  intro data
  refine Leads.get ?_
  cases data.modulePrices .usdt with
  | none => exact .refl
  | some price =>
      dsimp only
      split
      · exact Follows.forM (fun _ => emit_fixes_balancing _) _ data
      · exact .refl

theorem processTimer_balances (now : Nat) : Balances world args (processTimer world args now) := by
  have hdrop : ∀ cid, Fixes Data.balancing (dropOrder cid) := fun _ _ => .refl
  have hrest : ∀ b, Balances world args (do
      reportProfits world args b
      let data ← get
      (expiredOrders now data.pendingOrders).forM dropOrder) := fun b =>
    Upholds.bind (balances_of_apart (reportProfits_hush b)) fun _ =>
      Upholds.get fun data => balances_of_fixes (Follows.forM hdrop _)
  refine Upholds.get fun data => Upholds.bind (ofPanic_balances _) fun expired => ?_
  refine Upholds.bind (balances_of_fixes fun _ => .refl) fun _ => ?_
  refine Upholds.bind (balances_of_fixes (proposeBalancing_fixes_balancing now _)) fun _ => ?_
  refine Upholds.bind (balances_of_apart (Follows.forM (expirePrice_hush now) _)) fun _ => ?_
  refine Upholds.bind (balances_of_apart reportExchangeBalances_hush) fun _ => ?_
  refine Upholds.bind (balance_balances _) fun _ => Upholds.get fun data => ?_
  split
  · refine Upholds.bind (emit_balances _) fun _ => ?_
    exact Upholds.bind (balances_of_fixes fun _ => .refl) fun _ => hrest _
  · exact hrest _

theorem processConnected_balances : Balances world args (processConnected world args) := by
  have hkey : ∀ apiKey, Fixes Data.balancing (do
      let res ← sendRequest world (.loginDealer apiKey) fun resp =>
        if resp = .loginDealer then some () else none
      ofPanic (OrderDealer.expectOk res "dealer login failed")) := by
    intro apiKey
    refine Follows.bind (balancing_of_apart (sendRequest_hush _ _)) fun res data => ?_
    cases res with
    | ok _ => exact .refl
    | error _ => exact .refl
  refine Upholds.bind (emit_balances _) fun _ => ?_
  refine Upholds.bind (balances_of_fixes (Follows.forM hkey _)) fun _ => ?_
  refine Upholds.bind (sendRequest_balances _ _) fun res => ?_
  refine Upholds.bind (ofPanic_balances _) fun assets => ?_
  refine Upholds.bind (balance_balances _) fun _ => ?_
  refine Upholds.bind (sendRequest_balances _ _) fun res => ?_
  refine Upholds.bind (ofPanic_balances _) fun login => ?_
  refine Upholds.bind (sendRequest_balances _ _) fun res => ?_
  refine Upholds.bind (ofPanic_balances _) fun _ => ?_
  exact Upholds.bind (balances_of_fixes fun _ => .refl) fun _ => emit_balances _

theorem processModuleConnected_balances :
    Balances world args (processModuleConnected world args) := by
  refine Upholds.bind (balance_balances _) fun _ => ?_
  refine Upholds.bind (emit_balances _) fun _ => Upholds.bind (emit_balances _) fun _ => ?_
  refine Upholds.bind (balances_of_fixes (Follows.forM (fun _ => emit_fixes_balancing _) _)) fun _ => ?_
  exact emit_balances _

theorem processModuleDisconnected_balances :
    Balances world args (processModuleDisconnected world args) := by
  refine Upholds.bind (balance_balances _) fun _ => Upholds.bind (emit_balances _) fun _ => ?_
  refine Upholds.bind (balances_of_fixes fun _ => .refl) fun _ => ?_
  exact balances_of_fixes (Follows.forM (fun _ => emit_fixes_balancing _) _)

theorem processWalletUpdate_balances (currency : String) (amount : Double) :
    Balances world args (processWalletUpdate world args currency amount) := by
  refine Upholds.get fun data => ?_
  dsimp only
  split
  · refine Upholds.bind (balances_of_fixes (Follows.forM (fun _ => emit_fixes_balancing _) _)) fun _ => ?_
    refine Upholds.bind (balance_balances _) fun _ => ?_
    split
    · exact emit_balances _
    · exact balances_of_fixes fun _ => .refl
  · exact balances_of_fixes fun _ => .refl

theorem processMsg_balances (now : Nat) (msg : Msg) :
    Balances world args (processMsg world args now msg) := by
  cases msg with
  | timer => exact processTimer_balances now
  | connected => exact processConnected_balances
  | disconnected => exact Upholds.bind (emit_balances _) fun _ => balances_of_fixes fun _ => .refl
  | serverStatus => exact balances_of_fixes fun _ => .refl
  | orderCreated order =>
      simp only [processMsg]
      split
      · exact emit_balances _
      · exact balances_of_fixes fun _ => .refl
  | startSwapDealer orderId sendAsset => exact balances_of_apart (startSwapDealer_hush _ _)
  | blindedSwapDealer orderId pset => exact balances_of_apart (blindedSwapDealer_hush _ _)
  | swapDone swap => exact swapDone_balances swap
  | moduleConnected => exact processModuleConnected_balances
  | moduleDisconnected => exact processModuleDisconnected_balances
  | bookUpdate bookName pair => exact balances_of_apart (processBookUpdate_hush _ _ _)
  | orderConfirm cid => exact balances_of_fixes fun _ => .refl
  | walletUpdate currency amount => exact processWalletUpdate_balances _ _
  | withdraw withdrawId => exact balance_balances _
  | movements msg => exact balance_balances _
  | transfer success => exact balance_balances _
  | moduleError error => exact emit_balances _
  | reloadUtxo res => exact reloadUtxo_balances res
  | cli req => exact balance_balances _
  | checkExchange => exact balance_balances _
  | dealer msg =>
      cases msg with
      | swap swap => exact hedgeOrder_balances _ _ _
      | walletBalanceUpdated => exact emit_balances _
  | exit => exact balances_of_fixes fun _ => .refl
  | other => exact balances_of_fixes fun _ => .refl

theorem processLoop_balances (now : Nat) (msg : Msg) :
    Balances world args (processLoop world args now msg) :=
  Upholds.bind (balances_of_apart (Follows.forM (broadcastPrice_hush now) _)) fun _ =>
    Upholds.bind (emit_balances _) fun _ => processMsg_balances now msg

end Handlers

/-! ## The runs -/

section Runs

variable {world : World} {args : Args}

/-- The balancing is in a state of its runs, in which it has not panicked while the loop
    runs. -/
structure System.Links (world : World) (args : Args) (s : System) : Prop where
  running : s.stopped = false → Balanced world args s.data.balancing
  reached : Reached world args s.data.balancing

theorem first_links : (first world).Links world args where
  running := fun _ => .start rfl
  reached := ⟨none, .start rfl⟩

theorem step_links {s : System} (h : s.Links world args) (i : Input) :
    (step world args s i).Links world args := by
  cases i with
  | restart =>
      obtain ⟨panic, hreach⟩ := h.reached
      have hrestart : Balanced world args (step world args s .restart).data.balancing :=
        Reach.next (i := Dealer.Input.restart) hreach trivial
      exact ⟨fun _ => hrestart, hrestart.reached⟩
  | message msg =>
      simp only [step]
      split
      · exact h
      · next hrun =>
          have hbalanced := h.running (Bool.eq_false_iff.mpr hrun)
          have hloop : Balances world args (processLoop world args (world.now s.data.log) msg) :=
            processLoop_balances _ msg
          simp only [finish]
          split
          · next hexec =>
              exact ⟨fun hrun' => absurd hrun' Bool.noConfusion, hloop.stops _ _ _ hbalanced hexec⟩
          · next hexec =>
              have hdone := hloop.returns _ _ _ hbalanced hexec
              exact ⟨fun _ => hdone, hdone.reached⟩

theorem reaches_links {s : System} (h : Reaches world args s) : s.Links world args := by
  refine h.invariant ?_ ?_
  · rintro s rfl
    exact first_links
  · intro s i _ hlinks _
    exact step_links hlinks i

/-- **THE LOOP RUNS THE BALANCING**: in every state of the whole loop, the balancing is in a
    state of its own runs; it has not panicked if the loop goes on. -/
theorem loop_runs_balancing {s : System} (h : Reaches world args s) :
    ∃ t, Dealer.Reaches world.balancing args.toArgs t ∧ t.data = s.data.balancing ∧
      (s.stopped = false → t.panic = none) := by
  have hlinks := reaches_links h
  cases hstopped : s.stopped with
  | false => exact ⟨_, hlinks.running hstopped, rfl, fun _ => rfl⟩
  | true =>
      obtain ⟨panic, hreach⟩ := hlinks.reached
      exact ⟨_, hreach, rfl, fun hrun => absurd hrun Bool.noConfusion⟩

/-- **THE LOOP MOVES MONEY ONCE**: whatever else the loop does, each transfer moves money at
    most once in each way, its own amount, and bitcoins only after they were converted. -/
theorem loop_moves_money_once {s : System} (h : Reaches world args s) :
    Always (fun log => ∀ kind, Dealer.issued kind log ≤ 1) s.data.balancing.log ∧
      Justified Dealer.Due s.data.balancing.log := by
  obtain ⟨panic, hreach⟩ := (reaches_links h).reached
  have hdue := (Dealer.reaches_inv hreach).due
  exact ⟨Dealer.always_issued_le_one hdue, hdue⟩

end Runs

/-- Bitcoins are converted for the wallet, and withdrawn after a restart, while a swap is
    hedged and prices come in. -/
def Sample.receiving : List Input :=
  [.message .moduleConnected, .message (.bookUpdate "tBTCUST" ⟨.fin 29000, .fin 30000⟩),
    .message (.walletUpdate "BTC" (.fin 2)), .message (.cli (.testRecvBtc (.fin 1))),
    .message .timer, .message (.dealer (.swap ⟨55, .usdt, 10000000, false⟩)), .restart,
    .message .moduleConnected, .message (.walletUpdate "LBT" (.fin 1)), .message .timer,
    .message .timer]

/-- The balancing waits for the id of its withdrawal, as in a run of its own. -/
theorem receiving_runs_balancing :
    let s := run (step Sample.world Sample.args) (first Sample.world) Sample.receiving
    s.data.balancing.storage.balancing.map (·.state) = some .recvBtcWaitWithdrawId ∧
      ∃ t, Dealer.Reaches Sample.world.balancing Sample.args.toArgs t ∧
        t.data = s.data.balancing ∧ (s.stopped = false → t.panic = none) := by
  have hstart : Reaches Sample.world Sample.args (first Sample.world) := .start rfl
  refine ⟨by decide +kernel, loop_runs_balancing (hstart.run Sample.receiving ?_)⟩
  decide +kernel

/-- One conversion and one withdrawal, each once. -/
theorem bitcoins_moved_once :
    let s := run (step Sample.world Sample.args) (first Sample.world) Sample.receiving
    (Dealer.issued .transfer s.data.balancing.log = 1 ∧
      Dealer.issued .withdraw s.data.balancing.log = 1) ∧
      Always (fun log => ∀ kind, Dealer.issued kind log ≤ 1) s.data.balancing.log := by
  have hstart : Reaches Sample.world Sample.args (first Sample.world) := .start rfl
  refine ⟨by decide +kernel, (loop_moves_money_once (hstart.run Sample.receiving ?_)).1⟩
  decide +kernel

end Exchange
