import SideSwap.OrderDealer

/-! # At most one live order for a market side

    An order is live from its accepted `PsetMaker` until it is cancelled or
    complete, or the connection is lost.  The dealer tracks every live order:
    that is the invariant, and a market side has one tracked order at most.

    One step breaks it.  When the edit of an order is refused and the
    cancellation that follows is refused too, `update_price` forgets an order
    that is still live, and will submit another one beside it. -/

namespace OrderDealer

open Api Program Pricing Transition History Relation

/-! ## The history -/

/-- The live orders after an event. -/
def liveAfter (live : List (OwnOrderKey × OrderId)) : Event → List (OwnOrderKey × OrderId)
  | .request key (.psetMaker req) (some (.ok .psetMaker)) => (key, req.orderId) :: live
  | .request _ (.cancel orderId) (some (.ok .cancel)) => live.filter (·.2 != orderId)
  | .received (.complete orderId) => live.filter (·.2 != orderId)
  | .received .disconnected => []
  | _ => live

/-- The live orders of a history, by their market side. -/
def live (log : List Event) : List (OwnOrderKey × OrderId) := log.foldl liveAfter []

/-- No market side has two live orders. -/
def SingleLive (log : List Event) : Prop :=
  ∀ key orderId orderId', (key, orderId) ∈ live log → (key, orderId') ∈ live log →
    orderId = orderId'

/-- A live order is refused its edit and then its cancellation. -/
def abandons (before : List Event) (e : Event) : Bool :=
  match before.getLast?, e with
  | some (.request key (.edit orderId _) (some (.error _))),
    .request key' (.cancel orderId') (some (.error _)) =>
      decide (key = key' ∧ orderId = orderId' ∧ (key, orderId) ∈ live before)
  | _, _ => false

/-- No live order is. -/
abbrev Heeded (log : List Event) : Prop :=
  Justified (fun before e => abandons before e = false) log

theorem live_concat (log : List Event) (e : Event) : live (log ++ [e]) = liveAfter (live log) e := by
  unfold live
  rw [List.foldl_append]
  rfl

/-- An event that starts and ends no order. -/
def Event.isQuiet : Event → Bool
  | .request _ (.psetMaker _) (some (.ok .psetMaker)) => false
  | .request _ (.cancel _) (some (.ok .cancel)) => false
  | .received (.complete _) => false
  | .received .disconnected => false
  | _ => true

theorem liveAfter_quiet {e : Event} (h : e.isQuiet = true) (orders : List (OwnOrderKey × OrderId)) :
    liveAfter orders e = orders := by
  unfold Event.isQuiet at h
  split at h
  · cases h
  · cases h
  · cases h
  · cases h
  · next hmaker hcancel hcomplete hdisconnected =>
      unfold liveAfter
      split
      · next key req => exact absurd rfl (hmaker key req)
      · next key orderId => exact absurd rfl (hcancel key orderId)
      · next orderId => exact absurd rfl (hcomplete orderId)
      · exact absurd rfl hdisconnected
      · rfl

/-! ## What the handlers do -/

/-- The tracked orders and the history. -/
structure Board where
  own : OwnOrderKey → Option OwnOrder
  log : List Event

def Data.board (data : Data) : Board := ⟨data.ownOrders, data.log⟩

/-- One thing that happens to the orders. -/
inductive Move : Board → Board → Prop where
  | note {b e} : Event.isQuiet e = true → Move b { b with log := b.log ++ [e] }
  /-- an order is accepted, and tracked -/
  | place {b key req own} : b.own key = none → own.orderId = req.orderId →
      Move b ⟨Function.update b.own key (some own),
        b.log ++ [.request key (.psetMaker req) (some (.ok .psetMaker))]⟩
  /-- an order is cancelled, and still tracked -/
  | cancel {b key orderId} :
      Move b { b with log := b.log ++ [.request key (.cancel orderId) (some (.ok .cancel))] }
  | reprice {b key own own'} : b.own key = some own → own'.orderId = own.orderId →
      Move b { b with own := Function.update b.own key (some own') }
  /-- an order that is not live is not tracked any more -/
  | untrack {b key own} : b.own key = some own → (key, own.orderId) ∉ live b.log →
      Move b { b with own := Function.update b.own key none }
  /-- an order is given up after it was refused an edit and a cancellation -/
  | abandon {b key own price err err'} : b.own key = some own →
      b.log.getLast? = some (.request key (.edit own.orderId price) (some (.error err))) →
      Move b ⟨Function.update b.own key none,
        b.log ++ [.request key (.cancel own.orderId) (some (.error err'))]⟩
  | complete {b orderId} :
      Move b ⟨fun key => (b.own key).filter fun own => own.orderId != orderId,
        b.log ++ [.received (.complete orderId)]⟩
  | disconnect {b} : Move b ⟨fun _ => none, b.log ++ [.received .disconnected]⟩

/-! ## The invariant -/

/-- Every live order is tracked. -/
def Board.Tracked (b : Board) : Prop :=
  ∀ key orderId, (key, orderId) ∈ live b.log →
    ∃ own, b.own key = some own ∧ own.orderId = orderId

/-- A market side tracks one order at most. -/
theorem Board.Tracked.single {b : Board} (h : b.Tracked) : SingleLive b.log := by
  intro key orderId orderId' hmem hmem'
  obtain ⟨own, hown, rfl⟩ := h key orderId hmem
  obtain ⟨own', hown', rfl⟩ := h key orderId' hmem'
  rw [Option.some.inj (hown.symm.trans hown')]

/-- **ONE MOVE**: the live orders stay tracked, unless one is abandoned. -/
theorem Move.tracked {b b' : Board} (h : Move b b') (ht : b.Tracked)
    (hheeded : Heeded b'.log) : b'.Tracked := by
  intro key orderId hmem
  cases h with
  | @note e hquiet =>
      rw [live_concat, liveAfter_quiet hquiet] at hmem
      exact ht key orderId hmem
  | @place key' req own hnone hid =>
      rw [live_concat] at hmem
      rcases List.mem_cons.mp hmem with heq | hmem
      · cases heq
        exact ⟨own, Function.update_self key _ b.own, hid⟩
      · obtain ⟨own', hown', hid'⟩ := ht key orderId hmem
        -- the market side had no order, so this one is of another side
        have hne : key ≠ key' := by
          rintro rfl
          rw [hnone] at hown'
          cases hown'
        exact ⟨own', (Function.update_of_ne hne _ b.own).trans hown', hid'⟩
  | cancel =>
      rw [live_concat] at hmem
      exact ht key orderId (List.mem_filter.mp hmem).1
  | @reprice key' own own' hown hid =>
      obtain ⟨found, hfound, hid'⟩ := ht key orderId hmem
      by_cases hkey : key = key'
      · subst hkey
        refine ⟨own', Function.update_self key _ b.own, ?_⟩
        rw [hid, ← hid', Option.some.inj (hown.symm.trans hfound)]
      · exact ⟨found, (Function.update_of_ne hkey _ b.own).trans hfound, hid'⟩
  | @untrack key' own hown hdead =>
      obtain ⟨found, hfound, hid⟩ := ht key orderId hmem
      have hkey : key ≠ key' := by
        rintro rfl
        rw [Option.some.inj (hown.symm.trans hfound), hid] at hdead
        exact hdead hmem
      exact ⟨found, (Function.update_of_ne hkey _ b.own).trans hfound, hid⟩
  | @abandon key' own price err err' hown hlast =>
      rw [live_concat, liveAfter_quiet rfl] at hmem
      obtain ⟨found, hfound, hid⟩ := ht key orderId hmem
      have hkey : key ≠ key' := by
        rintro rfl
        rw [← hid, ← Option.some.inj (hown.symm.trans hfound)] at hmem
        have hlast' := hheeded.last
        unfold abandons at hlast'
        rw [hlast] at hlast'
        exact of_decide_eq_false hlast' ⟨rfl, rfl, hmem⟩
      exact ⟨found, (Function.update_of_ne hkey _ b.own).trans hfound, hid⟩
  | @complete done =>
      rw [live_concat] at hmem
      obtain ⟨hmem, hne⟩ := List.mem_filter.mp hmem
      obtain ⟨own, hown, rfl⟩ := ht key orderId hmem
      refine ⟨own, ?_, rfl⟩
      show (b.own key).filter _ = _
      rw [hown]
      exact Option.filter_some_pos hne
  | disconnect =>
      rw [live_concat] at hmem
      cases hmem

/-! ## The handlers -/

abbrev Takes {α : Type} (v : Board) (p : Handler α) (data : Data) : Prop :=
  Leads Data.board Move v p data

/-- The pset of an order is for that order. -/
theorem getPset_orderId {world : World} {log : List Event} {orderId : OrderId} {details : Details}
    {utxos : Utxos} {params : Params} {extraAssetUtxo : Bool} {req : PsetMakerRequest}
    (h : getPset world log orderId details utxos params extraAssetUtxo = .ok req) :
    req.orderId = orderId := by
  unfold getPset at h
  obtain ⟨_, _, h⟩ := bind_returns h
  obtain ⟨_, _, h⟩ := bind_returns h
  obtain ⟨_, _, h⟩ := bind_returns h
  obtain ⟨_, _, h⟩ := bind_returns h
  obtain ⟨_, _, h⟩ := bind_returns h
  cases h
  rfl

/-- A cancellation that does not succeed changes nothing. -/
theorem cancel_quiet {key : OwnOrderKey} {orderId : OrderId} {res : Option (Except String Response)}
    (h : ∀ resp a, res = some (.ok resp) → (if resp = .cancel then some () else none) ≠ some a) :
    (Event.request key (.cancel orderId) res).isQuiet = true := by
  unfold Event.isQuiet
  split
  · next heq => cases heq
  · next heq =>
      cases heq
      exact absurd rfl (h .cancel () rfl)
  · next heq => cases heq
  · next heq => cases heq
  · rfl

theorem cancelOrder_takes (world : World) (key : OwnOrderKey) (own : OwnOrder) (data : Data) :
    Takes data.board (cancelOrder world key own) data := by
  refine sendRequest_leads ?_ ?_ ?_
  · exact fun res hres => .single (.note (cancel_quiet hres))
  · exact fun e => .single (.note rfl)
  · intro resp a hvalue
    split at hvalue
    · next heq =>
        subst heq
        exact .single .cancel
    · cases hvalue

/-- A pset that is not accepted starts no order. -/
theorem psetMaker_quiet {key : OwnOrderKey} {req : PsetMakerRequest}
    {res : Option (Except String Response)}
    (h : ∀ resp a, res = some (.ok resp) → (if resp = .psetMaker then some () else none) ≠ some a) :
    (Event.request key (.psetMaker req) res).isQuiet = true := by
  unfold Event.isQuiet
  split
  · next heq =>
      cases heq
      exact absurd rfl (h .psetMaker () rfl)
  · next heq => cases heq
  · next heq => cases heq
  · next heq => cases heq
  · rfl

theorem submitOrder_takes (world : World) (params : Params) {key : OwnOrderKey} (asset : AssetId)
    (price : Double) (bitcoinAmount : Int) {data : Data} (hnone : data.ownOrders key = none) :
    Takes data.board (submitOrder world params key asset price bitcoinAmount) data := by
  refine sendRequest_leads ?_ ?_ ?_
  · exact fun res _ => .single (.note rfl)
  · exact fun e => .single (.note rfl)
  · intro resp submitResp _
    refine Leads.commit (.single (.note rfl)) (Leads.get ?_)
    generalize hdata : data.emit _ = data1
    have hnone : data1.ownOrders key = none := by
      rw [← hdata]
      exact hnone
    cases hpset : getPset world data1.log submitResp.orderId submitResp.details data1.utxos params
      true with
    | error stop =>
        cases stop with
        | panic e => exact .refl
        | error e => exact .refl
    | ok req =>
        show Takes _ (sendRequest world key (.psetMaker req) _ >>= _) data1
        refine sendRequest_leads ?_ ?_ ?_
        · exact fun res hres => .single (.note (psetMaker_quiet hres))
        · exact fun e => .single (.note rfl)
        · intro resp a hvalue
          split at hvalue
          · next heq =>
              subst heq
              exact .single (.place hnone (getPset_orderId hpset).symm)
          · cases hvalue

theorem editOrder_takes (world : World) {key : OwnOrderKey} {own : OwnOrder} (price : Double)
    {data : Data} (hown : data.ownOrders key = some own) :
    Takes data.board (editOrder world key own price) data := by
  refine sendRequest_leads ?_ ?_ ?_
  · exact fun res _ => .single (.note rfl)
  · intro err
    -- the edit is refused: what follows depends on the cancellation
    have hedit : ReflTransGen Move data.board
        (data.emit (.request key (.edit own.orderId price) (some (.error err)))).board :=
      .single (.note rfl)
    refine Leads.commit hedit (sendRequest_leads ?_ ?_ ?_)
    · exact fun res hres => .single (.note (cancel_quiet hres))
    · intro err'
      exact .single (.abandon hown List.getLast?_concat)
    · intro resp a hvalue
      split at hvalue
      · next heq =>
          subst heq
          refine .tail (.single .cancel) (.untrack hown ?_)
          intro hmem
          rw [live_concat] at hmem
          have hne := (List.mem_filter.mp hmem).2
          simp at hne
      · cases hvalue
  · intro resp a _
    exact .tail (.single (.note rfl)) (.reprice hown rfl)

theorem updatePrice_takes (world : World) (params : Params) (key : OwnOrderKey) (data : Data) :
    Takes data.board (updatePrice world params key) data := by
  refine Leads.get (Leads.ofPanic .refl fun asset _ => Leads.ofPanic .refl fun interest _ => ?_)
  dsimp only
  generalize (data.indexPrices key.ticker).map _ = price
  cases hown : data.ownOrders key with
  | none =>
      cases price with
      | none => exact .refl
      | some price =>
          dsimp only
          split
          · exact submitOrder_takes world params asset.assetId price _ hown
          · exact .refl
  | some own =>
      cases price with
      | none => exact cancelOrder_takes world key own data
      | some price =>
          dsimp only
          split
          · exact cancelOrder_takes world key own data
          · split
            · exact editOrder_takes world price hown
            · exact .refl

theorem processTimer_takes (world : World) (params : Params) (data : Data) :
    Takes data.board (processTimer world params) data := by
  have hloop : Follows Data.board Move (params.keys.forM (updatePrice world params)) :=
    Follows.forM (fun key data => updatePrice_takes world params key data) _
  refine Leads.get ?_
  dsimp only
  split
  · refine Leads.call hloop .refl fun _ data' _ hreach => ?_
    exact hreach
  · exact .refl

/-- **ONE MESSAGE**: what it does to the orders is a run of moves. -/
theorem processMsg_takes (world : World) (params : Params) (msg : Msg) (data : Data) :
    Takes data.board (processMsg world params msg) (data.emit (.received msg)) := by
  have hnote : ∀ {msg}, (Event.received msg).isQuiet = true →
      ReflTransGen Move data.board (data.emit (.received msg)).board := fun hquiet =>
    .single (.note hquiet)
  cases msg with
  | complete orderId => exact .single .complete
  | disconnected => exact .single .disconnect
  | timer => exact Leads.commit (hnote rfl) (processTimer_takes world params _)
  | limitBalance ticker recvLimit balance =>
      cases recvLimit with
      | true => exact hnote rfl
      | false => exact hnote rfl
  | _ => exact hnote rfl

/-! ## Runs -/

theorem finish_data (p : Handler Unit) (data : Data) : (finish p data).data = (exec p data).2 := by
  unfold finish
  rcases exec p data with ⟨(_ | _) | _, data'⟩ <;> rfl

/-- What holds of a history in which no live order is abandoned. -/
def Board.Inv (b : Board) : Prop :=
  Heeded b.log → b.Tracked ∧ Always SingleLive b.log

theorem Move.inv {b b' : Board} (h : Move b b') (hi : b.Inv) : b'.Inv := by
  intro hheeded
  have hbefore : Heeded b.log := by
    cases h with
    | reprice _ _ => exact hheeded
    | untrack _ _ => exact hheeded
    | _ => exact hheeded.of_append
  obtain ⟨htracked, halways⟩ := hi hbefore
  have htracked' := h.tracked htracked hheeded
  refine ⟨htracked', ?_⟩
  have hsingle := htracked'.single
  cases h with
  | reprice _ _ => exact halways
  | untrack _ _ => exact halways
  | _ => exact halways.concat hsingle

theorem step_inv (world : World) (params : Params) {s : System} (h : s.data.board.Inv)
    (i : Input) : (step world params s i).data.board.Inv := by
  have hmoves : ∀ {b b' : Board}, ReflTransGen Move b b' → b.Inv → b'.Inv := by
    intro b b' hm hb
    induction hm with
    | refl => exact hb
    | tail _ hlast ih => exact hlast.inv ih
  cases i with
  | message msg =>
      show (if s.stopped then s else _ : System).data.board.Inv
      split
      · exact h
      · rw [finish_data]
        exact hmoves (processMsg_takes world params msg s.data) h
  | stop => exact h

/-- **ONE LIVE ORDER**: in every run in which no live order is refused both its
    edit and the cancellation that follows, no market side has two live orders
    at any point. -/
theorem dealer_keeps_one_live_order {world : World} {params : Params} {s : System}
    (h : Reaches world params s) (hheeded : Heeded s.data.log) :
    Always SingleLive s.data.log := by
  have hinv : s.data.board.Inv := by
    refine Reach.invariant (I := fun s => s.data.board.Inv) ?_ ?_ h
    · rintro s rfl _
      constructor
      · intro key orderId hmem
        cases hmem
      · refine always_nil ?_
        intro key orderId orderId' hmem
        cases hmem
    · intro s i _ hi _
      exact step_inv world params hi i
  exact (hinv hheeded).2

namespace Sample

def params : Params where
  policyAsset := 1
  interestSubmitUsdt := 101 / 100
  interestSubmitEurx := 101 / 100
  tickers := [.usdt]
  bitcoinAmountSubmit := 10000000
  bitcoinAmountMin := 10000

/-- An asset of the registry. -/
def asset (assetId : AssetId) (ticker : DealerTicker) : Asset where
  assetId := assetId
  name := ticker.text
  ticker := ticker.text
  icon := none
  precision := 8
  iconUrl := none
  instantSwaps := none
  domain := none
  domainAgent := none
  alwaysShow := none

def coin : UnspentItem where
  txid := 100
  vout := 0
  asset := 1
  amount := 200000000
  amountblinder := some 3
  assetblinder := some 4
  redeemScript := none

/-- The server accepts an order. -/
def submitted (orderId : OrderId) : Response :=
  .submit ⟨orderId, ⟨2, 10000000, 300000000000, 30000, 10000, .maker, true, .bitcoin, .stablecoin,
    none⟩⟩

/-- Whether an event is a request. -/
def isRequest : Event → Bool
  | .request _ _ _ => true
  | _ => false

/-- A server that answers the requests one after the other. -/
def world (replies : List (Except String Response)) : World where
  reply log _ := replies[log.countP isRequest]?
  newAddress _ _ := .ok "address"
  now log := 6000 * log.length

/-- An order is submitted; the price changes, and the edit is refused; on the next
    tick a new order is submitted. -/
def replies (cancelled : Except String Response) : List (Except String Response) :=
  [.ok (submitted 7), .ok .psetMaker, .error "edit", cancelled, .ok (submitted 8), .ok .psetMaker]

def inputs : List Input :=
  [.message (.connected [asset 1 .lbtc, asset 2 .usdt]), .message (.reloadUtxo [coin]),
    .message (.price .usdt (some ⟨.fin 29000, .fin 30000⟩)), .message .timer,
    .message (.price .usdt (some ⟨.fin 29000, .fin 30001⟩)), .message .timer, .message .timer]

end Sample

/-- The first order is cancelled after its edit was refused: the second one is the
    only one. -/
theorem cancelled_order_replaced :
    let s := run (step (Sample.world (Sample.replies (.ok .cancel))) Sample.params)
      (first (Sample.world (Sample.replies (.ok .cancel)))) Sample.inputs
    live s.data.log = [(⟨.usdt, true⟩, 8)] ∧ Always SingleLive s.data.log := by
  have hallowed : Allowed (step (Sample.world (Sample.replies (.ok .cancel))) Sample.params)
      (fun _ _ => True) (first (Sample.world (Sample.replies (.ok .cancel)))) Sample.inputs := by
    decide +kernel
  have hstart : Reaches (Sample.world (Sample.replies (.ok .cancel))) Sample.params
      (first (Sample.world (Sample.replies (.ok .cancel)))) := .start rfl
  refine ⟨by decide +kernel, dealer_keeps_one_live_order (hstart.run _ hallowed) ?_⟩
  decide +kernel

/-- **A FORGOTTEN ORDER**: the first order is refused its cancellation as well, and
    lives on beside the second one. -/
theorem refused_order_doubled :
    let s := run (step (Sample.world (Sample.replies (.error "cancel"))) Sample.params)
      (first (Sample.world (Sample.replies (.error "cancel")))) Sample.inputs
    live s.data.log = [(⟨.usdt, true⟩, 8), (⟨.usdt, true⟩, 7)] ∧ ¬ SingleLive s.data.log := by
  intro s
  have hlive : live s.data.log = [(⟨.usdt, true⟩, 8), (⟨.usdt, true⟩, 7)] := by
    decide +kernel
  refine ⟨hlive, fun hsingle => ?_⟩
  have hsame : (8 : OrderId) = 7 := by
    refine hsingle ⟨.usdt, true⟩ 8 7 ?_ ?_
    · rw [hlive]
      exact List.mem_cons_self
    · rw [hlive]
      exact List.mem_cons_of_mem _ List.mem_cons_self
  exact absurd hsame (by decide)

end OrderDealer
