import SideSwap.HeadlessRequests

/-! # Completed orders and unique keys

    A completed order should stay completed, and a unique key should admit one
    order.  Both rest on one question: which inputs write the entry of an
    order that is done?  `overwrites` lists them.  The handlers that write it
    never look at the old state, except the one for a removed order, which
    spares the active orders instead of the completed ones.

    In a run without such an input the entry is unchanged (`step_orders`), so
    the order stays completed, its coins stay reserved and its key stays
    taken. -/

namespace Headless

open Api Program Relation

/-! ## The entry of an order, input by input -/

/-- The orders a closure cancels when its request fails. -/
def AsyncRequest.cancels (x : OrderId) : AsyncRequest → Bool
  | .sign y => y == x
  | .psetMaker y _ _ _ => y == x
  | .submit _ _ => false
  | .login => false

/-- The inputs after which the entry of an existing order is written. -/
def overwrites (s : System) (x : OrderId) : Input → Bool
  | .ws (.notification (.orderRemoved y)) => y == x
  | .ws (.notification (.complete complete)) => complete.orderId == x
  | .ws (.response (some (.string text)) res) =>
      match s.data.asyncRequests[text]?, res with
      | some cb, .error _ => cb.cancels x
      | some (.psetMaker y _ o _), .ok .psetMaker => y == x && o.uniqueKey.any (isDuplicate s.data)
      | some .login, .ok (.login resp) => resp.orders.any (·.orderId == x)
      | _, _ => false
  | .ws .disconnected => (Table.values s.data.asyncRequests).any (·.cancels x)
  | .walletResp =>
      match s.walletResps.head? with
      | some (.psetSignFailed y) => y == x
      | some (.signedPset y _) => y == x && !s.data.wsConnected
      | _ => false
  | _ => false

section
variable {world : World} {d d' : Data} {x : OrderId}

theorem cancelOrder_getElem? {y : OrderId} (h : y ≠ x) :
    (cancelOrder d y).orders[x]? = d.orders[x]? := by
  rw [cancelOrder_orders, Table.getElem?_insert_eq, if_neg h]

theorem failCallback_getElem? {cb : AsyncRequest} (h : cb.cancels x = false) (err : Error) :
    (failCallback d cb err).orders[x]? = d.orders[x]? := by
  cases cb with
  | sign y => exact cancelOrder_getElem? (ne_of_beq_false h)
  | psetMaker y details o m => exact cancelOrder_getElem? (ne_of_beq_false h)
  | submit o m => rfl
  | login => rfl

theorem makeAsyncRequest_getElem? {cb : AsyncRequest}
    (h : cb.cancels x = false ∨ d.wsConnected = true) (req : Request) :
    (makeAsyncRequest d req cb).orders[x]? = d.orders[x]? := by
  by_cases hc : d.wsConnected = true
  · rw [makeAsyncRequest_connected hc]
  · unfold makeAsyncRequest
    rw [if_pos hc]
    exact failCallback_getElem? (h.resolve_right hc) _

theorem failLines_getElem? : ∀ (lines : List (String × AsyncRequest)) (d : Data),
    (lines.map (·.2)).any (·.cancels x) = false →
    (lines.foldl failLine d).orders[x]? = d.orders[x]? := by
  intro lines
  induction lines with
  | nil => intro d _; rfl
  | cons line lines ih =>
      intro d h
      rw [List.map_cons, List.any_cons, Bool.or_eq_false_iff] at h
      rw [List.foldl_cons, ih _ h.2]
      exact failCallback_getElem? h.1 _

theorem cancelOrders_getElem? : ∀ (l : List OrderCreatedNotification) (d : Data),
    l.any (·.orderId == x) = false →
    (l.foldl (fun d o => cancelOrder d o.orderId) d).orders[x]? = d.orders[x]? := by
  intro l
  induction l with
  | nil => intro d _; rfl
  | cons o l ih =>
      intro d h
      rw [List.any_cons, Bool.or_eq_false_iff] at h
      rw [List.foldl_cons, ih _ h.2, cancelOrder_getElem? (ne_of_beq_false h.1)]

theorem psetMakerAccepted_getElem? {y : OrderId} {details : Details} {o : NewOrder} {m : Nat}
    (h : (y == x && o.uniqueKey.any (isDuplicate d)) = false) :
    (psetMakerAccepted d y details o m).orders[x]? = d.orders[x]? := by
  unfold psetMakerAccepted
  cases hkey : o.uniqueKey with
  | none => rfl
  | some k =>
      rw [hkey, Option.any_some] at h
      show (if isDuplicate d k then _ else _ : Data).orders[x]? = _
      by_cases hdup : isDuplicate d k = true
      · rw [hdup, Bool.and_true] at h
        rw [if_pos hdup]
        exact cancelOrder_getElem? (ne_of_beq_false h)
      · rw [if_neg hdup]
        rfl

/-- A new order leaves the entries of the others alone. -/
theorem processSubmitInputs_getElem? {resp : SubmitResponse} {o : NewOrder} {m : Nat}
    (h : processSubmitInputs world d resp o m = .ok d') (hx : resp.orderId ≠ x) :
    d'.orders[x]? = d.orders[x]? := by
  have hrefuse : (refuseInputs (d.emit (.orderCreated m resp)) resp.orderId m).orders[x]? =
      d.orders[x]? := cancelOrder_getElem? (d := d.emit _) hx
  cases hsi : d.swapInputs with
  | none =>
      rw [processSubmitInputs_none o m hsi] at h
      cases h
      exact hrefuse
  | some si =>
      rw [processSubmitInputs_some o m hsi] at h
      split at h
      · cases h
        exact hrefuse
      · obtain ⟨inputs, -, hd⟩ := bind_returns h
        cases hd
        have hcb : (AsyncRequest.psetMaker resp.orderId resp.details o m).cancels x = false :=
          beq_eq_false_iff_ne.mpr hx
        rw [makeAsyncRequest_getElem? (.inl hcb)]
        exact (Table.getElem?_insert_eq ..).trans (if_neg hx)

/-- The notifications that leave the entry alone. -/
theorem processNotification_getElem? {notif : Notification} {s : System}
    (h : overwrites s x (.ws (.notification notif)) = false)
    (hd : processNotification d notif = .ok d') : d'.orders[x]? = d.orders[x]? := by
  cases notif with
  | orderCreated order => cases hd; rfl
  | other => cases hd; rfl
  | sign sign => cases hd; rfl
  | orderRemoved y =>
      cases hd
      have hne : y ≠ x := ne_of_beq_false h
      unfold processOrderRemoved
      split
      · rfl
      · exact (Table.getElem?_insert_eq ..).trans (if_neg hne)
      · rfl
  | complete complete =>
      have hne : complete.orderId ≠ x := ne_of_beq_false h
      simp only [processNotification, processComplete] at hd
      split at hd
      · split at hd
        · cases hd
        · cases hd
          simp only [Table.getElem?_insert_eq, Table.getElem?_erase_eq, if_neg hne]
        · cases hd
      · cases hd
        simp only [Table.getElem?_insert_eq, if_neg hne]

/-- The responses that leave the entry alone. -/
theorem runCallback_getElem? {s : System} {text : String} {cb : AsyncRequest}
    {res : Except Error Response} (hcb : s.data.asyncRequests[text]? = some cb)
    (h : overwrites s x (.ws (.response (some (.string text)) res)) = false)
    (hdup : isDuplicate d = isDuplicate s.data)
    (hnew : ∀ o m resp, cb = .submit o m → res = .ok (.submit resp) → resp.orderId ≠ x)
    (hd : runCallback world d cb res = .ok d') : d'.orders[x]? = d.orders[x]? := by
  simp only [overwrites, hcb] at h
  cases res with
  | error err =>
      cases hd
      have hcancels : cb.cancels x = false := by
        cases cb <;> exact h
      exact failCallback_getElem? hcancels err
  | ok resp =>
      simp only [runCallback] at hd
      split at hd
      · cases hd; rfl
      · cases hd
        rw [← hdup] at h
        exact psetMakerAccepted_getElem? h
      · exact processSubmitInputs_getElem? hd (hnew _ _ _ rfl rfl)
      · cases hd
        exact cancelOrders_getElem? _ _ h
      · exact nomatch hd

/-- The wallet's responses that leave the entry alone. -/
theorem processWallet_getElem? {s : System} {resp : WalletResp} {rest : List WalletResp}
    (hq : s.walletResps = resp :: rest) (h : overwrites s x .walletResp = false)
    (hconn : d.wsConnected = s.data.wsConnected) (hd : processWallet d resp = .ok d') :
    d'.orders[x]? = d.orders[x]? := by
  have hdec : ∀ d₁, decSignRequestCount d = .ok d₁ →
      d₁.orders = d.orders ∧ d₁.wsConnected = d.wsConnected := by
    intro d₁ h₁
    unfold decSignRequestCount at h₁
    split at h₁
    · exact nomatch h₁
    · cases h₁
      exact ⟨rfl, rfl⟩
  cases resp with
  | swapInputs si => cases hd; rfl
  | signedPset y pset =>
      have hy : (y == x && !s.data.wsConnected) = false := by
        simpa only [overwrites, hq, List.head?_cons] using h
      obtain ⟨d₁, h₁, hd⟩ := bind_returns hd
      cases hd
      rw [makeAsyncRequest_getElem?, (hdec d₁ h₁).1]
      rw [(hdec d₁ h₁).2, hconn]
      by_cases hup : s.data.wsConnected = true
      · exact .inr hup
      · rw [Bool.eq_false_of_not_eq_true hup, Bool.not_false, Bool.and_true] at hy
        exact .inl hy
  | psetSignFailed y =>
      have hy : (y == x) = false := by
        simpa only [overwrites, hq, List.head?_cons] using h
      obtain ⟨d₁, h₁, hd⟩ := bind_returns hd
      cases hd
      rw [cancelOrder_getElem? (ne_of_beq_false hy), (hdec d₁ h₁).1]

/-- The messages of the socket leave the entry alone or create the order. -/
theorem processWs_getElem? {s : System} {resp : WrappedResponse}
    (h : overwrites s x (.ws resp) = false)
    (hd : processWs world (s.data.emit (.ws resp)) resp = .ok d') :
    d'.orders[x]? = s.data.orders[x]? ∨
      ∃ e m, ∃ submitResp : SubmitResponse, submitResp.orderId = x ∧
        s.data.log ++ [.ws resp, e, .orderCreated m submitResp] <+: d'.log := by
  cases resp with
  | connected =>
      cases hd
      exact .inl (makeAsyncRequest_getElem? (.inl rfl) _)
  | disconnected =>
      cases hd
      exact .inl (failLines_getElem? _ _ h)
  | notification notif =>
      exact .inl (processNotification_getElem? (d := s.data.emit _) h hd)
  | response requestId res =>
      cases requestId with
      | none => exact nomatch hd
      | some id =>
          cases id with
          | int k => cases hd; exact .inl rfl
          | string text =>
              cases hcb : s.data.asyncRequests[text]? with
              | none =>
                  rw [processWs_unknown (d := s.data.emit _) hcb] at hd
                  cases hd
                  exact .inl rfl
              | some cb =>
                  rw [processWs_pending (d := s.data.emit _) hcb] at hd
                  by_cases hnew : ∀ o m resp, cb = .submit o m → res = .ok (.submit resp) →
                      resp.orderId ≠ x
                  · exact .inl (runCallback_getElem?
                      (d := { s.data.emit _ with asyncRequests := _ }.emit _) hcb h rfl hnew hd)
                  · push Not at hnew
                    obtain ⟨o, m, resp, rfl, rfl, hx⟩ := hnew
                    refine .inr ⟨.called (some text) (.submit o m) (.ok (.submit resp)), m, resp,
                      hx, ?_⟩
                    have hmoves := processSubmitInputs_moves (i := .listOrders) (r := []) (n := 0) hd
                    have hgrow := hmoves.log_grows
                    simp only [emit_log, List.append_assoc] at hgrow
                    exact hgrow

end

/-- **THE ENTRY OF AN ORDER** is unchanged by an input that does not overwrite
    it, unless the input creates the order anew. -/
theorem step_orders {world : World} {s : System} {i : Input} {x : OrderId}
    (h : overwrites s x i = false) :
    (step world s i).data.orders[x]? = s.data.orders[x]? ∨
      ∃ e e' m, ∃ resp : SubmitResponse, resp.orderId = x ∧
        s.data.log ++ [e, e', .orderCreated m resp] <+: (step world s i).data.log := by
  have hreceive : ∀ (e : Event) (handler : Data → Except Panic Data) (s : System),
      (∀ d', handler (s.data.emit e) = .ok d' → d'.orders[x]? = s.data.orders[x]?) →
      (receive s e handler).data.orders[x]? = s.data.orders[x]? := by
    intro e handler s hh
    unfold receive
    cases hd : handler (s.data.emit e) with
    | error p => rfl
    | ok d' => exact hh d' hd
  unfold step
  by_cases hs : s.crashed = true
  · exact .inl (by rw [if_pos hs])
  rw [if_neg hs]
  cases i with
  | newOrder o =>
      refine .inl (hreceive _ _ s ?_)
      intro d' hd
      cases hd
      unfold processNewOrder
      split
      · rfl
      · exact makeAsyncRequest_getElem? (.inl rfl) _
  | orderStatus y => exact .inl rfl
  | listOrders => exact .inl rfl
  | snapshot si => exact .inl rfl
  | walletSign =>
      refine .inl ?_
      simp only [walletSignPset]
      split <;> rfl
  | walletResp =>
      refine .inl ?_
      simp only
      split
      · rfl
      · rename_i resp rest hq
        refine hreceive _ _ { s with walletResps := rest } ?_
        intro d' hd
        exact processWallet_getElem? (d := s.data.emit _) hq h rfl hd
  | ws resp =>
      simp only [receive]
      cases hd : processWs world (s.data.emit (.ws resp)) resp with
      | error p => exact .inl rfl
      | ok d' =>
          refine (processWs_getElem? h hd).imp_right ?_
          rintro ⟨e, m, submitResp, hx, hgrow⟩
          exact ⟨_, e, m, submitResp, hx, hgrow⟩

/-! ## A completed order -/

/-- The order an event says is created. -/
def createdOrder : Event → Option OrderId
  | .orderCreated _ resp => some resp.orderId
  | _ => none

/-- The server never uses an order id twice. -/
def FreshIds (log : List Event) : Prop := (log.filterMap createdOrder).Nodup

theorem FreshIds.of_grown {log log' : List Event} (h : FreshIds log') (hp : log <+: log') :
    FreshIds log := by
  obtain ⟨es, rfl⟩ := hp
  unfold FreshIds at h ⊢
  rw [List.filterMap_append] at h
  exact h.of_append_left

/-- An order created before is not created again. -/
theorem FreshIds.not_again {log log' es : List Event} {m : Nat} {resp : SubmitResponse}
    (h : FreshIds log') (hx : resp.orderId ∈ log.filterMap createdOrder)
    (hp : log ++ es <+: log') (hmem : .orderCreated m resp ∈ es) : False := by
  have hnodup := h.of_grown hp
  unfold FreshIds at hnodup
  rw [List.filterMap_append] at hnodup
  refine List.disjoint_of_nodup_append hnodup hx ?_
  exact List.mem_filterMap.mpr ⟨_, hmem, rfl⟩

theorem step_log_grows (world : World) (s : System) (i : Input) :
    s.data.log <+: (step world s i).data.log := by
  cases hc : (step world s i).crashed with
  | false => exact Moves.log_grows (step_moves hc)
  | true =>
      cases hs : s.crashed with
      | true => rw [show step world s i = s by unfold step; rw [if_pos hs]]
      | false =>
          obtain ⟨e, hdata, -, -⟩ := step_crashed hs hc
          rw [hdata]
          exact List.prefix_append _ _

/-- Orders that are active or done were created. -/
def LiveCreated (c : Config) : Prop :=
  ∀ x, Live c.data x → x ∈ c.data.log.filterMap createdOrder

theorem reaches_liveCreated {world : World} {ok : System → Input → Prop} {s : System}
    (h : Reaches world ok s) : LiveCreated s.config := by
  have hboth : s.config.Knows ∧ LiveCreated s.config := by
    refine reaches_invariant (I := fun c => c.Knows ∧ LiveCreated c) ?_ ?_ ?_ h
    · intro policyAsset sessionId
      refine ⟨start_knows policyAsset sessionId, ?_⟩
      rintro x ⟨st, hst, -⟩
      simp [System.config, start] at hst
    · rintro i c c' ⟨hk, hl⟩ hm
      refine ⟨hm.knows hk, ?_⟩
      have hmono : ∀ {x}, x ∈ c.data.log.filterMap createdOrder →
          x ∈ c'.data.log.filterMap createdOrder := by
        intro x hx
        obtain ⟨e, he, hex⟩ := List.mem_filterMap.mp hx
        exact List.mem_filterMap.mpr ⟨e, hm.log_grows.subset he, hex⟩
      rintro x ⟨st, hst, hlive⟩
      rcases hm.orders x with heq | hfailed | ⟨details, o, m, outs, hhas, -, -⟩ |
        ⟨outs, txid, hactive, -⟩
      · exact hmono (hl x ⟨st, heq ▸ hst, hlive⟩)
      · rw [hfailed] at hst
        cases hst
        exact absurd rfl hlive
      · exact hmono (List.mem_filterMap.mpr ⟨_, (hk _ hhas).2, rfl⟩)
      · exact hmono (hl x ⟨_, hactive, by rintro ⟨⟩⟩)
    · rintro s i - hs hc ⟨hk, hl⟩
      obtain ⟨e, hdata, hnext, -⟩ := step_crashed hs hc
      have hconfig : (step world s i).config = ⟨s.data.emit e, [], s.nextSender⟩ := by
        unfold System.config
        rw [hdata, hnext]
      rw [hconfig]
      refine ⟨fun cb hcb => (hk cb hcb).mono (List.subset_append_left _ _), ?_⟩
      intro x hx
      obtain ⟨e', he', hex⟩ := List.mem_filterMap.mp (hl x hx)
      exact List.mem_filterMap.mpr ⟨e', List.mem_append_left _ he', hex⟩
  exact hboth.2

/-- One step keeps the entry of an order that was created before. -/
theorem step_keeps_entry {world : World} {s : System} {i : Input} {x : OrderId}
    (hx : x ∈ s.data.log.filterMap createdOrder) (h : overwrites s x i = false)
    (hfresh : FreshIds (step world s i).data.log) :
    (step world s i).data.orders[x]? = s.data.orders[x]? := by
  rcases @step_orders world _ _ _ h with heq | ⟨e, e', m, resp, rfl, hgrow⟩
  · exact heq
  · refine (hfresh.not_again (m := m) hx hgrow ?_).elim
    exact List.mem_cons_of_mem _ (List.mem_cons_of_mem _ (List.mem_singleton.mpr rfl))

/-- **A COMPLETED ORDER STAYS COMPLETED** in every run that goes on without an
    input that overwrites it, when the server never uses an order id twice. -/
theorem completed_order_stays_completed {world : World} {s t : System} {x : OrderId}
    {outs : List OutPoint} {txid : Txid} (hs : Reaches world (fun _ _ => True) s)
    (hx : s.data.orders[x]? = some (.succeed outs txid))
    (ht : Transition.Later (step world) (fun s i => overwrites s x i = false) s t)
    (hfresh : FreshIds t.data.log) :
    t.data.orders[x]? = some (.succeed outs txid)
      ∧ getOrderStatus t.data x = ⟨.succeed, some txid⟩ ∧ ∀ out ∈ outs, out ∈ reserved t.data := by
  have hcreated := reaches_liveCreated hs x ⟨_, hx, fun hc => nomatch hc⟩
  -- the invariant of the rest of the run
  have hkeep : x ∈ t.data.log.filterMap createdOrder ∧
      (FreshIds t.data.log → t.data.orders[x]? = some (.succeed outs txid)) := by
    refine ht.invariant (I := fun t => x ∈ t.data.log.filterMap createdOrder ∧
      (FreshIds t.data.log → t.data.orders[x]? = some (.succeed outs txid)))
      ⟨hcreated, fun _ => hx⟩ ?_
    rintro t i ⟨hc, hentry⟩ hok
    have hgrow := step_log_grows world t i
    refine ⟨?_, ?_⟩
    · obtain ⟨e, he, hex⟩ := List.mem_filterMap.mp hc
      exact List.mem_filterMap.mpr ⟨e, hgrow.subset he, hex⟩
    · intro hf
      rw [step_keeps_entry hc hok hf]
      exact hentry (hf.of_grown hgrow)
  have hentry := hkeep.2 hfresh
  refine ⟨hentry, ?_, ?_⟩
  · unfold getOrderStatus
    rw [hentry]
  · intro out hout
    exact mem_reserved.mpr ⟨x, _, hentry, hout⟩

/-- The order of the small run is still completed after a snapshot, another
    API request and a dropped connection. -/
theorem sample_stays_completed :
    let s := run Sample.world Sample.bitcoin Sample.completed
    let t := Transition.run (step Sample.world) s
      [.snapshot Sample.snapshot, .walletResp, .newOrder Sample.newOrder, .ws .disconnected]
    getOrderStatus t.data Sample.order = ⟨.succeed, some Sample.txid⟩ := by
  intro s t
  have hreach : Reaches Sample.world (fun _ _ => True) s := reaches_run (by decide +kernel)
  have hlater : Transition.Later (step Sample.world)
      (fun s i => overwrites s Sample.order i = false) s t :=
    Transition.Later.refl.run _ (by decide +kernel)
  have hentry : s.data.orders[Sample.order]? =
    some (.succeed [Sample.coin.outPoint] Sample.txid) := by decide +kernel
  have hfresh : FreshIds t.data.log := by
    unfold FreshIds
    decide +kernel
  exact (completed_order_stays_completed hreach hentry hlater hfresh).2.1

/-- The server reports that the completed order is removed from the market:
    the worker marks it as failed, and its status is expired. -/
theorem removed_order_loses_completion :
    let s := run Sample.world Sample.bitcoin Sample.completed
    let t := step Sample.world s (.ws (.notification (.orderRemoved Sample.order)))
    Reaches Sample.world (fun _ _ => True) s ∧ FreshIds t.data.log
      ∧ s.data.orders[Sample.order]? = some (.succeed [Sample.coin.outPoint] Sample.txid)
      ∧ t.data.orders[Sample.order]? = some .failed
      ∧ getOrderStatus t.data Sample.order = ⟨.expired, none⟩ := by
  intro s t
  refine ⟨reaches_run (by decide +kernel), ?_, by decide +kernel⟩
  unfold FreshIds
  decide +kernel

/-! ## Unique keys -/

/-- The order was requested with the key and answered `Ok`. -/
def AcceptedFor (log : List Event) (k : String) (x : OrderId) : Prop :=
  ∃ m o info, .newOrder m o ∈ log ∧ o.uniqueKey = some k ∧ .answer m (.ok info) ∈ log
    ∧ info.orderId = x

/-- The server has reported the order as complete with a transaction. -/
def ReportedComplete (log : List Event) (x : OrderId) : Prop :=
  ∃ txid, .ws (.notification (.complete ⟨x, some txid⟩)) ∈ log

/-- The orders a key stands for. -/
def Counts (d : Data) (k : String) (x : OrderId) : Prop :=
  AcceptedFor d.log k x ∧ (Live d x ∨ ReportedComplete d.log x)

/-- What the moves keep of the keys: an accepted order that is active or done
    is the one its key is bound to. -/
structure KeyInv (c : Config) : Prop where
  requests : RequestInv c
  answered : ∀ m info, .answer m (.ok info) ∈ c.data.log →
    ∃ details, .orderCreated m ⟨info.orderId, details⟩ ∈ c.data.log
  bound : FreshIds c.data.log → ∀ k x, AcceptedFor c.data.log k x → Live c.data x →
    c.data.uniqueOrders[k]? = some x

/-- Two creations of one order are one. -/
theorem FreshIds.same_request {log : List Event} (h : FreshIds log) {m m' : Nat}
    {r r' : SubmitResponse} (hm : .orderCreated m r ∈ log) (hm' : .orderCreated m' r' ∈ log)
    (hx : r.orderId = r'.orderId) : m = m' := by
  unfold FreshIds at h
  obtain ⟨before, after, rfl⟩ := List.append_of_mem hm
  rw [List.filterMap_append, List.filterMap_cons_some (show createdOrder (.orderCreated m r) =
    some r.orderId from rfl), List.nodup_middle, List.nodup_cons, ← List.filterMap_append] at h
  rcases List.mem_append.mp hm' with hmem | hmem
  · exact absurd (List.mem_filterMap.mpr ⟨_, List.mem_append_left after hmem, hx ▸ rfl⟩) h.1
  · rcases List.mem_cons.mp hmem with heq | hmem
    · cases heq
      rfl
    · exact absurd (List.mem_filterMap.mpr ⟨_, List.mem_append_right before hmem, hx ▸ rfl⟩) h.1

section
variable {world : World} {i : Input} {c c' : Config}

theorem Move.answered (h : Move world i c c') (hI : KeyInv c) :
    ∀ m info, .answer m (.ok info) ∈ c'.data.log →
      ∃ details, .orderCreated m ⟨info.orderId, details⟩ ∈ c'.data.log := by
  intro m info hmem
  have hsub := h.log_grows.subset
  rcases h.event hmem with hold | ⟨x, details, o, hhas, rfl, -, -⟩
  · obtain ⟨details, hcreated⟩ := hI.answered m info hold
    exact ⟨details, hsub hcreated⟩
  · exact ⟨details, hsub (hI.requests.knows _ hhas).2⟩

/-- An order answered `Ok` has no closure left that could reserve again. -/
theorem KeyInv.no_closure (hI : KeyInv c) (hf : FreshIds c.data.log) {m : Nat} {info : OrderInfo}
    (hans : .answer m (.ok info) ∈ c.data.log) {details : Details} {o : NewOrder} {m' : Nat} :
    ¬ c.Has (.psetMaker info.orderId details o m') := by
  intro hhas
  obtain ⟨details', hcreated⟩ := hI.answered m info hans
  have hm := hf.same_request hcreated (hI.requests.knows _ hhas).2 rfl
  subst hm
  have hnone := (hI.requests.tokens.unanswered hhas rfl).1
  have hpos := answers_pos hans
  omega

/-- Keys are bound only when an order is accepted. -/
theorem Move.uniqueOrders (h : Move world i c c') :
    c'.data.uniqueOrders = c.data.uniqueOrders ∨
      ∃ x, ∃ o : NewOrder, (∀ k, o.uniqueKey = some k → isDuplicate c.data k = false)
        ∧ c'.data.uniqueOrders = (claimKey c.data o.uniqueKey x).uniqueOrders := by
  cases h with
  | accept hdup => exact .inr ⟨_, _, hdup, rfl⟩
  | store hc => exact .inl (by rw [makeAsyncRequest_connected hc])
  | reject => exact .inl (cancelOrder_uniqueOrders _ _)
  | duplicate => exact .inl (cancelOrder_uniqueOrders _ _)
  | cancel x => exact .inl (cancelOrder_uniqueOrders _ x)
  | _ => exact .inl rfl

/-- A key bound to an order that is active or done is taken. -/
theorem isDuplicate_of_live {d : Data} {k : String} {x : OrderId}
    (hk : d.uniqueOrders[k]? = some x) (hx : Live d x) : isDuplicate d k = true := by
  obtain ⟨st, hst, hlive⟩ := hx
  unfold isDuplicate
  rw [hk]
  simp only [hst]
  cases st with
  | active outs => rfl
  | succeed outs txid => rfl
  | failed => exact absurd rfl hlive

theorem Move.bound (h : Move world i c c') (hI : KeyInv c) :
    FreshIds c'.data.log → ∀ k x, AcceptedFor c'.data.log k x → Live c'.data x →
      c'.data.uniqueOrders[k]? = some x := by
  rintro hfresh k x ⟨m, o, info, hreq, hkey, hans, rfl⟩ ⟨st, hst, hlive⟩
  have hf := hfresh.of_grown h.log_grows
  rcases h.event hans with hold | ⟨x', details, o', hhas, rfl, -, hbound⟩
  · -- accepted before: the request is an old one, and so is the entry
    have hreq' : .newOrder m o ∈ c.data.log := by
      rcases h.event hreq with hreq | ⟨hm, -, -⟩
      · exact hreq
      · have honce := hI.requests.tokens.once m
        have hpos := answers_pos hold
        rw [if_neg (by omega)] at honce
        omega
    have hbefore : Live c.data info.orderId := by
      rcases h.orders info.orderId with heq | hfailed | ⟨details, o', m', outs, hhas, -, -⟩ |
        ⟨outs, txid, hactive, -⟩
      · exact ⟨st, heq ▸ hst, hlive⟩
      · rw [hfailed] at hst
        cases hst
        exact absurd rfl hlive
      · exact absurd hhas (hI.no_closure hf hold)
      · exact ⟨_, hactive, fun hc => nomatch hc⟩
    have hold := hI.bound hf k _ ⟨m, o, info, hreq', hkey, hold, rfl⟩ hbefore
    rcases h.uniqueOrders with heq | ⟨y, o', hdup, heq⟩
    · rw [heq]
      exact hold
    · rw [heq]
      cases hkey' : o'.uniqueKey with
      | none => exact hold
      | some k' =>
          by_cases hkk : k' = k
          · -- the key is taken, so nothing else was accepted for it
            have hfree := hdup k' hkey'
            rw [hkk, isDuplicate_of_live hold hbefore] at hfree
            exact nomatch hfree
          · exact (Table.getElem?_insert_eq ..).trans ((if_neg hkk).trans hold)
  · -- accepted now: the key has just been bound
    have hsame := h.oneOrder hI.requests m o o' hreq
      (h.log_grows.subset (hI.requests.knows _ hhas).1)
    subst hsame
    rw [hbound, hkey]
    exact (Table.getElem?_insert_eq ..).trans (if_pos rfl)

theorem Move.keyInv (h : Move world i c c') (hI : KeyInv c) : KeyInv c' where
  requests := h.requestInv hI.requests
  answered := h.answered hI
  bound := h.bound hI

end

theorem crash_keyInv {world : World} {s : System} {i : Input} (hs : s.crashed = false)
    (hc : (step world s i).crashed = true) (hI : KeyInv s.config) :
    KeyInv (step world s i).config := by
  have hrequests := crash_requestInv hs hc hI.requests
  obtain ⟨e, hdata, hnext, hevent⟩ := step_crashed hs hc
  have hconfig : (step world s i).config = ⟨s.data.emit e, [], s.nextSender⟩ := by
    unfold System.config
    rw [hdata, hnext]
  rw [hconfig] at hrequests ⊢
  have hold : ∀ e' : Event, (∀ resp, e' ≠ .ws resp) → (∀ resp, e' ≠ .wallet resp) →
      e' ∈ s.data.log ++ [e] → e' ∈ s.data.log := crash_event hevent
  refine ⟨hrequests, ?_, ?_⟩
  · intro m info hans
    obtain ⟨details, hcreated⟩ :=
      hI.answered m info (hold _ (fun _ h => nomatch h) (fun _ h => nomatch h) hans)
    exact ⟨details, List.mem_append_left _ hcreated⟩
  · rintro hf k x ⟨m, o, info, hreq, hkey, hans, hx⟩ hlive
    refine hI.bound (hf.of_grown (List.prefix_append _ _)) k x
      ⟨m, o, info, ?_, hkey, ?_, hx⟩ hlive
    · exact hold _ (fun _ h => nomatch h) (fun _ h => nomatch h) hreq
    · exact hold _ (fun _ h => nomatch h) (fun _ h => nomatch h) hans

theorem reaches_keyInv {world : World} {ok : System → Input → Prop} {s : System}
    (h : Reaches world ok s) : KeyInv s.config := by
  refine reaches_invariant ?_ ?_ ?_ h
  · intro policyAsset sessionId
    refine ⟨start_requestInv policyAsset sessionId, ?_, ?_⟩
    · intro m info hans
      simp [System.config, start] at hans
    · rintro - k x ⟨m, o, info, hreq, -⟩
      simp [System.config, start] at hreq
  · intro i c c' hI hm
    exact hm.keyInv hI
  · intro s i _ hs hc hI
    exact crash_keyInv hs hc hI

/-- The order is done. -/
def OrderState.isDone : OrderState → Bool
  | .succeed _ _ => true
  | _ => false

/-- The input overwrites no completed order and completes active orders only. -/
def respectsCompletion (s : System) (i : Input) : Bool :=
  (s.data.orders.toList.all fun entry => !entry.2.isDone || !overwrites s entry.1 i) &&
    match i with
    | .ws (.notification (.complete ⟨x, some _⟩)) =>
        match s.data.orders[x]? with
        | some (.active _) => true
        | _ => false
    | _ => true

theorem respectsCompletion_keeps {s : System} {i : Input} (h : respectsCompletion s i = true)
    {x : OrderId} {outs : List OutPoint} {txid : Txid}
    (hx : s.data.orders[x]? = some (.succeed outs txid)) : overwrites s x i = false := by
  have hmem := Std.TreeMap.mem_toList_iff_getElem?_eq_some.mpr hx
  have hentry := List.all_eq_true.mp (Bool.and_eq_true_iff.mp h).1 _ hmem
  simpa [OrderState.isDone] using hentry

theorem respectsCompletion_active {s : System} {x : OrderId} {txid : Txid}
    (h : respectsCompletion s (.ws (.notification (.complete ⟨x, some txid⟩))) = true) :
    ∃ outs, s.data.orders[x]? = some (.active outs) := by
  have hactive := (Bool.and_eq_true_iff.mp h).2
  simp only at hactive
  split at hactive
  · exact ⟨_, ‹_›⟩
  · exact nomatch hactive

/-- The messages of the log came in through the socket. -/
theorem step_ws_event {world : World} {s : System} {i : Input} {resp : WrappedResponse}
    (h : .ws resp ∈ (step world s i).data.log) : .ws resp ∈ s.data.log ∨ i = .ws resp := by
  cases hc : (step world s i).crashed with
  | true =>
      cases hs : s.crashed with
      | true =>
          rw [show step world s i = s by unfold step; rw [if_pos hs]] at h
          exact .inl h
      | false =>
          obtain ⟨e, hdata, -, hevent⟩ := step_crashed hs hc
          rw [hdata] at h
          rcases List.mem_append.mp h with h | h
          · exact .inl h
          · rcases hevent with ⟨resp', p, rfl, rfl, -⟩ | ⟨x, pset, rfl⟩ | ⟨x, rfl⟩
            · cases List.mem_singleton.mp h
              exact .inr rfl
            · exact nomatch List.mem_singleton.mp h
            · exact nomatch List.mem_singleton.mp h
  | false =>
      have hmoves := step_moves hc
      have hall : ∀ {c c' : Config}, Moves world i c c' → .ws resp ∈ c'.data.log →
          .ws resp ∈ c.data.log ∨ i = .ws resp := by
        intro c c' hm hmem
        induction hm with
        | refl => exact .inl hmem
        | tail _ hlast ih =>
            rcases hlast.event hmem with hold | hi
            · exact ih hold
            · exact .inr hi
      exact hall hmoves h

/-- Completing an active order records the transaction. -/
theorem step_complete {world : World} {s : System} {x : OrderId} {txid : Txid}
    {outs : List OutPoint} (hs : s.crashed = false) (hx : s.data.orders[x]? = some (.active outs)) :
    (step world s (.ws (.notification (.complete ⟨x, some txid⟩)))).data.orders[x]? =
      some (.succeed outs txid) := by
  unfold step
  rw [if_neg (by rw [hs]; decide)]
  simp only [receive, processWs, processNotification, processComplete, emit_orders, hx]
  rw [Table.getElem?_insert_eq, if_pos rfl]

/-- What the server reports as complete is completed. -/
theorem reaches_completed {world : World} {s : System}
    (h : Reaches world (fun s i => respectsCompletion s i) s) (hfresh : FreshIds s.data.log) :
    ∀ x, ReportedComplete s.data.log x → ∃ outs txid, s.data.orders[x]? = some (.succeed outs txid) := by
  have hall : FreshIds s.data.log → ∀ x, ReportedComplete s.data.log x →
      ∃ outs txid, s.data.orders[x]? = some (.succeed outs txid) := by
    refine Transition.Reach.invariant (I := fun s => FreshIds s.data.log →
      ∀ x, ReportedComplete s.data.log x →
        ∃ outs txid, s.data.orders[x]? = some (.succeed outs txid)) ?_ ?_ h
    · rintro s ⟨policyAsset, sessionId, rfl⟩ - x ⟨txid, hmem⟩
      simp [start] at hmem
    · rintro s i hr hI hok hf x ⟨txid, hmem⟩
      have hf' := hf.of_grown (step_log_grows world s i)
      by_cases hold : ReportedComplete s.data.log x
      · -- completed before, and the input leaves the entry alone
        obtain ⟨outs, txid', hx⟩ := hI hf' x hold
        have hcreated := reaches_liveCreated hr x ⟨_, hx, by rintro ⟨⟩⟩
        exact ⟨outs, txid', (step_keeps_entry hcreated (respectsCompletion_keeps hok hx) hf).trans hx⟩
      · rcases step_ws_event hmem with hmem | rfl
        · exact absurd ⟨txid, hmem⟩ hold
        · cases hs : s.crashed with
          | false =>
              obtain ⟨outs, hx⟩ := respectsCompletion_active hok
              exact ⟨outs, txid, step_complete hs hx⟩
          | true =>
              rw [show ∀ i, step world s i = s by intro i; unfold step; rw [if_pos hs]] at hmem
              exact absurd ⟨txid, hmem⟩ hold
  exact hall hfresh

/-- **A UNIQUE KEY ADMITS ONE ORDER.**  In every run whose inputs leave the
    completed orders alone and complete active orders only, and in which no
    order id is used twice: of the orders requested with a key and answered
    `Ok`, at most one is active, done, or was ever reported as complete. -/
theorem unique_key_admits_one_order {world : World} {s : System}
    (h : Reaches world (fun s i => respectsCompletion s i) s) (hfresh : FreshIds s.data.log) {k : String}
    {x y : OrderId} (hx : Counts s.data k x) (hy : Counts s.data k y) : x = y := by
  have hI := reaches_keyInv h
  have hbound : ∀ z, Counts s.data k z → s.data.uniqueOrders[k]? = some z := by
    rintro z ⟨hacc, hlive | hreported⟩
    · exact hI.bound hfresh k z hacc hlive
    · obtain ⟨outs, txid, hz⟩ := reaches_completed h hfresh z hreported
      exact hI.bound hfresh k z hacc ⟨_, hz, fun hc => nomatch hc⟩
  have hsame := (hbound x hx).symm.trans (hbound y hy)
  exact Option.some.inj hsame

/-- A second API request with the key of the small run's order. -/
def Sample.secondRequest (first second : String) : List Input :=
  [.newOrder Sample.newOrder, .ws (.response (some (.string first)) (.ok (.submit ⟨8, Sample.details⟩))),
    .ws (.response (some (.string second)) (.ok .psetMaker))]

/-- While the first order is completed, its key admits no other order. -/
theorem sample_key_admits_one :
    let s := run Sample.world Sample.bitcoin (Sample.completed ++ Sample.secondRequest "4" "5")
    Counts s.data "key" Sample.order ∧ ∀ y, Counts s.data "key" y → y = Sample.order := by
  intro s
  have hreach : Reaches Sample.world (fun s i => respectsCompletion s i) s :=
    reaches_run (by decide +kernel)
  have hfresh : FreshIds s.data.log := by
    unfold FreshIds
    decide +kernel
  have hcounts : Counts s.data "key" Sample.order := by
    refine ⟨⟨0, Sample.newOrder, orderInfo Sample.order Sample.details, ?_, rfl, ?_, rfl⟩, .inl ?_⟩
    · exact List.mem_of_getElem? (show s.data.log[6]? = _ from rfl)
    · exact List.mem_of_getElem? (show s.data.log[15]? = _ from rfl)
    · exact ⟨.succeed [Sample.coin.outPoint] Sample.txid, by decide +kernel, by decide⟩
  exact ⟨hcounts, fun y hy => unique_key_admits_one_order hreach hfresh hy hcounts⟩

/-- The server reports that the completed order is removed from the market:
    its key is free again and admits a second order. -/
theorem removed_order_frees_key :
    let s := run Sample.world Sample.bitcoin (Sample.completed ++
      .ws (.notification (.orderRemoved Sample.order)) :: Sample.secondRequest "4" "5")
    Reaches Sample.world (fun _ _ => True) s ∧ FreshIds s.data.log
      ∧ Counts s.data "key" Sample.order ∧ Counts s.data "key" 8 := by
  intro s
  refine ⟨reaches_run (by decide +kernel), ?_, ?_, ?_⟩
  · unfold FreshIds
    decide +kernel
  · refine ⟨⟨0, Sample.newOrder, orderInfo Sample.order Sample.details, ?_, rfl, ?_, rfl⟩,
      .inr ⟨Sample.txid, ?_⟩⟩
    · exact List.mem_of_getElem? (show s.data.log[6]? = _ from rfl)
    · exact List.mem_of_getElem? (show s.data.log[15]? = _ from rfl)
    · exact List.mem_of_getElem? (show s.data.log[16]? = _ from rfl)
  · refine ⟨⟨1, Sample.newOrder, orderInfo 8 Sample.details, ?_, rfl, ?_, rfl⟩, .inl ?_⟩
    · exact List.mem_of_getElem? (show s.data.log[18]? = _ from rfl)
    · exact List.mem_of_getElem? (show s.data.log[27]? = _ from rfl)
    · exact ⟨.active [Sample.coin.outPoint], by decide +kernel, by decide⟩

end Headless
