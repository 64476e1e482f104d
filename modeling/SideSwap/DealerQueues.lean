import SideSwap.SwapReports

/-! # What goes into the order dealer and what comes out

    The order dealer is a thread of its own: the program that runs it sends it
    `To` messages and reads its `From` messages.  Its history tells both: each
    message is noted once, whatever comes of it, and what was reported stays.
    The prices it was told are those after all the messages that it has noted. -/

namespace OrderDealer

open Api Program Pricing Transition History Relation

/-! ## What comes out -/

/-- What an event of the order dealer sends to the program that runs it. -/
def TradeEvent.sent? : TradeEvent → Option From
  | .reported msg => some msg
  | _ => none

/-- The swap of a message. -/
def swapIn : From → Option SwapSucceed
  | .swap swap => some swap
  | .walletBalanceUpdated => none

theorem reports_sent (log : List TradeEvent) :
    reports log = (log.filterMap TradeEvent.sent?).filterMap swapIn := by
  rw [List.filterMap_filterMap]
  refine congrArg (List.filterMap · log) (funext fun e => ?_)
  cases e with
  | reported msg => cases msg <;> rfl
  | _ => rfl

theorem deal_grows {params : TradeParams} {b b' : Blotter}
    (h : Deal params b b') : b.log <+: b'.log := by
  cases h with
  | expire _ => exact List.prefix_rfl
  | complete _ _ _ => exact (List.prefix_append _ _).trans (List.prefix_append _ _)
  | _ => exact List.prefix_append _ _

theorem deals_grow {params : TradeParams} {b b' : Blotter}
    (h : ReflTransGen (Deal params) b b') : b.log <+: b'.log := by
  induction h with
  | refl => exact List.prefix_rfl
  | tail _ hdeal ih => exact ih.trans (deal_grows hdeal)

theorem trade_grows (world : TradeWorld) {params : TradeParams} {s : Trading} (h : s.Sound params)
    (msg : TradeMsg) :
    s.worker.log <+: (trade world params s msg).worker.log := by
  simp only [trade]
  split
  · exact List.prefix_rfl
  · next hrun =>
      have hinv := h.tables (Bool.eq_false_iff.mpr hrun)
      by_cases hmsg : ∃ done, msg = .complete done
      · obtain ⟨done, rfl⟩ := hmsg
        simp only [finishTrade, processTrade]
        obtain ⟨w', hexec, hdeal⟩ | ⟨p, hexec⟩ :=
          processCompletion_cases params done s.worker
        · rw [hexec]
          exact deal_grows hdeal
        · rw [hexec]
          exact List.prefix_append _ _
      · have hdeals := processTrade_deals world params
          hinv.keyed fun done hdone => hmsg ⟨done, hdone⟩
        have hgrow := deals_grow hdeals
        simp only [finishTrade]
        split <;> next hexec =>
          rw [hexec] at hgrow
          exact hgrow

/-! ## Each message is noted once -/

/-- The messages of a history. -/
def receipts (w : Worker) : List TradeMsg := w.log.filterMap TradeEvent.received?

section Receipts

variable {world : TradeWorld} {params : TradeParams}

theorem receipts_emit {e : TradeEvent} (h : e.received? = none) (w : Worker) :
    receipts (w.emit e) = receipts w := by
  show (w.log ++ [e]).filterMap _ = w.log.filterMap _
  rw [List.filterMap_append, List.filterMap_cons_none h, List.filterMap_nil, List.append_nil]

theorem emitTrade_receipts {e : TradeEvent} (h : e.received? = none) :
    Fixes receipts (emitTrade e) := by
  intro w
  show ReflTransGen _ _ (receipts (w.emit e))
  rw [receipts_emit h]

theorem tradeRequest_receipts {α : Type} (req : TradeRequest)
    (value : TradeResponse → Option α) :
    Fixes receipts (tradeRequest world req value) := by
  have hnote : ∀ (w : Worker) res,
      ReflTransGen emptyRelation (receipts w) (receipts (w.emit (.request req res))) := by
    intro w res
    rw [receipts_emit rfl]
  intro w
  rw [← bind_pure (tradeRequest world req value)]
  exact Leads.request (fun res _ => hnote w res) (fun e => hnote w _) fun resp a _ => hnote w _

theorem own_receipts {α : Type} (p : Handler α) : Fixes receipts (own p) := fun _ => .refl

theorem processSign_receipts (order : SignNotification) :
    Fixes receipts (processSign world params order) := by
  intro w
  refine Leads.get (Leads.ofPanic .refl fun interest _ => ?_)
  refine Leads.attemptStop .refl (fun _ _ => .refl) fun _ _ => Leads.ofPanic .refl fun req _ => ?_
  refine Leads.call (tradeRequest_receipts _ _) .refl fun res _ _ hreach => Leads.commit hreach ?_
  exact Leads.ofPanic .refl fun _ _ => .refl

theorem processCompletion_receipts (msg : CompleteNotification) :
    Fixes receipts (processCompletion msg) := by
  intro w
  refine Leads.call (own_receipts _) .refl fun _ w1 _ hreach => Leads.commit hreach ?_
  refine Leads.get (Leads.modify ?_)
  cases msg.txid with
  | none => exact .refl
  | some txid =>
      refine Leads.ofPanic .refl fun details _ => Leads.ofPanic .refl fun asset _ => ?_
      exact Leads.ofPanic .refl fun ticker _ => Leads.commit .refl (emitTrade_receipts rfl _)

theorem takeOther_receipts (order : OrderCreatedNotification) :
    Fixes receipts (takeOther world params order) := by
  intro w
  refine Leads.get ?_
  split
  · exact .refl
  refine Leads.ofPanic .refl fun interest _ => ?_
  refine Leads.attemptStop .refl (fun _ _ => .refl) fun _ _ => ?_
  refine Leads.attemptStop .refl (fun _ _ => .refl) fun req _ => ?_
  refine Leads.call (tradeRequest_receipts _ _) .refl fun res _ _ hreach => Leads.commit hreach ?_
  cases res with
  | ok _ => exact .refl
  | error _ => exact .refl

theorem checkWallet_receipts : Fixes receipts (checkWallet world) := by
  intro w
  refine Leads.get ?_
  split
  · exact .refl
  · split
    · exact .refl
    · exact Leads.modify (Leads.commit .refl (emitTrade_receipts rfl _))

theorem processTick_receipts : Fixes receipts (processTick world params) := by
  intro w
  refine Leads.get (Leads.call (own_receipts _) .refl fun _ w1 _ hreach => Leads.commit hreach ?_)
  refine Leads.get (Leads.call (Follows.forM takeOther_receipts _) .refl
    fun _ w2 _ hreach => Leads.commit hreach ?_)
  refine Leads.call checkWallet_receipts .refl fun _ w3 _ hreach => Leads.commit hreach ?_
  exact Leads.get (own_receipts _ _)

theorem subscribeAsset_receipts (asset : AssetId) :
    Fixes receipts (subscribeAsset world asset) :=
  Follows.bind (tradeRequest_receipts _ _) fun _ _ => Leads.ofPanic .refl fun _ _ => .refl

theorem processConnected_receipts : Fixes receipts (processConnected world params) := by
  intro w
  refine Leads.call (tradeRequest_receipts _ _) .refl fun _ w1 _ hreach => Leads.commit hreach ?_
  refine Leads.ofPanic .refl fun assets _ => Leads.modify (Leads.commit .refl ?_)
  refine Leads.call (tradeRequest_receipts _ _) .refl fun _ w2 _ hreach => Leads.commit hreach ?_
  refine Leads.ofPanic .refl fun login _ => Leads.ofPanic .refl fun _ _ => ?_
  refine Leads.call (Follows.forM (fun _ => subscribeAsset_receipts _) _) .refl
    fun _ w3 _ hreach => Leads.commit hreach ?_
  exact own_receipts _ w3

variable (world params) in
theorem processTrade_receipts (msg : TradeMsg) :
    Fixes receipts (processTrade world params msg) := by
  cases msg with
  | connected => exact processConnected_receipts
  | disconnected => exact fun _ => .refl
  | orderCreated order =>
      simp only [processTrade]
      split
      · exact fun _ => .refl
      · exact fun _ => .refl
  | orderRemoved orderId => exact fun _ => .refl
  | sign order => exact processSign_receipts order
  | complete msg => exact processCompletion_receipts msg
  | reloadUtxo unspent => exact own_receipts _
  | msgTo msg => exact fun w => Leads.get (own_receipts _ w)
  | timer => exact processTick_receipts
  | other => exact fun _ => .refl

/-- A message is noted once, however it ends. -/
theorem receipts_trade {s : Trading} (hrun : s.stopped = false) (msg : TradeMsg) :
    receipts (trade world params s msg).worker = receipts s.worker ++ [msg] := by
  have hfixes := (processTrade_receipts world params msg).eq
    (s.worker.emit (.received msg))
  have hnoted : receipts (s.worker.emit (.received msg)) = receipts s.worker ++ [msg] := by
    show (s.worker.log ++ [TradeEvent.received msg]).filterMap _ = _
    rw [List.filterMap_append]
    rfl
  simp only [trade, hrun, Bool.false_eq_true, if_false, finishTrade]
  rw [hnoted] at hfixes
  split <;> next hexec =>
    rw [hexec] at hfixes
    exact hfixes

end Receipts

/-! ## What was told -/

/-- The prices after a message. -/
def tell (told : DealerTicker → Option PricePair) : To → DealerTicker → Option PricePair
  | .price ticker price => Function.update told ticker price
  | .limitBalance _ _ _ => told
  | .resetPrices => fun _ => none

/-- What the program that runs the order dealer says. -/
def toldOf : TradeMsg → Option To
  | .msgTo msg => some msg
  | _ => none

theorem eq_received {e : TradeEvent} {msg : To} (h : e.received?.bind toldOf = some msg) :
    e = .received (.msgTo msg) := by
  cases e with
  | received msg' =>
      cases msg' with
      | msgTo msg' =>
          cases h
          rfl
      | _ => cases h
  | _ => cases h

theorem told_record (a : Account) (e : TradeEvent) :
    (a.record e).told = (e.received?.bind toldOf).elim a.told (tell a.told) := by
  cases e with
  | received msg =>
      cases msg with
      | msgTo msg => cases msg <;> rfl
      | orderCreated order =>
          simp only [Account.record, Account.receive]
          split
          · rfl
          · rfl
      | _ => rfl
  | request req res =>
      simp only [Account.record]
      split
      · next heq => cases heq
      all_goals rfl
  | reported msg => rfl

/-- A price that the dealer was told came in a message. -/
theorem told_received {log : List TradeEvent} {ticker : DealerTicker} {pair : PricePair}
    (h : (account log).told ticker = some pair) :
    .received (.msgTo (.price ticker (some pair))) ∈ log := by
  induction log using List.reverseRecOn with
  | nil => cases h
  | append_singleton log e ih =>
      rw [account_concat, told_record] at h
      cases hmsg : e.received?.bind toldOf with
      | none =>
          rw [hmsg] at h
          exact List.mem_append_left _ (ih h)
      | some msg =>
          rw [hmsg] at h
          cases msg with
          | price ticker' price =>
              simp only [Option.elim_some, tell] at h
              by_cases heq : ticker = ticker'
              · subst heq
                rw [Function.update_self] at h
                subst h
                refine List.mem_append_right _ (List.mem_singleton.mpr ?_)
                exact (eq_received hmsg).symm
              · rw [Function.update_of_ne heq] at h
                exact List.mem_append_left _ (ih h)
          | limitBalance _ _ _ => exact List.mem_append_left _ (ih h)
          | resetPrices => cases h

/-- A price that stands after some messages is one of them, and no reset came after it. -/
theorem told_last {msgs : List To} {ticker : DealerTicker} {pair : PricePair}
    (h : (msgs.foldl tell fun _ => none) ticker = some pair) :
    ∃ before after, msgs = before ++ .price ticker (some pair) :: after ∧ .resetPrices ∉ after := by
  induction msgs using List.reverseRecOn with
  | nil => cases h
  | append_singleton msgs msg ih =>
      have hkeep : (msgs.foldl tell fun _ => none) ticker = some pair → msg ≠ .resetPrices →
          ∃ before after, msgs ++ [msg] = before ++ .price ticker (some pair) :: after ∧
            .resetPrices ∉ after := by
        intro htold hmsg
        obtain ⟨before, after, rfl, hnot⟩ := ih htold
        refine ⟨before, after ++ [msg], by simp, ?_⟩
        intro hmem
        rcases List.mem_append.mp hmem with hmem | hmem
        · exact hnot hmem
        · exact hmsg (List.mem_singleton.mp hmem).symm
      rw [List.foldl_concat] at h
      cases msg with
      | price ticker' price =>
          simp only [tell] at h
          by_cases heq : ticker = ticker'
          · subst heq
            rw [Function.update_self] at h
            subst h
            exact ⟨msgs, [], rfl, List.not_mem_nil⟩
          · rw [Function.update_of_ne heq] at h
            exact hkeep h To.noConfusion
      | limitBalance _ _ _ => exact hkeep h To.noConfusion
      | resetPrices => cases h

/-- The messages of the program that the dealer has received. -/
def takenTolds (log : List TradeEvent) : List To :=
  log.filterMap fun e => e.received?.bind toldOf

/-- The prices that the dealer was told are those after all that it has received. -/
theorem dealer_told (log : List TradeEvent) :
    (account log).told = (takenTolds log).foldl tell fun _ => none := by
  induction log using List.reverseRecOn with
  | nil => rfl
  | append_singleton log e ih =>
      have hgrow : takenTolds (log ++ [e]) = takenTolds log ++ (e.received?.bind toldOf).toList := by
        rw [takenTolds, List.filterMap_append]
        refine congrArg (takenTolds log ++ ·) ?_
        rw [List.filterMap_cons, List.filterMap_nil]
        cases e.received?.bind toldOf with
        | none => rfl
        | some msg => rfl
      rw [account_concat, told_record, ih, hgrow]
      cases e.received?.bind toldOf with
      | none => rw [Option.toList_none, List.append_nil, Option.elim_none]
      | some msg => rw [Option.toList_some, List.foldl_concat, Option.elim_some]

theorem takenTolds_receipts (w : Worker) :
    takenTolds w.log = (receipts w).filterMap toldOf := by
  rw [receipts, List.filterMap_filterMap]
  rfl

end OrderDealer
