import SideSwap.HeadlessSystem

/-! # The headless worker as a protocol of small moves

    The handlers are nested closures: a response takes a closure out of the
    request table, the closure may create an order, reserve coins, store
    another closure or answer the API caller, and when the socket is down
    storing a closure calls it at once.  `Move` names these effects one by one.
    A configuration carries the closures that have been taken out and whose
    call has not ended, so an invariant can speak about the middle of a
    handler.

    `step_moves` is the connection to the worker: a step that does not panic is
    a sequence of moves that starts and ends with no closure in hand.  The
    invariants of the worker are then proved move by move. -/

namespace Headless

open Api Program MachineInt CoinSelection Relation

/-- The worker inside a handler: its state, the closures in hand, and the
    number of the next API request. -/
structure Config where
  data : Data
  running : List AsyncRequest
  nextSender : Nat

/-- What a response to an accepted order says. -/
def orderInfo (orderId : OrderId) (details : Details) : OrderInfo where
  orderId
  assetId := details.asset
  bitcoinAmount := details.bitcoinAmount
  assetAmount := details.assetAmount
  price := details.price
  isPrivate := true

/-- `unique_orders.insert`, for a request that has a key. -/
def claimKey (data : Data) (key : Option String) (orderId : OrderId) : Data :=
  match key with
  | some uniqueKey => { data with uniqueOrders := data.uniqueOrders.insert uniqueKey orderId }
  | none => data

/-- The events that go with no move of their own: queries, answers to them,
    and messages that change no order and end no request. -/
def Quiet (data : Data) : Event → Prop
  | .orderStatus _ | .listOrders | .status _ _ | .connect => True
  | .called _ _ _ => True
  | .wallet (.signedPset _ _) | .wallet (.psetSignFailed _) => True
  | .ws .connected => True
  | .ws (.response (some (.string text)) _) => data.asyncRequests[text]? = none
  | .ws (.response _ _) => True
  | .ws (.notification (.complete complete)) => complete.txid = none
  | .ws (.notification (.sign _)) => False
  | .ws (.notification _) => True
  | _ => False

/-- One effect of handling the input `i`. -/
inductive Move (world : World) (i : Input) : Config → Config → Prop where
  | note {d r n e} : Quiet d e → (∀ resp, e = .ws resp → i = .ws resp) →
      Move world i ⟨d, r, n⟩ ⟨d.emit e, r, n⟩
  | connected {d r n} : Move world i ⟨d, r, n⟩ ⟨{ d with wsConnected := true }, r, n⟩
  /-- the connection drops and every pending closure is taken out -/
  | disconnected {d n} : i = .ws .disconnected →
      Move world i ⟨d, [], n⟩
        ⟨{ d.emit (.ws .disconnected) with wsConnected := false, asyncRequests := ∅ },
          Table.values d.asyncRequests, n⟩
  /-- a response takes out its closure -/
  | respond {d r n text cb res} : i = .ws (.response (some (.string text)) res) →
      d.asyncRequests[text]? = some cb →
      Move world i ⟨d, r, n⟩
        ⟨{ d.emit (.ws (.response (some (.string text)) res)) with
            asyncRequests := d.asyncRequests.erase text }, cb :: r, n⟩
  | snapshot {d r n si} :
      Move world i ⟨d, r, n⟩
        ⟨{ d.emit (.wallet (.swapInputs si)) with swapInputs := some si }, r, n⟩
  /-- an API request arrives with its answer channel -/
  | request {d r n o} :
      Move world i ⟨d, r, n⟩ ⟨d.emit (.newOrder n o), .submit o n :: r, n + 1⟩
  /-- a closure that answers nobody comes into being or ends -/
  | hold {d r n} (cb : AsyncRequest) : cb.resSender? = none → Move world i ⟨d, r, n⟩ ⟨d, cb :: r, n⟩
  | drop {d r n cb} : cb.resSender? = none → Move world i ⟨d, cb :: r, n⟩ ⟨d, r, n⟩
  | store {d r n req cb} : d.wsConnected = true →
      Move world i ⟨d, cb :: r, n⟩ ⟨makeAsyncRequest d req cb, r, n⟩
  | refuse {d r n o m err} :
      Move world i ⟨d, .submit o m :: r, n⟩ ⟨d.emit (.answer m (.error err)), r, n⟩
  | create {d r n o m} (resp : SubmitResponse) :
      Move world i ⟨d, .submit o m :: r, n⟩
        ⟨d.emit (.orderCreated m resp), .psetMaker resp.orderId resp.details o m :: r, n⟩
  /-- the coins of the order that has just been created are reserved -/
  | reserve {d r n x details o m si inputs} :
      d.log.getLast? = some (.orderCreated m ⟨x, details⟩) → d.swapInputs = some si →
      ¬ inputsAmount (freeInputs world d si (sendAsset d.policyAsset details)) <
        sendAmount details →
      selectUtxoValues (candidates (freeInputs world d si (sendAsset d.policyAsset details)))
        (sendAmount details) = .ok inputs →
      Move world i ⟨d, .psetMaker x details o m :: r, n⟩
        ⟨reserveInputs d x details si inputs, .psetMaker x details o m :: r, n⟩
  | reject {d r n x details o m err} :
      Move world i ⟨d, .psetMaker x details o m :: r, n⟩
        ⟨(cancelOrder d x).emit (.answer m (.error err)), r, n⟩
  | duplicate {d r n x details o m} :
      Move world i ⟨d, .psetMaker x details o m :: r, n⟩
        ⟨cancelOrder (d.emit (.answer m (.error .duplicatedOrder))) x, r, n⟩
  | accept {d r n x details o m} :
      (∀ k, o.uniqueKey = some k → isDuplicate d k = false) →
      Move world i ⟨d, .psetMaker x details o m :: r, n⟩
        ⟨(claimKey d o.uniqueKey x).emit (.answer m (.ok (orderInfo x details))), r, n⟩
  | cancel {d r n} (x : OrderId) : Move world i ⟨d, r, n⟩ ⟨cancelOrder d x, r, n⟩
  | fail {d r n x} :
      Move world i ⟨d, r, n⟩ ⟨{ d with orders := d.orders.insert x .failed }, r, n⟩
  | complete {d r n x txid inputs} : i = .ws (.notification (.complete ⟨x, some txid⟩)) →
      d.orders[x]? = some (.active inputs) →
      Move world i ⟨d, r, n⟩
        ⟨{ d.emit (.ws (.notification (.complete ⟨x, some txid⟩))) with
            orders := (d.orders.erase x).insert x (.succeed inputs txid) }, r, n⟩
  /-- a `Sign` notification goes to the wallet thread -/
  | forward {d r n} (sign : SignNotification) : i = .ws (.notification (.sign sign)) →
      Move world i ⟨d, r, n⟩
        ⟨{ d with
            walletQueue := d.walletQueue ++ [sign]
            signRequestCount := d.signRequestCount + 1
            log := d.log ++ [.ws (.notification (.sign sign)),
              .forwarded sign d.orders[sign.orderId]?] }, r, n⟩
  /-- the wallet thread verifies and signs -/
  | verify {d r n sign rest} : i = .walletSign → d.walletQueue = sign :: rest →
      Move world i ⟨d, r, n⟩
        ⟨{ d with
            walletQueue := rest
            log := d.log ++ [.verified sign (signAmounts d.policyAsset sign.details)
              ((world.session d.log).verifyAndSignPset d.policyAsset
                (signAmounts d.policyAsset sign.details) sign.pset (sign.nonces.getD []))] }, r, n⟩
  | countDown {d r n c} : i = .walletResp → Move world i ⟨d, r, n⟩ ⟨{ d with signRequestCount := c }, r, n⟩

/-! ## The parts of the state an effect leaves alone -/

@[simp] theorem emit_orders (d : Data) (e : Event) : (d.emit e).orders = d.orders := rfl
@[simp] theorem emit_asyncRequests (d : Data) (e : Event) :
    (d.emit e).asyncRequests = d.asyncRequests := rfl
@[simp] theorem emit_swapInputs (d : Data) (e : Event) : (d.emit e).swapInputs = d.swapInputs := rfl
@[simp] theorem emit_uniqueOrders (d : Data) (e : Event) :
    (d.emit e).uniqueOrders = d.uniqueOrders := rfl
@[simp] theorem emit_walletQueue (d : Data) (e : Event) :
    (d.emit e).walletQueue = d.walletQueue := rfl
@[simp] theorem emit_policyAsset (d : Data) (e : Event) :
    (d.emit e).policyAsset = d.policyAsset := rfl
@[simp] theorem emit_nextRequestId (d : Data) (e : Event) :
    (d.emit e).nextRequestId = d.nextRequestId := rfl
@[simp] theorem emit_signRequestCount (d : Data) (e : Event) :
    (d.emit e).signRequestCount = d.signRequestCount := rfl
@[simp] theorem emit_log (d : Data) (e : Event) : (d.emit e).log = d.log ++ [e] := rfl

/-- What `cancel_order` sends. -/
def cancelEvents (d : Data) (x : OrderId) : List Event :=
  if d.wsConnected then [.sent (toString d.nextRequestId) (.cancel x) none] else []

/-- `cancel_order` writes the entry, and tells the server when it can. -/
theorem cancelOrder_eq (d : Data) (x : OrderId) :
    cancelOrder d x = { d with
      orders := d.orders.insert x .failed
      nextRequestId := d.nextRequestId + (cancelEvents d x).length
      log := d.log ++ cancelEvents d x } := by
  unfold cancelOrder sendRequest cancelEvents
  by_cases hc : d.wsConnected = true
  · rw [if_pos hc, if_pos hc]
    rfl
  · rw [if_neg hc, if_neg hc, List.append_nil]
    rfl

@[simp] theorem cancelOrder_orders (d : Data) (x : OrderId) :
    (cancelOrder d x).orders = d.orders.insert x .failed := by rw [cancelOrder_eq]
@[simp] theorem cancelOrder_asyncRequests (d : Data) (x : OrderId) :
    (cancelOrder d x).asyncRequests = d.asyncRequests := by rw [cancelOrder_eq]
@[simp] theorem cancelOrder_swapInputs (d : Data) (x : OrderId) :
    (cancelOrder d x).swapInputs = d.swapInputs := by rw [cancelOrder_eq]
@[simp] theorem cancelOrder_uniqueOrders (d : Data) (x : OrderId) :
    (cancelOrder d x).uniqueOrders = d.uniqueOrders := by rw [cancelOrder_eq]
@[simp] theorem cancelOrder_walletQueue (d : Data) (x : OrderId) :
    (cancelOrder d x).walletQueue = d.walletQueue := by rw [cancelOrder_eq]
@[simp] theorem cancelOrder_policyAsset (d : Data) (x : OrderId) :
    (cancelOrder d x).policyAsset = d.policyAsset := by rw [cancelOrder_eq]
@[simp] theorem cancelOrder_signRequestCount (d : Data) (x : OrderId) :
    (cancelOrder d x).signRequestCount = d.signRequestCount := by rw [cancelOrder_eq]
@[simp] theorem cancelOrder_log (d : Data) (x : OrderId) :
    (cancelOrder d x).log = d.log ++ cancelEvents d x := by rw [cancelOrder_eq]

/-- A cancellation only ever sends `Cancel`. -/
theorem mem_cancelEvents {d : Data} {x : OrderId} {e : Event} (h : e ∈ cancelEvents d x) :
    ∃ text, e = .sent text (.cancel x) none := by
  unfold cancelEvents at h
  split at h
  · exact ⟨_, List.mem_singleton.mp h⟩
  · exact nomatch h

/-- While the socket is up, a request is sent and its closure is stored. -/
theorem makeAsyncRequest_connected {d : Data} (h : d.wsConnected = true) (req : Request)
    (cb : AsyncRequest) :
    makeAsyncRequest d req cb = { d with
      nextRequestId := d.nextRequestId + 1
      asyncRequests := d.asyncRequests.insert (toString d.nextRequestId) cb
      log := d.log ++ [.sent (toString d.nextRequestId) req (some cb)] } := by
  unfold makeAsyncRequest
  rw [if_neg (not_not_intro h)]

@[simp] theorem claimKey_orders (d : Data) (key : Option String) (x : OrderId) :
    (claimKey d key x).orders = d.orders := by cases key <;> rfl
@[simp] theorem claimKey_asyncRequests (d : Data) (key : Option String) (x : OrderId) :
    (claimKey d key x).asyncRequests = d.asyncRequests := by cases key <;> rfl
@[simp] theorem claimKey_swapInputs (d : Data) (key : Option String) (x : OrderId) :
    (claimKey d key x).swapInputs = d.swapInputs := by cases key <;> rfl
@[simp] theorem claimKey_walletQueue (d : Data) (key : Option String) (x : OrderId) :
    (claimKey d key x).walletQueue = d.walletQueue := by cases key <;> rfl
@[simp] theorem claimKey_policyAsset (d : Data) (key : Option String) (x : OrderId) :
    (claimKey d key x).policyAsset = d.policyAsset := by cases key <;> rfl
@[simp] theorem claimKey_signRequestCount (d : Data) (key : Option String) (x : OrderId) :
    (claimKey d key x).signRequestCount = d.signRequestCount := by cases key <;> rfl
@[simp] theorem claimKey_nextRequestId (d : Data) (key : Option String) (x : OrderId) :
    (claimKey d key x).nextRequestId = d.nextRequestId := by cases key <;> rfl
@[simp] theorem claimKey_log (d : Data) (key : Option String) (x : OrderId) :
    (claimKey d key x).log = d.log := by cases key <;> rfl

/-- A sequence of moves. -/
abbrev Moves (world : World) (i : Input) : Config → Config → Prop :=
  ReflTransGen (Move world i)

section
variable {world : World} {i : Input} {d d' : Data} {r : List AsyncRequest} {n : Nat}

/-! ## The handlers move by move -/

/-- The call of a closure is noted. -/
theorem called_move (requestId : Option String) (cb : AsyncRequest)
    (res : Except Error Response) :
    Move world i ⟨d, r, n⟩ ⟨d.emit (.called requestId cb res), r, n⟩ :=
  .note trivial (fun _ h => nomatch h)

/-- An error ends a closure. -/
theorem failCallback_moves (cb : AsyncRequest) (err : Error) :
    Moves world i ⟨d, cb :: r, n⟩ ⟨failCallback d cb err, r, n⟩ := by
  cases cb with
  | sign x => exact (ReflTransGen.single (.cancel x)).tail (.drop rfl)
  | psetMaker x details o m => exact .single .reject
  | submit o m => exact .single .refuse
  | login => exact .single (.drop rfl)

/-- Making a request stores its closure, or ends it when the socket is down. -/
theorem makeAsyncRequest_moves (req : Request) (cb : AsyncRequest) :
    Moves world i ⟨d, cb :: r, n⟩ ⟨makeAsyncRequest d req cb, r, n⟩ := by
  by_cases hc : d.wsConnected = true
  · exact .single (.store hc)
  · have hfail : makeAsyncRequest d req cb =
        failCallback (d.emit (.called none cb (.error notConnected))) cb notConnected := by
      unfold makeAsyncRequest
      rw [if_pos hc]
    rw [hfail]
    exact ReflTransGen.head (called_move none cb _) (failCallback_moves cb _)

/-- A dropped connection ends the closures one after the other. -/
theorem failLines_moves : ∀ (lines : List (String × AsyncRequest)) (d : Data),
    Moves world i ⟨d, lines.map (·.2), n⟩ ⟨lines.foldl failLine d, [], n⟩ := by
  intro lines
  induction lines with
  | nil => intro d; exact .refl
  | cons line lines ih =>
      intro d
      refine ReflTransGen.head
        (called_move (some line.1) line.2 (.error serverDisconnected)) ?_
      exact (failCallback_moves line.2 serverDisconnected).trans (ih _)

/-- The orders of a login response are cancelled one after the other. -/
theorem cancelOrders_moves : ∀ (l : List OrderCreatedNotification) (d : Data),
    Moves world i ⟨d, r, n⟩ ⟨l.foldl (fun d o => cancelOrder d o.orderId) d, r, n⟩ := by
  intro l
  induction l with
  | nil => intro d; exact .refl
  | cons o l ih => intro d; exact (ReflTransGen.single (.cancel _)).trans (ih _)

/-- `process_submit_inputs` when the wallet has posted no coins. -/
theorem processSubmitInputs_none {resp : SubmitResponse} (o : NewOrder) (m : Nat)
    (h : d.swapInputs = none) :
    processSubmitInputs world d resp o m =
      .ok (refuseInputs (d.emit (.orderCreated m resp)) resp.orderId m) := by
  have h' : (d.emit (.orderCreated m resp)).swapInputs = none := h
  unfold processSubmitInputs
  simp only [h']

/-- `process_submit_inputs` when there are coins to choose from. -/
theorem processSubmitInputs_some {resp : SubmitResponse} {si : SwapInputs} (o : NewOrder) (m : Nat)
    (h : d.swapInputs = some si) :
    processSubmitInputs world d resp o m =
      if inputsAmount (freeInputs world (d.emit (.orderCreated m resp)) si
          (sendAsset d.policyAsset resp.details)) < sendAmount resp.details then
        .ok (refuseInputs (d.emit (.orderCreated m resp)) resp.orderId m)
      else
        (selectUtxoValues (candidates (freeInputs world (d.emit (.orderCreated m resp)) si
          (sendAsset d.policyAsset resp.details))) (sendAmount resp.details)).bind fun inputs =>
        .ok (makeAsyncRequest
          (reserveInputs (d.emit (.orderCreated m resp)) resp.orderId resp.details si inputs)
          (.psetMaker (psetMakerRequest resp o si inputs))
          (.psetMaker resp.orderId resp.details o m)) := by
  have h' : (d.emit (.orderCreated m resp)).swapInputs = some si := h
  unfold processSubmitInputs
  simp only [h']
  rfl

/-- `process_submit_inputs` rejects the new order, or reserves its coins and
    makes the `PsetMaker` request. -/
theorem processSubmitInputs_moves {resp : SubmitResponse} {o : NewOrder} {m : Nat}
    (h : processSubmitInputs world d resp o m = .ok d') :
    Moves world i
      ⟨d.emit (.orderCreated m resp), .psetMaker resp.orderId resp.details o m :: r, n⟩
      ⟨d', r, n⟩ := by
  cases hsi : d.swapInputs with
  | none =>
      rw [processSubmitInputs_none o m hsi] at h
      cases h
      exact .single .reject
  | some si =>
      rw [processSubmitInputs_some o m hsi] at h
      split at h
      · cases h
        exact .single .reject
      · rename_i hlow
        cases hsel : selectUtxoValues (candidates (freeInputs world
            (d.emit (.orderCreated m resp)) si (sendAsset d.policyAsset resp.details)))
            (sendAmount resp.details) with
        | error p => rw [hsel] at h; exact nomatch h
        | ok inputs =>
            rw [hsel] at h
            cases h
            refine ReflTransGen.head (.reserve ?_ hsi hlow hsel) (makeAsyncRequest_moves _ _)
            exact List.getLast?_concat

/-- The `Ok` arm of the `PsetMaker` closure. -/
theorem psetMakerAccepted_moves (x : OrderId) (details : Details) (o : NewOrder) (m : Nat) :
    Moves world i ⟨d, .psetMaker x details o m :: r, n⟩
      ⟨psetMakerAccepted d x details o m, r, n⟩ := by
  have haccept : (∀ k, o.uniqueKey = some k → isDuplicate d k = false) →
      Moves world i ⟨d, .psetMaker x details o m :: r, n⟩
        ⟨(claimKey d o.uniqueKey x).emit (.answer m (.ok (orderInfo x details))), r, n⟩ :=
    fun h => .single (.accept h)
  unfold psetMakerAccepted
  cases hkey : o.uniqueKey with
  | none =>
      rw [hkey] at haccept
      exact haccept (fun k hk => nomatch hk)
  | some k =>
      rw [hkey] at haccept
      show Moves world i _ ⟨if isDuplicate d k then _ else _, r, n⟩
      by_cases hdup : isDuplicate d k = true
      · rw [if_pos hdup]
        exact .single .duplicate
      · rw [if_neg hdup]
        refine haccept (fun k' hk' => ?_)
        cases hk'
        exact Bool.eq_false_of_not_eq_true hdup

/-- Calling a closure with a response, when it does not panic, ends it. -/
theorem runCallback_moves {cb : AsyncRequest} {res : Except Error Response}
    (h : runCallback world d cb res = .ok d') :
    Moves world i ⟨d, cb :: r, n⟩ ⟨d', r, n⟩ := by
  unfold runCallback at h
  cases res with
  | error err =>
      cases h
      exact failCallback_moves cb err
  | ok resp =>
      simp only at h
      split at h
      · cases h; exact .single (.drop rfl)
      · cases h; exact psetMakerAccepted_moves _ _ _ _
      · exact ReflTransGen.head (.create _) (processSubmitInputs_moves h)
      · cases h
        exact (cancelOrders_moves _ _).tail (.drop rfl)
      · exact nomatch h

/-- `process_new_order`, with the arrival of the request. -/
theorem processNewOrder_moves (o : NewOrder) :
    Moves world i ⟨d, r, n⟩ ⟨processNewOrder (d.emit (.newOrder n o)) o n, r, n + 1⟩ := by
  refine ReflTransGen.head (.request (o := o)) ?_
  unfold processNewOrder
  split
  · exact .single .refuse
  · exact makeAsyncRequest_moves _ _

/-- `process_wallet`, with the arrival of the wallet's response. -/
theorem processWallet_moves {resp : WalletResp}
    (h : processWallet (d.emit (.wallet resp)) resp = .ok d') :
    Moves world .walletResp ⟨d, r, n⟩ ⟨d', r, n⟩ := by
  have hcount : ∀ d₁ d₂ : Data, decSignRequestCount d₁ = .ok d₂ →
      Moves world .walletResp ⟨d₁, r, n⟩ ⟨d₂, r, n⟩ := by
    intro d₁ d₂ hd
    unfold decSignRequestCount at hd
    split at hd
    · exact nomatch hd
    · cases hd
      exact .single (.countDown rfl)
  cases resp with
  | swapInputs si => cases h; exact .single .snapshot
  | signedPset x pset =>
      cases hd : decSignRequestCount (d.emit (.wallet (.signedPset x pset))) with
      | error p => simp only [processWallet, hd] at h; exact nomatch h
      | ok d₁ =>
          simp only [processWallet, hd] at h
          cases h
          refine ReflTransGen.head (.note (e := .wallet (.signedPset x pset)) trivial (fun _ h => nomatch h)) ?_
          refine (hcount _ _ hd).trans ?_
          exact ReflTransGen.head (.hold (.sign x) rfl) (makeAsyncRequest_moves _ _)
  | psetSignFailed x =>
      cases hd : decSignRequestCount (d.emit (.wallet (.psetSignFailed x))) with
      | error p => simp only [processWallet, hd] at h; exact nomatch h
      | ok d₁ =>
          simp only [processWallet, hd] at h
          cases h
          refine ReflTransGen.head (.note (e := .wallet (.psetSignFailed x)) trivial (fun _ h => nomatch h)) ?_
          exact (hcount _ _ hd).tail (.cancel x)

/-- The notification arms of `process_ws`, with the arrival of the message. -/
theorem processNotification_moves {notif : Notification}
    (h : processNotification (d.emit (.ws (.notification notif))) notif = .ok d') :
    Moves world (.ws (.notification notif)) ⟨d, r, n⟩ ⟨d', r, n⟩ := by
  have hsame : ∀ resp, Event.ws (.notification notif) = .ws resp →
      Input.ws (.notification notif) = .ws resp := by
    rintro resp ⟨⟩
    rfl
  cases notif with
  | orderCreated order => cases h; exact .single (.note trivial hsame)
  | other => cases h; exact .single (.note trivial hsame)
  | orderRemoved x =>
      cases h
      refine ReflTransGen.head (.note (e := .ws (.notification (.orderRemoved x))) trivial hsame) ?_
      unfold processOrderRemoved
      split
      · exact .refl
      · exact .single .fail
      · exact .refl
  | sign sign =>
      cases h
      have hlog : (d.emit (.ws (.notification (.sign sign)))).log ++
            [Event.forwarded sign d.orders[sign.orderId]?] =
          d.log ++ [.ws (.notification (.sign sign)), .forwarded sign d.orders[sign.orderId]?] :=
        List.append_assoc _ _ _
      show Moves world _ _ ⟨{ d with walletQueue := _, signRequestCount := _, log := _ }, _, _⟩
      rw [show (d.emit (.ws (.notification (.sign sign)))).orders = d.orders from rfl, hlog]
      exact .single (.forward sign rfl)
  | complete complete =>
      obtain ⟨x, txid⟩ := complete
      cases txid with
      | none =>
          cases h
          exact ReflTransGen.head (.note (e := .ws (.notification (.complete ⟨x, none⟩))) rfl hsame)
            (.single .fail)
      | some txid =>
          simp only [processNotification, processComplete] at h
          split at h
          · exact nomatch h
          · rename_i inputs hx
            cases h
            exact .single (.complete rfl hx)
          · exact nomatch h

/-- A response nobody waits for is ignored. -/
theorem processWs_unknown {text : String} {res : Except Error Response}
    (h : d.asyncRequests[text]? = none) :
    processWs world d (.response (some (.string text)) res) = .ok d := by
  simp only [processWs, pendingRequest, RequestId.text?, h]
  rfl

/-- A response is given to the closure that waits for it. -/
theorem processWs_pending {text : String} {res : Except Error Response} {cb : AsyncRequest}
    (h : d.asyncRequests[text]? = some cb) :
    processWs world d (.response (some (.string text)) res) =
      runCallback world
        ({ d with asyncRequests := d.asyncRequests.erase text }.emit (.called (some text) cb res))
        cb res := by
  simp only [processWs, pendingRequest, RequestId.text?, h]
  rfl

/-- `process_ws`, with the arrival of the message. -/
theorem processWs_moves {resp : WrappedResponse}
    (h : processWs world (d.emit (.ws resp)) resp = .ok d') :
    Moves world (.ws resp) ⟨d, [], n⟩ ⟨d', [], n⟩ := by
  have hsame : ∀ resp', Event.ws resp = .ws resp' → Input.ws resp = .ws resp' := by
    rintro resp' ⟨⟩
    rfl
  cases resp with
  | connected =>
      cases h
      refine ReflTransGen.head (.note (e := .ws .connected) trivial hsame) ?_
      refine ReflTransGen.head .connected ?_
      exact ReflTransGen.head (.hold .login rfl) (makeAsyncRequest_moves _ _)
  | disconnected =>
      cases h
      refine ReflTransGen.head (.disconnected rfl) ?_
      exact (failLines_moves _ _).tail (.note trivial (fun _ h => nomatch h))
  | notification notif =>
      exact processNotification_moves h
  | response requestId res =>
      cases requestId with
      | none => exact nomatch h
      | some id =>
          cases id with
          | int k => cases h; exact .single (.note trivial hsame)
          | string text =>
              cases hcb : d.asyncRequests[text]? with
              | none =>
                  rw [processWs_unknown (d := d.emit _) hcb] at h
                  cases h
                  exact .single (.note hcb hsame)
              | some cb =>
                  rw [processWs_pending (d := d.emit _) hcb] at h
                  refine ReflTransGen.head (.respond rfl hcb) ?_
                  exact ReflTransGen.head (called_move (some text) cb res) (runCallback_moves h)

end

/-! ## A step is a sequence of moves -/

/-- A system that does not crash in a step makes moves, and holds no closure
    before and after. -/
theorem step_moves {world : World} {s : System} {i : Input}
    (h : (step world s i).crashed = false) :
    Moves world i
      ⟨s.data, [], s.nextSender⟩ ⟨(step world s i).data, [], (step world s i).nextSender⟩ := by
  unfold step at h ⊢
  split at h
  · rename_i hs
    exact absurd h (by rw [hs]; decide)
  · rename_i hs
    rw [if_neg hs]
    cases i with
    | newOrder o => exact processNewOrder_moves o
    | orderStatus x =>
        exact ReflTransGen.head (.note (e := .orderStatus x) trivial (fun _ h => nomatch h))
          (.single (.note trivial (fun _ h => nomatch h)))
    | listOrders => exact .single (.note trivial (fun _ h => nomatch h))
    | snapshot si => exact .refl
    | walletSign =>
        simp only [walletSignPset]
        split
        · exact .refl
        · rename_i sign rest hq
          exact .single (.verify rfl hq)
    | ws resp =>
        simp only [receive] at h ⊢
        cases hd : processWs world (s.data.emit (.ws resp)) resp with
        | error p => rw [hd] at h; exact nomatch h
        | ok d' => exact processWs_moves hd
    | walletResp =>
        simp only at h ⊢
        split
        · exact .refl
        · rename_i resp rest hq
          rw [hq] at h
          simp only [receive] at h ⊢
          cases hd : processWallet (s.data.emit (.wallet resp)) resp with
          | error p => rw [hd] at h; exact nomatch h
          | ok d' => exact processWallet_moves hd

/-- A step that crashes the system changes the log only. -/
theorem step_crashed {world : World} {s : System} {i : Input} (hs : s.crashed = false)
    (h : (step world s i).crashed = true) :
    ∃ e, (step world s i).data = s.data.emit e ∧ (step world s i).nextSender = s.nextSender ∧
      ((∃ resp p, i = .ws resp ∧ e = .ws resp ∧
          processWs world (s.data.emit e) resp = .error p) ∨
        (∃ x pset, e = .wallet (.signedPset x pset)) ∨ (∃ x, e = .wallet (.psetSignFailed x))) := by
  have hs' : ¬ s.crashed = true := by rw [hs]; decide
  unfold step at h ⊢
  rw [if_neg hs'] at h ⊢
  cases i with
  | newOrder o => exact absurd h hs'
  | orderStatus x => exact absurd h hs'
  | listOrders => exact absurd h hs'
  | snapshot si => exact absurd h hs'
  | walletSign =>
      simp only [walletSignPset] at h
      split at h <;> exact absurd h hs'
  | ws resp =>
      simp only [receive] at h ⊢
      cases hd : processWs world (s.data.emit (.ws resp)) resp with
      | ok d' => rw [hd] at h; exact absurd h hs'
      | error p => exact ⟨.ws resp, rfl, rfl, .inl ⟨resp, p, rfl, rfl, hd⟩⟩
  | walletResp =>
      simp only at h ⊢
      cases hq : s.walletResps with
      | nil => rw [hq] at h; exact absurd h hs'
      | cons resp rest =>
          rw [hq] at h
          simp only [receive] at h ⊢
          cases hd : processWallet (s.data.emit (.wallet resp)) resp with
          | ok d' => rw [hd] at h; exact absurd h hs'
          | error p =>
              refine ⟨.wallet resp, rfl, rfl, .inr ?_⟩
              cases resp with
              | swapInputs si => exact nomatch hd
              | signedPset x pset => exact .inl ⟨x, pset, rfl⟩
              | psetSignFailed x => exact .inr ⟨x, rfl⟩

/-! ## Closures and the log -/

/-- A closure is in hand or waits in the request table. -/
def Config.Has (c : Config) (cb : AsyncRequest) : Prop :=
  cb ∈ c.running ∨ ∃ text : String, c.data.asyncRequests[text]? = some cb

/-- Where the closures of a configuration come from: they were there before,
    they answer nobody, or they belong to an API request that has just arrived
    or just got its order. -/
theorem Move.has {world : World} {i : Input} {c c' : Config} (h : Move world i c c')
    {cb : AsyncRequest} (hcb : c'.Has cb) :
    c.Has cb ∨ cb.resSender? = none
      ∨ (∃ o, cb = .submit o c.nextSender ∧ .newOrder c.nextSender o ∈ c'.data.log)
      ∨ (∃ resp o m, cb = .psetMaker resp.orderId resp.details o m ∧ c.Has (.submit o m)
        ∧ .orderCreated m resp ∈ c'.data.log) := by
  have htail : ∀ {d d' r n cb₀}, d'.asyncRequests = d.asyncRequests →
      Config.Has ⟨d', r, n⟩ cb → Config.Has ⟨d, cb₀ :: r, n⟩ cb := by
    intro d d' r n cb₀ hd hmem
    rcases hmem with hmem | ⟨text, htext⟩
    · exact .inl (List.mem_cons_of_mem _ hmem)
    · exact .inr ⟨text, hd ▸ htext⟩
  cases h with
  | disconnected _ =>
      rcases hcb with hmem | ⟨text, htext⟩
      · exact .inl (.inr (Table.mem_values_iff.mp hmem))
      · simp at htext
  | respond _ hfound =>
      rcases hcb with hmem | ⟨text, htext⟩
      · rcases List.mem_cons.mp hmem with rfl | hmem
        · exact .inl (.inr ⟨_, hfound⟩)
        · exact .inl (.inl hmem)
      · simp only [Table.getElem?_erase_eq] at htext
        split at htext
        · exact nomatch htext
        · exact .inl (.inr ⟨text, htext⟩)
  | request =>
      rcases hcb with hmem | htext
      · rcases List.mem_cons.mp hmem with rfl | hmem
        · exact .inr (.inr (.inl ⟨_, rfl, List.mem_append_right _ (List.mem_singleton.mpr rfl)⟩))
        · exact .inl (.inl hmem)
      · exact .inl (.inr htext)
  | hold cb₀ hnone =>
      rcases hcb with hmem | htext
      · rcases List.mem_cons.mp hmem with rfl | hmem
        · exact .inr (.inl hnone)
        · exact .inl (.inl hmem)
      · exact .inl (.inr htext)
  | store hc =>
      rw [makeAsyncRequest_connected hc] at hcb
      rcases hcb with hmem | ⟨text, htext⟩
      · exact .inl (.inl (List.mem_cons_of_mem _ hmem))
      · simp only [Table.getElem?_insert_eq] at htext
        split at htext
        · cases htext
          exact .inl (.inl (List.mem_cons_self ..))
        · exact .inl (.inr ⟨text, htext⟩)
  | create resp =>
      rcases hcb with hmem | htext
      · rcases List.mem_cons.mp hmem with rfl | hmem
        · exact .inr (.inr (.inr ⟨resp, _, _, rfl, .inl (List.mem_cons_self ..),
            List.mem_append_right _ (List.mem_singleton.mpr rfl)⟩))
        · exact .inl (.inl (List.mem_cons_of_mem _ hmem))
      · exact .inl (.inr htext)
  | drop _ => exact .inl (htail rfl hcb)
  | refuse => exact .inl (htail rfl hcb)
  | reject => exact .inl (htail (by simp) hcb)
  | duplicate => exact .inl (htail (by simp) hcb)
  | accept _ => exact .inl (htail (by simp) hcb)
  | cancel x =>
      rcases hcb with hmem | htext
      · exact .inl (.inl hmem)
      · exact .inl (.inr (by simpa using htext))
  | _ => exact .inl hcb

/-- How the entry of an order changes: not at all, to failed, to active for the
    closure in hand, or from active to done when the server says so. -/
theorem Move.orders {world : World} {i : Input} {c c' : Config} (h : Move world i c c')
    (y : OrderId) :
    c'.data.orders[y]? = c.data.orders[y]? ∨ c'.data.orders[y]? = some .failed
      ∨ (∃ details o m outs, c.Has (.psetMaker y details o m)
        ∧ c.data.log.getLast? = some (.orderCreated m ⟨y, details⟩)
        ∧ c'.data.orders[y]? = some (.active outs))
      ∨ (∃ outs txid, c.data.orders[y]? = some (.active outs)
        ∧ c'.data.orders[y]? = some (.succeed outs txid)) := by
  have hfailed : ∀ (orders : Std.TreeMap OrderId OrderState) (x : OrderId),
      (orders.insert x .failed)[y]? = orders[y]? ∨
        (orders.insert x .failed)[y]? = some .failed := by
    intro orders x
    rw [Table.getElem?_insert_eq]
    by_cases hxy : x = y
    · exact .inr (if_pos hxy)
    · exact .inl (if_neg hxy)
  have hlift : ∀ {a b q : Prop}, a ∨ b → a ∨ b ∨ q := fun h => h.imp id .inl
  cases h with
  | reserve hlast hsi hlow hsel =>
      rename_i x details o m si inputs
      simp only [reserveInputs, Table.getElem?_insert_eq]
      by_cases hxy : x = y
      · subst hxy
        rw [if_pos rfl]
        exact .inr (.inr (.inl ⟨details, o, m, _, .inl (List.mem_cons_self ..), hlast, rfl⟩))
      · exact .inl (if_neg hxy)
  | complete hi hx =>
      rename_i x txid outs
      simp only [Table.getElem?_insert_eq, Table.getElem?_erase_eq]
      by_cases hxy : x = y
      · subst hxy
        rw [if_pos rfl]
        exact .inr (.inr (.inr ⟨outs, txid, hx, rfl⟩))
      · rw [if_neg hxy, if_neg hxy]
        exact .inl rfl
  | fail => exact hlift (hfailed _ _)
  | cancel x =>
      rw [cancelOrder_orders]
      exact hlift (hfailed _ _)
  | reject =>
      rw [emit_orders, cancelOrder_orders]
      exact hlift (hfailed _ _)
  | duplicate =>
      rw [cancelOrder_orders, emit_orders]
      exact hlift (hfailed _ _)
  | accept _ => exact .inl (by rw [emit_orders, claimKey_orders])
  | store hc => exact .inl (by rw [makeAsyncRequest_connected hc])
  | _ => exact .inl rfl

/-- What stands behind an event that a move adds to the log. -/
def Explained (i : Input) (c c' : Config) : Event → Prop
  | .newOrder m o =>
      m = c.nextSender ∧ c'.nextSender = c.nextSender + 1
        ∧ c'.data.log = c.data.log ++ [.newOrder m o]
  | .orderCreated m resp =>
      ∃ o, c.Has (.submit o m) ∧ c'.Has (.psetMaker resp.orderId resp.details o m)
        ∧ c'.data.log = c.data.log ++ [.orderCreated m resp] ∧ c'.data.orders = c.data.orders
  | .answer m (.error _) =>
      (∃ o, c.Has (.submit o m)) ∨
        ∃ x details o, c.Has (.psetMaker x details o m) ∧ c'.data.orders[x]? = some .failed
  | .answer m (.ok info) =>
      ∃ x details o, c.Has (.psetMaker x details o m) ∧ info = orderInfo x details
        ∧ (∀ k, o.uniqueKey = some k → isDuplicate c.data k = false)
        ∧ c'.data.uniqueOrders = (claimKey c.data o.uniqueKey x).uniqueOrders
  | .forwarded sign st =>
      i = .ws (.notification (.sign sign)) ∧ st = c.data.orders[sign.orderId]?
        ∧ c'.data.walletQueue = c.data.walletQueue ++ [sign]
  | .ws resp => i = .ws resp
  | .verified sign amounts _ =>
      sign ∈ c.data.walletQueue ∧ amounts = signAmounts c.data.policyAsset sign.details
  | _ => True

/-- The log only grows, by events the move explains. -/
theorem Move.log {world : World} {i : Input} {c c' : Config} (h : Move world i c c') :
    ∃ es, c'.data.log = c.data.log ++ es ∧ ∀ e ∈ es, Explained i c c' e := by
  have hone : ∀ {e₀}, Explained i c c' e₀ → ∀ e ∈ [e₀], Explained i c c' e := by
    intro e₀ h₀ e he
    rw [List.mem_singleton.mp he]
    exact h₀
  have hnone : ∀ e ∈ ([] : List Event), Explained i c c' e := fun _ he => (nomatch he)
  have hcancel : ∀ {d x}, ∀ e ∈ cancelEvents d x, Explained i c c' e := by
    intro d x e he
    obtain ⟨text, rfl⟩ := mem_cancelEvents he
    exact trivial
  have hfailed : ∀ (orders : Std.TreeMap OrderId OrderState) (x : OrderId),
      (orders.insert x .failed)[x]? = some .failed := by
    intro orders x
    rw [Table.getElem?_insert_eq, if_pos rfl]
  cases h with
  | note hq hws =>
      refine ⟨_, rfl, hone ?_⟩
      rename_i e
      cases e with
      | ws resp => exact hws resp rfl
      | _ => first | exact trivial | exact hq.elim
  | connected => exact ⟨[], (List.append_nil _).symm, hnone⟩
  | hold cb _ => exact ⟨[], (List.append_nil _).symm, hnone⟩
  | drop _ => exact ⟨[], (List.append_nil _).symm, hnone⟩
  | fail => exact ⟨[], (List.append_nil _).symm, hnone⟩
  | countDown _ => exact ⟨[], (List.append_nil _).symm, hnone⟩
  | disconnected hi => exact ⟨_, rfl, hone hi⟩
  | respond hi _ => exact ⟨_, rfl, hone hi⟩
  | snapshot => exact ⟨_, rfl, hone trivial⟩
  | request => exact ⟨_, rfl, hone ⟨rfl, rfl, rfl⟩⟩
  | reserve _ _ _ _ => exact ⟨_, rfl, hone trivial⟩
  | complete hi _ => exact ⟨_, rfl, hone hi⟩
  | store hc =>
      exact ⟨_, congrArg Data.log (makeAsyncRequest_connected hc _ _), hone trivial⟩
  | refuse => exact ⟨_, rfl, hone (.inl ⟨_, .inl (List.mem_cons_self ..)⟩)⟩
  | create resp =>
      exact ⟨_, rfl, hone ⟨_, .inl (List.mem_cons_self ..), .inl (List.mem_cons_self ..), rfl, rfl⟩⟩
  | reject =>
      refine ⟨_, (congrArg (· ++ [_]) (cancelOrder_log _ _)).trans (List.append_assoc _ _ _), ?_⟩
      intro e he
      rcases List.mem_append.mp he with he | he
      · exact hcancel e he
      · rw [List.mem_singleton.mp he]
        refine .inr ⟨_, _, _, .inl (List.mem_cons_self ..), ?_⟩
        rw [emit_orders, cancelOrder_orders, hfailed]
  | duplicate =>
      refine ⟨_, (cancelOrder_log _ _).trans (List.append_assoc _ _ _), ?_⟩
      intro e he
      rcases List.mem_append.mp he with he | he
      · rw [List.mem_singleton.mp he]
        refine .inr ⟨_, _, _, .inl (List.mem_cons_self ..), ?_⟩
        rw [cancelOrder_orders, hfailed]
      · exact hcancel e he
  | accept hdup =>
      refine ⟨_, congrArg (· ++ [_]) (claimKey_log _ _ _), hone ?_⟩
      exact ⟨_, _, _, .inl (List.mem_cons_self ..), rfl, hdup, rfl⟩
  | cancel x => exact ⟨_, cancelOrder_log _ x, hcancel⟩
  | forward sign hi =>
      refine ⟨_, rfl, ?_⟩
      intro e he
      rcases List.mem_cons.mp he with rfl | he
      · exact hi
      · rw [List.mem_singleton.mp he]
        exact ⟨hi, rfl, rfl⟩
  | verify _ hq =>
      refine ⟨_, rfl, hone ⟨?_, rfl⟩⟩
      rw [hq]
      exact List.mem_cons_self ..

theorem Move.log_grows {world : World} {i : Input} {c c' : Config}
    (h : Move world i c c') : c.data.log <+: c'.data.log := by
  obtain ⟨es, hlog, -⟩ := h.log
  exact ⟨es, hlog.symm⟩

theorem Moves.log_grows {world : World} {i : Input} {c c' : Config} (h : Moves world i c c') :
    c.data.log <+: c'.data.log := by
  induction h with
  | refl => exact List.prefix_refl _
  | tail _ hlast ih => exact ih.trans hlast.log_grows

/-- API requests are numbered in the order they arrive. -/
theorem Move.nextSender_le {world : World} {i : Input} {c c' : Config} (h : Move world i c c') :
    c.nextSender ≤ c'.nextSender := by
  cases h with
  | request => exact Nat.le_succ _
  | _ => exact Nat.le_refl _

/-- Every event of the log was there before or is explained by the move. -/
theorem Move.event {world : World} {i : Input} {c c' : Config} (h : Move world i c c') {e : Event}
    (he : e ∈ c'.data.log) : e ∈ c.data.log ∨ Explained i c c' e := by
  obtain ⟨es, hlog, hes⟩ := h.log
  rw [hlog] at he
  exact (List.mem_append.mp he).imp_right (hes e)

/-- What the log knows of a stored closure: the API request it answers, and
    the order it was made for. -/
def Known (log : List Event) : AsyncRequest → Prop
  | .submit o m => .newOrder m o ∈ log
  | .psetMaker x details o m => .newOrder m o ∈ log ∧ .orderCreated m ⟨x, details⟩ ∈ log
  | .sign _ => True
  | .login => True

theorem Known.mono {log log' : List Event} {cb : AsyncRequest} (h : Known log cb)
    (hsub : log ⊆ log') : Known log' cb := by
  cases cb with
  | submit o m => exact hsub h
  | psetMaker x details o m => exact ⟨hsub h.1, hsub h.2⟩
  | sign x => exact trivial
  | login => exact trivial

/-- Every closure of the configuration is known to its log. -/
def Config.Knows (c : Config) : Prop := ∀ cb, c.Has cb → Known c.data.log cb

theorem Move.knows {world : World} {i : Input} {c c' : Config} (h : Move world i c c')
    (hk : c.Knows) : c'.Knows := by
  intro cb hcb
  have hsub := h.log_grows.subset
  rcases h.has hcb with hold | hnone | ⟨o, rfl, hreq⟩ | ⟨resp, o, m, rfl, hsubmit, hcreated⟩
  · exact (hk cb hold).mono hsub
  · cases cb with
    | sign x => exact trivial
    | login => exact trivial
    | submit o m => exact nomatch hnone
    | psetMaker x details o m => exact nomatch hnone
  · exact hreq
  · exact ⟨hsub (hk _ hsubmit), hcreated⟩

theorem start_knows (policyAsset : AssetId) (sessionId : SessionId) :
    Config.Knows ⟨(start policyAsset sessionId).data, [], 0⟩ := by
  rintro cb (hmem | ⟨text, htext⟩)
  · exact nomatch hmem
  · simp [start] at htext

/-! ## Runs -/

/-- The system between two steps, as a configuration. -/
def System.config (s : System) : Config := ⟨s.data, [], s.nextSender⟩

/-- **RUN RULE**: what holds at the start, survives every move, and survives a
    crash holds in every reachable state. -/
theorem reaches_invariant {world : World} {ok : System → Input → Prop} {I : Config → Prop}
    (h0 : ∀ policyAsset sessionId, I (start policyAsset sessionId).config)
    (hmove : ∀ i c c', I c → Move world i c c' → I c')
    (hcrash : ∀ s i, ok s i → s.crashed = false → (step world s i).crashed = true →
      I s.config → I (step world s i).config)
    {s : System} (h : Reaches world ok s) : I s.config := by
  have hmoves : ∀ {i c c'}, Moves world i c c' → I c → I c' := by
    intro i c c' hm hI
    induction hm with
    | refl => exact hI
    | tail _ hlast ih => exact hmove _ _ _ ih hlast
  refine Transition.Reach.invariant (I := fun s => I s.config) ?_ ?_ h
  · rintro s ⟨policyAsset, sessionId, rfl⟩
    exact h0 policyAsset sessionId
  · intro s i _ hI hok
    cases hc : (step world s i).crashed with
    | false => exact hmoves (step_moves hc) hI
    | true =>
        cases hs : s.crashed with
        | false => exact hcrash s i hok hs hc hI
        | true =>
            have hstep : step world s i = s := by unfold step; rw [if_pos hs]
            rw [hstep]
            exact hI

end Headless
