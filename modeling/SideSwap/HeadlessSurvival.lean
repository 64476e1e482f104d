import SideSwap.HeadlessReservations

/-! # When the headless worker panics

    The worker's handlers have seven places that can panic.  A wrong response
    type is excluded by the server, and the counter of signing requests never
    underflows (`CountsSigning`).  Coin selection panics on an amount that is
    not positive.  What is left are a response without a request id and a
    completed order that is not active: `survives` says what the worker needs,
    and `step_survives_iff` that it needs nothing more. -/

namespace Headless

open Api Program MachineInt CoinSelection Relation

/-- The response is of the type of the request the closure waits for. -/
def AsyncRequest.expects : AsyncRequest → Response → Bool
  | .sign _, .sign => true
  | .psetMaker _ _ _ _, .psetMaker => true
  | .submit _ _, .submit _ => true
  | .login, .login _ => true
  | _, _ => false

/-- A response has the type of the request it answers. -/
def wellTyped (s : System) : Input → Bool
  | .ws (.response (some (.string text)) (.ok resp)) =>
      (s.data.asyncRequests[text]?).all (·.expects resp)
  | _ => true

/-- What the coins that are not reserved are worth. -/
def freeAmount (d : Data) (si : SwapInputs) (asset : AssetId) : Int :=
  inputsAmount ((si.coins asset).filter fun coin => coin.outPoint ∉ reserved d)

/-- An order can be paid for or refused: it sends a positive amount, or the
    free coins do not reach the amount. -/
def payable (d : Data) (details : Details) : Bool :=
  (d.swapInputs).all fun si =>
    0 < sendAmount details || freeAmount d si (sendAsset d.policyAsset details) < sendAmount details

/-- What the worker needs of its next input. -/
def survives (s : System) : Input → Bool
  | .ws (.response none _) => false
  | .ws (.response (some (.string text)) (.ok (.submit resp))) =>
      (s.data.asyncRequests[text]?).isNone || payable s.data resp.details
  | .ws (.notification (.complete ⟨x, some _⟩)) =>
      match s.data.orders[x]? with
      | some (.active _) => true
      | _ => false
  | _ => true

/-! ## The closures -/

/-- The shuffle does not change what the free coins are worth. -/
theorem inputsAmount_freeInputs (world : World) (d : Data) (si : SwapInputs) (asset : AssetId) :
    inputsAmount (freeInputs world d si asset) = freeAmount d si asset := by
  have hsum := ((freeInputs_perm world d si asset).map fun coin => (coin.satoshi : Int)).sum_eq
  unfold freeAmount inputsAmount
  rw [hsum]

/-- The selection sees the amount that is compared with the amount to send. -/
theorem candidates_sum (inputs : List UnspentOutput) :
    i64 ((candidates inputs).map (·.1)).sum = inputsAmount inputs := by
  have hterms : (candidates inputs).map (·.1) =
      (inputs.map fun input => (input.satoshi : Int)).map i64 := by
    simp only [candidates, List.map_map, Function.comp_def]
  unfold inputsAmount
  rw [hterms, i64_sum_map_i64, i64_u64]

/-- `process_submit_inputs` panics exactly on an amount that is covered and
    not positive. -/
theorem processSubmitInputs_ok_iff {world : World} {d : Data} {resp : SubmitResponse}
    {o : NewOrder} {m : Nat} :
    (∃ d', processSubmitInputs world d resp o m = .ok d') ↔ payable d resp.details = true := by
  cases hsi : d.swapInputs with
  | none =>
      rw [processSubmitInputs_none o m hsi]
      refine ⟨fun _ => ?_, fun _ => ⟨_, rfl⟩⟩
      unfold payable
      rw [hsi]
      rfl
  | some si =>
      have hpay : payable d resp.details = true ↔ 0 < sendAmount resp.details ∨
          freeAmount d si (sendAsset d.policyAsset resp.details) < sendAmount resp.details := by
        unfold payable
        rw [hsi]
        simp
      have hamount : inputsAmount (freeInputs world (d.emit (.orderCreated m resp)) si
          (sendAsset d.policyAsset resp.details)) =
          freeAmount d si (sendAsset d.policyAsset resp.details) := inputsAmount_freeInputs ..
      rw [processSubmitInputs_some o m hsi, hpay]
      by_cases hlow : inputsAmount (freeInputs world (d.emit (.orderCreated m resp)) si
          (sendAsset d.policyAsset resp.details)) < sendAmount resp.details
      · rw [if_pos hlow]
        exact ⟨fun _ => .inr (hamount ▸ hlow), fun _ => ⟨_, rfl⟩⟩
      · rw [if_neg hlow]
        by_cases hpos : 0 < sendAmount resp.details
        · have hcov := not_lt.mp hlow
          rw [← candidates_sum] at hcov
          obtain ⟨items, hitems⟩ := selectUtxoValues_ok hpos hcov
          rw [hitems]
          exact ⟨fun _ => .inl hpos, fun _ => ⟨_, rfl⟩⟩
        · obtain ⟨p, hp⟩ := selectUtxoValues_panics hpos
          rw [hp]
          constructor
          · rintro ⟨d', h⟩
            exact nomatch h
          · rintro (h | h)
            · exact absurd h hpos
            · exact absurd (hamount ▸ h) hlow

/-- A closure that gets a response of the right type panics exactly when it
    cannot pay for a new order. -/
theorem runCallback_ok_iff {world : World} {d : Data} {cb : AsyncRequest} {resp : Response}
    (h : cb.expects resp = true) :
    (∃ d', runCallback world d cb (.ok resp) = .ok d') ↔
      ∀ submitResp, resp = .submit submitResp → payable d submitResp.details = true := by
  cases cb with
  | sign x =>
      cases resp with
      | sign => exact ⟨fun _ _ h => (nomatch h), fun _ => ⟨_, rfl⟩⟩
      | _ => exact nomatch h
  | psetMaker x details o m =>
      cases resp with
      | psetMaker => exact ⟨fun _ _ h => (nomatch h), fun _ => ⟨_, rfl⟩⟩
      | _ => exact nomatch h
  | login =>
      cases resp with
      | login resp => exact ⟨fun _ _ h => (nomatch h), fun _ => ⟨_, rfl⟩⟩
      | _ => exact nomatch h
  | submit o m =>
      cases resp with
      | submit resp =>
          have hrun := @processSubmitInputs_ok_iff world d resp o m
          refine ⟨fun hex submitResp heq => ?_, fun hpay => hrun.mpr (hpay resp rfl)⟩
          cases heq
          exact hrun.mp hex
      | _ => exact nomatch h

/-! ## The counter of signing requests -/

/-- A response to a `SignPset` request. -/
def WalletResp.isSigning : WalletResp → Bool
  | .swapInputs _ => false
  | .signedPset _ _ => true
  | .psetSignFailed _ => true

/-- The counter is the number of signing requests on their way: in the wallet
    thread's channel, or answered and not yet seen by the worker. -/
def CountsSigning (s : System) : Prop :=
  s.data.signRequestCount = s.data.walletQueue.length + s.walletResps.countP (·.isSigning)

/-- Outside the signing path the counter moves with the channel. -/
theorem Move.signing {world : World} {i : Input} {c c' : Config} (h : Move world i c c')
    (hsign : i ≠ .walletSign) (hresp : i ≠ .walletResp) :
    c'.data.signRequestCount + c.data.walletQueue.length =
      c.data.signRequestCount + c'.data.walletQueue.length := by
  cases h with
  | verify hi _ => exact absurd hi hsign
  | countDown hi => exact absurd hi hresp
  | forward sign _ =>
      simp only [List.length_append, List.length_singleton]
      omega
  | store hc => rw [makeAsyncRequest_connected hc]
  | reject => simp
  | duplicate => simp
  | accept _ => simp
  | cancel x => simp
  | _ => rfl

theorem Moves.signing {world : World} {i : Input} {c c' : Config} (h : Moves world i c c')
    (hsign : i ≠ .walletSign) (hresp : i ≠ .walletResp) :
    c'.data.signRequestCount + c.data.walletQueue.length =
      c.data.signRequestCount + c'.data.walletQueue.length := by
  induction h with
  | refl => rfl
  | tail _ hlast ih =>
      have := hlast.signing hsign hresp
      omega

/-- Making a request leaves the signing path alone. -/
theorem makeAsyncRequest_signing (d : Data) (req : Request) (cb : AsyncRequest) :
    (makeAsyncRequest d req cb).signRequestCount = d.signRequestCount ∧
      (makeAsyncRequest d req cb).walletQueue = d.walletQueue := by
  unfold makeAsyncRequest
  split
  · cases cb <;> simp [failCallback]
  · exact ⟨rfl, rfl⟩

/-- While something is counted, the worker takes the wallet's response. -/
theorem processWallet_ok {d : Data} {resp : WalletResp}
    (h : resp.isSigning = true → 0 < d.signRequestCount) :
    ∃ d', processWallet d resp = .ok d' ∧ d'.walletQueue = d.walletQueue ∧
      d'.signRequestCount + (if resp.isSigning then 1 else 0) = d.signRequestCount := by
  have hdec : resp.isSigning = true →
      ∃ k, d.signRequestCount = k + 1 ∧
        decSignRequestCount d = .ok { d with signRequestCount := k } := by
    intro hs
    obtain ⟨k, hk⟩ := Nat.exists_eq_succ_of_ne_zero (Nat.pos_iff_ne_zero.mp (h hs))
    refine ⟨k, hk, ?_⟩
    unfold decSignRequestCount
    rw [hk]
  cases resp with
  | swapInputs si => exact ⟨_, rfl, rfl, rfl⟩
  | signedPset x pset =>
      obtain ⟨k, hk, hd⟩ := hdec rfl
      refine ⟨_, by rw [processWallet, hd]; rfl, ?_⟩
      obtain ⟨hcount, hqueue⟩ := makeAsyncRequest_signing { d with signRequestCount := k }
        (.sign ⟨x, pset, .maker⟩) (.sign x)
      refine ⟨hqueue, ?_⟩
      rw [hcount, hk]
      rfl
  | psetSignFailed x =>
      obtain ⟨k, hk, hd⟩ := hdec rfl
      refine ⟨_, by rw [processWallet, hd]; rfl, ?_⟩
      refine ⟨cancelOrder_walletQueue _ x, ?_⟩
      rw [cancelOrder_signRequestCount, hk]
      rfl

/-- A handler that panics crashes the system, and nothing else does. -/
theorem receive_crashed_iff {s : System} (hs : s.crashed = false) (e : Event)
    (handler : Data → Except Panic Data) :
    (receive s e handler).crashed = false ↔ ∃ d', handler (s.data.emit e) = .ok d' := by
  unfold receive
  cases handler (s.data.emit e) with
  | ok d' => exact ⟨fun _ => ⟨d', rfl⟩, fun _ => hs⟩
  | error p => exact ⟨fun h => (nomatch h), fun ⟨d', h⟩ => (nomatch h)⟩

/-- The wallet's responses stay in the channel while the worker handles
    something else. -/
theorem receive_walletResps (s : System) (e : Event) (handler : Data → Except Panic Data) :
    (receive s e handler).walletResps = s.walletResps := by
  unfold receive
  cases handler (s.data.emit e) <;> rfl

/-- **THE COUNTER NEVER UNDERFLOWS**: a step keeps the count right. -/
theorem CountsSigning.step {world : World} {s : System} (h : CountsSigning s) (i : Input) :
    CountsSigning (step world s i) := by
  by_cases hs : s.crashed = true
  · rw [show Headless.step world s i = s by unfold Headless.step; rw [if_pos hs]]
    exact h
  have hs' : s.crashed = false := Bool.eq_false_of_not_eq_true hs
  -- the steps in which the worker does not talk to the wallet thread
  have hother : i ≠ .walletSign → i ≠ .walletResp →
      (Headless.step world s i).walletResps.countP (·.isSigning) =
        s.walletResps.countP (·.isSigning) → CountsSigning (Headless.step world s i) := by
    intro hsign hresp hresps
    unfold CountsSigning at h ⊢
    cases hc : (Headless.step world s i).crashed with
    | false =>
        have hm := Moves.signing (step_moves hc) hsign hresp
        simp only at hm
        omega
    | true =>
        obtain ⟨e, hdata, -, -⟩ := step_crashed hs' hc
        rw [hdata, hresps]
        exact h
  cases i with
  | walletSign =>
      unfold Headless.step
      rw [if_neg hs]
      simp only [walletSignPset]
      split
      · exact h
      · rename_i sign rest hq
        unfold CountsSigning at h ⊢
        rw [hq] at h
        simp only [List.length_cons, List.countP_append, List.countP_singleton] at h ⊢
        have hsigning : ∀ res, (signResp sign.orderId res).isSigning = true := by
          intro res
          cases res <;> rfl
        rw [hsigning, if_pos rfl]
        omega
  | walletResp =>
      unfold Headless.step
      rw [if_neg hs]
      simp only
      cases hq : s.walletResps with
      | nil => exact h
      | cons resp rest =>
          unfold CountsSigning at h ⊢
          rw [hq, List.countP_cons] at h
          have hpos : resp.isSigning = true → 0 < (s.data.emit (.wallet resp)).signRequestCount := by
            intro hr
            rw [if_pos hr] at h
            show 0 < s.data.signRequestCount
            omega
          obtain ⟨d', hd, hqueue, hcount⟩ := processWallet_ok hpos
          simp only [receive, hd]
          rw [hqueue]
          simp only [emit_signRequestCount, emit_walletQueue] at hcount ⊢
          omega
  | newOrder o =>
      refine hother (by rintro ⟨⟩) (by rintro ⟨⟩) ?_
      unfold Headless.step
      rw [if_neg hs]
      rfl
  | orderStatus x =>
      refine hother (by rintro ⟨⟩) (by rintro ⟨⟩) ?_
      unfold Headless.step
      rw [if_neg hs]
      rfl
  | listOrders =>
      refine hother (by rintro ⟨⟩) (by rintro ⟨⟩) ?_
      unfold Headless.step
      rw [if_neg hs]
      rfl
  | snapshot si =>
      refine hother (by rintro ⟨⟩) (by rintro ⟨⟩) ?_
      unfold Headless.step
      rw [if_neg hs]
      simp [WalletResp.isSigning]
  | ws resp =>
      refine hother (by rintro ⟨⟩) (by rintro ⟨⟩) ?_
      unfold Headless.step
      rw [if_neg hs]
      simp only [receive_walletResps]

theorem reaches_countsSigning {world : World} {ok : System → Input → Prop} {s : System}
    (h : Reaches world ok s) : CountsSigning s := by
  refine Transition.Reach.invariant ?_ (fun _ i _ hI _ => hI.step i) h
  rintro s ⟨policyAsset, sessionId, rfl⟩
  rfl

/-! ## Every step -/

/-- The messages of the socket the worker survives. -/
theorem processWs_ok_iff {world : World} {s : System} {resp : WrappedResponse}
    (ht : wellTyped s (.ws resp) = true) :
    (∃ d', processWs world (s.data.emit (.ws resp)) resp = .ok d') ↔
      survives s (.ws resp) = true := by
  cases resp with
  | connected => exact ⟨fun _ => rfl, fun _ => ⟨_, rfl⟩⟩
  | disconnected => exact ⟨fun _ => rfl, fun _ => ⟨_, rfl⟩⟩
  | notification notif =>
      cases notif with
      | complete complete =>
          obtain ⟨x, txid⟩ := complete
          cases txid with
          | none => exact ⟨fun _ => rfl, fun _ => ⟨_, rfl⟩⟩
          | some txid =>
              simp only [processWs, processNotification, processComplete, emit_orders, survives]
              cases hx : s.data.orders[x]? with
              | none => simp
              | some st => cases st <;> simp
      | _ => exact ⟨fun _ => rfl, fun _ => ⟨_, rfl⟩⟩
  | response requestId res =>
      cases requestId with
      | none =>
          constructor
          · rintro ⟨d', h⟩
            cases h
          · intro h
            cases h
      | some id =>
          cases id with
          | int k => exact ⟨fun _ => rfl, fun _ => ⟨_, rfl⟩⟩
          | string text =>
              cases hcb : s.data.asyncRequests[text]? with
              | none =>
                  -- nobody waits for the response
                  have hsurv : survives s (.ws (.response (some (.string text)) res)) = true := by
                    cases res with
                    | error err => rfl
                    | ok resp =>
                        cases resp with
                        | submit resp =>
                            simp only [survives, hcb]
                            rfl
                        | _ => rfl
                  exact ⟨fun _ => hsurv, fun _ => ⟨_, processWs_unknown hcb⟩⟩
              | some cb =>
                  rw [processWs_pending (d := s.data.emit _) hcb]
                  cases res with
                  | error err => exact ⟨fun _ => rfl, fun _ => ⟨_, rfl⟩⟩
                  | ok resp =>
                      have hexp : cb.expects resp = true := by
                        simpa only [wellTyped, hcb, Option.all_some] using ht
                      rw [runCallback_ok_iff hexp]
                      cases resp with
                      | submit resp =>
                          have hsurv : survives s (.ws (.response (some (.string text))
                              (.ok (.submit resp)))) = payable s.data resp.details := by
                            simp only [survives, hcb]
                            rfl
                          rw [hsurv]
                          constructor
                          · intro h
                            exact h resp rfl
                          · intro h submitResp heq
                            cases heq
                            exact h
                      | _ =>
                          constructor
                          · intro _
                            rfl
                          · rintro _ _ ⟨⟩

/-- **EXACTLY WHEN A STEP CRASHES**: under responses of the right type, the
    worker goes on if and only if it gets what `survives` asks for. -/
theorem step_survives_iff {world : World} {s : System} {i : Input} (hcount : CountsSigning s)
    (hs : s.crashed = false) (ht : wellTyped s i = true) :
    (step world s i).crashed = false ↔ survives s i = true := by
  have hs' : ¬ s.crashed = true := by rw [hs]; decide
  unfold step
  rw [if_neg hs']
  cases i with
  | newOrder o => exact ⟨fun _ => rfl, fun _ => hs⟩
  | orderStatus x => exact ⟨fun _ => rfl, fun _ => hs⟩
  | listOrders => exact ⟨fun _ => rfl, fun _ => hs⟩
  | snapshot si => exact ⟨fun _ => rfl, fun _ => hs⟩
  | walletSign =>
      refine ⟨fun _ => rfl, fun _ => ?_⟩
      simp only [walletSignPset]
      split <;> exact hs
  | walletResp =>
      refine ⟨fun _ => rfl, fun _ => ?_⟩
      simp only
      cases hq : s.walletResps with
      | nil => exact hs
      | cons resp rest =>
          have hpos : resp.isSigning = true → 0 < (s.data.emit (.wallet resp)).signRequestCount := by
            intro hr
            unfold CountsSigning at hcount
            rw [hq, List.countP_cons, if_pos hr] at hcount
            show 0 < s.data.signRequestCount
            omega
          obtain ⟨d', hd, -, -⟩ := processWallet_ok hpos
          exact (receive_crashed_iff (s := { s with walletResps := rest }) hs _ _).mpr ⟨d', hd⟩
  | ws resp =>
      rw [receive_crashed_iff hs]
      exact processWs_ok_iff ht

/-- **WHEN THE WORKER SURVIVES.**  Take any run in which responses have the
    type of the requests they answer.  As long as every response carries a
    request id, every order completed with a transaction is active, and every
    new order sends a positive amount or more than the free coins, no handler
    panics; and an input that breaks this panics. -/
theorem worker_survives {world : World} :
    (∀ s, Reaches world (fun s i => wellTyped s i ∧ survives s i) s → s.crashed = false) ∧
      (∀ s i, Reaches world (fun s i => wellTyped s i) s → s.crashed = false → wellTyped s i →
        ((step world s i).crashed = true ↔ ¬ survives s i)) := by
  constructor
  · intro s h
    have hboth : CountsSigning s ∧ s.crashed = false := by
      refine Transition.Reach.invariant (I := fun s => CountsSigning s ∧ s.crashed = false) ?_ ?_ h
      · rintro s ⟨policyAsset, sessionId, rfl⟩
        exact ⟨rfl, rfl⟩
      · rintro s i - ⟨hcount, hs⟩ ⟨ht, hsurv⟩
        exact ⟨hcount.step i, (step_survives_iff hcount hs ht).mpr hsurv⟩
    exact hboth.2
  · intro s i h hs ht
    have hiff := @step_survives_iff world s i (reaches_countsSigning h) hs ht
    rw [← hiff]
    exact (Bool.not_eq_false _).symm.to_iff

/-- The small run goes through, with its order completed. -/
theorem sample_survives :
    (run Sample.world Sample.bitcoin Sample.completed).data.orders[Sample.order]? =
        some (.succeed [Sample.coin.outPoint] Sample.txid) ∧
      (run Sample.world Sample.bitcoin Sample.completed).crashed = false :=
  ⟨by decide +kernel, worker_survives.1 _ (reaches_run (by decide +kernel))⟩

/-- A second completion of the same order takes the worker down. -/
theorem repeated_completion_panics :
    ∃ inputs, Transition.Allowed (step Sample.world) (fun s i => wellTyped s i)
        (start Sample.bitcoin 0) inputs ∧
      (run Sample.world Sample.bitcoin inputs).crashed = true :=
  ⟨Sample.completed ++ [.ws (.notification (.complete ⟨Sample.order, some Sample.txid⟩))],
    by decide +kernel⟩

end Headless
