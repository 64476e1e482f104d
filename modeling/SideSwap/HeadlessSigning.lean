import SideSwap.HeadlessReservations

/-! # What the headless worker signs

    A `Sign` notification goes to the wallet thread as it comes, and the
    wallet thread verifies the PSET against the details of the notification.
    Nobody compares them with what the worker offered when it reserved the
    coins of the order, nor with the state of the order.  So the worker signs
    what it offered exactly as long as the server asks for that:
    `matchesOffer` is the check the worker leaves to the server. -/

namespace Headless

open Api History Relation

/-- The details an event reserves the coins of an order for. -/
def reservedDetails (x : OrderId) : Event → Option Details
  | .reserved y details _ _ => if y = x then some details else none
  | _ => none

/-- The details of the `Submit` response an order's coins were last reserved for. -/
def offer (log : List Event) (x : OrderId) : Option Details := latest (reservedDetails x) log

/-- What should stand behind the signing events: a notification is forwarded
    for an active order and names the amounts of its offer, and a PSET is
    verified against the amounts of the offer it was forwarded for. -/
def SignsOffer (policyAsset : AssetId) (before : List Event) : Event → Prop
  | .forwarded sign state =>
      ∃ outs details, state = some (.active outs) ∧ offer before sign.orderId = some details
        ∧ signAmounts policyAsset sign.details = signAmounts policyAsset details
  | .verified sign amounts _ =>
      ∃ n outs details, before[n]? = some (.forwarded sign (some (.active outs)))
        ∧ offer (before.take n) sign.orderId = some details
        ∧ amounts = signAmounts policyAsset details
  | _ => True

/-- The server asks to sign an active order, for the amounts of its offer. -/
def matchesOffer (s : System) : Input → Bool
  | .ws (.notification (.sign sign)) =>
      match s.data.orders[sign.orderId]?, offer s.data.log sign.orderId with
      | some (.active _), some details =>
          signAmounts s.data.policyAsset sign.details == signAmounts s.data.policyAsset details
      | _, _ => false
  | _ => true

/-! ## The channel to the wallet thread -/

/-- A notification in the wallet thread's channel was forwarded for an offer. -/
def QueuedFor (policyAsset : AssetId) (log : List Event) (sign : SignNotification) : Prop :=
  ∃ n outs details, log[n]? = some (.forwarded sign (some (.active outs)))
    ∧ offer (log.take n) sign.orderId = some details
    ∧ signAmounts policyAsset sign.details = signAmounts policyAsset details

theorem QueuedFor.append {policyAsset : AssetId} {log : List Event} {sign : SignNotification}
    (h : QueuedFor policyAsset log sign) (es : List Event) :
    QueuedFor policyAsset (log ++ es) sign := by
  obtain ⟨n, outs, details, hn, hoffer, hamounts⟩ := h
  have hlt : n < log.length := (List.getElem?_eq_some_iff.mp hn).1
  refine ⟨n, outs, details, ?_, ?_, hamounts⟩
  · rw [List.getElem?_append_left hlt]
    exact hn
  · rw [List.take_append_of_le_length (Nat.le_of_lt hlt)]
    exact hoffer

/-- The signing events of the log are justified, and so is the channel. -/
structure SigningInv (policyAsset : AssetId) (d : Data) : Prop where
  policy : d.policyAsset = policyAsset
  justified : Justified (SignsOffer policyAsset) d.log
  queued : ∀ sign ∈ d.walletQueue, QueuedFor policyAsset d.log sign

/-- Outside `Sign` notifications nothing is added to the channel. -/
theorem Move.walletQueue {world : World} {i : Input} {c c' : Config} (h : Move world i c c')
    (hi : ∀ sign, i ≠ .ws (.notification (.sign sign))) :
    c'.data.walletQueue ⊆ c.data.walletQueue ∧ c'.data.policyAsset = c.data.policyAsset := by
  cases h with
  | forward sign hsign => exact absurd hsign (hi sign)
  | verify _ hq => exact ⟨by rw [hq]; exact List.subset_cons_self _ _, rfl⟩
  | store hc =>
      rw [makeAsyncRequest_connected hc]
      exact ⟨List.Subset.refl _, rfl⟩
  | reject => exact ⟨by simp, by simp⟩
  | duplicate => exact ⟨by simp, by simp⟩
  | accept _ => exact ⟨by simp, by simp⟩
  | cancel x => exact ⟨by simp, by simp⟩
  | _ => exact ⟨List.Subset.refl _, rfl⟩

/-- Outside `Sign` notifications, every new event is justified. -/
theorem SigningInv.event {policyAsset : AssetId} {d : Data} (hI : SigningInv policyAsset d)
    {i : Input} {c c' : Config} (hc : c.data = d)
    (hi : ∀ sign, i ≠ .ws (.notification (.sign sign))) {e : Event} (he : Explained i c c' e)
    (es : List Event) : SignsOffer policyAsset (d.log ++ es) e := by
  cases e with
  | forwarded sign state => exact absurd he.1 (hi sign)
  | verified sign amounts res =>
      obtain ⟨hmem, rfl⟩ := he
      rw [hc] at hmem ⊢
      obtain ⟨n, outs, details, hn, hoffer, hamounts⟩ := (hI.queued sign hmem).append es
      rw [hI.policy]
      exact ⟨n, outs, details, hn, hoffer, hamounts⟩
  | _ => exact trivial

theorem Move.signingInv {world : World} {i : Input} {c c' : Config} {policyAsset : AssetId}
    (h : Move world i c c') (hi : ∀ sign, i ≠ .ws (.notification (.sign sign)))
    (hI : SigningInv policyAsset c.data) : SigningInv policyAsset c'.data := by
  obtain ⟨hqueue, hpolicy⟩ := h.walletQueue hi
  obtain ⟨es, hlog, hes⟩ := h.log
  refine ⟨hpolicy.trans hI.policy, ?_, ?_⟩
  · rw [hlog]
    refine hI.justified.append ?_
    intro n e hn
    exact hI.event rfl hi (hes e (List.mem_of_getElem? hn)) _
  · intro sign hmem
    rw [hlog]
    exact (hI.queued sign (hqueue hmem)).append es

/-! ## Every step -/

theorem offer_concat_ws (log : List Event) (resp : WrappedResponse) (x : OrderId) :
    offer (log ++ [.ws resp]) x = offer log x :=
  latest_concat_none rfl log

/-- What a `Sign` notification does. -/
theorem step_sign {world : World} {s : System} (hs : s.crashed = false) (sign : SignNotification) :
    (step world s (.ws (.notification (.sign sign)))).data =
      { s.data with
        walletQueue := s.data.walletQueue ++ [sign]
        signRequestCount := s.data.signRequestCount + 1
        log := s.data.log ++ [.ws (.notification (.sign sign))] ++
          [.forwarded sign s.data.orders[sign.orderId]?] } := by
  unfold step
  rw [if_neg (by rw [hs]; decide)]
  rfl

/-- The check that is left to the server is what forwarding needs. -/
theorem matchesOffer_iff {s : System} (sign : SignNotification) :
    matchesOffer s (.ws (.notification (.sign sign))) = true ↔
      SignsOffer s.data.policyAsset (s.data.log ++ [.ws (.notification (.sign sign))])
        (.forwarded sign s.data.orders[sign.orderId]?) := by
  have hoffer := offer_concat_ws s.data.log (.notification (.sign sign)) sign.orderId
  simp only [matchesOffer, SignsOffer, hoffer]
  constructor
  · intro h
    split at h
    · rename_i outs details horder hdetails
      exact ⟨outs, details, horder, hdetails, eq_of_beq h⟩
    · exact nomatch h
  · rintro ⟨outs, details, horder, hdetails, hamounts⟩
    rw [horder, hdetails]
    exact beq_iff_eq.mpr hamounts

/-- A step by an input that matches the offers keeps the log justified. -/
theorem SigningInv.step {world : World} {s : System} {i : Input} {policyAsset : AssetId}
    (hI : SigningInv policyAsset s.data) (hok : matchesOffer s i = true) :
    SigningInv policyAsset (step world s i).data := by
  cases hs : s.crashed with
  | true => rwa [show Headless.step world s i = s by unfold Headless.step; rw [if_pos hs]]
  | false =>
      by_cases hi : ∃ sign, i = .ws (.notification (.sign sign))
      · obtain ⟨sign, rfl⟩ := hi
        have hforward := (matchesOffer_iff sign).mp hok
        rw [hI.policy] at hforward
        rw [step_sign hs]
        have hreceived : SignsOffer policyAsset s.data.log (.ws (.notification (.sign sign))) :=
          trivial
        refine ⟨hI.policy, (hI.justified.concat hreceived).concat hforward, ?_⟩
        intro sign' hmem
        rcases List.mem_append.mp hmem with hmem | hmem
        · exact ((hI.queued sign' hmem).append _).append _
        · rw [List.mem_singleton.mp hmem]
          obtain ⟨outs, details, horder, hdetails, hamounts⟩ := hforward
          refine ⟨(s.data.log ++ [Event.ws (.notification (.sign sign))]).length, outs, details,
            ?_, ?_, hamounts⟩
          · rw [← horder, List.getElem?_append_right (Nat.le_refl _), Nat.sub_self]
            rfl
          · rw [List.take_left]
            exact hdetails
      · have hi' : ∀ sign, i ≠ .ws (.notification (.sign sign)) := fun sign h => hi ⟨sign, h⟩
        cases hc : (Headless.step world s i).crashed with
        | false =>
            have hmoves := step_moves hc
            have hall : ∀ {c c' : Config}, Moves world i c c' → SigningInv policyAsset c.data →
                SigningInv policyAsset c'.data := by
              intro c c' hm hJ
              induction hm with
              | refl => exact hJ
              | tail _ hlast ih => exact hlast.signingInv hi' ih
            exact hall hmoves hI
        | true =>
            obtain ⟨e, hdata, -, hevent⟩ := step_crashed hs hc
            rw [hdata]
            have he : SignsOffer policyAsset s.data.log e := by
              rcases hevent with ⟨resp, p, -, rfl, -⟩ | ⟨x, pset, rfl⟩ | ⟨x, rfl⟩ <;> exact trivial
            exact ⟨hI.policy, hI.justified.concat he, fun sign hmem => (hI.queued sign hmem).append _⟩

/-- A PSET for the order of the small run. -/
def Sample.sign : SignNotification := ⟨Sample.order, "pset", Sample.details, none⟩

end Headless
