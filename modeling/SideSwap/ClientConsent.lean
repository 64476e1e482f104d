import SideSwap.ClientMoves
import SideSwap.History

/-! # No signature without consent

    `try_sign` is called from two places.  From the user's decision on a
    prompt it has the decision; from `try_process_sign` it has only the two
    fields of the record that allow auto-sign, `side` and `auto_sign`.  So the
    invariant follows these fields back to where the record came from: an
    accepted decision, an edit by the user, or a listing by the server of the
    user's own two-step order, for which auto-sign is on by design. -/

namespace Client

open Api Program Relation Transition History

/-- A PSET of an order is handed to `verify_and_sign_pset` by `try_sign`. -/
def Event.verifiesOrder (orderId : OrderId) : Event → Bool
  | .verified .trySign id _ _ _ => id == orderId
  | _ => false

/-- The user has accepted the order or turned its auto-sign on, or it has been
    listed as the user's own two-step order. -/
def Consent (orderId : OrderId) (log : List Event) : Prop :=
  Logged (Event.accepts orderId) log ∨ Logged (Event.enablesAutoSign orderId) log ∨
    Logged (Event.listsTwoStep orderId) log

theorem Consent.grow {orderId : OrderId} {log log' es : List Event} (h : Consent orderId log)
    (hgrow : log' = log ++ es) : Consent orderId log' :=
  h.imp (·.grow hgrow) (·.imp (·.grow hgrow) (·.grow hgrow))

/-- Every signature in the log was consented to before. -/
abbrev Consented : List Event → Prop :=
  Justified fun log e => ∀ orderId, e.verifiesOrder orderId = true → Consent orderId log

theorem Consented.quiet {log : List Event} (h : Consented log) {e : Event}
    (he : ∀ orderId, e.verifiesOrder orderId = false) : Consented (log ++ [e]) :=
  h.concat fun orderId hv => by rw [he orderId] at hv; exact nomatch hv

theorem verifiesOrder_of_isQuiet {e : Event} (h : e.isQuiet = true) (orderId : OrderId) :
    e.verifiesOrder orderId = false := by
  cases e with
  | verified signer id amounts pset res => exact nomatch h
  | _ => rfl

/-- A message of a login that forces auto-sign on. -/
def forcesAutoSign : Message → Bool
  | .ui (.login req) => req.forceAutoSignMaker == some true
  | _ => false

/-- What consent rests on in every state of a run without forced auto-sign. -/
structure ConsentInv (b : Book) : Prop where
  noForce : b.forceAutoSignMaker = false
  logins : ∀ msg, .received msg ∈ b.log → forcesAutoSign msg = false
  /-- a record that allows auto-sign has consent behind it -/
  records : ∀ orderId entry, b.submitData[orderId]? = some entry →
    entry.side = .taker ∨ entry.autoSign = true → Consent orderId b.log
  signatures : Consented b.log

/-- Auto-sign that is not forced is allowed by the record. -/
theorem allowed_of_autoSignAllowed {entry : SubmitData} {price : ℚ}
    (h : autoSignAllowed false entry price = true) :
    entry.side = .taker ∨ entry.autoSign = true := by
  unfold autoSignAllowed at h
  cases hside : entry.side with
  | taker => exact .inl rfl
  | maker =>
      rw [hside] at h
      simp only [Bool.or_false, Bool.and_eq_true] at h
      exact .inr h.1

/-- New records need consent; the others keep theirs. -/
theorem ConsentInv.record {b : Book} (h : ConsentInv b) {orderId : OrderId} {entry : SubmitData}
    (hentry : entry.side = .taker ∨ entry.autoSign = true → Consent orderId b.log) :
    ConsentInv (b.record orderId entry) := by
  refine { h with records := fun id found hfound hallow => ?_ }
  change (b.submitData.insert orderId entry)[id]? = some found at hfound
  rw [Table.getElem?_insert_eq] at hfound
  split at hfound
  · next heq =>
      subst heq
      cases hfound
      exact hentry hallow
  · exact h.records id found hfound hallow

/-- An event that is no signature, and no login that forces auto-sign. -/
theorem ConsentInv.emit {b : Book} (h : ConsentInv b) {e : Event}
    (he : ∀ orderId, e.verifiesOrder orderId = false)
    (hlogin : ∀ msg, e = .received msg → forcesAutoSign msg = false) : ConsentInv (b.emit e) := by
  refine
    { noForce := h.noForce
      logins := fun msg hmsg => ?_
      records := fun id entry hentry hallow => (h.records id entry hentry hallow).grow rfl
      signatures := h.signatures.quiet he }
  rcases List.mem_append.mp hmsg with hold | hnew
  · exact h.logins msg hold
  · exact hlogin msg (List.mem_singleton.mp hnew).symm

/-- A message that passes its checks leaves the record as allowed as it was. -/
theorem ConsentInv.take {b : Book} (h : ConsentInv b) {msg : SignNotification}
    {entry : SubmitData} (precision : Nat) (hentry : b.submitData[msg.orderId]? = some entry) :
    ConsentInv (b.take msg entry precision) := by
  have hrecord : ConsentInv (b.record msg.orderId (entry.select msg.details)) :=
    h.record fun hallow => h.records _ _ hentry hallow
  have hchecked : ConsentInv ((b.record msg.orderId (entry.select msg.details)).emit
      (.checked msg entry precision)) := hrecord.emit (fun _ => rfl) fun _ heq => nomatch heq
  exact { hchecked with }

/-- An attempt to sign an order with consent. -/
theorem Attempt.consentInv {msg : SignNotification} {b b' : Book} (h : Attempt msg b b')
    (hI : ConsentInv b) (hconsent : Consent msg.orderId b.log) : ConsentInv b' := by
  have hverified : ∀ amounts pset res,
      ConsentInv (b.emit (.verified .trySign msg.orderId amounts pset res)) := by
    intro amounts pset res
    refine
      { noForce := hI.noForce
        logins := fun m hm => ?_
        records := fun id entry hentry hallow => (hI.records id entry hentry hallow).grow rfl
        signatures := hI.signatures.concat fun id hid => ?_ }
    · rcases List.mem_append.mp hm with hold | hnew
      · exact hI.logins m hold
      · exact nomatch List.mem_singleton.mp hnew
    · have heq : msg.orderId = id := eq_of_beq hid
      exact heq ▸ hconsent
  cases h with
  | none => exact hI
  | refused _ => exact hverified _ _ _
  | sent _ => exact (hverified _ _ _).emit (fun _ => rfl) fun _ heq => nomatch heq

/-- **CONSENT**: every move keeps what consent rests on. -/
theorem Move.consentInv {b b' : Book} (h : Move b b') (hI : ConsentInv b) : ConsentInv b' := by
  cases h with
  | note hquiet =>
      refine hI.emit (verifiesOrder_of_isQuiet hquiet) fun msg heq => ?_
      rw [heq] at hquiet
      exact nomatch hquiet
  | @login req hlogin =>
      have hforce := hI.logins _ hlogin
      refine { hI with noForce := ?_ }
      cases hreq : req.forceAutoSignMaker with
      | none => rfl
      | some force =>
          change (req.forceAutoSignMaker == some true) = false at hforce
          rw [hreq] at hforce
          cases force with
          | false => rfl
          | true => exact nomatch hforce
  | logout => exact { hI with }
  | accept haccept _ =>
      exact (hI.record fun _ => .inl haccept).emit (fun _ => rfl) fun _ heq => nomatch heq
  | addMissing _ hside hauto =>
      refine hI.record fun hallow => .inr (.inr (hauto ?_))
      rcases hallow with htaker | hauto
      · rw [hside] at htaker
        exact nomatch htaker
      · exact hauto
  | refuse _ => exact { hI with }
  | @queue msg entry precision _ hentry _ _ =>
      have htake := hI.take precision hentry
      exact { htake with }
  | @autoSign msg entry precision _ _ hentry _ hauto hattempt =>
      -- the flag is off, so it is the record that allows the signature
      have hallow : entry.side = .taker ∨ entry.autoSign = true := by
        rw [hI.noForce] at hauto
        exact allowed_of_autoSignAllowed hauto
      have hconsent := hI.records _ _ hentry hallow
      exact hattempt.consentInv (hI.take precision hentry) (hconsent.grow rfl)
  | @prompt msg rest entry _ _ =>
      have hshown : ConsentInv (b.emit (.toUi (.submitReview (signReview msg entry)))) :=
        hI.emit (fun _ => rfl) fun _ heq => nomatch heq
      exact { hshown with }
  | dropPrompt _ => exact { hI with }
  | decide _ haccept hattempt => exact hattempt.consentInv { hI with } (.inl haccept)
  | edit _ => exact hI.emit (fun _ => rfl) fun _ heq => nomatch heq
  | @editEntry orderId price entry hentry =>
      refine (hI.record fun hallow => hI.records _ entry hentry ?_).emit (fun _ => rfl)
        fun _ heq => nomatch heq
      unfold SubmitData.reprice at hallow
      split at hallow <;> exact hallow
  | @editAutoSign orderId autoSign entry henables hentry =>
      refine hI.record fun hallow => ?_
      rcases hallow with htaker | hauto
      · exact hI.records _ _ hentry (.inl htaker)
      · exact .inr (.inl (henables hauto))
  | mark hentry => exact hI.record fun hallow => hI.records _ _ hentry hallow
  | complete _ =>
      refine { hI with records := fun id entry hentry hallow => ?_ }
      change (b.submitData.erase _)[id]? = some entry at hentry
      rw [Table.getElem?_erase_eq] at hentry
      split at hentry
      · exact nomatch hentry
      · exact hI.records id entry hentry hallow
  | @startSwap req asset inputs recvAddr changeAddr orderId _ _ =>
      have hstarted : ConsentInv (b.emit (req.answered asset inputs recvAddr changeAddr orderId)) :=
        hI.emit (fun _ => rfl) fun _ heq => nomatch heq
      exact { hstarted with }
  | refuseSwap _ _ _ => exact hI.emit (fun _ => rfl) fun _ heq => nomatch heq
  | @signSwap swap msg signedPset res _ _ _ =>
      have hverified : ConsentInv (b.emit (.verified .blindedSwapClient msg.orderId swap.amounts
          msg.pset (.ok signedPset))) := hI.emit (fun _ => rfl) fun _ heq => nomatch heq
      exact hverified.emit (fun _ => rfl) fun _ heq => nomatch heq
  | swapDone => exact { hI with }

theorem consentInv_initial (liquidAssetId : AssetId) : ConsentInv (initialBook liquidAssetId) where
  noForce := rfl
  logins := fun _ h => nomatch h
  records := fun id entry hentry _ => by
    rw [show (initialBook liquidAssetId).submitData[id]? = none from
      Std.TreeMap.getElem?_emptyc] at hentry
    exact nomatch hentry
  signatures := justified_nil _

theorem ConsentInv.received {s : System} (h : ConsentInv s.data.book) {msg : Message}
    (hok : forcesAutoSign msg = false) : ConsentInv (s.data.emit (.received msg)).book := by
  refine h.emit (fun _ => rfl) fun m heq => ?_
  cases heq
  exact hok

theorem reaches_consentInv {world : World} {s : System}
    (h : Reaches world (fun _ msg => forcesAutoSign msg = false) s) : ConsentInv s.data.book :=
  reaches_invariant (fun _ => consentInv_initial _) (fun _ _ hok hI => hI.received hok)
    (fun _ _ hmove hI => hmove.consentInv hI) h

/-- **CONSENT**: in every run without forced auto-sign, `try_sign` hands a PSET
    of an order to `verify_and_sign_pset` only after the user has accepted the
    order or has turned its auto-sign on, or after the server has listed it as
    the user's own two-step order. -/
theorem signs_only_with_consent {world : World} {s : System}
    (h : Reaches world (fun _ msg => forcesAutoSign msg = false) s) {n : Nat} {e : Event}
    {orderId : OrderId} (he : s.data.log[n]? = some e) (hverifies : e.verifiesOrder orderId = true) :
    Consent orderId (s.data.log.take n) :=
  (reaches_consentInv h).signatures n e he orderId hverifies

/-- The server lists an order of the user's own. -/
def Sample.listing (twoStep : Bool) : Message :=
  .serverNotification (.orderCreated
    { orderId := order, details := details .maker, createdAt := 0, expiresAt := none
      twoStep, own := some ⟨none, false, twoStep⟩ })

/-- The user turns auto-sign on. -/
def Sample.enabling : Message := .ui (.editOrder ⟨toText order, some (.autoSign true)⟩)

/-- The server asks for the maker's signature. -/
def Sample.asking : Message := .serverNotification (.sign (sign .maker))

/-- The user's own order is signed once its auto-sign is on. -/
theorem enabled_order_signed :
    let s := run (Sample.world .maker) Sample.bitcoin [Sample.asset]
      (Sample.connecting ++ [Sample.listing false, Sample.enabling, Sample.asking])
    ∃ e, s.data.log[27]? = some e ∧ e.verifiesOrder Sample.order = true ∧
      Consent Sample.order (s.data.log.take 27) := by
  intro s
  have hreach : Reaches (Sample.world .maker) (fun _ msg => forcesAutoSign msg = false) s :=
    reaches_run (by decide +kernel)
  have hsigned : s.data.log[27]?.any (Event.verifiesOrder Sample.order) = true := by
    decide +kernel
  obtain ⟨e, he, hverifies⟩ := (Option.any_eq_true _ _).mp hsigned
  exact ⟨e, he, hverifies, signs_only_with_consent hreach he hverifies⟩

/-- The run on these messages, without forced auto-sign, has the order signed
    and holds no decision for it. -/
abbrev Sample.SignsUndecided (msgs : List Message) : Prop :=
  let s := run (world .maker) bitcoin [asset] msgs
  Allowed (step (world .maker)) (fun _ msg => forcesAutoSign msg = false)
      (start bitcoin [asset]) msgs ∧
    Logged (Event.verifiesOrder order) s.data.log ∧ ¬ Logged (Event.accepts order) s.data.log

/-- **NO DECISION**: an order of the user's own is signed without a
    `SubmitDecision` when it is listed as a two-step order, and when the user
    has turned its auto-sign on. -/
theorem signs_without_decision :
    Sample.SignsUndecided (Sample.connecting ++ [Sample.listing true, Sample.asking]) ∧
      Sample.SignsUndecided
        (Sample.connecting ++ [Sample.listing false, Sample.enabling, Sample.asking]) := by
  decide +kernel

end Client
