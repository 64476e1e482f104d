import SideSwap.ClientTerms

/-! # The records of the wallet worker's orders

    A record of `submit_data` is made by an accepted decision or for an order
    the server knows of, and changed by price edits, auto-sign edits, `Sign`
    messages and completions.  `Play.recordCase` says once what one act can do to
    the records.  Two properties of all runs follow: when the amounts of a
    record fit its price, and which coins a record reserves. -/

namespace Client

open Api Program MachineInt Pricing Relation Transition

/-! ## What can happen to a record -/

/-- The events that make a record, or offer coins for one. -/
def Event.isSubmission : Event → Bool
  | .accepted _ _ _ => true
  | .restored _ => true
  | .request offer (.ok resp) => offer.takenBy resp
  | _ => false

/-- How the record of an order changes while it is there. -/
inductive Updated (log : List Event) : SubmitData → SubmitData → Prop where
  | same {entry} : Updated log entry entry
  /-- the amounts of a checked `Sign` message are taken over -/
  | select {entry msg precision} : Checked entry msg.details precision →
      Event.checked msg entry precision ∈ log → Updated log entry (entry.select msg.details)
  | reprice {entry price} : Updated log entry (entry.reprice price)
  | autoSign {entry autoSign} : Updated log entry { entry with autoSign := autoSign }
  | mark {entry txid signed} :
      Updated log entry { entry with txid := txid, signed := signed }

/-- What an act does to the records. -/
inductive RecordCase (cause : Message) (c c' : Core) : Prop where
  | accept {req orderId resp precision inputs autoSign offer res} :
      cause = .ui (.submitDecision req) → Quoted resp.details precision →
      Offers c req orderId resp.details offer res inputs →
      c'.submitData = c.submitData.insert orderId
        (acceptedEntry orderId resp precision (inputs.map (·.outPoint)) autoSign) →
      c'.log = c.log ++ [.request offer (.ok res)] ++ [.accepted orderId resp precision] →
      RecordCase cause c c'
  | restore {orderId entry} : entry.txouts = [] → entry.Priced →
      c'.submitData = c.submitData.insert orderId entry →
      c'.log = c.log ++ [.restored orderId] → RecordCase cause c c'
  | update {es} :
      (∀ (orderId : OrderId) entry, c'.submitData[orderId]? = some entry →
        ∃ old, c.submitData[orderId]? = some old ∧ Updated c'.log old entry) →
      c'.log = c.log ++ es →
      (∀ e ∈ es, Event.message? e = none ∧ Event.isSubmission e = false) → RecordCase cause c c'

/-- Events of the turn that submit nothing. -/
def Plain (es : List Event) : Prop :=
  ∀ e ∈ es, Event.message? e = none ∧ Event.isSubmission e = false

theorem plain_nil : Plain [] := fun _ h => nomatch h

theorem plain_one {e : Event} (hmessage : Event.message? e = none)
    (hsubmission : Event.isSubmission e = false) : Plain [e] :=
  List.forall_mem_singleton.mpr ⟨hmessage, hsubmission⟩

theorem isSubmission_of_isNote {e : Event} (h : e.isNote = true) : e.isSubmission = false := by
  obtain ⟨_, hnote⟩ := Bool.and_eq_true_iff.mp h
  cases e with
  | accepted orderId resp precision => cases h
  | restored orderId => cases hnote
  | request req res =>
      match res with
      | .error _ => rfl
      | .ok resp =>
          cases req with
          | psetMaker req =>
              cases resp with
              | psetMaker => cases hnote
              | _ => rfl
          | psetTaker req =>
              cases resp with
              | psetTaker => cases hnote
              | _ => rfl
          | _ => rfl
  | _ => rfl

/-- Other requests than offers submit nothing, whatever their answers. -/
theorem isSubmission_other {req : Request} (h : ∀ resp, req.takenBy resp = false)
    (res : Except String Response) : (Event.request req res).isSubmission = false := by
  cases res with
  | error e => rfl
  | ok resp => exact h resp

theorem plain_callEvents {requestId : Option String} {callback : AsyncRequest}
    {res : Except Error Response} : Plain (callEvents requestId callback res) := by
  intro e he
  refine ⟨message?_callEvents he, ?_⟩
  rcases List.mem_cons.mp he with rfl | hmem
  · rfl
  · obtain ⟨msg, _, rfl⟩ := List.mem_map.mp hmem
    rfl

section Cases

variable {cause : Message} {c c' : Core} {es : List Event}

/-- The records stay. -/
theorem RecordCase.same (hdata : c'.submitData = c.submitData) (hlog : c'.log = c.log ++ es)
    (hes : Plain es) : RecordCase cause c c' := by
  refine .update (fun orderId entry hentry => ⟨entry, ?_, .same⟩) hlog hes
  rwa [hdata] at hentry

/-- One record changes. -/
theorem RecordCase.change {orderId : OrderId} {old entry : SubmitData}
    (hold : c.submitData[orderId]? = some old) (hupdated : Updated c'.log old entry)
    (hdata : c'.submitData = c.submitData.insert orderId entry) (hlog : c'.log = c.log ++ es)
    (hes : Plain es) : RecordCase cause c c' := by
  refine .update (fun id entry' hentry => ?_) hlog hes
  rw [hdata, Table.getElem?_insert_eq] at hentry
  split at hentry
  · next hid =>
      cases hentry
      exact ⟨old, hid ▸ hold, hupdated⟩
  · exact ⟨entry', hentry, .same⟩

end Cases

/-- An attempt to sign changes no record. -/
theorem Attempt.plain {msg : SignNotification} {b b' : Book} (h : Attempt msg b b') :
    b'.submitData = b.submitData ∧ ∃ es, b'.log = b.log ++ es ∧ Plain es := by
  cases h with
  | none => exact ⟨rfl, [], (List.append_nil _).symm, plain_nil⟩
  | refused _ => exact ⟨rfl, _, rfl, plain_one rfl rfl⟩
  | sent _ =>
      refine ⟨rfl, _, List.append_assoc _ _ _, ?_⟩
      intro e he
      rcases List.mem_pair.mp he with rfl | rfl
      · exact ⟨rfl, rfl⟩
      · exact ⟨rfl, isSubmission_other (fun _ => rfl) _⟩

theorem Take.recordCase {cause : Message} {msg : SignNotification} {c c' : Core}
    (h : Take msg c c') : RecordCase cause c c' := by
  cases h with
  | refuse _ => exact .same rfl (List.append_nil _).symm plain_nil
  | @queue entry precision _ hentry hchecked _ =>
      refine .change hentry (.select hchecked ?_) rfl rfl (plain_one rfl rfl)
      exact List.mem_append_right _ (List.mem_singleton_self _)
  | @autoSign entry precision b n _ hentry hchecked _ hattempt _ =>
      obtain ⟨hdata, es, hlog, hes⟩ := hattempt.plain
      have hlog' : b.log = c.log ++ (Event.checked msg entry precision :: es) :=
        hlog.trans (List.append_assoc _ _ _)
      refine .change hentry (.select hchecked ?_) hdata hlog' ?_
      · show _ ∈ b.log
        rw [hlog']
        exact List.mem_append_right _ List.mem_cons_self
      · exact List.forall_mem_cons.mpr ⟨⟨rfl, rfl⟩, hes⟩

theorem Note.recordCase {cause : Message} {c c' : Core} (h : Note c c') : RecordCase cause c c' := by
  obtain ⟨hevent, _⟩ := h
  exact .same rfl rfl (plain_one (message?_of_isNote hevent) (isSubmission_of_isNote hevent))

/-- **ONE ACT**: what it does to the records, and to the history of submissions. -/
theorem Act.recordCase {world : World} {cause : Message} {c c' : Core}
    (h : Act world cause c c') : RecordCase cause c c' := by
  cases h with
  | note hnote => exact hnote.recordCase
  | accept hcause _ _ hquoted hoffers _ => exact .accept hcause hquoted hoffers rfl rfl
  | restore _ _ _ htxouts hpriced => exact .restore htxouts hpriced rfl rfl
  | takeQueued _ htake =>
      -- taking the message off its queue is not seen by the records
      have hcase : RecordCase cause { c with pendingSignRequests := _ } c' := htake.recordCase
      cases hcase with
      | accept hcause hquoted hoffers hdata hlog =>
          exact .accept hcause hquoted ⟨hoffers.taken, hoffers.offered, hoffers.unused⟩ hdata hlog
      | restore htxouts hpriced hdata hlog => exact .restore htxouts hpriced hdata hlog
      | update hupdate hlog hes => exact .update hupdate hlog hes
  | takeArrived _ htake => exact htake.recordCase
  | prompt _ _ _ => exact .same rfl rfl (plain_one rfl rfl)
  | review _ => exact .same rfl rfl (plain_one rfl rfl)
  | decide _ _ _ _ _ hattempt _ =>
      obtain ⟨hdata, es, hlog, hes⟩ := hattempt.plain
      exact .same hdata hlog hes
  | edit _ _ => exact .same rfl rfl (plain_one rfl rfl)
  | editEntry hentry _ => exact .change hentry .reprice rfl rfl (plain_one rfl rfl)
  | editAutoSign _ hentry =>
      exact .change hentry .autoSign rfl (List.append_nil _).symm plain_nil
  | mark hentry => exact .change hentry .mark rfl (List.append_nil _).symm plain_nil
  | complete _ =>
      refine .update (fun orderId entry hentry => ⟨entry, ?_, .same⟩)
        (List.append_nil _).symm plain_nil
      rw [Table.getElem?_erase_eq] at hentry
      split at hentry
      · cases hentry
      · exact hentry
  | startSwap _ _ _ => exact .same rfl rfl (plain_one rfl rfl)
  | refuseSwap _ _ _ => exact .same rfl rfl (plain_one rfl rfl)
  | signSwap _ _ _ _ =>
      refine .same rfl (List.append_assoc _ _ _) ?_
      intro e he
      rcases List.mem_pair.mp he with rfl | rfl
      · exact ⟨rfl, rfl⟩
      · exact ⟨rfl, isSubmission_other (fun _ => rfl) _⟩
  | createTx => exact .same rfl rfl (plain_one rfl rfl)
  | sendTx _ => exact .same rfl rfl (plain_one rfl rfl)
  | ask _ _ => exact .same rfl rfl (plain_one rfl rfl)
  | askOffline _ => exact .same rfl rfl plain_callEvents
  | answer _ _ => exact .same rfl rfl plain_callEvents
  | drain _ =>
      refine .same rfl rfl ?_
      intro e he
      obtain ⟨line, _, hmem⟩ := List.mem_flatMap.mp he
      exact plain_callEvents e hmem
  | _ => exact .same rfl (List.append_nil _).symm plain_nil

theorem Play.recordCase {world : World} {cause : Message} {c c' : Core}
    (h : Play world cause c c') : RecordCase cause c c' := by
  cases h with
  | act hact => exact hact.recordCase
  | list hlist =>
      cases hlist with
      | change _ => exact .same rfl (List.append_nil _).symm plain_nil
      | shows hshow =>
          cases hshow with
          | remove _ => exact .same rfl rfl (plain_one rfl rfl)
          | put _ _ => exact .same rfl rfl (plain_one rfl rfl)

/-! ## Amounts that fit the price -/

/-- The record's fixed amount gives the same other amount at the price of a
    message in the message's market and with the registry's precision as in the
    record's own market and with its own precision. -/
def QuotedAlike (msg : SignNotification) (entry : SubmitData) (precision : Nat) : Prop :=
  entry.quote msg.details.price precision msg.details.market =
    entry.quote msg.details.price entry.assetPrecision entry.market

instance (msg : SignNotification) (entry : SubmitData) (precision : Nat) :
    Decidable (QuotedAlike msg entry precision) :=
  inferInstanceAs (Decidable (_ = _))

/-- The `Sign` message an event has checked, with the record and the precision
    it was checked against. -/
def Event.check? : Event → Option (SignNotification × SubmitData × Nat)
  | .checked msg entry precision => some (msg, entry, precision)
  | _ => none

/-- Every checked `Sign` message of a history is quoted alike. -/
def QuotesAlike (log : List Event) : Prop :=
  ∀ check ∈ log.filterMap Event.check?, QuotedAlike check.1 check.2.1 check.2.2

instance (log : List Event) : Decidable (QuotesAlike log) :=
  inferInstanceAs (Decidable (∀ check ∈ _, _))

theorem QuotesAlike.checked {log : List Event} (h : QuotesAlike log) {msg : SignNotification}
    {entry : SubmitData} {precision : Nat} (hmem : Event.checked msg entry precision ∈ log) :
    QuotedAlike msg entry precision :=
  h (msg, entry, precision) (List.mem_filterMap.mpr ⟨_, hmem, rfl⟩)

theorem QuotesAlike.of_append {log es : List Event} (h : QuotesAlike (log ++ es)) :
    QuotesAlike log := by
  intro check hmem
  refine h check ?_
  rw [List.filterMap_append]
  exact List.mem_append_left _ hmem

/-- The amounts of a checked message fit a record that quotes alike. -/
theorem Checked.priced_select {entry : SubmitData} {msg : SignNotification} {precision : Nat}
    (h : Checked entry msg.details precision) (halike : QuotedAlike msg entry precision) :
    (entry.select msg.details).Priced where
  fee := h.quoted.fee
  amounts := by
    have hpriced := h.quoted.priced
    have hfixed := h.fixed
    unfold QuotedAlike SubmitData.quote at halike
    rw [← h.orderType] at hpriced
    rw [show (entry.select msg.details).orderType = entry.orderType from rfl]
    cases htype : entry.orderType with
    | bitcoin =>
        rw [htype] at hpriced hfixed halike
        show msg.details.assetAmount = Pricing.assetAmount msg.details.bitcoinAmount
          msg.details.price entry.assetPrecision entry.market
        rw [← hpriced, ← hfixed.2]
        exact halike
    | asset =>
        rw [htype] at hpriced hfixed halike
        show msg.details.bitcoinAmount = Pricing.bitcoinAmount msg.details.assetAmount
          msg.details.price entry.assetPrecision entry.market
        rw [← hpriced, ← hfixed]
        exact halike

/-- A new price brings its amounts along. -/
theorem SubmitData.Priced.reprice {entry : SubmitData} (h : entry.Priced) (price : ℚ) :
    (entry.reprice price).Priced := by
  have hfee := h.fee
  unfold SubmitData.reprice
  cases htype : entry.orderType with
  | bitcoin => exact ⟨hfee, rfl⟩
  | asset => exact ⟨rfl, rfl⟩

/-- **STEP**: no change of a record breaks its equation but a message that is
    not quoted alike. -/
theorem Updated.priced {log : List Event} {old entry : SubmitData} (h : Updated log old entry)
    (halike : QuotesAlike log) (hold : old.Priced) : entry.Priced := by
  cases h with
  | same => exact hold
  | select hchecked hmem => exact hchecked.priced_select (halike.checked hmem)
  | reprice => exact hold.reprice _
  | autoSign => exact ⟨hold.fee, hold.amounts⟩
  | mark => exact ⟨hold.fee, hold.amounts⟩

/-- All records of a core fit their prices, if all messages were quoted alike. -/
def AllPriced (c : Core) : Prop :=
  QuotesAlike c.log → ∀ (orderId : OrderId) entry, c.submitData[orderId]? = some entry →
    entry.Priced

theorem RecordCase.allPriced {cause : Message} {c c' : Core} (h : RecordCase cause c c')
    (hall : AllPriced c) : AllPriced c' := by
  intro halike orderId entry hentry
  cases h with
  | accept _ hquoted _ hdata hlog =>
      rw [hlog, List.append_assoc] at halike
      rw [hdata, Table.getElem?_insert_eq] at hentry
      split at hentry
      · cases hentry
        exact priced_of_quoted hquoted rfl rfl rfl rfl rfl rfl rfl
      · exact hall halike.of_append orderId entry hentry
  | restore _ hpriced hdata hlog =>
      rw [hlog] at halike
      rw [hdata, Table.getElem?_insert_eq] at hentry
      split at hentry
      · cases hentry
        exact hpriced
      · exact hall halike.of_append orderId entry hentry
  | update hupdate hlog _ =>
      obtain ⟨old, hold, hupdated⟩ := hupdate orderId entry hentry
      refine hupdated.priced halike (hall ?_ orderId old hold)
      rw [hlog] at halike
      exact halike.of_append

/-- **STORED TERMS**: in every run whose checked `Sign` messages are all quoted
    as their records are, the fee and the amounts of every record fit the
    record's own price, precision and market. -/
theorem records_fit_their_prices {world : World} {s : System}
    (h : Reaches world (fun _ _ => True) s) (halike : QuotesAlike s.data.log) :
    ∀ (orderId : OrderId) entry, s.data.submitData[orderId]? = some entry → entry.Priced := by
  have hall : AllPriced s.data.core := by
    refine reaches_core (K := fun _ _ => AllPriced) ?_ ?_ ?_ ?_ ?_ h
    · intro liquidAssetId disableDeviceKey settings _ orderId entry hentry
      cases hentry.symm.trans Std.TreeMap.getElem?_emptyc
    · intro c c' hnote hall
      have hcase : RecordCase .other c c' := hnote.recordCase
      exact hcase.allPriced hall
    · intro s msg _ hall halike
      exact hall halike.of_append
    · intro s msg _ c c' hplay hall
      exact hplay.recordCase.allPriced hall
    · exact fun _ _ _ _ hall => hall
  exact hall halike

instance (entry : SubmitData) : Decidable entry.Priced :=
  decidable_of_iff
    (entry.serverFee = getServerFee entry.bitcoinAmount ∧
      (entry.orderType = .bitcoin → entry.assetAmount =
        Pricing.assetAmount entry.bitcoinAmount entry.price entry.assetPrecision entry.market) ∧
      (entry.orderType = .asset → entry.bitcoinAmount =
        Pricing.bitcoinAmount entry.assetAmount entry.price entry.assetPrecision entry.market)) (by
    constructor
    · rintro ⟨hfee, hbitcoin, hasset⟩
      refine ⟨hfee, ?_⟩
      cases htype : entry.orderType with
      | bitcoin => exact hbitcoin htype
      | asset => exact hasset htype
    · rintro ⟨hfee, hamounts⟩
      refine ⟨hfee, fun htype => ?_, fun htype => ?_⟩
      · rwa [htype] at hamounts
      · rwa [htype] at hamounts)

/-- The record of an order that has been signed at its own terms. -/
theorem signed_record_fits :
    let s := run (Sample.world .taker) Sample.bitcoin [Sample.asset]
      (Sample.accepting ++ [.serverNotification (.sign (Sample.sign .taker))])
    ∃ entry, s.data.submitData[Sample.order]? = some entry ∧ entry.signed = true ∧
      entry.Priced := by
  intro s
  have hreach : Reaches (Sample.world .taker) (fun _ _ => True) s := reaches_run (by decide +kernel)
  have hsigned : (s.data.submitData[Sample.order]?).any (·.signed) = true := by decide +kernel
  obtain ⟨entry, hentry, hsigned⟩ := (Option.any_eq_true _ _).mp hsigned
  exact ⟨entry, hentry, hsigned,
    records_fit_their_prices hreach (by decide +kernel) Sample.order entry hentry⟩

/-- **OTHER MARKET**: a `Sign` message of another market leaves a record whose
    amounts do not fit its price. -/
theorem record_misses_its_price :
    let s := run (Sample.world .taker) Sample.bitcoin [Sample.asset]
      (Sample.accepting ++ [.serverNotification (.sign Sample.signElsewhere)])
    ¬ ∀ (orderId : OrderId) entry, s.data.submitData[orderId]? = some entry → entry.Priced := by
  intro s hall
  have hbroken : (s.data.submitData[Sample.order]?).any (fun entry => !decide entry.Priced) =
      true := by decide +kernel
  obtain ⟨entry, hentry, hbroken⟩ := (Option.any_eq_true _ _).mp hbroken
  exact (by simpa using hbroken : ¬ entry.Priced) (hall Sample.order entry hentry)

/-! ## Reserved coins -/

/-- The submission that made a record: the user's decision, the order it was
    for, what was offered to the server, and its place in the history. -/
structure Submission where
  req : SubmitDecision
  resp : LinkResponse
  offered : List PsetInput
  number : Nat

/-- The submission made a maker's half of a two-step swap. -/
def Submission.isTwoStep (sub : Submission) : Bool := sub.req.isTwoStep sub.resp.details

/-- The user allowed unused coins only. -/
def Submission.onlyUnused (sub : Submission) : Bool := sub.req.onlyUnusedUtxos.getD false

/-- What a history tells of submissions: the decision that is handled, the last
    offer for each order that the server has taken, and the submission that made
    each record. -/
structure Submissions where
  req : Option SubmitDecision
  offered : OrderId → List PsetInput
  of : OrderId → Option Submission
  number : Nat

/-- Before anything has happened. -/
def Submissions.none : Submissions := ⟨Option.none, fun _ => [], fun _ => Option.none, 0⟩

/-- The offers after a request that the server has answered. -/
def Submissions.offeredAfter (subs : Submissions) (offer : Request) (resp : Response) :
    OrderId → List PsetInput :=
  match offer.offer? with
  | some (orderId, inputs) =>
      if offer.takenBy resp then Function.update subs.offered orderId inputs else subs.offered
  | Option.none => subs.offered

/-- What the next event adds. -/
def Submissions.learn (subs : Submissions) : Event → Submissions
  | .received (.ui (.submitDecision req)) => { subs with req := some req, number := subs.number + 1 }
  | .request offer (.ok resp) =>
      { subs with offered := subs.offeredAfter offer resp, number := subs.number + 1 }
  | .accepted orderId resp _ =>
      { subs with
        of := Function.update subs.of orderId
          (subs.req.map fun req => ⟨req, resp, subs.offered orderId, subs.number⟩)
        number := subs.number + 1 }
  | .restored orderId =>
      { subs with of := Function.update subs.of orderId Option.none, number := subs.number + 1 }
  | _ => { subs with number := subs.number + 1 }

/-- The submissions of a history. -/
def submissions (log : List Event) : Submissions := log.foldl Submissions.learn .none

theorem submissions_concat (log : List Event) (e : Event) :
    submissions (log ++ [e]) = (submissions log).learn e := by
  unfold submissions
  rw [List.foldl_append]
  rfl

/-- The same decision is handled, and the records have been made by the same
    submissions as before. -/
structure SameSubmissions (subs subs' : Submissions) : Prop where
  req : subs'.req = subs.req
  of : subs'.of = subs.of
  number : subs.number ≤ subs'.number

theorem learn_plain {e : Event} (hmessage : Event.message? e = Option.none)
    (hsubmission : Event.isSubmission e = false) (subs : Submissions) :
    SameSubmissions subs (subs.learn e) := by
  cases e with
  | received msg => cases hmessage
  | accepted orderId resp precision => cases hsubmission
  | restored orderId => cases hsubmission
  | request offer res =>
      cases res with
      | error e => exact ⟨rfl, rfl, Nat.le_succ _⟩
      | ok resp => exact ⟨rfl, rfl, Nat.le_succ _⟩
  | _ => exact ⟨rfl, rfl, Nat.le_succ _⟩

theorem submissions_plain (log : List Event) {es : List Event} (h : Plain es) :
    SameSubmissions (submissions log) (submissions (log ++ es)) := by
  induction es using List.reverseRecOn with
  | nil =>
      rw [List.append_nil]
      exact ⟨rfl, rfl, Nat.le_refl _⟩
  | append_singleton es e ih =>
      rw [← List.append_assoc, submissions_concat]
      have hes := ih fun e' he' => h e' (List.mem_append_left [e] he')
      obtain ⟨hmessage, hsubmission⟩ := h e (List.mem_append_right es (List.mem_singleton_self e))
      have he := learn_plain hmessage hsubmission (submissions (log ++ es))
      exact ⟨he.req.trans hes.req, he.of.trans hes.of, Nat.le_trans hes.number he.number⟩

/-- What holds of the records and the submissions that made them. -/
structure Reserved (c : Core) : Prop where
  /-- a record that was not submitted reserves nothing -/
  restored : ∀ (orderId : OrderId) entry, c.submitData[orderId]? = some entry →
    (submissions c.log).of orderId = none → entry.txouts = []
  offered : ∀ (orderId : OrderId) entry sub, c.submitData[orderId]? = some entry →
    (submissions c.log).of orderId = some sub → sub.isTwoStep = false →
    entry.txouts = sub.offered.map (·.outPoint)
  /-- submissions are numbered in their order -/
  numbered : ∀ orderId sub, (submissions c.log).of orderId = some sub →
    sub.number < (submissions c.log).number
  unused : ∀ (orderId : OrderId) entry sub, c.submitData[orderId]? = some entry →
    (submissions c.log).of orderId = some sub → sub.onlyUnused = true →
    ∀ (other : OrderId) entry' sub', other ≠ orderId → c.submitData[other]? = some entry' →
      (submissions c.log).of other = some sub' → sub'.number < sub.number →
      entry.txouts.Disjoint entry'.txouts

/-- Nothing that happens to a record changes its coins. -/
theorem Updated.txouts {log : List Event} {old entry : SubmitData} (h : Updated log old entry) :
    entry.txouts = old.txouts := by
  cases h with
  | reprice =>
      unfold SubmitData.reprice
      split
      · rfl
      · rfl
  | _ => rfl

/-- What an accepted decision adds to the submissions. -/
theorem submissions_accept {log : List Event} {req : SubmitDecision} {offer : Request}
    {res : Response} {orderId : OrderId} (resp : LinkResponse) (precision : Nat)
    {offered : List PsetInput} (hreq : (submissions log).req = some req)
    (htaken : offer.takenBy res = true) (hoffer : offer.offer? = some (orderId, offered)) :
    submissions (log ++ [.request offer (.ok res)] ++ [.accepted orderId resp precision]) =
      { req := some req
        offered := Function.update (submissions log).offered orderId offered
        of := Function.update (submissions log).of orderId
          (some ⟨req, resp, offered, (submissions log).number + 1⟩)
        number := (submissions log).number + 2 } := by
  have hoffered : (submissions log).offeredAfter offer res =
      Function.update (submissions log).offered orderId offered := by
    unfold Submissions.offeredAfter
    rw [hoffer, htaken]
    rfl
  rw [submissions_concat, submissions_concat]
  simp only [Submissions.learn, hoffered, hreq, Option.map_some, Function.update_self]

/-- A record after one was set, with its submission: the new one, or an old one. -/
theorem booked_cases {c c' : Core} {orderId id : OrderId} {new entry : SubmitData}
    {booked sub : Option Submission}
    (hdata : c'.submitData = c.submitData.insert orderId new)
    (hof : (submissions c'.log).of = Function.update (submissions c.log).of orderId booked)
    (hentry : c'.submitData[id]? = some entry) (hsub : (submissions c'.log).of id = sub) :
    (orderId = id ∧ entry = new ∧ sub = booked) ∨
      (orderId ≠ id ∧ c.submitData[id]? = some entry ∧ (submissions c.log).of id = sub) := by
  rw [hdata, Table.getElem?_insert_eq] at hentry
  rw [hof] at hsub
  by_cases hid : orderId = id
  · subst hid
    rw [if_pos rfl] at hentry
    rw [Function.update_self] at hsub
    exact .inl ⟨rfl, (Option.some.inj hentry).symm, hsub.symm⟩
  · rw [if_neg hid] at hentry
    rw [Function.update_of_ne (Ne.symm hid)] at hsub
    exact .inr ⟨hid, hentry, hsub⟩

/-- A new record reserves what was offered, and only unused coins if the user
    allowed no others. -/
theorem Reserved.accept {c c' : Core} (h : Reserved c) {req : SubmitDecision} {orderId : OrderId}
    {resp : LinkResponse} {precision : Nat} {inputs offered : List PsetInput} {autoSign : Bool}
    (hsame : req.isTwoStep resp.details = false → offered = inputs)
    (hunused : req.onlyUnusedUtxos.getD false = true → ∀ input ∈ inputs,
      input.outPoint ∉ (Table.values c.submitData).flatMap (·.txouts))
    (hdata : c'.submitData = c.submitData.insert orderId
      (acceptedEntry orderId resp precision (inputs.map (·.outPoint)) autoSign))
    (hof : (submissions c'.log).of = Function.update (submissions c.log).of orderId
      (some ⟨req, resp, offered, (submissions c.log).number + 1⟩))
    (hnumber : (submissions c'.log).number = (submissions c.log).number + 2) : Reserved c' where
  restored := by
    intro id entry hentry hsub
    rcases booked_cases hdata hof hentry hsub with ⟨-, -, hnew⟩ | ⟨-, hentry, hsub⟩
    · exact nomatch hnew
    · exact h.restored id entry hentry hsub
  offered := by
    intro id entry sub hentry hsub htwo
    rcases booked_cases hdata hof hentry hsub with ⟨-, rfl, hnew⟩ | ⟨-, hentry, hsub⟩
    · cases hnew
      show inputs.map (·.outPoint) = offered.map (·.outPoint)
      rw [hsame htwo]
    · exact h.offered id entry sub hentry hsub htwo
  numbered := by
    intro id sub hsub
    rw [hnumber]
    rw [hof] at hsub
    by_cases hid : orderId = id
    · subst hid
      rw [Function.update_self] at hsub
      cases hsub
      exact Nat.lt_succ_self _
    · rw [Function.update_of_ne (Ne.symm hid)] at hsub
      exact Nat.lt_add_right 2 (h.numbered id sub hsub)
  unused := by
    intro id entry sub hentry hsub honly other entry' sub' hother hentry' hsub' hbefore
    rcases booked_cases hdata hof hentry hsub with ⟨rfl, rfl, hnew⟩ | ⟨-, hentry, hsub⟩
    · -- the new order has avoided the coins of all others
      cases hnew
      rcases booked_cases hdata hof hentry' hsub' with ⟨heq, -, -⟩ | ⟨-, hentry', -⟩
      · exact absurd heq.symm hother
      intro txout hmem hmem'
      obtain ⟨input, hinput, rfl⟩ := List.mem_map.mp hmem
      exact hunused honly input hinput
        (List.mem_flatMap.mpr ⟨entry', Table.mem_values_iff.mpr ⟨other, hentry'⟩, hmem'⟩)
    · rcases booked_cases hdata hof hentry' hsub' with ⟨-, -, hnew⟩ | ⟨-, hentry', hsub'⟩
      · -- and no other comes after it
        cases hnew
        have hnumbered := h.numbered id sub hsub
        have hbefore : (submissions c.log).number + 1 < sub.number := hbefore
        omega
      · exact h.unused id entry sub hentry hsub honly other entry' sub' hother hentry' hsub' hbefore

/-- A restored record has not been submitted. -/
theorem Reserved.restore {c c' : Core} (h : Reserved c) {orderId : OrderId} {entry : SubmitData}
    (htxouts : entry.txouts = []) (hdata : c'.submitData = c.submitData.insert orderId entry)
    (hof : (submissions c'.log).of = Function.update (submissions c.log).of orderId none)
    (hnumber : (submissions c'.log).number = (submissions c.log).number + 1) : Reserved c' := by
  -- a record with a submission is one of the old ones
  have hold : ∀ (id : OrderId) entry' sub, c'.submitData[id]? = some entry' →
      (submissions c'.log).of id = some sub →
      c.submitData[id]? = some entry' ∧ (submissions c.log).of id = some sub := by
    intro id entry' sub hentry hsub
    rcases booked_cases hdata hof hentry hsub with ⟨-, -, hnew⟩ | ⟨-, hentry, hsub⟩
    · exact nomatch hnew
    · exact ⟨hentry, hsub⟩
  refine ⟨?_, ?_, ?_, ?_⟩
  · intro id entry' hentry hsub
    rcases booked_cases hdata hof hentry hsub with ⟨-, rfl, -⟩ | ⟨-, hentry, hsub⟩
    · exact htxouts
    · exact h.restored id entry' hentry hsub
  · intro id entry' sub hentry hsub htwo
    obtain ⟨hentry, hsub⟩ := hold id entry' sub hentry hsub
    exact h.offered id entry' sub hentry hsub htwo
  · intro id sub hsub
    rw [hof] at hsub
    rw [hnumber]
    by_cases hid : orderId = id
    · subst hid
      rw [Function.update_self] at hsub
      cases hsub
    · rw [Function.update_of_ne (Ne.symm hid)] at hsub
      exact Nat.lt_succ_of_lt (h.numbered id sub hsub)
  · intro id entry' sub hentry hsub honly other entry'' sub' hother hentry' hsub' hbefore
    obtain ⟨hentry, hsub⟩ := hold id entry' sub hentry hsub
    obtain ⟨hentry', hsub'⟩ := hold other entry'' sub' hentry' hsub'
    exact h.unused id entry' sub hentry hsub honly other entry'' sub' hother hentry' hsub' hbefore

/-- Changes of records keep the coins. -/
theorem Reserved.update {c c' : Core} (h : Reserved c)
    (hupdate : ∀ (orderId : OrderId) entry, c'.submitData[orderId]? = some entry →
      ∃ old, c.submitData[orderId]? = some old ∧ entry.txouts = old.txouts)
    (hof : (submissions c'.log).of = (submissions c.log).of)
    (hnumber : (submissions c.log).number ≤ (submissions c'.log).number) : Reserved c' := by
  refine ⟨?_, ?_, ?_, ?_⟩
  · intro id entry hentry hsub
    obtain ⟨old, hold, htxouts⟩ := hupdate id entry hentry
    rw [hof] at hsub
    rw [htxouts]
    exact h.restored id old hold hsub
  · intro id entry sub hentry hsub htwo
    obtain ⟨old, hold, htxouts⟩ := hupdate id entry hentry
    rw [hof] at hsub
    rw [htxouts]
    exact h.offered id old sub hold hsub htwo
  · intro id sub hsub
    rw [hof] at hsub
    exact Nat.lt_of_lt_of_le (h.numbered id sub hsub) hnumber
  · intro id entry sub hentry hsub honly other entry' sub' hother hentry' hsub' hbefore
    obtain ⟨old, hold, htxouts⟩ := hupdate id entry hentry
    obtain ⟨old', hold', htxouts'⟩ := hupdate other entry' hentry'
    rw [hof] at hsub hsub'
    rw [htxouts, htxouts']
    exact h.unused id old sub hold hsub honly other old' sub' hother hold' hsub' hbefore

/-- The decision that is handled is the last one of the history. -/
def Handles (cause : Message) (c : Core) : Prop :=
  ∀ req, cause = .ui (.submitDecision req) → (submissions c.log).req = some req

/-- **STEP**: every act keeps the reservations. -/
theorem RecordCase.reserved {cause : Message} {c c' : Core} (h : RecordCase cause c c')
    (hhandles : Handles cause c) (hreserved : Reserved c) : Handles cause c' ∧ Reserved c' := by
  cases h with
  | @accept req orderId resp precision inputs autoSign offer res hcause _ hoffers hdata hlog =>
      obtain ⟨offered, hoffer, hsame⟩ := hoffers.offered
      have hsubs := submissions_accept resp precision (hhandles req hcause) hoffers.taken hoffer
      rw [← hlog] at hsubs
      constructor
      · rintro req' hcause'
        rw [hsubs]
        cases hcause.symm.trans hcause'
        rfl
      · exact hreserved.accept hsame hoffers.unused hdata (by rw [hsubs]) (by rw [hsubs])
  | @restore orderId entry htxouts _ hdata hlog =>
      have hsubs := submissions_concat c.log (.restored orderId)
      rw [← hlog] at hsubs
      constructor
      · rintro req hcause
        rw [hsubs]
        exact hhandles req hcause
      · exact hreserved.restore htxouts hdata (by rw [hsubs]; rfl) (by rw [hsubs]; rfl)
  | update hupdate hlog hes =>
      have hsubs := submissions_plain c.log hes
      rw [← hlog] at hsubs
      constructor
      · rintro req hcause
        rw [hsubs.req]
        exact hhandles req hcause
      · refine hreserved.update (fun orderId entry hentry => ?_) hsubs.of hsubs.number
        obtain ⟨old, hold, hupdated⟩ := hupdate orderId entry hentry
        exact ⟨old, hold, hupdated.txouts⟩

/-- A message that is received adds nothing but a decision. -/
theorem receive_reserved {c c' : Core} {msg : Message} (hdata : c'.submitData = c.submitData)
    (hlog : c'.log = c.log ++ [.received msg]) (h : Reserved c) : Handles msg c' ∧ Reserved c' := by
  have hsubs := submissions_concat c.log (.received msg)
  rw [← hlog] at hsubs
  constructor
  · rintro req rfl
    rw [hsubs]
    rfl
  · have hlearn : ((submissions c.log).learn (.received msg)).of = (submissions c.log).of ∧
        (submissions c.log).number ≤ ((submissions c.log).learn (.received msg)).number := by
      cases msg with
      | ui msg => cases msg <;> exact ⟨rfl, Nat.le_succ _⟩
      | _ => exact ⟨rfl, Nat.le_succ _⟩
    rw [← hsubs] at hlearn
    refine h.update (fun orderId entry hentry => ⟨entry, ?_, rfl⟩) hlearn.1 hlearn.2
    rwa [hdata] at hentry

theorem reaches_reserved {world : World} {s : System} (h : Reaches world (fun _ _ => True) s) :
    Reserved s.data.core := by
  refine reaches_core (K := fun _ msg c => Handles msg c ∧ Reserved c) ?_ ?_ ?_ ?_ ?_ h
  · intro liquidAssetId disableDeviceKey settings
    have hempty : ∀ orderId : OrderId, (initialData liquidAssetId disableDeviceKey
        settings).core.submitData[orderId]? = none := fun _ => Std.TreeMap.getElem?_emptyc
    refine ⟨?_, ?_, ?_, ?_⟩
    · intro orderId entry hentry
      cases hentry.symm.trans (hempty orderId)
    · intro orderId entry sub hentry
      cases hentry.symm.trans (hempty orderId)
    · intro orderId sub hsub
      cases hsub
    · intro orderId entry sub hentry
      cases hentry.symm.trans (hempty orderId)
  · intro c c' hnote hreserved
    have hcase : RecordCase .other c c' := hnote.recordCase
    exact (hcase.reserved (fun _ h => nomatch h) hreserved).2
  · intro s msg _ hreserved
    exact receive_reserved (c := s.data.core) rfl rfl hreserved
  · rintro s msg _ c c' hplay ⟨hhandles, hreserved⟩
    exact hplay.recordCase.reserved hhandles hreserved
  · exact fun _ _ _ _ hreserved => hreserved.2

/-- **RESERVATIONS**: in every run, a record that was not submitted reserves no
    coins, and one that was reserves the coins that were offered, unless it is a
    maker's half of a two-step swap; and an order for which the user allowed
    unused coins only shares none with any order that was submitted before it. -/
theorem reserved_coins_are_offered {world : World} {s : System}
    (h : Reaches world (fun _ _ => True) s) {orderId : OrderId} {entry : SubmitData}
    (hentry : s.data.submitData[orderId]? = some entry) :
    match (submissions s.data.log).of orderId with
    | none => entry.txouts = []
    | some sub =>
        (sub.isTwoStep = false →
          ∀ txout, txout ∈ entry.txouts ↔ txout ∈ sub.offered.map (·.outPoint)) ∧
        (sub.onlyUnused = true → ∀ (other : OrderId) entry' sub', other ≠ orderId →
          s.data.submitData[other]? = some entry' →
          (submissions s.data.log).of other = some sub' → sub'.number < sub.number →
          ∀ txout ∈ entry.txouts, txout ∉ entry'.txouts) := by
  have hreserved := reaches_reserved h
  cases hsub : (submissions s.data.log).of orderId with
  | none => exact hreserved.restored orderId entry hentry hsub
  | some sub =>
      constructor
      · intro htwo txout
        rw [hreserved.offered orderId entry sub hentry hsub htwo]
      · intro honly other entry' sub' hother hentry' hsub' hbefore txout hmem hmem'
        exact hreserved.unused orderId entry sub hentry hsub honly other entry' sub' hother
          hentry' hsub' hbefore hmem hmem'

namespace Sample

/-- A second order like the first, and a second coin like the first. -/
def order2 : OrderId := 9

def coin2 : UnspentOutput := { coin with txhash := 102 }

/-- A wallet with both coins.  The session signs a maker's half for its first
    coin of the amount. -/
def twoCoins : World :=
  { world .maker with
    utxos := fun _ _ =>
      .ok ((∅ : Std.TreeMap AssetId (List UnspentOutput)).insert token [coin, coin2])
    sigSingleMakerTx := fun _ _ _ _ _ _ _ => .ok ⟨"proposal", none, coin⟩ }

/-- Look an order up and accept it. -/
def accept (orderId : OrderId) (twoStep onlyUnused : Bool) : List Message :=
  [.ui (.linkOrder (toText orderId)),
    .ui (.submitDecision { decision orderId with
      twoStep := some twoStep, onlyUnusedUtxos := some onlyUnused })]

end Sample

/-- Two orders with unused coins reserve one coin each. -/
theorem unused_coins_reserved :
    let s := run Sample.twoCoins Sample.bitcoin [Sample.asset] (Sample.connecting ++
      Sample.accept Sample.order false false ++ Sample.accept Sample.order2 false true)
    ∃ entry entry', s.data.submitData[Sample.order]? = some entry ∧
      s.data.submitData[Sample.order2]? = some entry' ∧ entry.txouts = [Sample.coin.outPoint] ∧
      Sample.coin.outPoint ∉ entry'.txouts := by
  intro s
  have hreach : Reaches Sample.twoCoins (fun _ _ => True) s := reaches_run (by decide +kernel)
  have hfirst : (s.data.submitData[Sample.order]?).any (·.txouts = [Sample.coin.outPoint]) =
      true := by decide +kernel
  have hsecond : (s.data.submitData[Sample.order2]?).isSome = true := by decide +kernel
  obtain ⟨entry, hentry, htxouts⟩ := (Option.any_eq_true _ _).mp hfirst
  obtain ⟨entry', hentry'⟩ := Option.isSome_iff_exists.mp hsecond
  have hsub : ((submissions s.data.log).of Sample.order).isSome = true := by decide +kernel
  obtain ⟨sub, hsub⟩ := Option.isSome_iff_exists.mp hsub
  have hsub' : ((submissions s.data.log).of Sample.order2).any (fun sub' => sub'.onlyUnused &&
      ((submissions s.data.log).of Sample.order).any (·.number < sub'.number)) = true := by
    decide +kernel
  obtain ⟨sub', hsub', hboth⟩ := (Option.any_eq_true _ _).mp hsub'
  obtain ⟨honly, hbefore⟩ := Bool.and_eq_true_iff.mp hboth
  rw [hsub] at hbefore
  have htxouts : entry.txouts = [Sample.coin.outPoint] := of_decide_eq_true htxouts
  clear_value s
  have hspec := reserved_coins_are_offered hreach hentry'
  rw [hsub'] at hspec
  refine ⟨entry, entry', hentry, hentry', htxouts, fun hmem => ?_⟩
  have hbefore : sub.number < sub'.number := of_decide_eq_true hbefore
  refine hspec.2 honly Sample.order entry sub (by decide) hentry hsub hbefore _ hmem ?_
  rw [htxouts]
  exact List.mem_singleton_self _

/-- **SHARED COINS**: a two-step order offers another coin than it reserves; and
    an order that falls back to reserved coins shares one with an earlier order
    that was to have unused coins only. -/
theorem coins_reserved_otherwise :
    (let s := run Sample.twoCoins Sample.bitcoin [Sample.asset] (Sample.connecting ++
        Sample.accept Sample.order false false ++ Sample.accept Sample.order2 true false)
      ∃ entry sub, s.data.submitData[Sample.order2]? = some entry ∧
        (submissions s.data.log).of Sample.order2 = some sub ∧
        ¬ ∀ txout, txout ∈ entry.txouts ↔ txout ∈ sub.offered.map (·.outPoint)) ∧
    (let s := run (Sample.world .maker) Sample.bitcoin [Sample.asset] (Sample.connecting ++
        Sample.accept Sample.order false true ++ Sample.accept Sample.order2 false false)
      ∃ entry entry' sub txout, s.data.submitData[Sample.order]? = some entry ∧
        s.data.submitData[Sample.order2]? = some entry' ∧
        (submissions s.data.log).of Sample.order = some sub ∧ sub.onlyUnused = true ∧
        txout ∈ entry.txouts ∧ txout ∈ entry'.txouts) := by
  constructor
  · intro s
    have hentry : (s.data.submitData[Sample.order2]?).any
        (·.txouts = [Sample.coin2.outPoint]) = true := by decide +kernel
    have hsub : ((submissions s.data.log).of Sample.order2).any
        (fun sub => sub.offered.map (·.outPoint) = [Sample.coin.outPoint]) = true := by
      decide +kernel
    obtain ⟨entry, hentry, htxouts⟩ := (Option.any_eq_true _ _).mp hentry
    obtain ⟨sub, hsub, hoffered⟩ := (Option.any_eq_true _ _).mp hsub
    refine ⟨entry, sub, hentry, hsub, ?_⟩
    rw [of_decide_eq_true htxouts, of_decide_eq_true hoffered]
    intro hall
    exact absurd (hall Sample.coin.outPoint) (by decide)
  · intro s
    have hfirst : (s.data.submitData[Sample.order]?).any
        (Sample.coin.outPoint ∈ ·.txouts) = true := by decide +kernel
    have hsecond : (s.data.submitData[Sample.order2]?).any
        (Sample.coin.outPoint ∈ ·.txouts) = true := by decide +kernel
    have hsub : ((submissions s.data.log).of Sample.order).any (·.onlyUnused) = true := by
      decide +kernel
    obtain ⟨entry, hentry, hmem⟩ := (Option.any_eq_true _ _).mp hfirst
    obtain ⟨entry', hentry', hmem'⟩ := (Option.any_eq_true _ _).mp hsecond
    obtain ⟨sub, hsub, honly⟩ := (Option.any_eq_true _ _).mp hsub
    exact ⟨entry, entry', sub, Sample.coin.outPoint, hentry, hentry', hsub, honly,
      of_decide_eq_true hmem, of_decide_eq_true hmem'⟩

end Client
