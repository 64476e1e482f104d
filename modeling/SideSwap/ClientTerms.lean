import SideSwap.ClientConsent

/-! # The amounts that are signed

    The user agrees to the details of a `LinkResponse`, and later perhaps to
    another price.  `try_process_sign` takes over the amounts of the server's
    `Sign` message, so what is signed is what was agreed only as far as its
    checks reach.  They reach the price and the fixed amount.  The market and
    the precision, by which the other amount is computed from these two, are
    not compared with the record's, and a negative price passes the test for
    an unchanged one.

    `agreed` reads the terms of an order off the history of a run.  The
    invariant says that the record of an order whose `Sign` message has not
    come yet states these terms. -/

namespace Client

open Api Program MachineInt Pricing Relation Transition History

/-! ## Terms -/

/-- Details at another price: the fixed amount stays. -/
def repriced (details : Details) (precision : Nat) (price : ℚ) : Details :=
  match details.orderType with
  | .bitcoin =>
      { details with
        price
        assetAmount := Pricing.assetAmount details.bitcoinAmount price precision details.market }
  | .asset =>
      let bitcoinAmount := Pricing.bitcoinAmount details.assetAmount price precision details.market
      { details with price, bitcoinAmount, serverFee := getServerFee bitcoinAmount }

/-- What the user has agreed to: an accepted response, and the last price the
    user has given the order since. -/
structure Terms where
  resp : LinkResponse
  precision : Nat
  editedPrice : Option ℚ
deriving DecidableEq, Repr

/-- The details that are in force. -/
def Terms.details (terms : Terms) : Details :=
  terms.editedPrice.elim terms.resp.details (repriced terms.resp.details terms.precision)

/-- What the user sends and receives by the details of an order. -/
def detailsAmounts (liquidAssetId : AssetId) (details : Details) : Amounts where
  sendAsset := (sendSide liquidAssetId details).1
  sendAmount := u64 (sendSide liquidAssetId details).2
  recvAsset := (recvSide liquidAssetId details).1
  recvAmount := u64 (recvSide liquidAssetId details).2

/-- What an event does to the terms of an order. -/
def agree (orderId : OrderId) (terms : Option Terms) : Event → Option Terms
  | .accepted id resp precision => if id = orderId then some ⟨resp, precision, none⟩ else terms
  | .request (.edit req) (.ok .edit) =>
      if req.orderId = orderId ∧ req.price.isSome then
        terms.map fun terms => { terms with editedPrice := req.price }
      else terms
  -- an order that is gone has no terms
  | .received (.serverNotification (.complete msg)) =>
      if msg.orderId = orderId ∧ msg.txid = none then none else terms
  | _ => terms

/-- The terms of an order after a history. -/
def agreed (orderId : OrderId) (log : List Event) : Option Terms := log.foldl (agree orderId) none

theorem agreed_concat (orderId : OrderId) (log : List Event) (e : Event) :
    agreed orderId (log ++ [e]) = agree orderId (agreed orderId log) e :=
  List.foldl_concat _ _ _ _

/-- A price that the server takes over. -/
theorem agree_edit (orderId id : OrderId) (price : ℚ) (terms : Option Terms) :
    agree id terms (.request (.edit ⟨orderId, some price, none⟩) (.ok .edit)) =
      if orderId = id then terms.map fun terms => { terms with editedPrice := some price }
      else terms := by
  simp [agree]

/-- After its completion an order has no terms. -/
theorem agreed_complete (orderId : OrderId) (log : List Event) :
    agreed orderId (log ++ [.received (.serverNotification (.complete ⟨orderId, none⟩)),
      .toUi (.orderComplete orderId none)]) = none := by
  show agreed orderId (log ++ ([_] ++ [_])) = none
  rw [← List.append_assoc, agreed_concat, agreed_concat]
  exact if_pos ⟨rfl, rfl⟩

theorem agree_of_isQuiet {e : Event} (h : e.isQuiet = true) (orderId : OrderId)
    (terms : Option Terms) : agree orderId terms e = terms := by
  cases e with
  | received msg => exact nomatch h
  | accepted id resp precision => exact nomatch h
  | request req res =>
      cases req with
      | edit req =>
          match res with
          | .error _ => rfl
          | .ok resp =>
              cases resp with
              | edit =>
                  have hnone : req.price.isNone = true := h
                  refine if_neg fun hsome => ?_
                  rw [Option.isNone_iff_eq_none.mp hnone] at hsome
                  exact nomatch hsome.2
              | _ => rfl
      | _ => rfl
  | _ => rfl

/-! ## Records that state the terms -/

/-- The details a record states. -/
def SubmitData.details (entry : SubmitData) (twoStep : Option Bool) : Details where
  asset := entry.asset
  bitcoinAmount := entry.bitcoinAmount
  assetAmount := entry.assetAmount
  price := entry.price
  serverFee := entry.serverFee
  side := entry.side
  sendBitcoins := entry.sellBitcoin
  orderType := entry.orderType
  market := entry.market
  twoStep := twoStep

/-- The amount that is not fixed, and what depends on it, fit the price. -/
def Fits (details : Details) (precision : Nat) : Prop :=
  match details.orderType with
  | .bitcoin => details.assetAmount =
      Pricing.assetAmount details.bitcoinAmount details.price precision details.market
  | .asset => details.bitcoinAmount =
      Pricing.bitcoinAmount details.assetAmount details.price precision details.market ∧
      details.serverFee = getServerFee details.bitcoinAmount

/-- A record states the terms. -/
structure Stands (entry : SubmitData) (terms : Terms) : Prop where
  details : entry.details terms.resp.details.twoStep = terms.details
  precision : entry.assetPrecision = terms.precision
  indexPrice : entry.indexPrice = terms.resp.indexPrice
  fits : Fits terms.details terms.precision

theorem Quoted.fits {details : Details} {precision : Nat} (h : Quoted details precision) :
    Fits details precision := by
  have hpriced := h.priced
  unfold Fits
  cases htype : details.orderType with
  | bitcoin =>
      rw [htype] at hpriced
      exact hpriced.symm
  | asset =>
      rw [htype] at hpriced
      exact ⟨hpriced.symm, h.fee⟩

/-- Details at a new price fit it. -/
theorem repriced_fits (details : Details) (precision : Nat) (price : ℚ) :
    Fits (repriced details precision price) precision := by
  unfold Fits repriced
  cases details.orderType with
  | bitcoin => simp
  | asset => simp

/-- Only the last price counts. -/
theorem repriced_repriced (details : Details) (precision : Nat) (price price' : ℚ) :
    repriced (repriced details precision price) precision price' =
      repriced details precision price' := by
  unfold repriced
  cases details.orderType with
  | bitcoin => simp
  | asset => simp

theorem repriced_side (details : Details) (precision : Nat) (price : ℚ) :
    (repriced details precision price).side = details.side := by
  unfold repriced
  cases details.orderType <;> rfl

theorem Terms.details_side (terms : Terms) : terms.details.side = terms.resp.details.side := by
  unfold Terms.details
  cases terms.editedPrice with
  | none => rfl
  | some price => exact repriced_side _ _ _

theorem details_reprice (entry : SubmitData) (price : ℚ) (twoStep : Option Bool) :
    (entry.reprice price).details twoStep =
      repriced (entry.details twoStep) entry.assetPrecision price := by
  unfold SubmitData.reprice repriced SubmitData.details
  cases entry.orderType with
  | bitcoin => simp
  | asset => simp

theorem reprice_assetPrecision (entry : SubmitData) (price : ℚ) :
    (entry.reprice price).assetPrecision = entry.assetPrecision ∧
      (entry.reprice price).indexPrice = entry.indexPrice := by
  unfold SubmitData.reprice
  cases entry.orderType <;> exact ⟨rfl, rfl⟩

/-- A new record states the accepted response. -/
theorem stands_accepted (orderId : OrderId) {resp : LinkResponse} {precision : Nat}
    (txouts : List OutPoint) (autoSign : Bool) (h : Quoted resp.details precision) :
    Stands (acceptedEntry orderId resp precision txouts autoSign) ⟨resp, precision, none⟩ where
  details := rfl
  precision := rfl
  indexPrice := rfl
  fits := h.fits

/-- An edited record states the terms with the edited price. -/
theorem Stands.reprice {entry : SubmitData} {terms : Terms} (h : Stands entry terms) (price : ℚ) :
    Stands (entry.reprice price) { terms with editedPrice := some price } where
  details := by
    rw [details_reprice, h.details, h.precision]
    -- an earlier edit leaves no trace
    show repriced terms.details terms.precision price = repriced terms.resp.details _ price
    unfold Terms.details
    cases terms.editedPrice with
    | none => rfl
    | some earlier => exact repriced_repriced _ _ _ _
  precision := (reprice_assetPrecision entry price).1.trans h.precision
  indexPrice := (reprice_assetPrecision entry price).2.trans h.indexPrice
  fits := repriced_fits _ _ _

/-! ## What the checks leave open -/

/-- The amounts of a call of `verify_and_sign_pset` by `try_sign`. -/
def Event.amountsFor (orderId : OrderId) : Event → Option Amounts
  | .verified .trySign id amounts _ _ => if id = orderId then some amounts else none
  | _ => none

/-- The user is asked to sign an order. -/
def Event.asksToSign (orderId : OrderId) : Event → Bool
  | .toUi (.submitReview review) => review.orderId == orderId && review.step == .sign
  | _ => false

/-- The fixed amount of a record is worth the same, at the record's price, in
    the market of a message and with the registry's precision as in the
    record's own market and with its own precision. -/
def PricedAlike (msg : SignNotification) (entry : SubmitData) (precision : Nat) : Prop :=
  0 < entry.price ∧
    entry.quote entry.price precision msg.details.market =
      entry.quote entry.price entry.assetPrecision entry.market

/-- The condition on a history: it holds of the messages that are signed without
    a prompt, for an order with terms and with a price of its own. -/
def SignsPricedAlike (log : List Event) : Event → Prop
  | .checked msg entry precision =>
      (agreed msg.orderId log).isSome = true →
      autoSignAllowed false entry msg.details.price = true →
      entry.side = .taker ∨ entry.indexPrice = false → PricedAlike msg entry precision
  | _ => True

instance (msg : SignNotification) (entry : SubmitData) (precision : Nat) :
    Decidable (PricedAlike msg entry precision) :=
  inferInstanceAs (Decidable (_ ∧ _))

instance (log : List Event) (e : Event) : Decidable (SignsPricedAlike log e) :=
  match e with
  | .checked _ _ _ => inferInstanceAs (Decidable (_ → _ → _ → _))
  | .received _ => inferInstanceAs (Decidable True)
  | .request _ _ => inferInstanceAs (Decidable True)
  | .asyncRequest _ _ _ => inferInstanceAs (Decidable True)
  | .called _ _ _ => inferInstanceAs (Decidable True)
  | .socket _ => inferInstanceAs (Decidable True)
  | .toUi _ => inferInstanceAs (Decidable True)
  | .backgroundDone _ => inferInstanceAs (Decidable True)
  | .accepted _ _ _ => inferInstanceAs (Decidable True)
  | .restored _ => inferInstanceAs (Decidable True)
  | .verified _ _ _ _ _ => inferInstanceAs (Decidable True)
  | .createdTx _ => inferInstanceAs (Decidable True)
  | .sentTx _ _ _ => inferInstanceAs (Decidable True)

/-- Auto-sign leaves the price of the record, if that is positive. -/
theorem price_of_autoSignAllowed {entry : SubmitData} {details : Details} {precision : Nat}
    (h : Checked entry details precision)
    (hauto : autoSignAllowed false entry details.price = true)
    (hfixed : entry.side = .taker ∨ entry.indexPrice = false) (hprice : 0 < entry.price) :
    details.price = entry.price := by
  cases hside : entry.side with
  | taker => exact isZero_priceChange (h.taker hside)
  | maker =>
      have hindex : entry.indexPrice = false := by
        rcases hfixed with htaker | hindex
        · rw [hside] at htaker
          exact nomatch htaker
        · exact hindex
      unfold autoSignAllowed at hauto
      rw [hside, hindex] at hauto
      simp only [Bool.or_false, Bool.and_eq_true] at hauto
      exact priceChange_le_zero hprice hauto.2

/-- **SELECTION**: a message that is priced as the record is changes nothing. -/
theorem Checked.details_select {entry : SubmitData} {msg : SignNotification} {precision : Nat}
    (h : Checked entry msg.details precision) {twoStep : Option Bool}
    (hfits : Fits (entry.details twoStep) entry.assetPrecision)
    (hprice : msg.details.price = entry.price) (halike : PricedAlike msg entry precision) :
    (entry.select msg.details).details twoStep = entry.details twoStep := by
  have hpriced := h.quoted.priced
  have hquote := halike.2
  have hfixed := h.fixed
  have hamounts : msg.details.assetAmount = entry.assetAmount ∧
      msg.details.bitcoinAmount = entry.bitcoinAmount ∧
      msg.details.serverFee = entry.serverFee := by
    unfold SubmitData.quote at hquote
    unfold Fits at hfits
    rw [← h.orderType, hprice] at hpriced
    rw [show (entry.details twoStep).orderType = entry.orderType from rfl] at hfits
    cases htype : entry.orderType with
    | bitcoin =>
        rw [htype] at hpriced hquote hfixed hfits
        obtain ⟨hfee, hbitcoin⟩ := hfixed
        refine ⟨?_, hbitcoin.symm, hfee.symm⟩
        calc msg.details.assetAmount
            = Pricing.assetAmount entry.bitcoinAmount entry.price precision msg.details.market := by
              rw [hbitcoin]
              exact hpriced.symm
          _ = Pricing.assetAmount entry.bitcoinAmount entry.price entry.assetPrecision
                entry.market := hquote
          _ = entry.assetAmount := hfits.symm
    | asset =>
        rw [htype] at hpriced hquote hfixed hfits
        have hbitcoin : msg.details.bitcoinAmount = entry.bitcoinAmount := by
          calc msg.details.bitcoinAmount
              = Pricing.bitcoinAmount entry.assetAmount entry.price precision
                  msg.details.market := by
                rw [hfixed]
                exact hpriced.symm
            _ = Pricing.bitcoinAmount entry.assetAmount entry.price entry.assetPrecision
                  entry.market := hquote
            _ = entry.bitcoinAmount := hfits.1.symm
        refine ⟨hfixed.symm, hbitcoin, ?_⟩
        rw [h.quoted.fee, hbitcoin]
        exact hfits.2.symm
  obtain ⟨hasset, hbitcoin, hfee⟩ := hamounts
  show (⟨entry.asset, msg.details.bitcoinAmount, msg.details.assetAmount, msg.details.price,
    msg.details.serverFee, entry.side, entry.sellBitcoin, entry.orderType, entry.market,
    twoStep⟩ : Details) = _
  rw [hasset, hbitcoin, hfee, hprice]
  rfl

/-- `try_sign` signs for what the record states. -/
theorem signAmounts_eq (liquidAssetId : AssetId) (entry : SubmitData) (twoStep : Option Bool) :
    signAmounts liquidAssetId entry = detailsAmounts liquidAssetId (entry.details twoStep) := by
  unfold signAmounts detailsAmounts sendSide recvSide
  cases hsells : entry.sellBitcoin with
  | false => simp [SubmitData.details, hsells]
  | true => simp [SubmitData.details, hsells]

/-! ## The invariant -/

/-- An event that signs without having asked signs what has been agreed. -/
def SignsAgreed (liquidAssetId : AssetId) (log : List Event) (e : Event) : Prop :=
  ∀ orderId amounts terms, e.amountsFor orderId = some amounts →
    agreed orderId log = some terms → ¬ Logged (Event.asksToSign orderId) log →
    terms.resp.details.side = .taker ∨ terms.resp.indexPrice = false →
    amounts = detailsAmounts liquidAssetId terms.details

/-- What the agreed amounts rest on. -/
structure TermsInv (b : Book) : Prop where
  /-- until the order's `Sign` message comes, its record states the terms -/
  records : ∀ orderId terms, agreed orderId b.log = some terms →
    b.processedSigns.contains orderId = false →
    ∃ entry, b.submitData[orderId]? = some entry ∧ Stands entry terms
  asked : ∀ msg, b.activeSign = some msg → Logged (Event.asksToSign msg.orderId) b.log
  signatures : Justified (SignsAgreed b.liquidAssetId) b.log

theorem signsAgreed_of_none {liquidAssetId : AssetId} {log : List Event} {e : Event}
    (h : ∀ orderId, e.amountsFor orderId = none) : SignsAgreed liquidAssetId log e := by
  intro orderId amounts terms hamounts
  rw [h orderId] at hamounts
  exact nomatch hamounts

/-- New records, and an event. -/
theorem TermsInv.update {b : Book} (h : TermsInv b) {e : Event}
    {submitData : Std.TreeMap OrderId SubmitData} (hsigns : SignsAgreed b.liquidAssetId b.log e)
    (hrecords : ∀ orderId terms, agree orderId (agreed orderId b.log) e = some terms →
      b.processedSigns.contains orderId = false →
      ∃ entry, submitData[orderId]? = some entry ∧ Stands entry terms) :
    TermsInv { b with submitData := submitData, log := b.log ++ [e] } where
  records := fun orderId terms hterms hfresh => by
    rw [show agreed orderId (b.log ++ [e]) = _ from agreed_concat _ _ _] at hterms
    exact hrecords orderId terms hterms hfresh
  asked := fun msg hactive => (h.asked msg hactive).grow rfl
  signatures := h.signatures.concat hsigns

/-- An event that is no signature and makes no terms. -/
theorem TermsInv.emit {b : Book} (h : TermsInv b) {e : Event}
    (hquiet : ∀ orderId, e.amountsFor orderId = none)
    (hterms : ∀ orderId terms, agree orderId (agreed orderId b.log) e = some terms →
      agreed orderId b.log = some terms) : TermsInv (b.emit e) :=
  h.update (signsAgreed_of_none hquiet) fun orderId terms hagree hfresh =>
    h.records orderId terms (hterms orderId terms hagree) hfresh

/-- A changed record still states the terms. -/
theorem TermsInv.record {b : Book} (h : TermsInv b) {orderId : OrderId} {entry : SubmitData}
    (hstands : ∀ terms, agreed orderId b.log = some terms →
      b.processedSigns.contains orderId = false → Stands entry terms) :
    TermsInv (b.record orderId entry) := by
  refine { h with records := fun id terms hterms hfresh => ?_ }
  show ∃ found, (b.submitData.insert orderId entry)[id]? = some found ∧ Stands found terms
  rw [Table.getElem?_insert_eq]
  split
  · next heq =>
      subst heq
      exact ⟨entry, rfl, hstands terms hterms hfresh⟩
  · exact h.records id terms hterms hfresh

/-- The record of an order whose terms are in force. -/
theorem TermsInv.stands {b : Book} (h : TermsInv b) {orderId : OrderId} {entry : SubmitData}
    (hentry : b.submitData[orderId]? = some entry) {terms : Terms}
    (hterms : agreed orderId b.log = some terms)
    (hfresh : b.processedSigns.contains orderId = false) : Stands entry terms := by
  obtain ⟨found, hfound, hstands⟩ := h.records orderId terms hterms hfresh
  rw [hentry] at hfound
  cases hfound
  exact hstands

/-- An order that is not taken when another one is was not taken before. -/
theorem not_processed {signs : Std.TreeSet OrderId} {orderId id : OrderId}
    (h : (signs.insert orderId).contains id = false) :
    orderId ≠ id ∧ signs.contains id = false := by
  rw [Std.TreeSet.contains_insert, Bool.or_eq_false_iff] at h
  obtain ⟨hne, hold⟩ := h
  exact ⟨by simpa using hne, hold⟩

/-- A message is taken: its order leaves the invariant. -/
theorem TermsInv.take {b : Book} (h : TermsInv b) (msg : SignNotification) (entry : SubmitData)
    (precision : Nat) : TermsInv (b.take msg entry precision) where
  records := fun id terms hterms hfresh => by
    obtain ⟨hne, hold⟩ := not_processed hfresh
    rw [show agreed id (b.take msg entry precision).log = agreed id b.log from
      agreed_concat _ _ _] at hterms
    obtain ⟨found, hfound, hstands⟩ := h.records id terms hterms hold
    refine ⟨found, ?_, hstands⟩
    show (b.submitData.insert msg.orderId (entry.select msg.details))[id]? = some found
    rw [Table.getElem?_insert_eq, if_neg hne]
    exact hfound
  asked := fun active hactive => (h.asked active hactive).grow rfl
  signatures := h.signatures.concat (signsAgreed_of_none fun _ => rfl)

/-- An attempt that signs what has been agreed. -/
theorem Attempt.termsInv {msg : SignNotification} {b b' : Book} (h : Attempt msg b b')
    (hI : TermsInv b)
    (hsigns : ∀ entry pset res, b.submitData[msg.orderId]? = some entry →
      SignsAgreed b.liquidAssetId b.log
        (.verified .trySign msg.orderId (signAmounts b.liquidAssetId entry) pset res)) :
    TermsInv b' := by
  have hverified : ∀ entry pset res, b.submitData[msg.orderId]? = some entry →
      TermsInv (b.emit (.verified .trySign msg.orderId (signAmounts b.liquidAssetId entry)
        pset res)) := by
    intro entry pset res hentry
    exact hI.update (hsigns entry pset res hentry) hI.records
  cases h with
  | none => exact hI
  | refused hentry => exact hverified _ _ _ hentry
  | sent hentry => exact (hverified _ _ _ hentry).emit (fun _ => rfl) fun _ _ hterms => hterms

/-- **AGREED**: what is signed without a prompt is what has been agreed. -/
theorem signsAgreed_autoSign {b : Book} (hI : TermsInv b) {msg : SignNotification}
    {entry : SubmitData} {precision : Nat}
    (hfresh : b.processedSigns.contains msg.orderId = false)
    (hentry : b.submitData[msg.orderId]? = some entry)
    (hchecked : Checked entry msg.details precision)
    (hauto : autoSignAllowed false entry msg.details.price = true)
    (halike : SignsPricedAlike b.log (.checked msg entry precision))
    (pset : String) (res : Except String String) :
    SignsAgreed b.liquidAssetId (b.take msg entry precision).log
      (.verified .trySign msg.orderId
        (signAmounts b.liquidAssetId (entry.select msg.details)) pset res) := by
  intro orderId amounts terms hamounts hterms _ hfixed
  obtain ⟨rfl, rfl⟩ : msg.orderId = orderId ∧
      signAmounts b.liquidAssetId (entry.select msg.details) = amounts := by
    simpa [Event.amountsFor] using hamounts
  rw [show agreed msg.orderId (b.take msg entry precision).log = agreed msg.orderId b.log from
    agreed_concat _ _ _] at hterms
  have hstands := hI.stands hentry hterms hfresh
  have hside : entry.side = terms.resp.details.side :=
    (congrArg Details.side hstands.details).trans terms.details_side
  have hfixed' : entry.side = .taker ∨ entry.indexPrice = false := by
    rw [hside, hstands.indexPrice]
    exact hfixed
  have hpriced := halike (by rw [hterms]; rfl) hauto hfixed'
  have hprice := price_of_autoSignAllowed hchecked hauto hfixed' hpriced.1
  have hfits : Fits (entry.details terms.resp.details.twoStep) entry.assetPrecision := by
    rw [hstands.details, hstands.precision]
    exact hstands.fits
  calc signAmounts b.liquidAssetId (entry.select msg.details)
      = detailsAmounts b.liquidAssetId
          ((entry.select msg.details).details terms.resp.details.twoStep) := signAmounts_eq _ _ _
    _ = detailsAmounts b.liquidAssetId terms.details := by
        rw [hchecked.details_select hfits hprice hpriced, hstands.details]

/-- An accepted decision makes new terms and the record that states them. -/
theorem TermsInv.accept {b : Book} (hI : TermsInv b) (orderId : OrderId) {resp : LinkResponse}
    {precision : Nat} (txouts : List OutPoint) (autoSign : Bool)
    (hquoted : Quoted resp.details precision) :
    TermsInv ((b.record orderId (acceptedEntry orderId resp precision txouts autoSign)).emit
      (.accepted orderId resp precision)) := by
  refine hI.update (signsAgreed_of_none fun _ => rfl) fun id terms hterms hfresh => ?_
  change (if orderId = id then _ else _) = _ at hterms
  show ∃ entry, (b.submitData.insert orderId _)[id]? = some entry ∧ Stands entry terms
  rw [Table.getElem?_insert_eq]
  by_cases heq : orderId = id
  · rw [if_pos heq] at hterms
    cases hterms
    exact ⟨_, if_pos heq, stands_accepted orderId txouts autoSign hquoted⟩
  · rw [if_neg heq] at hterms ⊢
    exact hI.records id terms hterms hfresh

/-- An order without a record has no terms that an edit could change. -/
theorem TermsInv.edit {b : Book} (hI : TermsInv b) {orderId : OrderId} (price : ℚ)
    (hnone : b.submitData[orderId]? = none) :
    TermsInv (b.emit (.request (.edit ⟨orderId, some price, none⟩) (.ok .edit))) := by
  refine hI.update (signsAgreed_of_none fun _ => rfl) fun id terms hterms hfresh => ?_
  rw [agree_edit] at hterms
  by_cases heq : orderId = id
  · subst heq
    rw [if_pos rfl] at hterms
    obtain ⟨before, hbefore, _⟩ := Option.map_eq_some_iff.mp hterms
    obtain ⟨entry, hentry, _⟩ := hI.records orderId before hbefore hfresh
    rw [hnone] at hentry
    exact nomatch hentry
  · rw [if_neg heq] at hterms
    exact hI.records id terms hterms hfresh

/-- An edit changes the terms and the record alike. -/
theorem TermsInv.editEntry {b : Book} (hI : TermsInv b) {orderId : OrderId} (price : ℚ)
    {entry : SubmitData} (hentry : b.submitData[orderId]? = some entry) :
    TermsInv ((b.record orderId (entry.reprice price)).emit
      (.request (.edit ⟨orderId, some price, none⟩) (.ok .edit))) := by
  refine hI.update (signsAgreed_of_none fun _ => rfl) fun id terms hterms hfresh => ?_
  rw [agree_edit] at hterms
  show ∃ found, (b.submitData.insert orderId _)[id]? = some found ∧ Stands found terms
  rw [Table.getElem?_insert_eq]
  by_cases heq : orderId = id
  · subst heq
    rw [if_pos rfl] at hterms ⊢
    obtain ⟨before, hbefore, rfl⟩ := Option.map_eq_some_iff.mp hterms
    exact ⟨_, rfl, (hI.stands hentry hbefore hfresh).reprice price⟩
  · rw [if_neg heq] at hterms ⊢
    exact hI.records id terms hterms hfresh

/-- The record of an order whose terms have ended goes. -/
theorem TermsInv.complete {b : Book} (hI : TermsInv b) {orderId : OrderId}
    (hnone : agreed orderId b.log = none) :
    TermsInv { b with submitData := b.submitData.erase orderId } := by
  refine { hI with records := fun id terms hterms hfresh => ?_ }
  show ∃ entry, (b.submitData.erase orderId)[id]? = some entry ∧ Stands entry terms
  rw [Table.getElem?_erase_eq]
  by_cases heq : orderId = id
  · subst heq
    rw [hnone] at hterms
    exact nomatch hterms
  · rw [if_neg heq]
    exact hI.records id terms hterms hfresh

/-- The user is asked, and the prompt is on the screen. -/
theorem TermsInv.prompt {b : Book} (hI : TermsInv b) (msg : SignNotification)
    (rest : List SignNotification) (entry : SubmitData) :
    TermsInv { b.emit (.toUi (.submitReview (signReview msg entry))) with
      pendingSignPrompts := rest, activeSign := some msg } := by
  have hshown : TermsInv (b.emit (.toUi (.submitReview (signReview msg entry)))) :=
    hI.emit (fun _ => rfl) fun _ _ hterms => hterms
  refine { hshown with asked := fun active hactive => ?_ }
  cases hactive
  refine ⟨_, List.mem_append_right _ (List.mem_singleton.mpr rfl), ?_⟩
  show (msg.orderId == msg.orderId && Step.sign == .sign) = true
  rw [beq_self_eq_true]
  rfl

/-- What the user signs at a prompt is no signature without one. -/
theorem signsAgreed_decide {b : Book} (hI : TermsInv b) {msg : SignNotification}
    (hactive : b.activeSign = some msg) (amounts : Amounts) (pset : String)
    (res : Except String String) :
    SignsAgreed b.liquidAssetId b.log (.verified .trySign msg.orderId amounts pset res) := by
  intro orderId found terms hfound _ hunasked
  have heq : msg.orderId = orderId := by
    by_contra hne
    simp [Event.amountsFor, hne] at hfound
  subst heq
  exact absurd (hI.asked msg hactive) hunasked

/-- **TERMS**: every move keeps the records of the agreed orders, as long as the
    messages that are signed at once are priced as the records are. -/
theorem Move.termsInv {b b' : Book} (h : Move b b') (hforce : b.forceAutoSignMaker = false)
    (hI : TermsInv b) (halike : Justified SignsPricedAlike b'.log) : TermsInv b' := by
  cases h with
  | @note e hquiet =>
      refine hI.emit (fun orderId => ?_) fun orderId terms hterms => ?_
      · cases e with
        | verified signer id amounts pset res => exact nomatch hquiet
        | _ => rfl
      · rwa [agree_of_isQuiet hquiet] at hterms
  | login _ => exact { hI with }
  | logout => exact { hI with asked := fun _ hactive => nomatch hactive }
  | accept _ hquoted => exact hI.accept _ _ _ hquoted
  | addMissing hnone _ _ =>
      refine hI.record fun terms hterms hfresh => ?_
      obtain ⟨found, hfound, _⟩ := hI.records _ terms hterms hfresh
      rw [hnone] at hfound
      exact nomatch hfound
  | refuse _ =>
      refine { hI with records := fun id terms hterms hfresh => ?_ }
      exact hI.records id terms hterms (not_processed hfresh).2
  | @queue msg entry precision _ _ _ _ =>
      have htake := hI.take msg entry precision
      exact { htake with }
  | @autoSign msg entry precision _ hfresh hentry hchecked hauto hattempt =>
      rw [hforce] at hauto
      -- the condition on this message is the last one in the history before the attempt
      obtain ⟨es, hes⟩ := hattempt.log_grows
      have hlast : SignsPricedAlike b.log (.checked msg entry precision) := by
        rw [hes] at halike
        exact halike.of_append.last
      refine hattempt.termsInv (hI.take msg entry precision) fun found pset res hfound => ?_
      -- `try_sign` finds the record that has just taken over the message's amounts
      change (b.submitData.insert msg.orderId (entry.select msg.details))[msg.orderId]? =
        some found at hfound
      rw [Table.getElem?_insert_eq, if_pos rfl] at hfound
      cases hfound
      exact signsAgreed_autoSign hI hfresh hentry hchecked hauto hlast pset res
  | prompt _ _ => exact hI.prompt _ _ _
  | dropPrompt _ => exact { hI with }
  | decide hactive _ hattempt =>
      have hcleared : TermsInv { b with activeSign := Option.none } :=
        { hI with asked := fun _ hnone => nomatch hnone }
      exact hattempt.termsInv hcleared fun _ _ _ _ => signsAgreed_decide hI hactive _ _ _
  | edit hnone => exact hI.edit _ hnone
  | editEntry hentry => exact hI.editEntry _ hentry
  | editAutoSign _ hentry =>
      refine hI.record fun terms hterms hfresh => ?_
      have hstands := hI.stands hentry hterms hfresh
      exact { hstands with }
  | mark hentry =>
      refine hI.record fun terms hterms hfresh => ?_
      have hstands := hI.stands hentry hterms hfresh
      exact { hstands with }
  | @complete orderId log hlog =>
      refine hI.complete ?_
      rw [hlog]
      exact agreed_complete orderId log
  | @startSwap req asset inputs recvAddr changeAddr orderId _ _ =>
      have hstarted : TermsInv (b.emit (req.answered asset inputs recvAddr changeAddr orderId)) :=
        hI.emit (fun _ => rfl) fun _ _ hterms => hterms
      exact { hstarted with }
  | refuseSwap _ _ _ => exact hI.emit (fun _ => rfl) fun _ _ hterms => hterms
  | @signSwap swap msg signedPset res _ _ _ =>
      have hverified : TermsInv (b.emit (.verified .blindedSwapClient msg.orderId swap.amounts
          msg.pset (.ok signedPset))) := hI.emit (fun _ => rfl) fun _ _ hterms => hterms
      exact hverified.emit (fun _ => rfl) fun _ _ hterms => hterms
  | swapDone => exact { hI with }

theorem termsInv_initial (liquidAssetId : AssetId) : TermsInv (initialBook liquidAssetId) where
  records := fun _ _ hterms => nomatch hterms
  asked := fun _ hactive => nomatch hactive
  signatures := justified_nil _

/-- Of what arrives only a completion changes terms: it ends them. -/
theorem agree_received {msg : Message} {orderId : OrderId} {before : Option Terms} {terms : Terms}
    (h : agree orderId before (.received msg) = some terms) : before = some terms := by
  unfold agree at h
  split at h
  · next hmsg => exact nomatch hmsg
  · next hmsg => exact nomatch hmsg
  · split at h
    · exact nomatch h
    · exact h
  · exact h

theorem reaches_termsInv {world : World} {s : System}
    (h : Reaches world (fun _ msg => forcesAutoSign msg = false) s)
    (halike : Justified SignsPricedAlike s.data.log) : TermsInv s.data.book := by
  have hinv : ConsentInv s.data.book ∧
      (Justified SignsPricedAlike s.data.book.log → TermsInv s.data.book) := by
    refine reaches_invariant
      (I := fun b => ConsentInv b ∧ (Justified SignsPricedAlike b.log → TermsInv b))
      (fun _ => ⟨consentInv_initial _, fun _ => termsInv_initial _⟩)
      (fun s msg hok hI => ⟨hI.1.received hok, fun hlog => ?_⟩)
      (fun b b' hmove hI => ⟨hmove.consentInv hI.1, fun hlog => ?_⟩) h
    · exact (hI.2 (Justified.of_append hlog)).emit (fun _ => rfl) fun _ _ => agree_received
    · -- the condition on the longer history is the condition on the shorter one as well
      obtain ⟨es, hes⟩ := hmove.log_grows
      have hbefore : Justified SignsPricedAlike b.log := by
        rw [hes] at hlog
        exact hlog.of_append
      exact hmove.termsInv hI.1.noForce (hI.2 hbefore) hlog
  exact hinv.2 halike

/-- **AGREED AMOUNTS**: in every run without forced auto-sign whose messages are
    priced as the records are, the amounts of an agreed order that is signed
    without a prompt are the ones the user has agreed to. -/
theorem signs_agreed_amounts {world : World} {s : System}
    (h : Reaches world (fun _ msg => forcesAutoSign msg = false) s)
    (halike : Justified SignsPricedAlike s.data.log)
    {n : Nat} {e : Event} {orderId : OrderId} {amounts : Amounts} {terms : Terms}
    (he : s.data.log[n]? = some e) (hamounts : e.amountsFor orderId = some amounts)
    (hterms : agreed orderId (s.data.log.take n) = some terms)
    (hunasked : ¬ Logged (Event.asksToSign orderId) (s.data.log.take n))
    (hfixed : terms.resp.details.side = .taker ∨ terms.resp.indexPrice = false) :
    amounts = detailsAmounts s.data.liquidAssetId terms.details :=
  (reaches_termsInv h halike).signatures n e he orderId amounts terms hamounts hterms hunasked
    hfixed

/-- An accepted order is signed for its two bitcoins, less the fee. -/
theorem agreed_order_signed :
    let s := run (Sample.world .taker) Sample.bitcoin [Sample.asset]
      (Sample.accepting ++ [.serverNotification (.sign (Sample.sign .taker))])
    ∃ n amounts terms, s.data.log[n]?.bind (Event.amountsFor Sample.order) = some amounts ∧
      agreed Sample.order (s.data.log.take n) = some terms ∧
      amounts = detailsAmounts s.data.liquidAssetId terms.details := by
  intro s
  have hreach : Reaches (Sample.world .taker) (fun _ msg => forcesAutoSign msg = false) s :=
    reaches_run (by decide +kernel)
  have hsigned : s.data.log[27]?.bind (Event.amountsFor Sample.order) =
      some ⟨Sample.token, 100000000, Sample.bitcoin, 199800000⟩ := by decide +kernel
  have hterms : agreed Sample.order (s.data.log.take 27) =
      some ⟨⟨Sample.order, Sample.details .taker, false⟩, 8, none⟩ := by decide +kernel
  obtain ⟨e, he, hamounts⟩ := Option.bind_eq_some_iff.mp hsigned
  exact ⟨27, _, _, hsigned, hterms,
    signs_agreed_amounts hreach (by decide +kernel) he hamounts hterms (by decide +kernel)
      (.inl rfl)⟩

/-- The same message but for the market: in a stablecoin market one unit at a
    price of two is worth half a bitcoin. -/
def Sample.signElsewhere : SignNotification :=
  { sign .taker with
    pset := "low pset"
    details := { details .taker with
      market := .stablecoin, bitcoinAmount := 50000000, serverFee := 50000 } }

/-- **OTHER AMOUNTS**: such a message is signed at once, for a quarter of what
    the user has accepted. -/
theorem signs_other_amounts :
    let msgs := Sample.accepting ++ [.serverNotification (.sign Sample.signElsewhere)]
    let s := run (Sample.world .taker) Sample.bitcoin [Sample.asset] msgs
    Allowed (step (Sample.world .taker)) (fun _ msg => forcesAutoSign msg = false)
        (start Sample.bitcoin [Sample.asset]) msgs ∧
      ∃ n amounts terms, s.data.log[n]?.bind (Event.amountsFor Sample.order) = some amounts ∧
        agreed Sample.order (s.data.log.take n) = some terms ∧
        ¬ Logged (Event.asksToSign Sample.order) (s.data.log.take n) ∧
        terms.resp.details.side = .taker ∧
        amounts ≠ detailsAmounts s.data.liquidAssetId terms.details := by
  refine ⟨by decide +kernel, 27, ⟨Sample.token, 100000000, Sample.bitcoin, 49950000⟩,
    ⟨⟨Sample.order, Sample.details .taker, false⟩, 8, none⟩, ?_⟩
  decide +kernel

end Client
