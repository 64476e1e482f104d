import SideSwap.TraderReports

/-! # What the trader offers

    From what the trader holds follows what it sends: its offers and edits are
    those of the settings, offers keep their pace, and no wrong price stays. -/

namespace HeadlessTrader

open Api Pricing Transition History
open Std (TreeMap)
open Client (Text AccountId toText fromStr fromStr_toText)

/-! ## What is sent -/

section Sends

variable {settings : Settings} {s s' : Trader} {now : Nat} {usdtIndexPrice : Option Double}

/-- The answer to a message, if there is one. -/
theorem receive_sends {i : Input} (h : s.Tables settings)
    (hconfigured : Justified (Configured settings) s.log)
    (hreceive : receive settings (s.hear i) i.now i.msg = some s') :
    (∃ answers : List ToMsg, s'.log = (s.hear i).log ++ answers.map (Event.sent i.now)) ∧
      Justified (Configured settings) s'.log ∧
      s'.log.filterMap Event.submission? = s.log.filterMap Event.submission? := by
  obtain ⟨now, msg⟩ := i
  have hheard : Justified (Configured settings) (s.hear ⟨now, msg⟩).log :=
    hconfigured.concat trivial
  have hlast : (s.hear ⟨now, msg⟩).log.getLast? = some (.received now msg) := List.getLast?_concat
  have hsame : (s.hear ⟨now, msg⟩).log.filterMap Event.submission? =
      s.log.filterMap Event.submission? := by
    simp [Trader.hear, Event.submission?]
  have hsend : ∀ answer, Configured settings (s.hear ⟨now, msg⟩).log (.sent now answer) →
      Event.submission? (.sent now answer) = none →
      (∃ answers : List ToMsg, ((s.hear ⟨now, msg⟩).send now answer).log =
          (s.hear ⟨now, msg⟩).log ++ answers.map (Event.sent now)) ∧
        Justified (Configured settings) ((s.hear ⟨now, msg⟩).send now answer).log ∧
        ((s.hear ⟨now, msg⟩).send now answer).log.filterMap Event.submission? =
          s.log.filterMap Event.submission? := by
    intro answer hanswer hquiet
    refine ⟨⟨[answer], rfl⟩, hheard.concat hanswer, ?_⟩
    rw [← hsame]
    simp [Trader.send, hquiet]
  have hsilent : ∃ answers : List ToMsg, (s.hear ⟨now, msg⟩).log =
      (s.hear ⟨now, msg⟩).log ++ answers.map (Event.sent now) := ⟨[], (List.append_nil _).symm⟩
  cases msg with
  | serverConnected =>
      cases hreceive
      exact hsend _ ⟨hlast, rfl⟩ rfl
  | newAsset assetId precision =>
      simp only [receive] at hreceive
      split at hreceive
      · cases hreceive
        exact ⟨hsilent, hheard, hsame⟩
      · cases hreceive
  | indexPrice assetId ind =>
      obtain ⟨asset, -, rfl⟩ := Option.map_eq_some_iff.mp hreceive
      split
      · exact ⟨hsilent, hheard, hsame⟩
      · exact ⟨hsilent, hheard, hsame⟩
  | submitReview orderId asset =>
      obtain ⟨assetId, hasset, hfind⟩ := Option.bind_eq_some_iff.mp hreceive
      obtain ⟨data, hdata, heq⟩ := Option.bind_eq_some_iff.mp hfind
      cases heq
      have hid : data.sellAsset.assetId = assetId := by simpa using List.find?_some hdata
      refine hsend _ ⟨data.sellAsset, h.mem_assets (List.mem_of_find?_eq_some hdata), orderId,
        asset, hlast, ?_, rfl⟩ rfl
      rw [hid]
      exact hasset
  | orderCreated order =>
      simp only [receive] at hreceive
      split at hreceive
      · cases hreceive
        exact ⟨hsilent, hheard, hsame⟩
      · next hauto =>
          cases hreceive
          exact hsend _ ⟨order, hlast, Bool.not_eq_true _ ▸ hauto, rfl⟩ rfl
  | _ =>
      cases hreceive
      exact ⟨hsilent, hheard, hsame⟩

/-- The price of an asset is the one of its settings. -/
theorem pricedAt_of_price {asset : SellAsset} {price : Double}
    (h : asset.price usdtIndexPrice = some price) : asset.PricedAt usdtIndexPrice price := by
  revert h
  fun_cases SellAsset.price asset usdtIndexPrice with
  | case1 _ priceLbtc hlbtc =>
      rintro ⟨⟩
      exact .inl hlbtc
  | case2 priceUsdt usdtIndexPrice husdt =>
      rintro ⟨⟩
      exact .inr ⟨priceUsdt, usdtIndexPrice, husdt, rfl, rfl⟩
  | case3 =>
      intro h
      cases h

/-- As many orders are listed as the table has. -/
theorem SellAssetData.Agrees.listed_le {log : List Event} {data : SellAssetData}
    (h : data.Agrees log) {ids : List Text} (hnodup : ids.Nodup)
    (hlisted : ∀ id ∈ ids, (listed data.sellAsset.assetId log id).isSome) :
    ids.length ≤ data.orders.size := by
  have hsubset : ids ⊆ data.orders.keys := by
    intro id hid
    have hsome := hlisted id hid
    rw [← h.orders, TreeMap.isSome_getElem?_iff_mem] at hsome
    exact TreeMap.mem_keys.mpr hsome
  rw [← TreeMap.length_keys]
  exact (List.subperm_of_subset hnodup hsubset).length_le

/-- What is sent for an asset is what its settings call for. -/
theorem Trader.Tables.configured (htables : s.Tables settings) {data data' : SellAssetData}
    (hdata : data ∈ s.assetData) {sent : List ToMsg}
    (h : data.Attended now s.usdtIndexPrice data' sent) :
    ∀ msg ∈ sent, Configured settings s.log (.sent now msg) := by
  intro msg hmem
  have hagrees := htables.agrees data hdata
  have hpriced : ∀ {price}, data.sellAsset.price s.usdtIndexPrice = some price →
      data.sellAsset.PricedAt (indexPrice settings.usdtAssetId s.log) price := by
    intro price hprice
    rw [← htables.index]
    exact pricedAt_of_price hprice
  rcases h.others msg hmem with ⟨req, rfl⟩ | ⟨orderId, price, rfl⟩
  · obtain ⟨price, balance, hprice, hbalance, hsize, hamount, howned, rfl⟩ := h.submits req hmem
    refine ⟨data.sellAsset, htables.mem_assets hdata, ?_⟩
    constructor
    · rfl
    · rfl
    · exact hpriced hprice
    · exact ⟨rfl, rfl⟩
    · exact ⟨rfl, hamount⟩
    · exact ⟨balance, hagrees.balance ▸ hbalance, howned⟩
    · intro ids hnodup hlisted
      exact (hagrees.listed_le hnodup hlisted).trans_lt hsize
  · obtain ⟨hprice, order, hmem, hid, hwrong⟩ := h.edits orderId price hmem
    obtain ⟨key, hkey⟩ := Table.mem_values_iff.mp hmem
    rw [hagrees.orders] at hkey
    have hown := (listed_created hkey).2.1
    refine ⟨data.sellAsset, htables.mem_assets hdata, hpriced hprice, order, ?_, hwrong⟩
    rw [← hid, hown]
    exact hkey

/-- The assets after a turn, one by one. -/
theorem attendAll_data (now : Nat) (usdtIndexPrice : Option Double)
    (assetData : List SellAssetData) :
    (attendAll now usdtIndexPrice assetData).1.map (fun data =>
        (data.sellAsset, data.assetBalance, data.orders)) =
      assetData.map fun data => (data.sellAsset, data.assetBalance, data.orders) := by
  fun_induction attendAll now usdtIndexPrice assetData with
  | case1 => rfl
  | case2 => rfl
  | case3 data rest data' sent hattend rest' later stopped heq ih =>
      have hdata := attend_attended hattend
      rw [heq] at ih
      rw [List.map_cons, List.map_cons, ih, hdata.sellAsset, hdata.balance, hdata.orders]

/-- Each message of a turn is about an asset that is attended to. -/
theorem mem_attendAll {assetData : List SellAssetData} {msg : ToMsg}
    (h : msg ∈ (attendAll now usdtIndexPrice assetData).2.1) :
    ∃ data ∈ assetData, ∃ data' sent, data.Attended now usdtIndexPrice data' sent ∧ msg ∈ sent := by
  fun_induction attendAll now usdtIndexPrice assetData with
  | case1 => cases h
  | case2 => cases h
  | case3 data rest data' sent hattend rest' later stopped heq ih =>
      rw [heq] at ih
      rcases List.mem_append.mp h with h | h
      · exact ⟨data, List.mem_cons_self, data', sent, attend_attended hattend, h⟩
      · obtain ⟨data₁, hmem, hsent⟩ := ih h
        exact ⟨data₁, List.mem_cons_of_mem _ hmem, hsent⟩

theorem attend_tables (h : s.Tables settings) (now : Nat) : (s.attend now).Tables settings := by
  have hsends := h.sends now (attendAll now s.usdtIndexPrice s.assetData).2.1
  have hdata := attendAll_data now s.usdtIndexPrice s.assetData
  refine ⟨?_, hsends.index, ?_, hsends.single⟩
  · have hassets := congrArg (List.map (·.1)) hdata
    rw [List.map_map, List.map_map] at hassets
    exact hassets.trans h.assets
  · intro data' hmem
    have hmem' := List.mem_map_of_mem (f := fun data : SellAssetData =>
      (data.sellAsset, data.assetBalance, data.orders)) hmem
    rw [show (s.attend now).assetData = (attendAll now s.usdtIndexPrice s.assetData).1 from rfl,
      hdata] at hmem'
    obtain ⟨data, hold, heq⟩ := List.mem_map.mp hmem'
    simp only [Prod.mk.injEq] at heq
    obtain ⟨hasset, hbalance, horders⟩ := heq
    have hagrees := hsends.agrees data hold
    constructor
    · rw [← hbalance, ← hasset]
      exact hagrees.balance
    · intro orderId
      rw [← horders, ← hasset]
      exact hagrees.orders orderId

theorem attend_configured (h : s.Tables settings)
    (hconfigured : Justified (Configured settings) s.log) (now : Nat) :
    Justified (Configured settings) (s.attend now).log := by
  refine hconfigured.append ?_
  intro n e he
  obtain ⟨msg, hmem, rfl⟩ := List.mem_map.mp (List.mem_of_getElem? he)
  obtain ⟨data, hdata, data', sent, hattended, hsent⟩ := mem_attendAll hmem
  rw [← List.map_take]
  have htables := h.sends now ((attendAll now s.usdtIndexPrice s.assetData).2.1.take n)
  exact htables.configured hdata hattended msg hsent

end Sends

/-! ## The pace of the offers -/

/-- Offers of one asset, given by asset and time, are apart, and none is too early. -/
structure Apart (settings : Settings) (offers : List (Text × Nat)) : Prop where
  between : offers.Pairwise fun offer later => offer.1 = later.1 → offer.2 + pause < later.2
  start : ∀ offer ∈ offers, settings.startedAt + pause < offer.2

/-- The time of the last offer is known. -/
structure SellAssetData.Recent (settings : Settings) (offers : List (Text × Nat))
    (data : SellAssetData) : Prop where
  start : settings.startedAt ≤ data.lastSubmit
  last : ∀ offer ∈ offers, offer.1 = toText data.sellAsset.assetId → offer.2 ≤ data.lastSubmit

section Pace

variable {settings : Settings} {s s' : Trader} {now : Nat} {usdtIndexPrice : Option Double}
  {data data' : SellAssetData} {offers news : List (Text × Nat)} {sent : List ToMsg}

/-- Offers of other assets do not matter. -/
theorem SellAssetData.Recent.append (h : data.Recent settings offers)
    (hnews : ∀ offer ∈ news, offer.1 ≠ toText data.sellAsset.assetId) :
    data.Recent settings (offers ++ news) where
  start := h.start
  last := by
    intro offer hmem hasset
    rcases List.mem_append.mp hmem with hmem | hmem
    · exact h.last offer hmem hasset
    · exact absurd hasset (hnews offer hmem)

/-- The offers that are sent, by asset and time. -/
def offersOf (now : Nat) (sent : List ToMsg) : List (Text × Nat) :=
  sent.filterMap (Event.submission? ∘ Event.sent now)

theorem filterMap_submission (now : Nat) (log : List Event) (sent : List ToMsg) :
    (log ++ sent.map (Event.sent now)).filterMap Event.submission? =
      log.filterMap Event.submission? ++ offersOf now sent := by
  rw [List.filterMap_append, List.filterMap_map]
  rfl

/-- An offer comes after the pause. -/
theorem SellAssetData.Attended.paces (h : data.Attended now usdtIndexPrice data' sent)
    (hrecent : data.Recent settings offers) (hapart : Apart settings offers) :
    Apart settings (offers ++ offersOf now sent) ∧
      data'.Recent settings (offers ++ offersOf now sent) := by
  rcases h.paced with ⟨hlast, hnone⟩ | ⟨hlast, hlate, hnews⟩
  · rw [offersOf, hnone, List.append_nil]
    refine ⟨hapart, ?_, ?_⟩
    · rw [hlast]
      exact hrecent.start
    · rw [hlast, h.sellAsset]
      exact hrecent.last
  · have hstart : settings.startedAt + pause < now := by
      have := hrecent.start
      omega
    have hold : ∀ offer ∈ offers, offer.1 = toText data.sellAsset.assetId →
        offer.2 + pause < now := by
      intro offer hmem hasset
      have := hrecent.last offer hmem hasset
      omega
    rcases hnews with hnone | hone
    · rw [offersOf, hnone, List.append_nil]
      refine ⟨hapart, ?_, ?_⟩
      · omega
      · intro offer hmem hasset
        rw [h.sellAsset] at hasset
        have := hold offer hmem hasset
        omega
    · rw [offersOf, hone]
      refine ⟨⟨?_, ?_⟩, ?_, ?_⟩
      · refine List.pairwise_append.mpr ⟨hapart.between, List.pairwise_singleton _ _, ?_⟩
        intro offer hmem later hlater hasset
        rw [List.mem_singleton.mp hlater] at hasset ⊢
        exact hold offer hmem hasset
      · intro offer hmem
        rcases List.mem_append.mp hmem with hmem | hmem
        · exact hapart.start offer hmem
        · rw [List.mem_singleton.mp hmem]
          exact hstart
      · omega
      · intro offer hmem hasset
        rw [h.sellAsset] at hasset
        rcases List.mem_append.mp hmem with hmem | hmem
        · have := hold offer hmem hasset
          omega
        · rw [List.mem_singleton.mp hmem, hlast]

/-- An offer is of the asset that is attended to. -/
theorem SellAssetData.Attended.offered (h : data.Attended now usdtIndexPrice data' sent) :
    ∀ offer ∈ offersOf now sent, offer.1 = toText data.sellAsset.assetId := by
  intro offer hmem
  obtain ⟨msg, hmsg, hoffer⟩ := List.mem_filterMap.mp hmem
  rcases h.others msg hmsg with ⟨req, rfl⟩ | ⟨orderId, price, rfl⟩
  · cases hoffer
    obtain ⟨price, balance, -, -, -, -, -, rfl⟩ := h.submits req hmsg
    rfl
  · cases hoffer

/-- A turn keeps the pace, whichever asset is the next. -/
theorem attendAll_paces (now : Nat) (usdtIndexPrice : Option Double)
    {assetData : List SellAssetData}
    (hdistinct : (assetData.map (·.sellAsset.assetId)).Nodup)
    (hrecent : ∀ data ∈ assetData, data.Recent settings offers) (hapart : Apart settings offers) :
    Apart settings (offers ++ offersOf now (attendAll now usdtIndexPrice assetData).2.1) ∧
      ∀ data ∈ (attendAll now usdtIndexPrice assetData).1,
        data.Recent settings
          (offers ++ offersOf now (attendAll now usdtIndexPrice assetData).2.1) := by
  fun_induction attendAll now usdtIndexPrice assetData generalizing offers with
  | case1 =>
      rw [offersOf, List.filterMap_nil, List.append_nil]
      exact ⟨hapart, hrecent⟩
  | case2 =>
      rw [offersOf, List.filterMap_nil, List.append_nil]
      exact ⟨hapart, hrecent⟩
  | case3 data rest data' sent hattend rest' later stopped heq ih =>
      have hdata := attend_attended hattend
      rw [List.map_cons, List.nodup_cons] at hdistinct
      obtain ⟨hapart', hrecent'⟩ := hdata.paces (hrecent data List.mem_cons_self) hapart
      have hother : ∀ other ∈ rest, other.sellAsset.assetId ≠ data.sellAsset.assetId := by
        intro other hmem hsame
        exact hdistinct.1 (List.mem_map.mpr ⟨other, hmem, hsame⟩)
      have hrest : ∀ other ∈ rest, other.Recent settings (offers ++ offersOf now sent) := by
        intro other hmem
        refine (hrecent other (List.mem_cons_of_mem _ hmem)).append ?_
        intro offer hoffer hasset
        rw [hdata.offered offer hoffer, toText_inj] at hasset
        exact hother other hmem hasset.symm
      have hlater : ∀ offer ∈ offersOf now later, offer.1 ≠ toText data'.sellAsset.assetId := by
        intro offer hoffer hasset
        obtain ⟨msg, hmsg, hoffer'⟩ := List.mem_filterMap.mp hoffer
        have hmem : msg ∈ (attendAll now usdtIndexPrice rest).2.1 := by
          rw [heq]
          exact hmsg
        obtain ⟨other, hother', other', sent', hattended, hsent⟩ := mem_attendAll hmem
        have hown := hattended.offered offer (List.mem_filterMap.mpr ⟨msg, hsent, hoffer'⟩)
        rw [hasset, hdata.sellAsset, toText_inj] at hown
        exact hother other hother' hown.symm
      obtain ⟨hapart'', hrecent''⟩ := ih hdistinct.2 hrest hapart'
      rw [heq] at hapart'' hrecent''
      have hall : offersOf now (sent ++ later) = offersOf now sent ++ offersOf now later :=
        List.filterMap_append
      simp only [hall, ← List.append_assoc]
      refine ⟨hapart'', ?_⟩
      intro data₁ hmem
      rcases List.mem_cons.mp hmem with rfl | hmem
      · exact hrecent'.append hlater
      · exact hrecent'' data₁ hmem

/-- A message does not touch the times. -/
theorem receive_times {msg : FromMsg} (h : receive settings s now msg = some s') :
    s'.assetData.map (fun data => (data.sellAsset, data.lastSubmit, data.lastPriceEdit)) =
      s.assetData.map fun data => (data.sellAsset, data.lastSubmit, data.lastPriceEdit) := by
  cases msg with
  | balanceUpdate account balances =>
      cases h
      simp only [updateBalances_map, List.map_map]
      refine List.map_congr_left ?_
      intro data _
      exact updateBalances_same
        (f := fun data => (data.sellAsset, data.lastSubmit, data.lastPriceEdit))
        (fun _ _ => rfl) account balances data
  | newAsset assetId precision =>
      simp only [receive] at h
      split at h
      · cases h
        rfl
      · cases h
  | indexPrice assetId ind =>
      obtain ⟨asset, -, rfl⟩ := Option.map_eq_some_iff.mp h
      split
      · rfl
      · rfl
  | submitReview orderId asset =>
      obtain ⟨assetId, -, hfind⟩ := Option.bind_eq_some_iff.mp h
      obtain ⟨data, -, heq⟩ := Option.bind_eq_some_iff.mp hfind
      cases heq
      rfl
  | orderCreated order =>
      simp only [receive] at h
      split at h
      · cases h
        exact insertOrder_map (fun _ _ => rfl) order s.assetData
      · cases h
        rfl
  | orderRemoved orderId =>
      cases h
      exact removeOrder_map (fun _ _ => rfl) orderId s.assetData
  | _ =>
      cases h
      rfl

theorem mem_receive {msg : FromMsg} (h : receive settings s now msg = some s')
    (hdata : data' ∈ s'.assetData) :
    ∃ data ∈ s.assetData, data.sellAsset = data'.sellAsset ∧
      data.lastSubmit = data'.lastSubmit ∧ data.lastPriceEdit = data'.lastPriceEdit := by
  have hmem := List.mem_map_of_mem
    (f := fun data : SellAssetData => (data.sellAsset, data.lastSubmit, data.lastPriceEdit)) hdata
  rw [receive_times h] at hmem
  obtain ⟨data, hold, heq⟩ := List.mem_map.mp hmem
  simp only [Prod.mk.injEq] at heq
  exact ⟨data, hold, heq⟩

end Pace

/-! ## The edits of the prices -/

def Event.time : Event → Nat
  | .received now _ => now
  | .sent now _ => now

/-- At this time the orders of the asset whose price was another one were edited; at the start
    there were none. -/
def EditedAt (settings : Settings) (asset : SellAsset) (log : List Event) (time : Nat) : Prop :=
  time = settings.startedAt ∨ ∃ before after price, log = before ++ after ∧
    before.getLast?.map Event.time = some time ∧
    asset.price (indexPrice settings.usdtAssetId before) = some price ∧
    ∀ orderId order, listed asset.assetId before orderId = some order →
      order.price.ne price = true → .sent time (.editOrder orderId price) ∈ after

/-- The prices of the orders are at most a pause behind. -/
structure SellAssetData.Timely (settings : Settings) (usdtIndexPrice : Option Double)
    (log : List Event) (data : SellAssetData) : Prop where
  edited : EditedAt settings data.sellAsset log data.lastPriceEdit
  timely : ∀ price, data.sellAsset.price usdtIndexPrice = some price →
    ∀ e, log.getLast? = some e → e.time ≤ data.lastPriceEdit + pause

section Timely

variable {settings : Settings} {s s' : Trader} {now : Nat} {usdtIndexPrice : Option Double}
  {data data' : SellAssetData} {price : Double} {sent : List ToMsg}

theorem EditedAt.append {asset : SellAsset} {log : List Event} {time : Nat}
    (h : EditedAt settings asset log time) (es : List Event) :
    EditedAt settings asset (log ++ es) time := by
  rcases h with hstart | ⟨before, after, price, hlog, htime, hprice, hedits⟩
  · exact .inl hstart
  · refine .inr ⟨before, after ++ es, price, ?_, htime, hprice, ?_⟩
    · rw [hlog, List.append_assoc]
    · intro orderId order hlisted hwrong
      exact List.mem_append_left _ (hedits orderId order hlisted hwrong)

end Timely

/-! ## Runs -/

/-- What holds in every state: also after a panic the history is as the settings say. -/
structure Trader.Sound (settings : Settings) (s : Trader) : Prop where
  tables : s.stopped = false → s.Tables settings
  configured : Justified (Configured settings) s.log
  apart : Apart settings (s.log.filterMap Event.submission?)
  recent : ∀ data ∈ s.assetData, data.Recent settings (s.log.filterMap Event.submission?)

section Runs

variable {settings : Settings} {s s' : Trader}

theorem first_sound : (first settings).Sound settings where
  tables := by
    intro _
    refine ⟨?_, rfl, ?_, ?_⟩
    · simp [first, Function.comp_def]
    · intro data hdata
      obtain ⟨sellAsset, -, rfl⟩ := List.mem_map.mp hdata
      exact ⟨rfl, fun orderId => TreeMap.getElem?_emptyc⟩
    · intro now now' order order' hmem
      cases List.mem_singleton.mp hmem
  configured := (justified_nil _).concat ⟨rfl, rfl, rfl⟩
  apart := ⟨List.Pairwise.nil, fun _ hmem => absurd hmem List.not_mem_nil⟩
  recent := by
    intro data hdata
    obtain ⟨sellAsset, -, rfl⟩ := List.mem_map.mp hdata
    exact ⟨le_refl _, fun _ hmem => absurd hmem List.not_mem_nil⟩

/-- A message and the turn that follows it. -/
theorem step_sound (h : s.Sound settings) {i : Input} (hsteady : Steady s i) :
    (step settings s i).Sound settings := by
  unfold step
  cases hrun : s.stopped with
  | true => exact h
  | false =>
      have htables := h.tables hrun
      rw [if_neg Bool.false_ne_true]
      cases hreceive : receive settings (s.hear i) i.now i.msg with
      | none =>
          have hsame : (s.hear i).log.filterMap Event.submission? =
              s.log.filterMap Event.submission? := by
            simp [Trader.hear, Event.submission?]
          refine ⟨fun hfalse => absurd hfalse Bool.true_eq_false.mp,
            h.configured.concat trivial, ?_, ?_⟩
          · exact hsame ▸ h.apart
          · exact hsame ▸ h.recent
      | some s₁ =>
          have htables₁ := receive_tables htables hsteady hreceive
          obtain ⟨-, hconfigured, hsame⟩ := receive_sends htables h.configured hreceive
          have hrecent : ∀ data ∈ s₁.assetData,
              data.Recent settings (s₁.log.filterMap Event.submission?) := by
            intro data hdata
            obtain ⟨old, hold, hasset, hlast, -⟩ := mem_receive hreceive hdata
            have hrecent := h.recent old hold
            rw [hsame]
            refine ⟨hlast ▸ hrecent.start, ?_⟩
            rw [← hasset, ← hlast]
            exact hrecent.last
          obtain ⟨hapart, hrecent'⟩ := attendAll_paces i.now s₁.usdtIndexPrice
            htables₁.distinct hrecent (hsame ▸ h.apart)
          rw [← filterMap_submission] at hapart hrecent'
          exact ⟨fun _ => attend_tables htables₁ i.now,
            attend_configured htables₁ hconfigured i.now, hapart, hrecent'⟩

theorem runs_sound (h : Runs settings s) : s.Sound settings := by
  refine h.invariant ?_ ?_
  · rintro s rfl
    exact first_sound
  · intro s i _ hsound hsteady
    exact step_sound hsound hsteady

/-- **OFFERS OF THE SETTINGS**: the trader offers only what its settings say, at their price and
    the index that it last heard, as long as its wallet has enough and too few orders are listed;
    it edits only its listed orders, cancels only orders of an earlier start, and accepts only the
    reviews of its own assets. -/
theorem offers_configured (h : Runs settings s) : Justified (Configured settings) s.log :=
  (runs_sound h).configured

end Runs

namespace Sample

/-- An asset at a price in dollars. -/
def share : SellAsset where
  assetId := 7
  priceUsdt := some (.fin 60)
  priceLbtc := none
  ampAsset := none
  assetPrecision := 8
  offerAmount := some (.fin 2)
  isPrivate := some true
  count := none
  ttl := none

/-- And one at a price in bitcoins, which the wallet does not have. -/
def token : SellAsset where
  assetId := 8
  priceUsdt := none
  priceLbtc := some (.fin 3)
  ampAsset := some true
  assetPrecision := 0
  offerAmount := none
  isPrivate := none
  count := some 2
  ttl := some 600

def settings : Settings where
  usdtAssetId := 2
  mnemonic := "abandon"
  sellAssets := [share, token]
  startedAt := 0
  onePrice := by decide
  distinct := by decide

def second : Nat := 1000000000

def order : Order := ⟨['9'], toText 7, .fin (1 / 500), true⟩

/-- An order is offered, follows the index and is taken, and the next one is offered. -/
def inputs : List Input :=
  [⟨1 * second, .serverConnected⟩, ⟨2 * second, .indexPrice (toText 2) (some (.fin 30000))⟩,
    ⟨3 * second, .balanceUpdate 0 [⟨toText 7, 500000000⟩, ⟨toText 8, 5⟩]⟩, ⟨11 * second, .other⟩,
    ⟨12 * second, .submitReview order.orderId order.assetId⟩, ⟨13 * second, .orderCreated order⟩,
    ⟨14 * second, .indexPrice (toText 2) (some (.fin 20000))⟩, ⟨22 * second, .other⟩,
    ⟨23 * second, .orderRemoved order.orderId⟩]

theorem runs : Runs settings (run (step settings) (first settings) inputs) := by
  have hstart : Runs settings (first settings) := .start rfl
  refine hstart.run inputs ?_
  decide +kernel

end Sample

/-- The share was offered at the first index, and its order edited at the second. -/
theorem share_offered :
    let s := run (step Sample.settings) (first Sample.settings) Sample.inputs
    .sent (11 * Sample.second) (.submitOrder
        ⟨0, toText 7, none, some (.fin (-2)), .fin (1 / 500), none⟩) ∈ s.log ∧
      .sent (22 * Sample.second) (.editOrder ['9'] (.fin (3 / 1000))) ∈ s.log ∧
      Justified (Configured Sample.settings) s.log := by
  refine ⟨?_, ?_, offers_configured Sample.runs⟩
  · decide +kernel
  · decide +kernel

end HeadlessTrader
