import SideSwap.HeadlessTrader

/-! # What the trader holds

    The balances, the orders and the index price that the headless trader keeps
    are those of its history, whatever the client reports.  An order is looked
    for among all assets when it is removed: the assets stay apart because an
    order is reported for one of them only. -/

namespace HeadlessTrader

open Api Pricing Transition History
open Std (TreeMap)
open Client (Text AccountId toText fromStr fromStr_toText)

/-! ## Reports of the client -/

section Reports

variable {log : List Event} {data data' : SellAssetData} {assetData : List SellAssetData}
  {e : Event} {order : Order}

/-- The last event is asked first. -/
theorem latest_concat {α : Type} (f : Event → Option α) (log : List Event) (e : Event) :
    latest f (log ++ [e]) = (f e).or (latest f log) := by
  cases he : f e with
  | none => rw [latest_concat_none he, Option.none_or]
  | some a => rw [latest_concat_some he, Option.some_or]

theorem toText_inj {a b : AssetId} : toText a = toText b ↔ a = b := by
  constructor
  · intro h
    have hread := congrArg fromStr h
    rw [fromStr_toText, fromStr_toText] at hread
    exact Option.some.inj hread
  · intro h
    rw [h]

/-- A listed order was created under its id, and for its asset. -/
theorem listed_created {asset : AssetId} {orderId : Text}
    (h : listed asset log orderId = some order) :
    order.assetId = toText asset ∧ order.orderId = orderId ∧
      ∃ now, .received now (.orderCreated order) ∈ log := by
  obtain ⟨e, hmem, he⟩ := latest_mem (Option.join_eq_some_iff.mp h)
  revert he
  fun_cases Event.listing? asset orderId e with
  | case1 now order' hown =>
      intro he
      cases he
      exact ⟨hown.2.1, hown.2.2, now, hmem⟩
  | case2 =>
      intro he
      cases he
  | case3 =>
      intro he
      cases he
  | case4 =>
      intro he
      cases he
  | case5 =>
      intro he
      cases he

/-- What says nothing about the asset. -/
theorem SellAssetData.Agrees.concat (h : data.Agrees log)
    (hbalance : Event.balance? data.sellAsset e = none)
    (horders : ∀ orderId, Event.listing? data.sellAsset.assetId orderId e = none) :
    data.Agrees (log ++ [e]) where
  balance := by
    rw [latest_concat_none hbalance]
    exact h.balance
  orders := by
    intro orderId
    rw [listed, latest_concat_none (horders orderId)]
    exact h.orders orderId

/-! ### Balances -/

/-- What does not depend on the balance stays. -/
theorem updateBalances_same {α : Type} {f : SellAssetData → α}
    (hf : ∀ data assetBalance, f { data with assetBalance } = f data) (account : AccountId)
    (balances : List Balance) (data : SellAssetData) :
    f (balances.foldl (·.updateBalance account ·) data) = f data := by
  induction balances generalizing data with
  | nil => rfl
  | cons balance balances ih =>
      rw [List.foldl_cons, ih]
      unfold SellAssetData.updateBalance
      split
      · exact hf data _
      · rfl

/-- The balances of a message, seen from one asset. -/
theorem updateBalances_map (account : AccountId) (balances : List Balance) :
    ∀ assetData : List SellAssetData,
      balances.foldl (fun assetData balance => assetData.map (·.updateBalance account balance))
        assetData = assetData.map fun data => balances.foldl (·.updateBalance account ·) data := by
  induction balances with
  | nil =>
      intro assetData
      exact (List.map_id assetData).symm
  | cons balance balances ih =>
      intro assetData
      rw [List.foldl_cons, ih, List.map_map]
      rfl

/-- The last balance of the asset stays. -/
theorem updateBalances_balance (account : AccountId) (balances : List Balance)
    (data : SellAssetData) :
    (balances.foldl (·.updateBalance account ·) data).assetBalance =
      (data.sellAsset.amount? account balances).or data.assetBalance := by
  induction balances using List.reverseRecOn with
  | nil => rfl
  | append_singleton balances balance ih =>
      have hasset := updateBalances_same (f := SellAssetData.sellAsset) (fun _ _ => rfl) account
        balances data
      rw [List.foldl_append, List.foldl_cons, List.foldl_nil]
      generalize balances.foldl (·.updateBalance account ·) data = data₁ at ih hasset ⊢
      unfold SellAssetData.updateBalance
      rw [hasset]
      unfold SellAsset.amount? at ih ⊢
      rw [List.filter_append, List.getLast?_append]
      by_cases hown : balance.assetId = toText data.sellAsset.assetId ∧
          account = data.sellAsset.accountId
      · simp [hown]
      · simp [hown, ih]

/-! ### Orders -/

/-- What does not depend on the orders stays. -/
theorem insertOrder_map {α : Type} {f : SellAssetData → α}
    (hf : ∀ data orders, f { data with orders } = f data) (order : Order)
    (assetData : List SellAssetData) : (insertOrder order assetData).map f = assetData.map f := by
  fun_induction insertOrder order assetData with
  | case1 => rfl
  | case2 => rw [List.map_cons, List.map_cons, hf]
  | case3 data rest hother ih => rw [List.map_cons, List.map_cons, ih]

/-- No other asset lists the order. -/
theorem mem_insertOrder (hdistinct : (assetData.map (·.sellAsset.assetId)).Nodup)
    (h : data' ∈ insertOrder order assetData) :
    ∃ data ∈ assetData, data'.sellAsset = data.sellAsset ∧
      data'.assetBalance = data.assetBalance ∧
      ∀ orderId : Text, data'.orders[orderId]? =
        if order.assetId = toText data.sellAsset.assetId ∧ order.orderId = orderId then some order
        else data.orders[orderId]? := by
  fun_induction insertOrder order assetData with
  | case1 => cases h
  | case2 data rest hown =>
      rw [List.map_cons, List.nodup_cons] at hdistinct
      rcases List.mem_cons.mp h with rfl | h
      · refine ⟨data, List.mem_cons_self, rfl, rfl, ?_⟩
        intro orderId
        rw [Table.getElem?_insert_eq]
        simp [hown]
      · refine ⟨data', List.mem_cons_of_mem _ h, rfl, rfl, ?_⟩
        intro orderId
        rw [if_neg]
        rintro ⟨hasset, -⟩
        have hsame := toText_inj.mp (hown.trans hasset)
        exact hdistinct.1 (List.mem_map.mpr ⟨data', h, hsame.symm⟩)
  | case3 data rest hother ih =>
      rw [List.map_cons, List.nodup_cons] at hdistinct
      rcases List.mem_cons.mp h with rfl | h
      · refine ⟨data', List.mem_cons_self, rfl, rfl, ?_⟩
        intro orderId
        rw [if_neg]
        rintro ⟨hasset, -⟩
        exact hother hasset.symm
      · obtain ⟨data₁, hmem, hdata⟩ := ih hdistinct.2 h
        exact ⟨data₁, List.mem_cons_of_mem _ hmem, hdata⟩

theorem removeOrder_map {α : Type} {f : SellAssetData → α}
    (hf : ∀ data orders, f { data with orders } = f data) (orderId : Text)
    (assetData : List SellAssetData) : (removeOrder orderId assetData).map f = assetData.map f := by
  fun_induction removeOrder orderId assetData with
  | case1 => rfl
  | case2 => rw [List.map_cons, List.map_cons, hf]
  | case3 data rest hother ih => rw [List.map_cons, List.map_cons, ih]

/-- An order that one asset lists at most is listed by none. -/
theorem mem_removeOrder {removed : Text}
    (hdistinct : (assetData.map (·.sellAsset.assetId)).Nodup)
    (hsingle : ∀ data ∈ assetData, ∀ other ∈ assetData, data.orders[removed]?.isSome →
      other.orders[removed]?.isSome → data.sellAsset.assetId = other.sellAsset.assetId)
    (h : data' ∈ removeOrder removed assetData) :
    ∃ data ∈ assetData, data'.sellAsset = data.sellAsset ∧
      data'.assetBalance = data.assetBalance ∧
      ∀ orderId : Text, data'.orders[orderId]? =
        if removed = orderId then none else data.orders[orderId]? := by
  fun_induction removeOrder removed assetData with
  | case1 => cases h
  | case2 data rest hown =>
      rw [List.map_cons, List.nodup_cons] at hdistinct
      rcases List.mem_cons.mp h with rfl | h
      · refine ⟨data, List.mem_cons_self, rfl, rfl, ?_⟩
        intro orderId
        rw [Table.getElem?_erase_eq]
      · refine ⟨data', List.mem_cons_of_mem _ h, rfl, rfl, ?_⟩
        intro orderId
        split
        · next heq =>
            subst heq
            by_contra hsome
            have hsame := hsingle data List.mem_cons_self data' (List.mem_cons_of_mem _ h) hown
              (Option.isSome_iff_ne_none.mpr hsome)
            exact hdistinct.1 (List.mem_map.mpr ⟨data', h, hsame.symm⟩)
        · rfl
  | case3 data rest hother ih =>
      rw [List.map_cons, List.nodup_cons] at hdistinct
      rcases List.mem_cons.mp h with rfl | h
      · refine ⟨data', List.mem_cons_self, rfl, rfl, ?_⟩
        intro orderId
        split
        · next heq =>
            subst heq
            exact Option.not_isSome_iff_eq_none.mp hother
        · rfl
      · have hrest : ∀ data ∈ rest, ∀ other ∈ rest, data.orders[removed]?.isSome →
            other.orders[removed]?.isSome → data.sellAsset.assetId = other.sellAsset.assetId :=
          fun data hdata other hother =>
            hsingle data (List.mem_cons_of_mem _ hdata) other (List.mem_cons_of_mem _ hother)
        obtain ⟨data₁, hmem, hdata⟩ := ih hdistinct.2 hrest h
        exact ⟨data₁, List.mem_cons_of_mem _ hmem, hdata⟩

end Reports

/-! ## The tables of the trader -/

/-- What the trader holds is what the history says, and an order is of one asset. -/
structure Trader.Tables (settings : Settings) (s : Trader) : Prop where
  assets : s.assetData.map (·.sellAsset) = settings.sellAssets
  index : s.usdtIndexPrice = indexPrice settings.usdtAssetId s.log
  agrees : ∀ data ∈ s.assetData, data.Agrees s.log
  single : ∀ now now' order order', .received now (.orderCreated order) ∈ s.log →
    .received now' (.orderCreated order') ∈ s.log → order.orderId = order'.orderId →
    order.assetId = order'.assetId

section Tables

variable {settings : Settings} {s s' : Trader} {i : Input}

theorem Trader.Tables.distinct (h : s.Tables settings) :
    (s.assetData.map (·.sellAsset.assetId)).Nodup := by
  have hdistinct := settings.distinct
  rw [← h.assets, List.map_map] at hdistinct
  exact hdistinct

theorem Trader.Tables.mem_assets (h : s.Tables settings) {data : SellAssetData}
    (hdata : data ∈ s.assetData) : data.sellAsset ∈ settings.sellAssets := by
  rw [← h.assets]
  exact List.mem_map_of_mem hdata

/-- What the trader sends, says nothing. -/
theorem quiet_sends {α : Type} {f : Event → Option α} (hf : ∀ now msg, f (.sent now msg) = none)
    (now : Nat) (sent : List ToMsg) : (sent.map (Event.sent now)).filterMap f = [] := by
  refine List.filterMap_eq_nil_iff.mpr ?_
  intro e hmem
  obtain ⟨msg, -, rfl⟩ := List.mem_map.mp hmem
  exact hf now msg

theorem Trader.Tables.sends (h : s.Tables settings) (now : Nat) (sent : List ToMsg) :
    Trader.Tables settings { s with log := s.log ++ sent.map (.sent now) } where
  assets := h.assets
  index := by
    rw [indexPrice, latest_append_none (quiet_sends (fun _ _ => rfl) now sent)]
    exact h.index
  agrees := by
    intro data hdata
    have hagrees := h.agrees data hdata
    constructor
    · rw [latest_append_none (quiet_sends (fun _ _ => rfl) now sent)]
      exact hagrees.balance
    · intro orderId
      rw [listed, latest_append_none (quiet_sends (fun _ _ => rfl) now sent)]
      exact hagrees.orders orderId
  single := by
    intro now₁ now₂ order order' hmem hmem'
    have hold : ∀ {now' order},
        .received now' (.orderCreated order) ∈ s.log ++ sent.map (.sent now) →
        Event.received now' (.orderCreated order) ∈ s.log := by
      intro now' order hmem
      rcases List.mem_append.mp hmem with hmem | hmem
      · exact hmem
      · obtain ⟨msg, -, heq⟩ := List.mem_map.mp hmem
        cases heq
    exact h.single now₁ now₂ order order' (hold hmem) (hold hmem')

/-- A report is heard, and the tables change as it says. -/
theorem Trader.Tables.hear (h : s.Tables settings) (hsteady : Steady s i)
    {usdtIndexPrice : Option Double} {assetData : List SellAssetData}
    (hassets : assetData.map (·.sellAsset) = s.assetData.map (·.sellAsset))
    (hindex : usdtIndexPrice =
      ((Event.index? settings.usdtAssetId (.received i.now i.msg)).or
        (latest (Event.index? settings.usdtAssetId) s.log)).join)
    (hagrees : ∀ data ∈ assetData, data.Agrees (s.log ++ [.received i.now i.msg])) :
    Trader.Tables settings { s.hear i with usdtIndexPrice, assetData } where
  assets := hassets.trans h.assets
  index := by
    rw [hindex, ← latest_concat]
    rfl
  agrees := hagrees
  single := by
    have hnew : ∀ {now order}, Event.received now (.orderCreated order) ∈ (s.hear i).log →
        .received now (.orderCreated order) ∈ s.log ∨ i.msg = .orderCreated order := by
      intro now order hmem
      rcases List.mem_append.mp hmem with hmem | hmem
      · exact .inl hmem
      · exact .inr (Event.received.inj (List.mem_singleton.mp hmem)).2.symm
    intro now now' order order' hmem hmem' hid
    rcases hnew hmem with hold | hnow
    · rcases hnew hmem' with hold' | hnow'
      · exact h.single now now' order order' hold hold' hid
      · exact hsteady order' hnow' now order hold hid
    · rcases hnew hmem' with hold' | hnow'
      · exact (hsteady order hnow now' order' hold' hid.symm).symm
      · rw [hnow] at hnow'
        rw [FromMsg.orderCreated.inj hnow']

/-- A report that changes nothing. -/
theorem Trader.Tables.quiet (h : s.Tables settings) (hsteady : Steady s i)
    (hindex : Event.index? settings.usdtAssetId (.received i.now i.msg) = none)
    (hbalance : ∀ asset, Event.balance? asset (.received i.now i.msg) = none)
    (horders : ∀ asset orderId, Event.listing? asset orderId (.received i.now i.msg) = none) :
    (s.hear i).Tables settings := by
  refine h.hear hsteady rfl ?_ ?_
  · rw [hindex, Option.none_or]
    exact h.index
  · intro data hdata
    exact (h.agrees data hdata).concat (hbalance _) (horders _)

theorem Trader.Tables.send (h : s.Tables settings) (now : Nat) (msg : ToMsg) :
    (s.send now msg).Tables settings := h.sends now [msg]

/-- An order that two assets list was created for both. -/
theorem Trader.Tables.lists_once (h : s.Tables settings) {orderId : Text} :
    ∀ data ∈ s.assetData, ∀ other ∈ s.assetData, data.orders[orderId]?.isSome →
      other.orders[orderId]?.isSome → data.sellAsset.assetId = other.sellAsset.assetId := by
  intro data hdata other hother hlists hlists'
  obtain ⟨order, horder⟩ := Option.isSome_iff_exists.mp hlists
  obtain ⟨order', horder'⟩ := Option.isSome_iff_exists.mp hlists'
  rw [(h.agrees data hdata).orders] at horder
  rw [(h.agrees other hother).orders] at horder'
  obtain ⟨hasset, hid, now, hmem⟩ := listed_created horder
  obtain ⟨hasset', hid', now', hmem'⟩ := listed_created horder'
  have hsame := h.single now now' order order' hmem hmem' (hid.trans hid'.symm)
  rw [hasset, hasset'] at hsame
  exact toText_inj.mp hsame

/-- A message leaves the tables as the history says. -/
theorem receive_tables (h : s.Tables settings) (hsteady : Steady s i)
    (hreceive : receive settings (s.hear i) i.now i.msg = some s') : s'.Tables settings := by
  obtain ⟨now, msg⟩ := i
  cases msg with
  | serverConnected =>
      cases hreceive
      exact (h.quiet hsteady rfl (fun _ => rfl) (fun _ _ => rfl)).send _ _
  | serverDisconnected =>
      cases hreceive
      refine h.hear hsteady rfl rfl ?_
      intro data hdata
      exact (h.agrees data hdata).concat rfl (fun _ => rfl)
  | balanceUpdate account balances =>
      cases hreceive
      have hassets : (balances.foldl
          (fun assetData balance => assetData.map (·.updateBalance account balance))
          s.assetData).map (·.sellAsset) = s.assetData.map (·.sellAsset) := by
        rw [updateBalances_map, List.map_map]
        refine List.map_congr_left ?_
        intro data _
        exact updateBalances_same (fun _ _ => rfl) account balances data
      refine h.hear hsteady hassets h.index ?_
      intro data' hdata'
      rw [updateBalances_map] at hdata'
      obtain ⟨data, hdata, rfl⟩ := List.mem_map.mp hdata'
      have hagrees := h.agrees data hdata
      have hasset : (balances.foldl (·.updateBalance account ·) data).sellAsset = data.sellAsset :=
        updateBalances_same (fun _ _ => rfl) account balances data
      have horders : (balances.foldl (·.updateBalance account ·) data).orders = data.orders :=
        updateBalances_same (fun _ _ => rfl) account balances data
      constructor
      · rw [updateBalances_balance, hasset, latest_concat, hagrees.balance]
        rfl
      · intro orderId
        rw [horders, hasset, listed, latest_concat]
        exact hagrees.orders orderId
  | newAsset assetId precision =>
      have hquiet := h.quiet hsteady rfl (fun _ => rfl) (fun _ _ => rfl)
      simp only [receive] at hreceive
      split at hreceive
      · cases hreceive
        exact hquiet
      · cases hreceive
  | indexPrice assetId ind =>
      obtain ⟨asset, hasset, rfl⟩ := Option.map_eq_some_iff.mp hreceive
      have hagrees : ∀ data ∈ s.assetData,
          data.Agrees (s.log ++ [.received now (.indexPrice assetId ind)]) :=
        fun data hdata => (h.agrees data hdata).concat rfl (fun _ => rfl)
      split
      · next heq =>
          refine h.hear hsteady rfl ?_ hagrees
          simp [Event.index?, hasset, heq]
      · next hne =>
          refine h.hear hsteady rfl ?_ hagrees
          simp only [Event.index?, hasset, Option.some.injEq, if_neg hne, Option.none_or]
          exact h.index
  | submitReview orderId asset =>
      obtain ⟨assetId, -, hfind⟩ := Option.bind_eq_some_iff.mp hreceive
      obtain ⟨data, -, hsend⟩ := Option.bind_eq_some_iff.mp hfind
      cases hsend
      exact (h.quiet hsteady rfl (fun _ => rfl) (fun _ _ => rfl)).send _ _
  | orderCreated order =>
      simp only [receive] at hreceive
      split at hreceive
      · next hauto =>
          cases hreceive
          refine h.hear hsteady (insertOrder_map (fun _ _ => rfl) order s.assetData) h.index ?_
          intro data' hdata'
          obtain ⟨data, hdata, hasset, hbalance, horders⟩ := mem_insertOrder h.distinct hdata'
          have hagrees := h.agrees data hdata
          constructor
          · rw [hbalance, hasset, latest_concat]
            exact hagrees.balance
          · intro orderId
            rw [horders, hasset, listed, latest_concat]
            simp only [Event.listing?, hauto, true_and]
            split
            · rfl
            · exact hagrees.orders orderId
      · next hauto =>
          cases hreceive
          refine (h.quiet hsteady rfl (fun _ => rfl) ?_).send _ _
          intro asset orderId
          simp [Event.listing?, hauto]
  | orderRemoved removed =>
      cases hreceive
      refine h.hear hsteady (removeOrder_map (fun _ _ => rfl) removed s.assetData) h.index ?_
      intro data' hdata'
      obtain ⟨data, hdata, hasset, hbalance, horders⟩ :=
        mem_removeOrder h.distinct h.lists_once hdata'
      have hagrees := h.agrees data hdata
      constructor
      · rw [hbalance, hasset, latest_concat]
        exact hagrees.balance
      · intro orderId
        rw [horders, hasset, listed, latest_concat]
        simp only [Event.listing?]
        split
        · rfl
        · exact hagrees.orders orderId
  | other =>
      cases hreceive
      exact h.quiet hsteady rfl (fun _ => rfl) (fun _ _ => rfl)

end Tables

end HeadlessTrader
