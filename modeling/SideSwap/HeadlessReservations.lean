import SideSwap.History
import SideSwap.HeadlessMoves

/-! # The coins of the headless orders

    An order that is active or done keeps its coins reserved.  A reservation
    takes coins from the latest snapshot that no other order keeps, so the
    lists stay disjoint however orders, snapshots, responses and notifications
    interleave.

    The proof has one real case, `reserve`.  Coin selection only sees amounts
    and finds the coins again by value; that it returns coins at distinct
    positions of the free list (`selectUtxoValues_inv`) is what makes a list
    free of duplicates even when many coins have the same amount. -/

namespace Headless

open Api MachineInt CoinSelection History

/-- The snapshot an event brings. -/
def snapshotOf : Event → Option SwapInputs
  | .wallet (.swapInputs si) => some si
  | _ => none

/-- A snapshot that lists every outpoint at most once, with amounts that are
    positive also as `i64`. -/
def SwapInputs.Valid (si : SwapInputs) : Prop :=
  ∀ (asset : AssetId) coins, si.utxos[asset]? = some coins →
    (coins.map (·.outPoint)).Nodup ∧ ∀ coin ∈ coins, 0 < coin.satoshi ∧ coin.satoshi < 2 ^ 63

/-- All snapshots of a history are valid. -/
def ValidSnapshots (log : List Event) : Prop :=
  ∀ si ∈ log.filterMap snapshotOf, si.Valid

theorem ValidSnapshots.mono {log log' : List Event} (h : ValidSnapshots log')
    (hsub : log ⊆ log') : ValidSnapshots log := by
  intro si hsi
  obtain ⟨e, he, hesi⟩ := List.mem_filterMap.mp hsi
  exact h si (List.mem_filterMap.mpr ⟨e, hsub he, hesi⟩)

/-- The coins of a snapshot that can pay in an asset. -/
def SwapInputs.coins (si : SwapInputs) (asset : AssetId) : List UnspentOutput :=
  (si.utxos[asset]?).getD []

theorem SwapInputs.Valid.coins {si : SwapInputs} (h : si.Valid) (asset : AssetId) :
    ((si.coins asset).map (·.outPoint)).Nodup ∧
      ∀ coin ∈ si.coins asset, 0 < coin.satoshi ∧ coin.satoshi < 2 ^ 63 := by
  unfold SwapInputs.coins
  cases hcoins : si.utxos[asset]? with
  | none => exact ⟨List.nodup_nil, fun coin hc => nomatch hc⟩
  | some coins => exact h asset coins hcoins

/-- **THE ORIGIN** of an order's coins: they were selected for the details the
    order was created with, from the snapshot held at that time, and are worth
    at least what the order sends. -/
def Selected (policyAsset : AssetId) (log : List Event) (x : OrderId) (outs : List OutPoint) :
    Prop :=
  ∃ before after m details si inputs, log = before ++ .reserved x details si inputs :: after
    ∧ .orderCreated m ⟨x, details⟩ ∈ before
    ∧ latest snapshotOf before = some si
    ∧ inputs.Subperm ((si.coins (sendAsset policyAsset details)).map convertToSwapUtxo)
    ∧ outs = inputs.map (·.outPoint)
    ∧ sendAmount details ≤ (inputs.map fun input => (input.value : Int)).sum

theorem Selected.append {policyAsset : AssetId} {log : List Event} {x : OrderId}
    {outs : List OutPoint} (h : Selected policyAsset log x outs) (es : List Event) :
    Selected policyAsset (log ++ es) x outs := by
  obtain ⟨before, after, m, details, si, inputs, rfl, h⟩ := h
  refine ⟨before, after ++ es, m, details, si, inputs, ?_, h⟩
  rw [List.append_assoc, List.cons_append]

/-- The reservations of the order table: each list is free of duplicates and
    was selected, and no two orders share a coin. -/
structure Reservations (policyAsset : AssetId) (log : List Event)
    (orders : Std.TreeMap OrderId OrderState) : Prop where
  nodup : ∀ (x : OrderId) st, orders[x]? = some st → st.inputs.Nodup
  disjoint : ∀ (x y : OrderId) st st', x ≠ y → orders[x]? = some st → orders[y]? = some st' →
    st.inputs.Disjoint st'.inputs
  selected : ∀ (x : OrderId) st, orders[x]? = some st → st ≠ .failed →
    Selected policyAsset log x st.inputs

namespace Reservations

variable {p : AssetId} {log : List Event} {orders : Std.TreeMap OrderId OrderState}

theorem append (h : Reservations p log orders) (es : List Event) :
    Reservations p (log ++ es) orders where
  nodup := h.nodup
  disjoint := h.disjoint
  selected x st hx hst := (h.selected x st hx hst).append es

/-- Writing an entry keeps the reservations when its coins are apart from
    those of all other orders. -/
theorem insert (h : Reservations p log orders) {x : OrderId} {st : OrderState}
    (hnodup : st.inputs.Nodup)
    (hapart : ∀ (y : OrderId) st', x ≠ y → orders[y]? = some st' → st.inputs.Disjoint st'.inputs)
    (hsel : st ≠ .failed → Selected p log x st.inputs) :
    Reservations p log (orders.insert x st) := by
  refine ⟨?_, ?_, ?_⟩
  · intro y st' hy
    rw [Table.getElem?_insert_eq] at hy
    split at hy
    · cases hy; exact hnodup
    · exact h.nodup y st' hy
  · intro y z st₁ st₂ hne hy hz
    rw [Table.getElem?_insert_eq] at hy hz
    split at hy
    · rename_i hxy
      rw [if_neg (fun hxz => hne (hxy.symm.trans hxz))] at hz
      cases hy
      exact hapart z st₂ (hxy ▸ hne) hz
    · split at hz
      · rename_i hxy hxz
        cases hz
        exact (hapart y st₁ hxy hy).symm
      · exact h.disjoint y z st₁ st₂ hne hy hz
  · intro y st' hy hst
    rw [Table.getElem?_insert_eq] at hy
    split at hy
    · rename_i hxy
      cases hy
      exact hxy ▸ hsel hst
    · exact h.selected y st' hy hst

theorem insert_failed (h : Reservations p log orders) (x : OrderId) :
    Reservations p log (orders.insert x .failed) :=
  h.insert List.nodup_nil (fun _ _ _ _ => List.disjoint_nil_left _) (fun hne => absurd rfl hne)

/-- A completed order keeps the coins it had. -/
theorem insert_succeed (h : Reservations p log orders) {x : OrderId} {inputs : List OutPoint}
    {txid : Txid} (hx : orders[x]? = some (.active inputs)) :
    Reservations p log ((orders.erase x).insert x (.succeed inputs txid)) := by
  have hins : Reservations p log (orders.insert x (.succeed inputs txid)) :=
    h.insert (h.nodup x (.active inputs) hx)
      (fun y st' hne hy => h.disjoint x y (.active inputs) st' hne hx hy)
      (fun _ => h.selected x (.active inputs) hx (fun hc => nomatch hc))
  have hlook : ∀ y : OrderId, ((orders.erase x).insert x (.succeed inputs txid))[y]? =
      (orders.insert x (.succeed inputs txid))[y]? := by
    intro y
    rw [Table.getElem?_insert_eq, Table.getElem?_insert_eq, Table.getElem?_erase_eq]
    by_cases hxy : x = y
    · rw [if_pos hxy, if_pos hxy]
    · rw [if_neg hxy, if_neg hxy, if_neg hxy]
  refine ⟨?_, ?_, ?_⟩
  · intro y st hy
    exact hins.nodup y st (hlook y ▸ hy)
  · intro y z st st' hne hy hz
    exact hins.disjoint y z st st' hne (hlook y ▸ hy) (hlook z ▸ hz)
  · intro y st hy hst
    exact hins.selected y st (hlook y ▸ hy) hst

end Reservations

/-! ## A reservation -/

/-- Every coin an order keeps is reserved. -/
theorem mem_reserved {d : Data} {out : OutPoint} :
    out ∈ reserved d ↔ ∃ (x : OrderId) (st : OrderState), d.orders[x]? = some st ∧ out ∈ st.inputs := by
  unfold reserved
  rw [List.mem_flatMap]
  constructor
  · rintro ⟨st, hst, hout⟩
    obtain ⟨x, hx⟩ := Table.mem_values_iff.mp hst
    exact ⟨x, st, hx, hout⟩
  · rintro ⟨x, st, hx, hout⟩
    exact ⟨st, Table.mem_values_iff.mpr ⟨x, hx⟩, hout⟩

/-- Mapping keeps a sub-multiset. -/
theorem subperm_map {α β : Type} (f : α → β) {l l' : List α} (h : l.Subperm l') :
    (l.map f).Subperm (l'.map f) := by
  obtain ⟨m, hperm, hsub⟩ := h
  exact ⟨m.map f, hperm.map f, hsub.map f⟩

/-- The free coins are coins of the snapshot that nobody keeps, each once. -/
theorem freeInputs_perm (world : World) (d : Data) (si : SwapInputs) (asset : AssetId) :
    (freeInputs world d si asset).Perm
      ((si.coins asset).filter fun coin => coin.outPoint ∉ reserved d) :=
  world.shuffle_perm _ _

section
variable {world : World} {d : Data} {si : SwapInputs} {asset : AssetId} {amount : Int}
  {inputs : List PsetInput}

/-- The selected coins are among the free ones, at distinct positions. -/
theorem selected_subperm_free
    (h : selectUtxoValues (candidates (freeInputs world d si asset)) amount = .ok inputs) :
    inputs.Subperm (((si.coins asset).filter fun coin => coin.outPoint ∉ reserved d).map
      convertToSwapUtxo) := by
  obtain ⟨taken, rest, hperm, -, rfl⟩ := selectUtxoValues_inv h
  have hsub : taken.Subperm (candidates (freeInputs world d si asset)) :=
    (List.sublist_append_left taken rest).subperm.trans hperm.subperm
  have hmap := subperm_map (·.2) hsub
  rw [candidates, List.map_map] at hmap
  exact hmap.trans ((freeInputs_perm world d si asset).map convertToSwapUtxo).subperm

/-- The selected coins are coins of the snapshot. -/
theorem selected_subperm
    (h : selectUtxoValues (candidates (freeInputs world d si asset)) amount = .ok inputs) :
    inputs.Subperm ((si.coins asset).map convertToSwapUtxo) :=
  (selected_subperm_free h).trans (List.filter_sublist.map _).subperm

/-- A selection from a valid snapshot names every coin once. -/
theorem selected_nodup (hv : si.Valid)
    (h : selectUtxoValues (candidates (freeInputs world d si asset)) amount = .ok inputs) :
    (inputs.map (·.outPoint)).Nodup := by
  have hsub := subperm_map (·.outPoint) (selected_subperm h)
  rw [List.map_map] at hsub
  obtain ⟨l, hl, hsl⟩ := hsub
  exact hl.nodup_iff.mp (hsl.nodup (hv.coins asset).1)

/-- A selection takes no coin another order keeps. -/
theorem selected_disjoint
    (h : selectUtxoValues (candidates (freeInputs world d si asset)) amount = .ok inputs) :
    (inputs.map (·.outPoint)).Disjoint (reserved d) := by
  intro out hout hres
  obtain ⟨input, hinput, rfl⟩ := List.mem_map.mp hout
  obtain ⟨coin, hcoin, rfl⟩ := List.mem_map.mp ((selected_subperm_free h).subset hinput)
  have hfree := (List.mem_filter.mp hcoin).2
  exact of_decide_eq_true hfree hres

/-- A selection from a valid snapshot is worth the amount. -/
theorem selected_sum (hv : si.Valid) (hlow : ¬ inputsAmount (freeInputs world d si asset) < amount)
    (h : selectUtxoValues (candidates (freeInputs world d si asset)) amount = .ok inputs) :
    amount ≤ (inputs.map fun input => (input.value : Int)).sum := by
  obtain ⟨taken, rest, hperm, hsel, rfl⟩ := selectUtxoValues_inv h
  have hpos := (selectUtxo_inv hsel).1
  have hamount : IsI64 amount := isI64_of_le_i64 hpos (not_lt.mp hlow)
  have hsat : ∀ coin ∈ freeInputs world d si asset,
      0 < coin.satoshi ∧ coin.satoshi < 2 ^ 63 := by
    intro coin hcoin
    have hmem := (freeInputs_perm world d si asset).subset hcoin
    exact (hv.coins asset).2 coin (List.mem_filter.mp hmem).1
  -- a positive amount below `2^63` is the same number as `i64`
  have hi64 : ∀ coin ∈ freeInputs world d si asset, i64 coin.satoshi = coin.satoshi := by
    intro coin hcoin
    exact i64_natCast (hsat coin hcoin).2
  have hin : ∀ v ∈ (candidates (freeInputs world d si asset)).map (·.1), 0 ≤ v ∧ v < 2 ^ 63 := by
    intro v hv
    rw [candidates, List.map_map] at hv
    obtain ⟨coin, hcoin, rfl⟩ := List.mem_map.mp hv
    have hbound := hsat coin hcoin
    obtain ⟨_, hlt⟩ := hsat coin hcoin
    rw [Function.comp_apply, hi64 coin hcoin]
    have hlt' : (coin.satoshi : Int) < 2 ^ 63 := by exact_mod_cast hlt
    exact ⟨Int.natCast_nonneg _, hlt'⟩
  have hcover := selectUtxo_sum hin hamount hsel
  have hvalues : taken.map (·.1) = (taken.map (·.2)).map fun input => (input.value : Int) := by
    rw [List.map_map]
    apply List.map_congr_left
    intro pair hpair
    have hmem := hperm.subset (List.mem_append_left rest hpair)
    obtain ⟨coin, hcoin, rfl⟩ := List.mem_map.mp hmem
    simp only [Function.comp_apply, convertToSwapUtxo, hi64 coin hcoin]
  rw [← hvalues]
  exact hcover

end

/-! ## Every run -/

/-- What the moves preserve. -/
structure ReservationInv (c : Config) : Prop where
  knows : c.Knows
  snapshot : c.data.swapInputs = latest snapshotOf c.data.log
  reservations : ValidSnapshots c.data.log →
    Reservations c.data.policyAsset c.data.log c.data.orders

/-- Effects that write no order and bring no snapshot. -/
theorem ReservationInv.quiet {c c' : Config} {es : List Event} (h : ReservationInv c)
    (hknows : c'.Knows) (horders : c'.data.orders = c.data.orders)
    (hsi : c'.data.swapInputs = c.data.swapInputs)
    (hpolicy : c'.data.policyAsset = c.data.policyAsset)
    (hlog : c'.data.log = c.data.log ++ es) (hes : es.filterMap snapshotOf = []) :
    ReservationInv c' := by
  refine ⟨hknows, ?_, ?_⟩
  · rw [hsi, hlog, h.snapshot, latest_append_none hes]
  · intro hv
    rw [hlog] at hv ⊢
    rw [horders, hpolicy]
    exact (h.reservations (hv.mono (List.subset_append_left _ _))).append es

/-- Effects that mark an order as failed. -/
theorem ReservationInv.failed {c c' : Config} {es : List Event} {x : OrderId}
    (h : ReservationInv c) (hknows : c'.Knows)
    (horders : c'.data.orders = c.data.orders.insert x .failed)
    (hsi : c'.data.swapInputs = c.data.swapInputs)
    (hpolicy : c'.data.policyAsset = c.data.policyAsset)
    (hlog : c'.data.log = c.data.log ++ es) (hes : es.filterMap snapshotOf = []) :
    ReservationInv c' := by
  refine ⟨hknows, ?_, ?_⟩
  · rw [hsi, hlog, h.snapshot, latest_append_none hes]
  · intro hv
    rw [hlog] at hv ⊢
    rw [horders, hpolicy]
    exact ((h.reservations (hv.mono (List.subset_append_left _ _))).insert_failed x).append es

/-- A cancellation brings no snapshot. -/
theorem cancelEvents_snapshotOf (d : Data) (x : OrderId) :
    (cancelEvents d x).filterMap snapshotOf = [] := by
  unfold cancelEvents
  split <;> rfl

/-- **EVERY MOVE KEEPS THE RESERVATIONS.** -/
theorem Move.reservationInv {world : World} {i : Input} {c c' : Config}
    (h : Move world i c c') (hI : ReservationInv c) : ReservationInv c' := by
  have hk := h.knows hI.knows
  cases h with
  | note hq hws =>
      refine hI.quiet hk rfl rfl rfl rfl ?_
      rename_i e
      cases e with
      | wallet resp => cases resp <;> first | rfl | exact nomatch hq
      | _ => rfl
  | connected => exact hI.quiet hk rfl rfl rfl (List.append_nil _).symm rfl
  | disconnected _ => exact hI.quiet hk rfl rfl rfl rfl rfl
  | respond _ _ => exact hI.quiet hk rfl rfl rfl rfl rfl
  | request => exact hI.quiet hk rfl rfl rfl rfl rfl
  | hold cb _ => exact hI.quiet hk rfl rfl rfl (List.append_nil _).symm rfl
  | drop _ => exact hI.quiet hk rfl rfl rfl (List.append_nil _).symm rfl
  | refuse => exact hI.quiet hk rfl rfl rfl rfl rfl
  | create resp => exact hI.quiet hk rfl rfl rfl rfl rfl
  | forward sign _ => exact hI.quiet hk rfl rfl rfl rfl rfl
  | verify _ _ => exact hI.quiet hk rfl rfl rfl rfl rfl
  | countDown _ => exact hI.quiet hk rfl rfl rfl (List.append_nil _).symm rfl
  | accept _ => exact hI.quiet hk (by simp) (by simp) (by simp) (by simp; rfl) rfl
  | store hc =>
      rw [makeAsyncRequest_connected hc] at hk ⊢
      exact hI.quiet hk rfl rfl rfl rfl rfl
  | fail => exact hI.failed hk rfl rfl rfl (List.append_nil _).symm rfl
  | cancel x =>
      exact hI.failed hk (cancelOrder_orders _ x) (by simp) (by simp) (cancelOrder_log _ x)
        (cancelEvents_snapshotOf _ x)
  | reject =>
      rename_i x _ _ _ _
      refine hI.failed (x := x) hk (cancelOrder_orders _ x) (by simp) (by simp)
        ((congrArg (· ++ [_]) (cancelOrder_log _ x)).trans (List.append_assoc _ _ _)) ?_
      rw [List.filterMap_append, cancelEvents_snapshotOf]
      rfl
  | duplicate =>
      rename_i x _ _ _
      refine hI.failed (x := x) hk (cancelOrder_orders _ x) (by simp) (by simp)
        ((cancelOrder_log _ x).trans (List.append_assoc _ _ _)) ?_
      rw [List.filterMap_append, cancelEvents_snapshotOf]
      rfl
  | snapshot =>
      refine ⟨hk, (latest_concat_some (f := snapshotOf) rfl _).symm, ?_⟩
      intro hv
      exact (hI.reservations (hv.mono (List.subset_append_left _ _))).append _
  | complete _ hx =>
      refine ⟨hk, ?_, ?_⟩
      · exact hI.snapshot.trans (latest_concat_none rfl _).symm
      · intro hv
        exact ((hI.reservations (hv.mono (List.subset_append_left _ _))).insert_succeed hx).append _
  | reserve _ hsi hlow hsel =>
      refine ⟨hk, ?_, ?_⟩
      · exact hI.snapshot.trans (latest_concat_none rfl _).symm
      · intro hv
        have hold := hI.reservations (hv.mono (List.subset_append_left _ _))
        have hlatest := hI.snapshot.symm.trans hsi
        obtain ⟨e, he, hesi⟩ := latest_mem hlatest
        have hvalid := hv _ (List.mem_filterMap.mpr ⟨e, List.mem_append_left _ he, hesi⟩)
        have hknown := hI.knows _ (.inl (List.mem_cons_self ..))
        refine (hold.append _).insert (selected_nodup hvalid hsel) ?_ ?_
        · intro y st' _ hy out hout hout'
          exact selected_disjoint hsel hout (mem_reserved.mpr ⟨y, st', hy, hout'⟩)
        · intro _
          exact ⟨_, [], _, _, _, _, rfl, hknown.2, hlatest, selected_subperm hsel, rfl,
            selected_sum hvalid hlow hsel⟩

/-- A crash leaves the reservations alone. -/
theorem crash_reservationInv {world : World} {s : System} {i : Input} (hs : s.crashed = false)
    (hc : (step world s i).crashed = true) (hI : ReservationInv s.config) :
    ReservationInv (step world s i).config := by
  obtain ⟨e, hdata, hnext, hevent⟩ := step_crashed hs hc
  unfold System.config at hI ⊢
  rw [hdata, hnext]
  have hk : Config.Knows ⟨s.data.emit e, [], s.nextSender⟩ := by
    intro cb hcb
    exact (hI.knows cb hcb).mono (List.subset_append_left _ _)
  refine hI.quiet hk rfl rfl rfl rfl ?_
  rcases hevent with ⟨resp, p, -, rfl, -⟩ | ⟨x, pset, rfl⟩ | ⟨x, rfl⟩ <;> rfl

theorem reaches_reservationInv {world : World} {ok : System → Input → Prop} {s : System}
    (h : Reaches world ok s) : ReservationInv s.config := by
  refine reaches_invariant ?_ ?_ ?_ h
  · intro policyAsset sessionId
    refine ⟨start_knows policyAsset sessionId, rfl, fun _ => ⟨?_, ?_, ?_⟩⟩
    · intro x st hx; simp [System.config, start] at hx
    · intro x y st st' _ hx; simp [System.config, start] at hx
    · intro x st hx; simp [System.config, start] at hx
  · intro i c c' hI hm
    exact hm.reservationInv hI
  · intro s i _ hs hc hI
    exact crash_reservationInv hs hc hI

/-- **HEADLESS ORDERS NEVER SHARE COINS.**  Whatever the order of requests,
    snapshots, responses and notifications: the coins of every order that is
    active or done are listed once, no two orders share one, and each list was
    selected from the snapshot held at that time and covers what the order
    sends. -/
theorem orders_reserve_disjoint_coins {world : World} {s : System}
    (h : Reaches world (fun _ _ => True) s) (hv : ValidSnapshots s.data.log) :
    Reservations s.data.policyAsset s.data.log s.data.orders :=
  (reaches_reservationInv h).reservations hv

/-- In the small run the coin is reserved for the order. -/
theorem sample_reserves_coin :
    let s := run Sample.world Sample.bitcoin Sample.answered
    s.data.orders[Sample.order]? = some (.active [Sample.coin.outPoint]) ∧
      Reservations s.data.policyAsset s.data.log s.data.orders := by
  intro s
  have hreach : Reaches Sample.world (fun _ _ => True) s := reaches_run (by decide +kernel)
  refine ⟨by decide +kernel, orders_reserve_disjoint_coins hreach ?_⟩
  intro si hsi
  rw [show s.data.log.filterMap snapshotOf = [Sample.snapshot] from rfl,
    List.mem_singleton] at hsi
  subst hsi
  intro asset coins hcoins
  simp only [Sample.snapshot, Table.getElem?_insert_eq, Std.TreeMap.getElem?_emptyc] at hcoins
  split at hcoins
  · cases hcoins
    decide
  · exact nomatch hcoins

end Headless
