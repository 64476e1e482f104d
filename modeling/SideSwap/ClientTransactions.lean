import Std.Data.String.ToInt
import SideSwap.ClientMessages

/-! # The list of transactions

    `send_new_transactions` of `sideswap_client/src/worker.rs` compares a
    snapshot of an account's transactions with what it has reported before:
    confirmed transactions are reported once, the others with every snapshot,
    and those that are gone are named in `RemovedTxs`.  The user interface
    (`AllTxsNotifier` of `tx_provider.dart`) folds these messages into a map.

    The interface keeps a transaction under its `TransItem.id`, which names the
    account; `RemovedTxs` carries the bare transaction ids.  A removal therefore
    removes nothing, and the interface tracks the wallet exactly as long as no
    transaction has to be removed. -/

namespace Client

open Api Table

/-! ## The worker's side -/

/-- `TX_CONF_COUNT_LIQUID`. -/
def txConfCountLiquid : Nat := 2

/-- `top_block + 1 - tx_block` in `u32`. -/
def confirmations (txBlock topBlock : Nat) : Nat := (topBlock + 1 - txBlock) % 2 ^ 32

/-- `confirmed_tx`. -/
def confirmedTx (txBlock topBlock : Nat) : Bool :=
  txBlock != 0 && topBlock != 0 && decide (txBlock ≤ topBlock) &&
    decide (txConfCountLiquid ≤ confirmations txBlock topBlock)

/-- `get_tx_item_confs`: a height above the last block counts as not mined. -/
def getTxItemConfs (txBlock topBlock : Nat) : Option Confs :=
  let txBlock := if topBlock < txBlock then 0 else txBlock
  if !confirmedTx txBlock topBlock then
    some ⟨if txBlock = 0 then 0 else confirmations txBlock topBlock, txConfCountLiquid⟩
  else none

/-- `Display for Txid`. -/
def txidText (txid : Txid) : String := String.ofList (toText txid)

/-- `tx_txitem_id`. -/
def txTxitemId (accountId : AccountId) (txid : Txid) : String :=
  Int.repr accountId ++ "/" ++ txidText txid

/-- How a transaction is shown. -/
def transItem (accountId : AccountId) (topBlock : Nat) (tx : Transaction) : TransItem where
  id := txTxitemId accountId tx.txid
  createdAt := tx.createdAt
  confs := getTxItemConfs tx.blockHeight topBlock
  account := accountId
  balances := tx.balances.filter (·.value != 0)
  memo := tx.memo
  networkFee := tx.networkFee
  txid := tx.txid
  size := tx.size
  vsize := tx.vsize
  balancesAll := tx.balancesAll

/-- What has been reported of the transactions of an account. -/
structure Reported where
  confirmed : Std.TreeSet Txid
  unconfirmed : Std.TreeSet Txid

/-- What a snapshot has to say beyond that, by transaction. -/
def Reported.updated (reported : Reported) (accountId : AccountId) (topBlock : Nat)
    (items : List Transaction) : Std.TreeMap Txid TransItem :=
  insertAll ∅ ((items.filter fun tx => !reported.confirmed.contains tx.txid).map fun tx =>
    (tx.txid, transItem accountId topBlock tx))

/-- The reported transactions that the snapshot has not got any more. -/
def Reported.removed (reported : Reported) (updated : Std.TreeMap Txid TransItem) : List Txid :=
  reported.unconfirmed.toList.filter fun txid => !updated.contains txid

/-- What has been reported after the snapshot. -/
def Reported.next (reported : Reported) (updated : Std.TreeMap Txid TransItem) : Reported where
  confirmed := updated.toList.foldl (fun confirmed line =>
    if line.2.confs.isNone then confirmed.insert line.1 else confirmed) reported.confirmed
  unconfirmed := updated.toList.foldl (fun unconfirmed line =>
    if line.2.confs.isNone then unconfirmed else unconfirmed.insert line.1) ∅

/-- `UpdatedTxs` and `RemovedTxs`, where there is something to say. -/
def transactionMsgs (updated : Std.TreeMap Txid TransItem) (removed : List Txid) : List FromMsg :=
  (if updated.isEmpty then [] else [.updatedTxs (values updated)]) ++
    if removed.isEmpty then [] else [.removedTxs (removed.map txidText)]

/-! ## The interface's side -/

/-- The state of `AllTxsNotifier`. -/
abbrev AllTxs := Std.TreeMap String TransItem

/-- `AllTxsNotifier.update` and `AllTxsNotifier.remove`. -/
def AllTxs.receive (allTxs : AllTxs) : FromMsg → AllTxs
  | .updatedTxs items => insertAll allTxs (items.map fun item => (item.id, item))
  | .removedTxs txids => eraseAll allTxs txids
  | _ => allTxs

/-! ## Both together -/

/-- A snapshot of an account, as the wallet session reports it. -/
structure Snapshot where
  accountId : AccountId
  topBlock : Nat
  items : List Transaction

/-- The worker's records and the interface's map. -/
structure TxView where
  reported : AccountId → Reported
  allTxs : AllTxs

/-- Nothing has been reported. -/
def TxView.initial : TxView := ⟨fun _ => ⟨∅, ∅⟩, ∅⟩

/-- What the worker says about a snapshot. -/
def TxView.messages (view : TxView) (snapshot : Snapshot) : List FromMsg :=
  let reported := view.reported snapshot.accountId
  let updated := reported.updated snapshot.accountId snapshot.topBlock snapshot.items
  transactionMsgs updated (reported.removed updated)

/-- A snapshot is handled, and the interface receives the messages. -/
def TxView.handle (view : TxView) (snapshot : Snapshot) : TxView :=
  let reported := view.reported snapshot.accountId
  let updated := reported.updated snapshot.accountId snapshot.topBlock snapshot.items
  { reported := Function.update view.reported snapshot.accountId (reported.next updated)
    allTxs := (view.messages snapshot).foldl AllTxs.receive view.allTxs }

/-- The view after a sequence of snapshots. -/
def TxView.after (snapshots : List Snapshot) : TxView :=
  snapshots.foldl TxView.handle TxView.initial

@[simp] theorem TxView.after_append (snapshots : List Snapshot) (snapshot : Snapshot) :
    TxView.after (snapshots ++ [snapshot]) = (TxView.after snapshots).handle snapshot := by
  rw [TxView.after, List.foldl_append]
  rfl

/-! ## What the interface should show -/

/-- The snapshot has the transaction. -/
def Snapshot.Lists (snapshot : Snapshot) (txid : Txid) : Prop :=
  ∃ tx ∈ snapshot.items, tx.txid = txid

/-- The latest snapshot of an account. -/
def latestSnapshot (snapshots : List Snapshot) (accountId : AccountId) : Option Snapshot :=
  (snapshots.filter (·.accountId = accountId)).getLast?

/-- The latest snapshot of the account has the transaction. -/
def InLatest (snapshots : List Snapshot) (accountId : AccountId) (txid : Txid) : Prop :=
  ∃ snapshot, latestSnapshot snapshots accountId = some snapshot ∧ snapshot.Lists txid

/-- One entry for each transaction of the latest snapshots, and no other. -/
structure Tracks (allTxs : AllTxs) (snapshots : List Snapshot) : Prop where
  one : ∀ accountId txid, InLatest snapshots accountId txid →
    ∃! key : String, ∃ item : TransItem, allTxs[key]? = some item ∧ item.account = accountId ∧ item.txid = txid
  other : ∀ (key : String) (item : TransItem), allTxs[key]? = some item →
    InLatest snapshots item.account item.txid

/-- The worker has told the interface that the transaction has enough
    confirmations. -/
def ReportedConfirmed (snapshots : List Snapshot) (accountId : AccountId) (txid : Txid) : Prop :=
  ∃ earlier snapshot items, ∃ item : TransItem, earlier ++ [snapshot] <+: snapshots ∧
    .updatedTxs items ∈ (TxView.after earlier).messages snapshot ∧ item ∈ items ∧
    item.account = accountId ∧ item.txid = txid ∧ item.confs = none

/-- What the wallet promises: a transaction reported with enough confirmations
    is in every later snapshot of its account. -/
def ConfirmedStay (snapshots : List Snapshot) : Prop :=
  ∀ earlier snapshot, earlier ++ [snapshot] <+: snapshots →
    ∀ txid, ReportedConfirmed earlier snapshot.accountId txid → snapshot.Lists txid

/-- A snapshot has every transaction that the account's snapshot before had. -/
def NeverDrops (snapshots : List Snapshot) : Prop :=
  ∀ earlier snapshot, earlier ++ [snapshot] <+: snapshots →
    ∀ txid, InLatest earlier snapshot.accountId txid → snapshot.Lists txid

theorem latestSnapshot_append (snapshots : List Snapshot) (snapshot : Snapshot)
    (accountId : AccountId) :
    latestSnapshot (snapshots ++ [snapshot]) accountId =
      if snapshot.accountId = accountId then some snapshot else latestSnapshot snapshots accountId := by
  unfold latestSnapshot
  rw [List.filter_append]
  by_cases h : snapshot.accountId = accountId
  · simp [h]
  · simp [h]

/-- One snapshot changes what the latest snapshots have for its account only. -/
theorem inLatest_append {snapshots : List Snapshot} {snapshot : Snapshot} {accountId : AccountId}
    {txid : Txid} : InLatest (snapshots ++ [snapshot]) accountId txid ↔
      if snapshot.accountId = accountId then snapshot.Lists txid
      else InLatest snapshots accountId txid := by
  unfold InLatest
  rw [latestSnapshot_append]
  by_cases h : snapshot.accountId = accountId
  · simp [h]
  · simp [h]

/-! ## The keys of the interface -/

theorem length_toText (id : Hash32) : (toText id).length = 64 := by
  simp [toText, HexText.print]

theorem toText_injective {id id' : Hash32} (h : toText id = toText id') : id = id' := by
  have hread := congrArg fromStr h
  rw [fromStr_toText, fromStr_toText] at hread
  exact Option.some.inj hread

theorem toList_txTxitemId (accountId : AccountId) (txid : Txid) :
    (txTxitemId accountId txid).toList = (Int.repr accountId).toList ++ ('/' :: toText txid) := by
  simp [txTxitemId, txidText]

/-- The key names the account and the transaction. -/
theorem txTxitemId_injective {a a' : AccountId} {t t' : Txid}
    (h : txTxitemId a t = txTxitemId a' t') : a = a' ∧ t = t' := by
  have hlist := congrArg String.toList h
  rw [toList_txTxitemId, toList_txTxitemId] at hlist
  -- the texts of the transactions have the same length
  obtain ⟨haccount, htail⟩ := List.append_inj' hlist (by simp [length_toText])
  refine ⟨Int.repr_injective (String.toList_inj.mp haccount), ?_⟩
  exact toText_injective (List.cons.inj htail).2

/-- No key is the bare text of a transaction id. -/
theorem txTxitemId_ne_txidText (accountId : AccountId) (txid txid' : Txid) :
    txTxitemId accountId txid ≠ txidText txid' := by
  intro h
  have hlength := congrArg (·.toList.length) h
  simp [toList_txTxitemId, txidText, length_toText] at hlength

/-! ## One snapshot -/

/-- The entries of a view are kept under their own names. -/
def Keyed (allTxs : AllTxs) : Prop :=
  ∀ (key : String) item, allTxs[key]? = some item → key = txTxitemId item.account item.txid

theorem not_contains_iff {txids : Std.TreeSet Txid} {txid : Txid} :
    (!txids.contains txid) = true ↔ txid ∉ txids := by
  rw [Bool.not_eq_true', ← Bool.not_eq_true, Std.TreeSet.contains_iff_mem]

/-- What is new in a snapshot comes from a transaction of it. -/
theorem getElem?_updated {reported : Reported} {snapshot : Snapshot} {txid : Txid}
    {item : TransItem}
    (h : (reported.updated snapshot.accountId snapshot.topBlock snapshot.items)[txid]? = some item) :
    ∃ tx ∈ snapshot.items, tx.txid = txid ∧ txid ∉ reported.confirmed ∧
      item = transItem snapshot.accountId snapshot.topBlock tx := by
  rcases getElem?_insertAll h with hempty | hmem
  · rw [Std.TreeMap.getElem?_emptyc] at hempty
    cases hempty
  · obtain ⟨tx, htx, heq⟩ := List.mem_map.mp hmem
    obtain ⟨hitem, hnew⟩ := List.mem_filter.mp htx
    cases heq
    exact ⟨tx, hitem, rfl, not_contains_iff.mp hnew, rfl⟩

/-- Every transaction of a snapshot is new in it or has been confirmed before. -/
theorem mem_updated {reported : Reported} {snapshot : Snapshot} {txid : Txid} :
    txid ∈ reported.updated snapshot.accountId snapshot.topBlock snapshot.items ↔
      snapshot.Lists txid ∧ txid ∉ reported.confirmed := by
  unfold Reported.updated
  rw [mem_insertAll]
  constructor
  · rintro (hempty | ⟨pair, hpair, rfl⟩)
    · exact absurd hempty Std.TreeMap.not_mem_emptyc
    · obtain ⟨tx, htx, rfl⟩ := List.mem_map.mp hpair
      obtain ⟨hitem, hnew⟩ := List.mem_filter.mp htx
      exact ⟨⟨tx, hitem, rfl⟩, not_contains_iff.mp hnew⟩
  · rintro ⟨⟨tx, hitem, rfl⟩, hnew⟩
    refine .inr ⟨_, List.mem_map.mpr ⟨tx, List.mem_filter.mpr ⟨hitem, ?_⟩, rfl⟩, rfl⟩
    exact not_contains_iff.mpr hnew

/-- The messages of a snapshot insert what is new and remove by text. -/
theorem foldl_transactionMsgs (allTxs : AllTxs) (updated : Std.TreeMap Txid TransItem)
    (removed : List Txid) : (transactionMsgs updated removed).foldl AllTxs.receive allTxs =
      eraseAll (insertAll allTxs ((values updated).map fun item => (item.id, item)))
        (removed.map txidText) := by
  unfold transactionMsgs
  rw [List.foldl_append]
  have hinsert : (if updated.isEmpty then [] else [FromMsg.updatedTxs (values updated)]).foldl
      AllTxs.receive allTxs =
        insertAll allTxs ((values updated).map fun item => (item.id, item)) := by
    split
    · next hempty =>
        have hnil : values updated = [] := by
          unfold values
          rw [List.map_eq_nil_iff, ← List.isEmpty_iff, Std.TreeMap.isEmpty_toList]
          exact hempty
        rw [hnil]
        rfl
    · rfl
  rw [hinsert]
  cases removed with
  | nil => rfl
  | cons txid removed => rfl

section Handle

variable {view : TxView} {snapshot : Snapshot}

/-- A snapshot adds the keys of its transactions and removes none: the texts
    that `RemovedTxs` carries are no keys. -/
theorem mem_handle (hkeyed : Keyed view.allTxs) {key : String} :
    key ∈ (view.handle snapshot).allTxs ↔ key ∈ view.allTxs ∨
      ∃ txid, snapshot.Lists txid ∧ txid ∉ (view.reported snapshot.accountId).confirmed ∧
        key = txTxitemId snapshot.accountId txid := by
  show key ∈ (view.messages snapshot).foldl AllTxs.receive view.allTxs ↔ _
  unfold TxView.messages
  rw [foldl_transactionMsgs, mem_eraseAll, mem_insertAll]
  have hentry : (∃ pair ∈ (values ((view.reported snapshot.accountId).updated snapshot.accountId
      snapshot.topBlock snapshot.items)).map fun item => (item.id, item), pair.1 = key) ↔
      ∃ txid, snapshot.Lists txid ∧ txid ∉ (view.reported snapshot.accountId).confirmed ∧
        key = txTxitemId snapshot.accountId txid := by
    constructor
    · rintro ⟨pair, hpair, rfl⟩
      obtain ⟨item, hitem, rfl⟩ := List.mem_map.mp hpair
      obtain ⟨txid, htxid⟩ := mem_values_iff.mp hitem
      obtain ⟨tx, htx, rfl, hnew, rfl⟩ := getElem?_updated htxid
      exact ⟨tx.txid, ⟨tx, htx, rfl⟩, hnew, rfl⟩
    · rintro ⟨txid, hlists, hnew, rfl⟩
      obtain ⟨item, hitem⟩ := Std.TreeMap.isSome_getElem?_iff_mem.mpr
        (mem_updated.mpr ⟨hlists, hnew⟩) |> Option.isSome_iff_exists.mp
      obtain ⟨tx, htx, rfl, hnew, rfl⟩ := getElem?_updated hitem
      exact ⟨_, List.mem_map.mpr ⟨_, mem_values_iff.mpr ⟨_, hitem⟩, rfl⟩, rfl⟩
  rw [hentry]
  constructor
  · exact fun h => h.1
  · intro h
    refine ⟨h, ?_⟩
    intro hremoved
    obtain ⟨txid, -, rfl⟩ := List.mem_map.mp hremoved
    rcases h with hold | ⟨txid', -, -, hkey⟩
    · obtain ⟨item, hitem⟩ := Option.isSome_iff_exists.mp
        (Std.TreeMap.isSome_getElem?_iff_mem.mpr hold)
      exact txTxitemId_ne_txidText _ _ _ (hkeyed _ item hitem).symm
    · exact txTxitemId_ne_txidText _ _ _ hkey.symm

/-- The entries stay under their own names. -/
theorem keyed_handle (hkeyed : Keyed view.allTxs) : Keyed (view.handle snapshot).allTxs := by
  intro key item hitem
  change ((view.messages snapshot).foldl AllTxs.receive view.allTxs)[key]? = some item at hitem
  unfold TxView.messages at hitem
  rw [foldl_transactionMsgs] at hitem
  rcases getElem?_insertAll (getElem?_eraseAll hitem) with hold | hnew
  · exact hkeyed key item hold
  · obtain ⟨item', hitem', heq⟩ := List.mem_map.mp hnew
    obtain ⟨txid, htxid⟩ := mem_values_iff.mp hitem'
    cases heq
    obtain ⟨tx, -, -, -, rfl⟩ := getElem?_updated htxid
    rfl

/-- A transaction becomes confirmed by being new and having enough
    confirmations. -/
theorem mem_confirmed_next {reported : Reported} {updated : Std.TreeMap Txid TransItem}
    {txid : Txid} (h : txid ∈ (reported.next updated).confirmed) :
    txid ∈ reported.confirmed ∨ txid ∈ updated := by
  have hfold : ∀ (lines : List (Txid × TransItem)) (confirmed : Std.TreeSet Txid),
      txid ∈ lines.foldl (fun confirmed line =>
        if line.2.confs.isNone then confirmed.insert line.1 else confirmed) confirmed →
      txid ∈ confirmed ∨ ∃ line ∈ lines, line.1 = txid := by
    intro lines
    induction lines with
    | nil => exact fun confirmed h => .inl h
    | cons line lines ih =>
        intro confirmed h
        rcases ih _ h with hinsert | ⟨line', hline', hkey⟩
        · dsimp only at hinsert
          split at hinsert
          · rcases Std.TreeSet.mem_insert.mp hinsert with hkey | hold
            · exact .inr ⟨line, List.mem_cons_self .., Std.compare_eq_iff_eq.mp hkey⟩
            · exact .inl hold
          · exact .inl hinsert
        · exact .inr ⟨line', List.mem_cons_of_mem line hline', hkey⟩
  rcases hfold updated.toList reported.confirmed h with hold | ⟨line, hline, rfl⟩
  · exact .inl hold
  · right
    have hfound := Std.TreeMap.mem_toList_iff_getElem?_eq_some.mp hline
    exact Std.TreeMap.isSome_getElem?_iff_mem.mp (Option.isSome_iff_exists.mpr ⟨_, hfound⟩)

end Handle

/-! ## Whole sequences -/

/-- The entries have their names, and what counts as confirmed is shown. -/
structure TxView.Sound (view : TxView) : Prop where
  keyed : Keyed view.allTxs
  confirmed : ∀ accountId, ∀ txid ∈ (view.reported accountId).confirmed,
    txTxitemId accountId txid ∈ view.allTxs

/-- One snapshot keeps the view sound. -/
theorem TxView.Sound.handle {view : TxView} (sound : view.Sound) (snapshot : Snapshot) :
    (view.handle snapshot).Sound where
  keyed := keyed_handle sound.keyed
  confirmed := by
    intro accountId txid htxid
    rw [mem_handle sound.keyed]
    by_cases haccount : accountId = snapshot.accountId
    · subst haccount
      -- the account of the snapshot: confirmed before, or new
      have hnext : txid ∈ ((view.reported snapshot.accountId).next
          ((view.reported snapshot.accountId).updated snapshot.accountId snapshot.topBlock
            snapshot.items)).confirmed := by
        simpa [TxView.handle] using htxid
      rcases mem_confirmed_next hnext with hold | hnew
      · exact .inl (sound.confirmed _ txid hold)
      · obtain ⟨hlists, hfresh⟩ := mem_updated.mp hnew
        exact .inr ⟨txid, hlists, hfresh, rfl⟩
    · have hsame : (view.handle snapshot).reported accountId = view.reported accountId := by
        simp [TxView.handle, Function.update_of_ne haccount]
      rw [hsame] at htxid
      exact .inl (sound.confirmed accountId txid htxid)

theorem sound_after (snapshots : List Snapshot) : (TxView.after snapshots).Sound := by
  induction snapshots using List.reverseRecOn with
  | nil =>
      constructor
      · intro key item hitem
        simp [TxView.after, TxView.initial] at hitem
      · intro accountId txid htxid
        simp [TxView.after, TxView.initial] at htxid
  | append_singleton snapshots snapshot ih =>
      rw [TxView.after_append]
      exact ih.handle snapshot

/-- The interface tracks the wallet iff its keys are those of the latest
    snapshots. -/
theorem tracks_iff_keys {snapshots earlier : List Snapshot} :
    Tracks (TxView.after earlier).allTxs snapshots ↔
      ∀ accountId txid, txTxitemId accountId txid ∈ (TxView.after earlier).allTxs ↔
        InLatest snapshots accountId txid := by
  have hkeyed := (sound_after earlier).keyed
  constructor
  · intro tracks accountId txid
    constructor
    · intro hmem
      obtain ⟨item, hitem⟩ := Option.isSome_iff_exists.mp
        (Std.TreeMap.isSome_getElem?_iff_mem.mpr hmem)
      obtain ⟨haccount, htxid⟩ := txTxitemId_injective (hkeyed _ item hitem)
      rw [haccount, htxid]
      exact tracks.other _ item hitem
    · intro hlatest
      obtain ⟨key, ⟨item, hitem, rfl, rfl⟩, -⟩ := tracks.one accountId txid hlatest
      rw [← hkeyed key item hitem]
      exact Std.TreeMap.isSome_getElem?_iff_mem.mp (Option.isSome_iff_exists.mpr ⟨_, hitem⟩)
  · intro hkeys
    constructor
    · intro accountId txid hlatest
      obtain ⟨item, hitem⟩ := Option.isSome_iff_exists.mp
        (Std.TreeMap.isSome_getElem?_iff_mem.mpr ((hkeys accountId txid).mpr hlatest))
      obtain ⟨rfl, rfl⟩ := txTxitemId_injective (hkeyed _ item hitem)
      refine ⟨_, ⟨item, hitem, rfl, rfl⟩, ?_⟩
      rintro key ⟨item', hitem', haccount, htxid⟩
      rw [hkeyed key item' hitem', haccount, htxid]
    · intro key item hitem
      refine (hkeys item.account item.txid).mp ?_
      rw [← hkeyed key item hitem]
      exact Std.TreeMap.isSome_getElem?_iff_mem.mp (Option.isSome_iff_exists.mpr ⟨_, hitem⟩)

/-- As long as nothing is dropped the keys are those of the latest snapshots. -/
theorem keys_of_neverDrops {snapshots : List Snapshot} (hkept : NeverDrops snapshots) :
    ∀ earlier, earlier <+: snapshots → ∀ accountId txid,
      txTxitemId accountId txid ∈ (TxView.after earlier).allTxs ↔
        InLatest earlier accountId txid := by
  intro earlier
  induction earlier using List.reverseRecOn with
  | nil =>
      intro _ accountId txid
      simp [TxView.after, TxView.initial, InLatest, latestSnapshot]
  | append_singleton earlier snapshot ih =>
      intro hprefix accountId txid
      have ih := ih ((List.prefix_append earlier [snapshot]).trans hprefix)
      rw [TxView.after_append, mem_handle (sound_after earlier).keyed, inLatest_append]
      constructor
      · rintro (hold | ⟨txid', hlists, -, hkey⟩)
        · have hlatest := (ih accountId txid).mp hold
          split
          · next haccount =>
              subst haccount
              exact hkept earlier snapshot hprefix txid hlatest
          · exact hlatest
        · obtain ⟨rfl, rfl⟩ := txTxitemId_injective hkey
          rwa [if_pos rfl]
      · split
        · next haccount =>
            subst haccount
            intro hlists
            by_cases hconfirmed :
                txid ∈ ((TxView.after earlier).reported snapshot.accountId).confirmed
            · exact .inl ((sound_after earlier).confirmed _ txid hconfirmed)
            · exact .inr ⟨txid, hlists, hconfirmed, rfl⟩
        · exact fun hlatest => .inl ((ih accountId txid).mpr hlatest)

/-- A transaction that is dropped stays in the interface. -/
theorem neverDrops_of_tracks {snapshots : List Snapshot}
    (htracks : ∀ earlier, earlier <+: snapshots → Tracks (TxView.after earlier).allTxs earlier) :
    NeverDrops snapshots := by
  intro earlier snapshot hprefix txid hlatest
  have hbefore := htracks earlier ((List.prefix_append earlier [snapshot]).trans hprefix)
  have hafter := htracks (earlier ++ [snapshot]) hprefix
  have hmem := (tracks_iff_keys.mp hbefore snapshot.accountId txid).mpr hlatest
  have hstays : txTxitemId snapshot.accountId txid ∈
      (TxView.after (earlier ++ [snapshot])).allTxs := by
    rw [TxView.after_append]
    exact (mem_handle (sound_after earlier).keyed).mpr (.inl hmem)
  have hlists := (tracks_iff_keys.mp hafter snapshot.accountId txid).mp hstays
  rwa [inLatest_append, if_pos rfl] at hlists

/-- **THE LIST TRACKS THE WALLET WHILE NOTHING IS DROPPED**: after every
    snapshot the interface shows the transactions of the latest snapshots and no
    other, exactly if no snapshot lacks a transaction of the one before. -/
theorem list_tracks_wallet (snapshots : List Snapshot) :
    (∀ earlier, earlier <+: snapshots → Tracks (TxView.after earlier).allTxs earlier) ↔
      NeverDrops snapshots := by
  constructor
  · exact neverDrops_of_tracks
  · intro hkept earlier hprefix
    exact tracks_iff_keys.mpr (keys_of_neverDrops hkept earlier hprefix)

/-- A transaction that is in the mempool of the first snapshot and gone with
    the second, as one that another has replaced. -/
def replacedTx : List Snapshot :=
  [⟨accountIdReg, 100, [⟨1, 26, 226, 200, "", [⟨7, 5000⟩], 1700000000000, 0, [⟨7, 5000⟩], 0, 0⟩]⟩,
    ⟨accountIdReg, 100, []⟩]

/-- A report names a transaction of a snapshot. -/
theorem exists_of_updatedTxs {view : TxView} {snapshot : Snapshot} {items : List TransItem}
    {item : TransItem} (hmsg : .updatedTxs items ∈ view.messages snapshot) (hitem : item ∈ items) :
    ∃ tx ∈ snapshot.items, item = transItem snapshot.accountId snapshot.topBlock tx := by
  unfold TxView.messages transactionMsgs at hmsg
  rcases List.mem_append.mp hmsg with hupdated | hremoved
  · split at hupdated
    · cases hupdated
    · cases List.mem_singleton.mp hupdated
      obtain ⟨txid, htxid⟩ := mem_values_iff.mp hitem
      obtain ⟨tx, htx, -, -, heq⟩ := getElem?_updated htxid
      exact ⟨tx, htx, heq⟩
  · split at hremoved
    · cases hremoved
    · cases List.mem_singleton.mp hremoved

/-- The wallet has kept its promise, and the replaced transaction is still
    shown. -/
theorem replaced_tx_stays :
    ConfirmedStay replacedTx ∧
      ¬ ∀ earlier, earlier <+: replacedTx → Tracks (TxView.after earlier).allTxs earlier := by
  constructor
  · rintro earlier snapshot hprefix txid ⟨earliest, first, items, item, hfirst, hmsg, hitem, -, -,
      hconfs⟩
    obtain ⟨tx, htx, rfl⟩ := exists_of_updatedTxs hmsg hitem
    have hmem : first ∈ replacedTx :=
      ((hfirst.trans ((List.prefix_append earlier [snapshot]).trans hprefix)).subset
        (List.mem_append_right _ (List.mem_singleton_self first)))
    -- no transaction of the two snapshots has a confirmation
    have hnone : ∀ snapshot ∈ replacedTx, ∀ tx ∈ snapshot.items,
        getTxItemConfs tx.blockHeight snapshot.topBlock ≠ none := by decide
    exact absurd hconfs (hnone first hmem tx htx)
  · intro htracks
    have hkept := neverDrops_of_tracks htracks [replacedTx[0]] replacedTx[1] (List.prefix_refl _) 1
      ⟨replacedTx[0], rfl, _, List.mem_singleton_self _, rfl⟩
    obtain ⟨tx, htx, -⟩ := hkept
    cases htx

end Client
