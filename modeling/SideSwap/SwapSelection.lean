import SideSwap.Handler

/-! # The selected pair of a swap

    `SwapChangeNotifierProvider` of `providers/swap_provider.dart` holds the
    asset that is sent and the one that is received.  Every setter is followed
    by `checkSelectedAsset`, which replaces a side that is not allowed by the
    first that is; what may be received depends on what is sent.

    With three assets and an instant-swap asset every handler returns and leaves
    an allowed pair (`run_allowed`).  `toggleAssets` is two setters in a row, and
    the second reads the side that the first has just written: the asset that
    was sent plays no part in what it leaves (`toggleAssets_spec`).  So it
    exchanges the sides only where the check happens to put the right asset back
    (`toggle_exchanges_iff`, `toggle_restores_iff`). -/

namespace SwapSelection

open Program

structure AccountType where
  id : Int
deriving DecidableEq, Repr

def AccountType.reg : AccountType := ⟨0⟩

def AccountType.amp : AccountType := ⟨1⟩

structure AccountAsset where
  account : AccountType
  assetId : Option String
deriving DecidableEq, Repr

/-- Of an asset only the flag for instant swaps is read here. -/
structure Asset where
  instantSwaps : Bool
deriving DecidableEq, Repr

/-- The state of `AssetsState`: a map that lists its entries in the order in
    which their keys were added. -/
structure AssetsState where
  entries : List (String × Asset)
  nodup : (entries.map Prod.fst).Nodup

namespace AssetsState

def keys (t : AssetsState) : List String := t.entries.map Prod.fst

/-- `{...state, assetId: asset}`: a known key keeps its place. -/
def updateEntries (entries : List (String × Asset)) (assetId : String) (asset : Asset) :
    List (String × Asset) :=
  if assetId ∈ entries.map Prod.fst then
    entries.map fun e => if e.1 = assetId then (e.1, asset) else e
  else entries ++ [(assetId, asset)]

theorem nodup_updateEntries {entries : List (String × Asset)}
    (h : (entries.map Prod.fst).Nodup) (assetId : String) (asset : Asset) :
    ((updateEntries entries assetId asset).map Prod.fst).Nodup := by
  unfold updateEntries
  by_cases hmem : assetId ∈ entries.map Prod.fst
  · have hkeys : (entries.map fun e => if e.1 = assetId then (e.1, asset) else e).map Prod.fst
        = entries.map Prod.fst := by
      rw [List.map_map]
      refine List.map_congr_left fun e _ => ?_
      rw [Function.comp_apply]
      split <;> rfl
    rw [if_pos hmem, hkeys]
    exact h
  · rw [if_neg hmem, List.map_append]
    refine List.nodup_append.mpr ⟨h, List.nodup_singleton _, ?_⟩
    intro a ha b hb hab
    rw [hab, List.mem_singleton.mp hb] at ha
    exact hmem ha

/-- `addAsset`; an asset that is already there as it is changes nothing. -/
def addAsset (t : AssetsState) (assetId : String) (asset : Asset) : AssetsState :=
  ⟨updateEntries t.entries assetId asset, nodup_updateEntries t.nodup assetId asset⟩

/-- The state before any asset is known. -/
def empty : AssetsState := ⟨[], List.nodup_nil⟩

/-- The ids of the instant-swap assets in the order of the table. -/
def instants (t : AssetsState) : List String :=
  (t.entries.filter fun e => e.2.instantSwaps).map Prod.fst

end AssetsState

inductive SwapType where
  | atomic
  | pegIn
  | pegOut
deriving DecidableEq, Repr

/-- The source's second wallet is called `extern`. -/
inductive SwapWallet where
  | local
  | external
deriving DecidableEq, Repr

/-- What the handlers read of other providers. -/
structure Env where
  assets : AssetsState
  bitcoinAssetId : String
  liquidAssetId : String
  tetherAssetId : String
  /-- the native check of a Bitcoin address -/
  isAddrTypeValid : String → Bool
  /-- the localisation of a text -/
  tr : String → String

/-- The fields of `SwapChangeNotifierProvider` and the two providers that
    `validateAddress` sets. -/
structure Selection where
  swapSendAsset : Option AccountAsset := none
  swapRecvAsset : Option AccountAsset := none
  swapPeg : Bool := false
  swapSendWallet : SwapWallet := .local
  swapRecvWallet : SwapWallet := .local
  swapRecvAddressExternal : String := ""
  swapAddressError : Option String := none
  showAddressLabel : Bool := false
deriving DecidableEq, Repr

/-- A regular account's asset. -/
def reg (assetId : String) : AccountAsset := ⟨.reg, some assetId⟩

/-- `asset?.assetId == id`. -/
def hasId (asset : Option AccountAsset) (id : String) : Bool :=
  (asset.bind AccountAsset.assetId) == some id

def swapSendAssets (env : Env) (s : Selection) : List AccountAsset :=
  if s.swapPeg then
    [reg env.bitcoinAssetId, reg env.liquidAssetId, ⟨.amp, some env.liquidAssetId⟩]
  else
    (env.assets.entries.filter fun e => e.1 == env.liquidAssetId || e.2.instantSwaps).map
      fun e => reg e.1

def swapRecvAssets (env : Env) (s : Selection) : List AccountAsset :=
  if s.swapPeg then
    if hasId s.swapSendAsset env.liquidAssetId then [reg env.bitcoinAssetId]
    else [reg env.liquidAssetId]
  else if !hasId s.swapSendAsset env.liquidAssetId then [reg env.liquidAssetId]
  else (env.assets.entries.filter fun e => e.2.instantSwaps).map fun e => reg e.1

def swapType (env : Env) (s : Selection) : SwapType :=
  if hasId s.swapSendAsset env.bitcoinAssetId && hasId s.swapRecvAsset env.liquidAssetId then
    .pegIn
  else if hasId s.swapSendAsset env.liquidAssetId && hasId s.swapRecvAsset env.bitcoinAssetId then
    .pegOut
  else .atomic

def allowedSendWallets (env : Env) (s : Selection) : List SwapWallet :=
  match swapType env s with
  | .atomic => [.local]
  | .pegIn => [.external]
  | .pegOut => [.local]

def allowedRecvWallets (env : Env) (s : Selection) : List SwapWallet :=
  match swapType env s with
  | .atomic => [.local]
  | .pegIn => [.local]
  | .pegOut => [.external]

/-- `if (!allowed.contains(selected)) selected = allowed.first`. -/
def orFirst {α : Type} [DecidableEq α] (allowed : List α) (selected : α) : Except Panic α :=
  if selected ∈ allowed then .ok selected else expect allowed.head? "Bad state: No element"

/-! ## The handlers -/

/-- A missing pair is set to L-BTC against USDt. -/
def withDefaults (env : Env) (s : Selection) : Selection :=
  if s.swapSendAsset.isNone then
    { s with
      swapPeg := false
      swapSendAsset := some (reg env.liquidAssetId)
      swapRecvAsset := some (reg env.tetherAssetId) }
  else s

def checkSelectedAsset (env : Env) : Prog Selection Unit :=
  if env.assets.entries.length < 3 then pure ()
  else do
    modify (withDefaults env)
    let s ← get
    let send ← ofPanic (orFirst ((swapSendAssets env s).map some) s.swapSendAsset)
    modify fun s => { s with swapSendAsset := send }
    let s ← get
    let recv ← ofPanic (orFirst ((swapRecvAssets env s).map some) s.swapRecvAsset)
    modify fun s => { s with swapRecvAsset := recv }
    let s ← get
    let wallet ← ofPanic (orFirst (allowedSendWallets env s) s.swapSendWallet)
    modify fun s => { s with swapSendWallet := wallet }
    let s ← get
    let wallet ← ofPanic (orFirst (allowedRecvWallets env s) s.swapRecvWallet)
    modify fun s => { s with swapRecvWallet := wallet }

def setSelectedLeftAsset (env : Env) (asset : AccountAsset) : Prog Selection Unit := do
  modify fun s => { s with swapSendAsset := some asset }
  checkSelectedAsset env

def setSelectedRightAsset (env : Env) (asset : AccountAsset) : Prog Selection Unit := do
  modify fun s => { s with swapRecvAsset := some asset }
  checkSelectedAsset env

def validateAddress (env : Env) (text : String) (s : Selection) : Selection :=
  if text.isEmpty then { s with swapAddressError := none, showAddressLabel := false }
  else if env.isAddrTypeValid text then
    { s with swapAddressError := none, showAddressLabel := true }
  else { s with swapAddressError := some (env.tr "Wrong address"), showAddressLabel := false }

/-- The setter of `swapRecvAddressExternal`. -/
def setRecvAddressExternal (env : Env) (text : String) : Prog Selection Unit :=
  modify fun s => validateAddress env text { s with swapRecvAddressExternal := text }

/-- The operator `!` on a null value throws. -/
def nonNull {α : Type} (o : Option α) : Except Panic α :=
  expect o "Null check operator used on a null value"

/-- `toggleAssets`.  What it schedules besides (`swapReset`, `clearAmounts` and
    the price subscription) changes other providers only. -/
def toggleAssets (env : Env) : Prog Selection Unit := do
  let recv ← ofPanic (nonNull (← get).swapRecvAsset)
  setSelectedLeftAsset env recv
  let send ← ofPanic (nonNull (← get).swapSendAsset)
  setSelectedRightAsset env send
  setRecvAddressExternal env ""

def setSwapPeg (env : Env) (value : Bool) : Prog Selection Unit := do
  let s ← get
  if s.swapPeg != value then do
    modify fun s => { s with swapPeg := value }
    checkSelectedAsset env
  else pure ()

def switchToSwaps (env : Env) : Prog Selection Unit := do
  setSwapPeg env false
  setRecvAddressExternal env ""

def switchToPegs (env : Env) : Prog Selection Unit := do
  setSwapPeg env true
  setSelectedLeftAsset env (reg env.bitcoinAssetId)
  setSelectedRightAsset env (reg env.liquidAssetId)
  setRecvAddressExternal env ""

/-- `setSendRadioCb`: a wallet that is not allowed is ignored. -/
def setSendRadioCb (env : Env) (v : SwapWallet) : Prog Selection Unit := do
  let s ← get
  if v ∈ allowedSendWallets env s then do
    modify fun s => { s with swapSendWallet := v }
    checkSelectedAsset env
  else pure ()

def setRecvRadioCb (env : Env) (v : SwapWallet) : Prog Selection Unit := do
  let s ← get
  if v ∈ allowedRecvWallets env s then do
    modify fun s => { s with swapRecvWallet := v }
    checkSelectedAsset env
  else pure ()

/-- What the widgets call. -/
inductive Action where
  | check
  | left (asset : AccountAsset)
  | right (asset : AccountAsset)
  | toggle
  | peg (value : Bool)
  | swaps
  | pegs
  | sendRadio (v : SwapWallet)
  | recvRadio (v : SwapWallet)

def act (env : Env) : Action → Prog Selection Unit
  | .check => checkSelectedAsset env
  | .left asset => setSelectedLeftAsset env asset
  | .right asset => setSelectedRightAsset env asset
  | .toggle => toggleAssets env
  | .peg value => setSwapPeg env value
  | .swaps => switchToSwaps env
  | .pegs => switchToPegs env
  | .sendRadio v => setSendRadioCb env v
  | .recvRadio v => setRecvRadioCb env v

/-! ## What a check leaves -/

/-- The tables the swap page is shown for. -/
structure Env.Ready (env : Env) : Prop where
  three : 3 ≤ env.assets.entries.length
  instant : ∃ e ∈ env.assets.entries, e.2.instantSwaps = true

theorem orFirst_mem {α : Type} [DecidableEq α] {allowed : List α} {selected : α}
    (h : selected ∈ allowed) : orFirst allowed selected = .ok selected := if_pos h

theorem orFirst_head {α : Type} [DecidableEq α] {allowed : List α} {selected a : α}
    (h : selected ∉ allowed) (ha : allowed.head? = some a) : orFirst allowed selected = .ok a := by
  unfold orFirst
  rw [if_neg h, ha]
  rfl

/-- With anything allowed, something allowed is selected. -/
theorem orFirst_returns {α : Type} [DecidableEq α] {allowed : List α} (h : allowed ≠ [])
    (selected : α) : ∃ a, orFirst allowed selected = .ok a ∧ a ∈ allowed := by
  by_cases hmem : selected ∈ allowed
  · exact ⟨selected, orFirst_mem hmem, hmem⟩
  · obtain ⟨a, rest, rfl⟩ := List.exists_cons_of_ne_nil h
    exact ⟨a, orFirst_head hmem rfl, List.mem_cons_self⟩

theorem swapSendAssets_ne_nil {env : Env} (h : env.Ready) (s : Selection) :
    swapSendAssets env s ≠ [] := by
  unfold swapSendAssets
  by_cases hpeg : s.swapPeg = true
  · rw [if_pos hpeg]
    exact List.cons_ne_nil _ _
  · obtain ⟨e, he, hi⟩ := h.instant
    rw [if_neg hpeg]
    refine List.ne_nil_of_mem (List.mem_map_of_mem (a := e) (List.mem_filter.mpr ⟨he, ?_⟩))
    rw [hi, Bool.or_true]

theorem swapRecvAssets_ne_nil {env : Env} (h : env.Ready) (s : Selection) :
    swapRecvAssets env s ≠ [] := by
  obtain ⟨e, he, hi⟩ := h.instant
  have hinst : (env.assets.entries.filter fun e => e.2.instantSwaps).map (fun e => reg e.1) ≠ [] :=
    List.ne_nil_of_mem (List.mem_map_of_mem (List.mem_filter.mpr ⟨he, hi⟩))
  unfold swapRecvAssets
  split_ifs
  · exact List.cons_ne_nil _ _
  · exact List.cons_ne_nil _ _
  · exact List.cons_ne_nil _ _
  · exact hinst

theorem allowedSendWallets_ne_nil (env : Env) (s : Selection) : allowedSendWallets env s ≠ [] := by
  unfold allowedSendWallets
  cases swapType env s <;> exact List.cons_ne_nil _ _

theorem allowedRecvWallets_ne_nil (env : Env) (s : Selection) : allowedRecvWallets env s ≠ [] := by
  unfold allowedRecvWallets
  cases swapType env s <;> exact List.cons_ne_nil _ _

/-- A selection that the check leaves as it is. -/
structure Allowed (env : Env) (s : Selection) : Prop where
  send : s.swapSendAsset ∈ (swapSendAssets env s).map some
  recv : s.swapRecvAsset ∈ (swapRecvAssets env s).map some
  sendWallet : s.swapSendWallet ∈ allowedSendWallets env s
  recvWallet : s.swapRecvWallet ∈ allowedRecvWallets env s

/-- What a check makes of a selection: the sides are settled one after the
    other, the received one by the sent one that was settled before it. -/
structure Settles (env : Env) (s s' : Selection) : Prop where
  peg : s'.swapPeg = s.swapPeg
  send : orFirst ((swapSendAssets env s).map some) s.swapSendAsset = .ok s'.swapSendAsset
  recv : orFirst ((swapRecvAssets env s').map some) s.swapRecvAsset = .ok s'.swapRecvAsset
  allowed : Allowed env s'

/-- **THE CHECK**: it returns and settles the pair it finds, or the default pair. -/
theorem checkSelectedAsset_settles {env : Env} (h : env.Ready) (s : Selection) :
    ∃ s', exec (checkSelectedAsset env) s = (.ok (), s') ∧ Settles env (withDefaults env s) s' := by
  obtain ⟨t, ht⟩ : ∃ t, t = withDefaults env s := ⟨_, rfl⟩
  obtain ⟨send, hsend, hsendMem⟩ := orFirst_returns
    (mt List.map_eq_nil_iff.mp (swapSendAssets_ne_nil h t)) t.swapSendAsset
  obtain ⟨t₁, ht₁⟩ : ∃ t₁ : Selection, t₁ = { t with swapSendAsset := send } := ⟨_, rfl⟩
  obtain ⟨recv, hrecv, hrecvMem⟩ := orFirst_returns
    (mt List.map_eq_nil_iff.mp (swapRecvAssets_ne_nil h t₁)) t₁.swapRecvAsset
  obtain ⟨t₂, ht₂⟩ : ∃ t₂ : Selection, t₂ = { t₁ with swapRecvAsset := recv } := ⟨_, rfl⟩
  obtain ⟨w, hw, hwMem⟩ := orFirst_returns (allowedSendWallets_ne_nil env t₂) t₂.swapSendWallet
  obtain ⟨t₃, ht₃⟩ : ∃ t₃ : Selection, t₃ = { t₂ with swapSendWallet := w } := ⟨_, rfl⟩
  obtain ⟨w', hw', hwMem'⟩ := orFirst_returns (allowedRecvWallets_ne_nil env t₃) t₃.swapRecvWallet
  refine ⟨{ t₃ with swapRecvWallet := w' }, ?_, ?_⟩
  · unfold checkSelectedAsset
    rw [if_neg (Nat.not_lt.mpr h.three), exec_modify_bind, exec_get_bind, ← ht,
      exec_ofPanic_ok_bind hsend, exec_modify_bind, exec_get_bind, ← ht₁,
      exec_ofPanic_ok_bind hrecv, exec_modify_bind, exec_get_bind, ← ht₂,
      exec_ofPanic_ok_bind hw, exec_modify_bind, exec_get_bind, ← ht₃,
      exec_ofPanic_ok_bind hw', exec_modify]
  · rw [← ht]
    subst ht₁ ht₂ ht₃
    exact ⟨rfl, hsend, hrecv, hsendMem, hrecvMem, hwMem, hwMem'⟩

/-! ## Every handler leaves an allowed pair -/

/-- The handler returns and leaves an allowed selection. -/
def Lands (env : Env) (p : Prog Selection Unit) (s : Selection) : Prop :=
  ∃ s', exec p s = (.ok (), s') ∧ Allowed env s'

theorem lands_check {env : Env} (h : env.Ready) (s : Selection) :
    Lands env (checkSelectedAsset env) s := by
  obtain ⟨s', hrun, hsettles⟩ := checkSelectedAsset_settles h s
  exact ⟨s', hrun, hsettles.allowed⟩

theorem lands_left {env : Env} (h : env.Ready) (asset : AccountAsset) (s : Selection) :
    Lands env (setSelectedLeftAsset env asset) s := by
  unfold Lands setSelectedLeftAsset
  rw [exec_modify_bind]
  exact lands_check h _

theorem lands_right {env : Env} (h : env.Ready) (asset : AccountAsset) (s : Selection) :
    Lands env (setSelectedRightAsset env asset) s := by
  unfold Lands setSelectedRightAsset
  rw [exec_modify_bind]
  exact lands_check h _

theorem Lands.bind {env : Env} {p q : Prog Selection Unit} {s : Selection} (hp : Lands env p s)
    (hq : ∀ s', Allowed env s' → Lands env q s') : Lands env (p >>= fun _ => q) s := by
  obtain ⟨s', hrun, hallowed⟩ := hp
  obtain ⟨s'', hrun', hallowed'⟩ := hq s' hallowed
  refine ⟨s'', ?_, hallowed'⟩
  rw [exec_bind, hrun]
  exact hrun'

/-- The address field plays no part in what is allowed. -/
theorem Allowed.validateAddress {env : Env} {s : Selection} (h : Allowed env s) (text : String) :
    Allowed env (validateAddress env text { s with swapRecvAddressExternal := text }) := by
  unfold SwapSelection.validateAddress
  split_ifs
  · exact ⟨h.send, h.recv, h.sendWallet, h.recvWallet⟩
  · exact ⟨h.send, h.recv, h.sendWallet, h.recvWallet⟩
  · exact ⟨h.send, h.recv, h.sendWallet, h.recvWallet⟩

theorem lands_address {env : Env} {s : Selection} (h : Allowed env s) (text : String) :
    Lands env (setRecvAddressExternal env text) s :=
  ⟨_, rfl, h.validateAddress text⟩

theorem lands_peg {env : Env} (h : env.Ready) {s : Selection} (hs : Allowed env s) (value : Bool) :
    Lands env (setSwapPeg env value) s := by
  unfold Lands setSwapPeg
  rw [exec_get_bind]
  by_cases hne : (s.swapPeg != value) = true
  · rw [if_pos hne, exec_modify_bind]
    exact lands_check h _
  · rw [if_neg hne]
    exact ⟨s, rfl, hs⟩

/-- `toggleAssets` in an allowed state: two checks, the second after the side
    that the first one settled was copied to the other. -/
theorem toggleAssets_settles {env : Env} (h : env.Ready) {s : Selection} {recv : AccountAsset}
    (hrecv : s.swapRecvAsset = some recv) :
    ∃ s₁ s₂, Settles env { s with swapSendAsset := some recv } s₁ ∧
      Settles env { s₁ with swapRecvAsset := s₁.swapSendAsset } s₂ ∧
      exec (toggleAssets env) s =
        (.ok (), validateAddress env "" { s₂ with swapRecvAddressExternal := "" }) := by
  obtain ⟨s₁, hrun₁, hs₁⟩ :=
    checkSelectedAsset_settles h { s with swapSendAsset := some recv }
  obtain ⟨send, hsendMem, hsend⟩ := List.mem_map.mp hs₁.allowed.send
  obtain ⟨s₂, hrun₂, hs₂⟩ :=
    checkSelectedAsset_settles h { s₁ with swapRecvAsset := some send }
  have hset : withDefaults env { s₁ with swapRecvAsset := some send } =
      { s₁ with swapRecvAsset := s₁.swapSendAsset } := by
    unfold withDefaults
    rw [← hsend]
    rfl
  rw [hset] at hs₂
  refine ⟨s₁, s₂, hs₁, hs₂, ?_⟩
  unfold toggleAssets
  rw [exec_get_bind, exec_ofPanic_ok_bind (a := recv) (by rw [hrecv]; rfl), exec_bind]
  have hleft : exec (setSelectedLeftAsset env recv) s = (.ok (), s₁) := hrun₁
  rw [hleft]
  have hright : exec (setSelectedRightAsset env send) s₁ = (.ok (), s₂) := hrun₂
  show exec (get >>= _) s₁ = _
  rw [exec_get_bind, exec_ofPanic_ok_bind (a := send) (by rw [← hsend]; rfl), exec_bind, hright]
  rfl

theorem lands_toggle {env : Env} (h : env.Ready) {s : Selection} (hs : Allowed env s) :
    Lands env (toggleAssets env) s := by
  obtain ⟨recv, -, hrecv⟩ := List.mem_map.mp hs.recv
  obtain ⟨s₁, s₂, -, hs₂, hrun⟩ := toggleAssets_settles h hrecv.symm
  exact ⟨_, hrun, hs₂.allowed.validateAddress ""⟩

/-- One call of a handler. -/
theorem lands_act {env : Env} (h : env.Ready) {s : Selection} (hs : Allowed env s) (a : Action) :
    Lands env (act env a) s := by
  cases a with
  | check => exact lands_check h s
  | left asset => exact lands_left h asset s
  | right asset => exact lands_right h asset s
  | toggle => exact lands_toggle h hs
  | peg value => exact lands_peg h hs value
  | swaps => exact (lands_peg h hs false).bind fun s' hs' => lands_address hs' ""
  | pegs =>
      refine (lands_peg h hs true).bind fun s' _ => ?_
      refine (lands_left h _ s').bind fun s'' _ => ?_
      exact (lands_right h _ s'').bind fun s''' hs''' => lands_address hs''' ""
  | sendRadio v =>
      unfold Lands act setSendRadioCb
      rw [exec_get_bind]
      by_cases hv : v ∈ allowedSendWallets env s
      · rw [if_pos hv, exec_modify_bind]
        exact lands_check h _
      · rw [if_neg hv]
        exact ⟨s, rfl, hs⟩
  | recvRadio v =>
      unfold Lands act setRecvRadioCb
      rw [exec_get_bind]
      by_cases hv : v ∈ allowedRecvWallets env s
      · rw [if_pos hv, exec_modify_bind]
        exact lands_check h _
      · rw [if_neg hv]
        exact ⟨s, rfl, hs⟩

/-- **ALWAYS ALLOWED**: over any run of handlers from the first check on, none
    throws and the pair stays allowed. -/
theorem run_allowed {env : Env} (h : env.Ready) (start : Selection) (actions : List Action) :
    ∃ s, exec (checkSelectedAsset env >>= fun _ => actions.forM (act env)) start = (.ok (), s) ∧
      Allowed env s := by
  have hrun : ∀ s, Allowed env s → Lands env (actions.forM (act env)) s := by
    induction actions with
    | nil => exact fun s hs => ⟨s, rfl, hs⟩
    | cons a rest ih => exact fun s hs => (lands_act h hs a).bind ih
  exact (lands_check h start).bind hrun

/-! ## Toggling in swap mode -/

/-- What may be sent in swap mode. -/
def sendable (env : Env) : List AccountAsset := swapSendAssets env {}

/-- What may be received for an asset in swap mode. -/
def receivable (env : Env) (send : AccountAsset) : List AccountAsset :=
  swapRecvAssets env { swapSendAsset := some send }

/-- A pair that is selected in swap mode and allowed there. -/
structure Selected (env : Env) (s : Selection) (send recv : AccountAsset) : Prop where
  swapMode : s.swapPeg = false
  sent : s.swapSendAsset = some send
  received : s.swapRecvAsset = some recv
  sendAllowed : send ∈ swapSendAssets env s
  recvAllowed : recv ∈ swapRecvAssets env s

theorem swapSendAssets_swapMode {env : Env} {s : Selection} (h : s.swapPeg = false) :
    swapSendAssets env s = sendable env := by
  unfold sendable swapSendAssets
  rw [h]

theorem swapRecvAssets_swapMode {env : Env} {s : Selection} {send : AccountAsset}
    (h : s.swapPeg = false) (hsend : s.swapSendAsset = some send) :
    swapRecvAssets env s = receivable env send := by
  unfold receivable swapRecvAssets
  rw [h, hsend]

theorem orFirst_map_some {α : Type} [DecidableEq α] {allowed : List α} {selected : α}
    {o : Option α} (h : orFirst (allowed.map some) (some selected) = .ok o) :
    ∃ a, o = some a ∧ orFirst allowed selected = .ok a := by
  by_cases hmem : selected ∈ allowed
  · rw [orFirst_mem (List.mem_map_of_mem hmem)] at h
    cases h
    exact ⟨selected, rfl, orFirst_mem hmem⟩
  · have hmap : some selected ∉ allowed.map some := by
      intro hc
      obtain ⟨a, ha, heq⟩ := List.mem_map.mp hc
      exact hmem (Option.some.inj heq ▸ ha)
    cases allowed with
    | nil => exact nomatch h
    | cons a rest =>
        rw [orFirst_head hmap rfl] at h
        cases h
        exact ⟨a, rfl, orFirst_head hmem rfl⟩

/-- The pair a toggle leaves, from the received asset alone: it becomes the sent
    side, and the sent side, not the asset sent before, is tried as the other. -/
def turn (env : Env) (recv : AccountAsset) : Except Panic (AccountAsset × AccountAsset) := do
  let send ← orFirst (sendable env) recv
  let recv ← orFirst (receivable env send) send
  pure (send, recv)

theorem turn_eq {env : Env} {recv send recv' : AccountAsset}
    (hsend : orFirst (sendable env) recv = .ok send)
    (hrecv : orFirst (receivable env send) send = .ok recv') :
    turn env recv = .ok (send, recv') := by
  unfold turn
  rw [hsend]
  show (orFirst (receivable env send) send >>= _) = _
  rw [hrecv]
  rfl

/-- **TOGGLE**: in swap mode it leaves the pair `turn` gives, selected again. -/
theorem toggleAssets_spec {env : Env} (h : env.Ready) {s : Selection} {send recv : AccountAsset}
    (hs : Selected env s send recv) :
    ∃ s' send' recv', exec (toggleAssets env) s = (.ok (), s') ∧
      Selected env s' send' recv' ∧ turn env recv = .ok (send', recv') := by
  obtain ⟨s₁, s₂, hs₁, hs₂, hrun⟩ := toggleAssets_settles h hs.received
  have hpeg₁ : s₁.swapPeg = false := hs₁.peg.trans hs.swapMode
  have hpeg₂ : s₂.swapPeg = false := hs₂.peg.trans hpeg₁
  -- the first check settles the sent side, the second leaves it
  have hfirst := hs₁.send
  rw [swapSendAssets_swapMode (show Selection.swapPeg { s with swapSendAsset := some recv } = false
    from hs.swapMode)] at hfirst
  obtain ⟨send', hsend₁, hturn₁⟩ := orFirst_map_some hfirst
  have hsend₂ : s₂.swapSendAsset = some send' := by
    have hkeep := orFirst_mem hs₁.allowed.send
    have hsecond : orFirst ((swapSendAssets env s₁).map some) s₁.swapSendAsset =
      .ok s₂.swapSendAsset := hs₂.send
    rw [hkeep] at hsecond
    rw [← hsend₁]
    exact (Except.ok.inj hsecond).symm
  have hrecv₂ : orFirst ((receivable env send').map some) (some send') = .ok s₂.swapRecvAsset := by
    have hsecond := hs₂.recv
    rw [swapRecvAssets_swapMode hpeg₂ hsend₂] at hsecond
    rw [← hsecond, ← hsend₁]
  obtain ⟨recv', hrecv', hturn₂⟩ := orFirst_map_some hrecv₂
  refine ⟨_, send', recv', hrun, ?_, turn_eq hturn₁ hturn₂⟩
  obtain ⟨a, ha, hae⟩ := List.mem_map.mp hs₂.allowed.send
  obtain ⟨b, hb, hbe⟩ := List.mem_map.mp hs₂.allowed.recv
  rw [hsend₂] at hae
  rw [hrecv'] at hbe
  cases hae
  cases hbe
  exact ⟨hpeg₂, hsend₂, hrecv', ha, hb⟩

theorem AssetsState.mem_instants {t : AssetsState} {id : String} :
    id ∈ t.instants ↔ ∃ e ∈ t.entries, e.2.instantSwaps = true ∧ e.1 = id := by
  unfold AssetsState.instants
  simp only [List.mem_map, List.mem_filter, and_assoc]

theorem mem_sendable {env : Env} {a : AccountAsset} :
    a ∈ sendable env ↔ ∃ id, a = reg id ∧ id ∈ env.assets.keys ∧
      (id = env.liquidAssetId ∨ id ∈ env.assets.instants) := by
  unfold sendable swapSendAssets AssetsState.keys
  rw [if_neg (by decide)]
  simp only [List.mem_map, List.mem_filter, Bool.or_eq_true, beq_iff_eq,
    AssetsState.mem_instants]
  constructor
  · rintro ⟨e, ⟨he, hor⟩, rfl⟩
    exact ⟨e.1, rfl, ⟨e, he, rfl⟩, hor.imp_right fun hi => ⟨e, he, hi, rfl⟩⟩
  · rintro ⟨id, rfl, ⟨e, he, rfl⟩, hor⟩
    rcases hor with hor | ⟨e', he', hi, heq⟩
    · exact ⟨e, ⟨he, .inl hor⟩, rfl⟩
    · exact ⟨e', ⟨he', .inr hi⟩, congrArg reg heq⟩

theorem receivable_liquid (env : Env) :
    receivable env (reg env.liquidAssetId) = env.assets.instants.map reg := by
  unfold receivable swapRecvAssets AssetsState.instants
  rw [if_neg Bool.false_ne_true, List.map_map]
  simp only [hasId, reg, Option.bind_some, beq_self_eq_true]
  rfl

theorem receivable_other {env : Env} {id : String} (h : id ≠ env.liquidAssetId) :
    receivable env (reg id) = [reg env.liquidAssetId] := by
  have hid : hasId (some (reg id)) env.liquidAssetId = false := by
    simpa only [hasId, reg, Option.bind_some, beq_eq_false_iff_ne, ne_eq, Option.some.injEq] using h
  unfold receivable swapRecvAssets
  rw [if_neg Bool.false_ne_true, hid]
  rfl

theorem reg_inj {a b : String} (h : reg a = reg b) : a = b :=
  Option.some.inj (congrArg AccountAsset.assetId h)

/-- An asset other than L-BTC is turned against L-BTC. -/
theorem turn_other {env : Env} {id : String} (hne : id ≠ env.liquidAssetId)
    (hmem : reg id ∈ sendable env) : turn env (reg id) = .ok (reg id, reg env.liquidAssetId) := by
  have hnot : reg id ∉ receivable env (reg id) := by
    rw [receivable_other hne]
    exact fun h => hne (reg_inj (List.mem_singleton.mp h))
  have hhead : (receivable env (reg id)).head? = some (reg env.liquidAssetId) := by
    rw [receivable_other hne]
    rfl
  exact turn_eq (orFirst_mem hmem) (orFirst_head hnot hhead)

/-- L-BTC is turned against itself where it is an instant-swap asset. -/
theorem turn_liquid_self {env : Env} (hmem : reg env.liquidAssetId ∈ sendable env)
    (hinst : env.liquidAssetId ∈ env.assets.instants) :
    turn env (reg env.liquidAssetId) = .ok (reg env.liquidAssetId, reg env.liquidAssetId) := by
  refine turn_eq (orFirst_mem hmem) (orFirst_mem ?_)
  rw [receivable_liquid]
  exact List.mem_map_of_mem hinst

/-- The asset that a toggle sets against L-BTC. -/
def PutsBack (env : Env) (id : String) : Prop :=
  env.liquidAssetId ∈ env.assets.keys ∧ env.liquidAssetId ∉ env.assets.instants ∧
    env.assets.instants.head? = some id

theorem PutsBack.ne {env : Env} {id : String} (h : PutsBack env id) : id ≠ env.liquidAssetId :=
  fun e => h.2.1 (e ▸ List.mem_of_head? h.2.2)

/-- L-BTC is turned against another asset exactly where that is put back. -/
theorem turn_liquid_iff {env : Env} (h : env.Ready) {id : String} (hne : id ≠ env.liquidAssetId) :
    turn env (reg env.liquidAssetId) = .ok (reg env.liquidAssetId, reg id) ↔ PutsBack env id := by
  by_cases hkey : env.liquidAssetId ∈ env.assets.keys
  · have hmem : reg env.liquidAssetId ∈ sendable env := mem_sendable.mpr ⟨_, rfl, hkey, .inl rfl⟩
    by_cases hinst : env.liquidAssetId ∈ env.assets.instants
    · -- L-BTC is left on both sides
      rw [turn_liquid_self hmem hinst]
      constructor
      · intro heq
        exact absurd (reg_inj (congrArg Prod.snd (Except.ok.inj heq))).symm hne
      · exact fun hback => absurd hinst hback.2.1
    · -- the first instant-swap asset is put beside it
      obtain ⟨e, he, hi⟩ := h.instant
      obtain ⟨first, rest, hlist⟩ := List.exists_cons_of_ne_nil
        (List.ne_nil_of_mem (AssetsState.mem_instants.mpr ⟨e, he, hi, rfl⟩))
      have hnot : reg env.liquidAssetId ∉ receivable env (reg env.liquidAssetId) := by
        rw [receivable_liquid]
        intro hc
        obtain ⟨id', hid', heq⟩ := List.mem_map.mp hc
        exact hinst (reg_inj heq ▸ hid')
      have hhead : (receivable env (reg env.liquidAssetId)).head? = some (reg first) := by
        rw [receivable_liquid, hlist]
        rfl
      have hturn := turn_eq (orFirst_mem hmem) (orFirst_head hnot hhead)
      rw [hturn]
      constructor
      · intro heq
        have hfirst := reg_inj (congrArg Prod.snd (Except.ok.inj heq))
        exact ⟨hkey, hinst, by rw [hlist, hfirst]; rfl⟩
      · rintro ⟨-, -, hhead⟩
        rw [hlist] at hhead
        cases hhead
        rfl
  · -- L-BTC cannot be sent at all
    constructor
    · intro heq
      unfold turn at heq
      obtain ⟨send, hsend, hrest⟩ := bind_returns heq
      obtain ⟨recv, -, hpair⟩ := bind_returns hrest
      cases hpair
      obtain ⟨a, ha, hamem⟩ := orFirst_returns (swapSendAssets_ne_nil h {}) (reg env.liquidAssetId)
      cases hsend.symm.trans ha
      obtain ⟨id', heq, hid', -⟩ := mem_sendable.mp hamem
      exact absurd (reg_inj heq ▸ hid') hkey
    · exact fun hback => absurd hback.1 hkey

/-- A toggle leaves the pair the other way round. -/
def Exchanges (env : Env) (s : Selection) (send recv : AccountAsset) : Prop :=
  ∃ s', exec (toggleAssets env) s = (.ok (), s') ∧
    s'.swapSendAsset = some recv ∧ s'.swapRecvAsset = some send

/-- Two toggles leave the pair as it was. -/
def Restores (env : Env) (s : Selection) (send recv : AccountAsset) : Prop :=
  ∃ s', exec (toggleAssets env >>= fun _ => toggleAssets env) s = (.ok (), s') ∧
    s'.swapSendAsset = some send ∧ s'.swapRecvAsset = some recv

theorem exchanges_iff_turn {env : Env} (h : env.Ready) {s : Selection} {send recv : AccountAsset}
    (hs : Selected env s send recv) :
    Exchanges env s send recv ↔ turn env recv = .ok (recv, send) := by
  obtain ⟨s', send', recv', hrun, hsel, hturn⟩ := toggleAssets_spec h hs
  unfold Exchanges
  rw [hrun, hturn]
  constructor
  · rintro ⟨s'', heq, hsend, hrecv⟩
    cases heq
    rw [hsel.sent] at hsend
    rw [hsel.received] at hrecv
    cases hsend
    cases hrecv
    rfl
  · intro heq
    cases heq
    exact ⟨s', rfl, hsel.sent, hsel.received⟩

/-- After an exchange the second toggle starts from the exchanged pair. -/
theorem restores_iff_turn {env : Env} (h : env.Ready) {s : Selection} {send recv : AccountAsset}
    (hs : Selected env s send recv) (hex : Exchanges env s send recv) :
    Restores env s send recv ↔ turn env send = .ok (send, recv) := by
  obtain ⟨s', send', recv', hrun, hsel, hturn⟩ := toggleAssets_spec h hs
  cases hturn.symm.trans ((exchanges_iff_turn h hs).mp hex)
  rw [← exchanges_iff_turn h hsel]
  unfold Restores Exchanges
  rw [exec_bind, hrun]

/-- A selected pair has L-BTC on one side at least. -/
theorem Selected.cases {env : Env} {s : Selection} {send recv : AccountAsset}
    (hs : Selected env s send recv) :
    (∃ id, send = reg env.liquidAssetId ∧ recv = reg id ∧ id ∈ env.assets.instants ∧
      reg id ∈ sendable env) ∨
    ∃ id, send = reg id ∧ id ≠ env.liquidAssetId ∧ recv = reg env.liquidAssetId ∧
      reg id ∈ sendable env := by
  have hsend := hs.sendAllowed
  have hrecv := hs.recvAllowed
  rw [swapSendAssets_swapMode hs.swapMode] at hsend
  rw [swapRecvAssets_swapMode hs.swapMode hs.sent] at hrecv
  obtain ⟨id, rfl, hkey, hor⟩ := mem_sendable.mp hsend
  by_cases hid : id = env.liquidAssetId
  · subst hid
    rw [receivable_liquid] at hrecv
    obtain ⟨id, hinst, rfl⟩ := List.mem_map.mp hrecv
    obtain ⟨e, he, -, rfl⟩ := AssetsState.mem_instants.mp hinst
    exact .inl ⟨_, rfl, rfl, hinst,
      mem_sendable.mpr ⟨_, rfl, List.mem_map_of_mem he, .inr hinst⟩⟩
  · rw [receivable_other hid] at hrecv
    exact .inr ⟨id, rfl, hid, List.mem_singleton.mp hrecv, hsend⟩

/-- **TOGGLE EXCHANGES**: a toggle exchanges the two sides exactly if L-BTC is
    sent, or the asset that is sent is the one that is put back. -/
theorem toggle_exchanges_iff {env : Env} (h : env.Ready) {s : Selection}
    {send recv : AccountAsset} (hs : Selected env s send recv) :
    Exchanges env s send recv ↔
      send = reg env.liquidAssetId ∨ ∃ id, send = reg id ∧ PutsBack env id := by
  rw [exchanges_iff_turn h hs]
  rcases hs.cases with ⟨id, rfl, rfl, hinst, hmem⟩ | ⟨id, rfl, hne, rfl, hmem⟩
  · refine iff_of_true ?_ (.inl rfl)
    by_cases hid : id = env.liquidAssetId
    · subst hid
      exact turn_liquid_self hmem hinst
    · exact turn_other hid hmem
  · rw [turn_liquid_iff h hne]
    constructor
    · exact fun hback => .inr ⟨id, rfl, hback⟩
    · rintro (heq | ⟨id', heq, hback⟩)
      · exact absurd (reg_inj heq) hne
      · exact reg_inj heq ▸ hback

/-- **TOGGLE EXCHANGES AND RESTORES**: the two sides are exchanged, and restored
    by a second toggle, exactly if they are equal, or the side that is not L-BTC
    is the asset that is put back. -/
theorem toggle_restores_iff {env : Env} (h : env.Ready) {s : Selection}
    {send recv : AccountAsset} (hs : Selected env s send recv) :
    (Exchanges env s send recv ∧ Restores env s send recv) ↔
      send = recv ∨ ∃ id, (send = reg id ∨ recv = reg id) ∧ PutsBack env id := by
  have hboth : (Exchanges env s send recv ∧ Restores env s send recv) ↔
      Exchanges env s send recv ∧ turn env send = .ok (send, recv) :=
    and_congr_right fun hex => restores_iff_turn h hs hex
  rw [hboth, toggle_exchanges_iff h hs]
  rcases hs.cases with ⟨id, rfl, rfl, hinst, hmem⟩ | ⟨id, rfl, hne, rfl, hmem⟩
  · -- L-BTC is sent: the first toggle exchanges, the second has to put `id` back
    by_cases hid : id = env.liquidAssetId
    · subst hid
      exact iff_of_true ⟨.inl rfl, turn_liquid_self hmem hinst⟩ (.inl rfl)
    rw [turn_liquid_iff h hid]
    constructor
    · exact fun hback => .inr ⟨id, .inr rfl, hback.2⟩
    · rintro (heq | ⟨id', heq | heq, hback⟩)
      · exact absurd (reg_inj heq).symm hid
      · exact absurd (reg_inj heq).symm hback.ne
      · exact ⟨.inl rfl, reg_inj heq ▸ hback⟩
  · -- L-BTC is received: the first toggle has to put `id` back
    constructor
    · rintro ⟨heq | ⟨id', heq, hback⟩, -⟩
      · exact absurd (reg_inj heq) hne
      · exact .inr ⟨id', .inl heq, hback⟩
    · rintro (heq | ⟨id', heq | heq, hback⟩)
      · exact absurd (reg_inj heq) hne
      · exact ⟨.inr ⟨id', heq, hback⟩, turn_other hne hmem⟩
      · exact absurd (reg_inj heq).symm hback.ne

/-- L-BTC and two instant-swap assets. -/
def threeAssets : AssetsState :=
  ((AssetsState.empty.addAsset "L-BTC" ⟨false⟩).addAsset "USDt" ⟨true⟩).addAsset "EURx" ⟨true⟩

def threeAssetsEnv : Env where
  assets := threeAssets
  bitcoinAssetId := "BTC"
  liquidAssetId := "L-BTC"
  tetherAssetId := "USDt"
  isAddrTypeValid := fun _ => false
  tr := id

theorem threeAssetsEnv_ready : threeAssetsEnv.Ready :=
  ⟨by decide +kernel, ("USDt", ⟨true⟩), by decide +kernel, rfl⟩

def selectedPair (send recv : String) : Selection :=
  { swapSendAsset := some (reg send), swapRecvAsset := some (reg recv) }

theorem toggle_restores_first_instant :
    (Exchanges threeAssetsEnv (selectedPair "USDt" "L-BTC") (reg "USDt") (reg "L-BTC") ∧
      Restores threeAssetsEnv (selectedPair "USDt" "L-BTC") (reg "USDt") (reg "L-BTC")) ↔
    (reg "USDt" = reg "L-BTC" ∨
      ∃ id, (reg "USDt" = reg id ∨ reg "L-BTC" = reg id) ∧ PutsBack threeAssetsEnv id) :=
  toggle_restores_iff threeAssetsEnv_ready
    ⟨rfl, rfl, rfl, by decide +kernel, by decide +kernel⟩

/-- The second instant-swap asset is not put back: a toggle of EURx against L-BTC
    leaves L-BTC against USDt. -/
theorem toggle_loses_second_instant :
    threeAssetsEnv.Ready ∧
    Selected threeAssetsEnv (selectedPair "EURx" "L-BTC") (reg "EURx") (reg "L-BTC") ∧
    exec (toggleAssets threeAssetsEnv) (selectedPair "EURx" "L-BTC") =
      (.ok (), selectedPair "L-BTC" "USDt") ∧
    ¬ Exchanges threeAssetsEnv (selectedPair "EURx" "L-BTC") (reg "EURx") (reg "L-BTC") := by
  have hrun : exec (toggleAssets threeAssetsEnv) (selectedPair "EURx" "L-BTC") =
      (.ok (), selectedPair "L-BTC" "USDt") := by decide +kernel
  refine ⟨threeAssetsEnv_ready, ⟨rfl, rfl, rfl, by decide +kernel, by decide +kernel⟩, hrun, ?_⟩
  rintro ⟨s', hrun', -, hrecv⟩
  cases hrun.symm.trans hrun'
  exact absurd hrecv (by decide +kernel)

end SwapSelection
