import SideSwap.PayjoinCreate

/-! # What a payjoin pays

    The outputs of a payjoin are computed from two running totals, of the
    client's inputs and of the server's, and from a fee that is computed twice:
    for all inputs, to be shown, and for the selected ones, to be paid.

    The totals are those of the inputs only while they do not wrap, and the
    server's is taken for a total of one asset.  `wraps` counts how often a
    total, less what is paid from it, is off by `2^64`: the balance of the
    transaction comes down to the wraps of the two totals and to the server's
    coins of other assets. -/

namespace Payjoin

open Api Program

/-! ## Sums -/

/-- The value of some coins. -/
def total (utxos : List Utxo) : Nat := (utxos.map (·.value.toNat)).sum

/-- The value of those of one asset. -/
def valueOf (asset : AssetId) (utxos : List Utxo) : Nat :=
  total (utxos.filter (·.assetId = asset))

/-- The amounts of the outputs of one asset. -/
def amountOf (asset : AssetId) (outputs : List Output) : Nat :=
  ((outputs.filter (·.asset = asset)).map (·.amount.toNat)).sum

@[simp] theorem total_nil : total [] = 0 := rfl

@[simp] theorem total_cons (utxo : Utxo) (utxos : List Utxo) :
    total (utxo :: utxos) = utxo.value.toNat + total utxos := by
  simp [total]

@[simp] theorem valueOf_append (asset : AssetId) (l l' : List Utxo) :
    valueOf asset (l ++ l') = valueOf asset l + valueOf asset l' := by
  simp [valueOf, total]

@[simp] theorem valueOf_cons (asset : AssetId) (utxo : Utxo) (utxos : List Utxo) :
    valueOf asset (utxo :: utxos) =
      (if utxo.assetId = asset then utxo.value.toNat else 0) + valueOf asset utxos := by
  unfold valueOf
  by_cases h : utxo.assetId = asset
  · simp [h]
  · simp [h]

@[simp] theorem amountOf_nil (asset : AssetId) : amountOf asset [] = 0 := rfl

@[simp] theorem amountOf_append (asset : AssetId) (l l' : List Output) :
    amountOf asset (l ++ l') = amountOf asset l + amountOf asset l' := by
  simp [amountOf]

@[simp] theorem amountOf_cons (asset : AssetId) (output : Output) (outputs : List Output) :
    amountOf asset (output :: outputs) =
      (if output.asset = asset then output.amount.toNat else 0) + amountOf asset outputs := by
  unfold amountOf
  by_cases h : output.asset = asset
  · simp [h]
  · simp [h]

/-- Coins of one asset. -/
theorem valueOf_of_all {asset : AssetId} {utxos : List Utxo}
    (h : ∀ utxo ∈ utxos, utxo.assetId = asset) (asset' : AssetId) :
    valueOf asset' utxos = if asset' = asset then total utxos else 0 := by
  induction utxos with
  | nil => simp [valueOf]
  | cons utxo utxos ih =>
      have hutxo := h utxo List.mem_cons_self
      rw [valueOf_cons, total_cons, ih fun u hu => h u (List.mem_cons_of_mem _ hu), hutxo]
      by_cases heq : asset' = asset
      · simp [heq]
      · simp [heq, Ne.symm heq]

/-- Coins that are worth something only in one asset. -/
theorem total_of_one {asset : AssetId} {utxos : List Utxo}
    (h : ∀ a, a ≠ asset → valueOf a utxos = 0) : total utxos = valueOf asset utxos := by
  induction utxos with
  | nil => rfl
  | cons utxo utxos ih =>
      have hrest : ∀ a, a ≠ asset → valueOf a utxos = 0 := by
        intro a ha
        have hzero := h a ha
        rw [valueOf_cons] at hzero
        omega
      rw [total_cons, valueOf_cons, ih hrest]
      by_cases hsame : utxo.assetId = asset
      · rw [if_pos hsame]
      · have hzero := h utxo.assetId hsame
        rw [valueOf_cons, if_pos rfl] at hzero
        rw [if_neg hsame]
        omega

theorem total_split (asset : AssetId) (utxos : List Utxo) :
    total utxos = valueOf asset utxos + total (utxos.filter (·.assetId ≠ asset)) := by
  induction utxos with
  | nil => rfl
  | cons utxo utxos ih =>
      rw [total_cons, valueOf_cons, ih, List.filter_cons]
      by_cases hsame : utxo.assetId = asset
      · simp only [hsame, ne_eq, not_true_eq_false, decide_false, Bool.false_eq_true, if_false,
          if_true]
        omega
      · simp only [hsame, ne_eq, not_false_eq_true, decide_true, if_true, if_false, total_cons]
        omega

theorem valueOf_filter_ne (asset a : AssetId) (utxos : List Utxo) :
    valueOf a (utxos.filter (·.assetId ≠ asset)) = if a = asset then 0 else valueOf a utxos := by
  unfold valueOf
  rw [List.filter_filter]
  by_cases ha : a = asset
  · rw [if_pos ha, List.filter_eq_nil_iff.mpr, total_nil]
    intro utxo _
    simp [ha]
  · rw [if_neg ha]
    congr 1
    refine List.filter_congr fun utxo _ => ?_
    by_cases hsame : utxo.assetId = a
    · simp [hsame, ha]
    · simp [hsame]

/-- Coins that are worth something only in two assets. -/
theorem total_of_two {asset asset' : AssetId} (hne : asset' ≠ asset) {utxos : List Utxo}
    (h : ∀ a, a ≠ asset → a ≠ asset' → valueOf a utxos = 0) :
    total utxos = valueOf asset utxos + valueOf asset' utxos := by
  have hrest : total (utxos.filter (·.assetId ≠ asset)) =
      valueOf asset' (utxos.filter (·.assetId ≠ asset)) := by
    refine total_of_one fun a ha => ?_
    rw [valueOf_filter_ne]
    by_cases hsame : a = asset
    · rw [if_pos hsame]
    · rw [if_neg hsame]
      exact h a hsame ha
  rw [total_split asset, hrest, valueOf_filter_ne, if_neg hne]

/-! ## The selection loops -/

theorem selectUtxos_isPrefix (target : UInt64) : ∀ (utxos : List Utxo) (start : UInt64),
    (selectUtxos target start utxos).1 <+: utxos := by
  intro utxos
  induction utxos with
  | nil => intro start; exact List.nil_prefix
  | cons utxo utxos ih =>
      intro start
      rw [selectUtxos]
      split
      · exact (List.prefix_cons_inj utxo).mpr List.nil_prefix
      · exact (List.prefix_cons_inj utxo).mpr (ih _)

/-- The running total is the value of the selected coins, reduced. -/
theorem selectUtxos_total (target : UInt64) : ∀ (utxos : List Utxo) (start : UInt64),
    (selectUtxos target start utxos).2.toNat =
      (start.toNat + total (selectUtxos target start utxos).1) % 2 ^ 64 := by
  intro utxos
  induction utxos with
  | nil =>
      intro start
      rw [selectUtxos, total_nil, Nat.add_zero, Nat.mod_eq_of_lt start.toNat_lt]
  | cons utxo utxos ih =>
      intro start
      rw [selectUtxos]
      split
      · rw [total_cons, total_nil, UInt64.toNat_add, Nat.add_zero]
      · show (selectUtxos target (start + utxo.value) utxos).2.toNat = _
        rw [ih, UInt64.toNat_add, total_cons, Nat.mod_add_mod, Nat.add_assoc]

/-! ## The outputs -/

theorem psetOutput_ok {o : PsetOutput} {output : Output} (h : psetOutput o = .ok output) :
    output.asset = o.asset ∧ output.amount = o.amount ∧
      output.scriptPubkey = o.address.scriptPubkey ∧ output.blindingKey.isSome = true := by
  obtain ⟨key, _, h⟩ := bind_returns h
  obtain ⟨_, _, h⟩ := bind_returns h
  cases h
  exact ⟨rfl, rfl, rfl, rfl⟩

theorem changeOutput_ok {address : Address} {asset : AssetId} {amount : UInt64}
    {outputs : List Output} (h : changeOutput address asset amount = .ok outputs) :
    (∀ output ∈ outputs, output.asset = asset ∧ output.scriptPubkey = address.scriptPubkey ∧
      output.blindingKey.isSome = true) ∧
    (outputs.map (·.amount.toNat)).sum = amount.toNat := by
  unfold changeOutput at h
  split at h
  · obtain ⟨output, houtput, h⟩ := bind_returns h
    cases h
    obtain ⟨hasset, hamount, hscript, hkey⟩ := psetOutput_ok houtput
    refine ⟨List.forall_mem_singleton.mpr ⟨hasset, hscript, hkey⟩, ?_⟩
    rw [List.map_singleton, List.sum_singleton, hamount]
  · next hzero =>
      cases h
      refine ⟨fun output hmem => absurd hmem List.not_mem_nil, ?_⟩
      have hle : amount.toNat ≤ 0 := UInt64.le_iff_toNat_le.mp (UInt64.not_lt.mp hzero)
      exact (Nat.le_zero.mp hle).symm

/-- The outputs of a payjoin that is built. -/
structure Layout (args : ConstructPsetArgs) (pset : Pset) where
  send : Output
  fee : Output
  assetChange : List Output
  lbtcChange : List Output
  inputs : pset.inputs = args.selectedUtxos.map Utxo.input
  outputs : pset.outputs = [send, fee] ++ assetChange ++ lbtcChange ++
    [psetNetworkFee args.lbtcAssetId args.networkFee]
  sendOk : psetOutput ⟨args.sendAddress, args.sendAssetId, args.sendAmount⟩ = .ok send
  feeOk : psetOutput ⟨args.feeAddress, args.sendAssetId, args.assetFee⟩ = .ok fee
  assetChangeOk : changeOutput args.clientChangeAddress args.sendAssetId
    (args.utxoAssetAmount - args.sendAmount - args.assetFee) = .ok assetChange
  lbtcChangeOk : changeOutput args.serverChangeAddress args.lbtcAssetId
    (args.utxoLbtcAmount - args.networkFee) = .ok lbtcChange

theorem buildPset_layout {args : ConstructPsetArgs} {pset : Pset}
    (h : buildPset args = .ok pset) : Nonempty (Layout args pset) := by
  obtain ⟨send, hsend, h⟩ := bind_returns h
  obtain ⟨fee, hfee, h⟩ := bind_returns h
  obtain ⟨assetChange, hasset, h⟩ := bind_returns h
  obtain ⟨lbtcChange, hlbtc, h⟩ := bind_returns h
  cases h
  exact ⟨⟨send, fee, assetChange, lbtcChange, rfl, rfl, hsend, hfee, hasset, hlbtc⟩⟩

theorem amountOf_same {asset : AssetId} {outputs : List Output}
    (h : ∀ output ∈ outputs, output.asset = asset) (asset' : AssetId) :
    amountOf asset' outputs =
      if asset = asset' then (outputs.map (·.amount.toNat)).sum else 0 := by
  induction outputs with
  | nil => simp
  | cons output outputs ih =>
      rw [amountOf_cons, ih fun o ho => h o (List.mem_cons_of_mem _ ho),
        h output List.mem_cons_self, List.map_cons, List.sum_cons]
      split
      · rfl
      · rfl

/-- The amounts of a payjoin, by asset. -/
theorem Layout.amountOf {args : ConstructPsetArgs} {pset : Pset} (h : Layout args pset)
    (asset : AssetId) : amountOf asset pset.outputs =
      (if args.sendAssetId = asset then
        args.sendAmount.toNat + args.assetFee.toNat +
          (args.utxoAssetAmount - args.sendAmount - args.assetFee).toNat else 0) +
      (if args.lbtcAssetId = asset then
        (args.utxoLbtcAmount - args.networkFee).toNat + args.networkFee.toNat else 0) := by
  obtain ⟨hsend, hsendAmount, _⟩ := psetOutput_ok h.sendOk
  obtain ⟨hfee, hfeeAmount, _⟩ := psetOutput_ok h.feeOk
  obtain ⟨hasset, hassetSum⟩ := changeOutput_ok h.assetChangeOk
  obtain ⟨hlbtc, hlbtcSum⟩ := changeOutput_ok h.lbtcChangeOk
  have hasset' := amountOf_same (fun o ho => (hasset o ho).1) asset
  have hlbtc' := amountOf_same (fun o ho => (hlbtc o ho).1) asset
  rw [h.outputs, amountOf_append, amountOf_append, amountOf_append, hasset', hlbtc', hassetSum,
    hlbtcSum, amountOf_cons, amountOf_cons, amountOf_cons, amountOf_nil, hsend, hfee,
    hsendAmount, hfeeAmount]
  show _ + _ + _ + ((if args.lbtcAssetId = asset then args.networkFee.toNat else 0) + 0) = _
  by_cases h1 : args.sendAssetId = asset
  · by_cases h2 : args.lbtcAssetId = asset
    · simp only [h1, h2, if_true]
      omega
    · simp only [h1, h2, if_true, if_false]
      omega
  · by_cases h2 : args.lbtcAssetId = asset
    · simp only [h1, h2, if_true, if_false]
      omega
    · simp only [h1, h2, if_false]

/-! ## The wraps of a total -/

/-- How often `2^64` goes into what is left of a total, and into what is
    missing. -/
def wraps (total paid : Nat) : Int := ((total : Int) - paid) / 2 ^ 64

/-- What is left, computed with wrapping subtractions. -/
theorem toNat_sub_wraps {x y : UInt64} {n : Nat} (hx : x.toNat = n % 2 ^ 64) :
    ((x - y).toNat : Int) = n - y.toNat - 2 ^ 64 * wraps n y.toNat := by
  have hy := y.toNat_lt
  have hdiv := Int.emod_add_mul_ediv ((n : Int) - y.toNat) (2 ^ 64)
  unfold wraps
  rw [UInt64.toNat_sub, hx]
  omega

theorem toNat_sub_sub_wraps {x y z : UInt64} {n : Nat} (hx : x.toNat = n % 2 ^ 64) :
    ((x - y - z).toNat : Int) =
      n - (y.toNat + z.toNat : Nat) - 2 ^ 64 * wraps n (y.toNat + z.toNat) := by
  have hy := y.toNat_lt
  have hz := z.toNat_lt
  have hdiv := Int.emod_add_mul_ediv ((n : Int) - (y.toNat + z.toNat : Nat)) (2 ^ 64)
  unfold wraps
  rw [UInt64.toNat_sub, UInt64.toNat_sub, hx]
  omega

/-! ## The chosen amounts and inputs -/

/-- What the recipient is to get, whether or not it can be paid. -/
def recipientAmount (req : CreatePayjoin) (resp : StartResponse) : UInt64 :=
  if req.subtractFeeFromAmount then req.amount - maxAssetFee req resp else req.amount

/-- The client's coins that are selected. -/
def clientSelected (req : CreatePayjoin) (resp : StartResponse) : List Utxo :=
  (selectUtxos (recipientAmount req resp + maxAssetFee req resp) 0 req.utxos).1

/-- The server's coins that are selected. -/
def serverSelected (req : CreatePayjoin) (resp : StartResponse) : List Utxo :=
  (selectUtxos (maxNetworkFee req resp) 0 resp.utxos).1

/-- The network fee of as many inputs. -/
def selectedNetworkFee (req : CreatePayjoin) (resp : StartResponse) : UInt64 :=
  expectedNetworkFee (clientSelected req resp ++ serverSelected req resp).length 0 4

/-- The asset fee for it. -/
def selectedAssetFee (req : CreatePayjoin) (resp : StartResponse) : UInt64 :=
  assetFee resp.fixedFee resp.price (selectedNetworkFee req resp)

theorem sendAmount_ok {req : CreatePayjoin} {resp : StartResponse} {amount : UInt64}
    (h : sendAmount req resp = .ok amount) :
    amount = recipientAmount req resp ∧
      (req.subtractFeeFromAmount = true → maxAssetFee req resp < req.amount) := by
  unfold sendAmount at h
  unfold recipientAmount
  split at h
  · next hsubtract =>
      obtain ⟨_, henough, h⟩ := bind_returns h
      cases h
      rw [if_pos hsubtract]
      exact ⟨rfl, fun _ => of_decide_eq_true (ensure_ok henough)⟩
  · next hkeep =>
      cases h
      rw [if_neg hkeep]
      exact ⟨rfl, fun hsubtract => absurd hsubtract hkeep⟩

/-- What `create_payjoin` passes to `construct_pset`. -/
structure Prepared (req : CreatePayjoin) (resp : StartResponse) (args : ConstructPsetArgs) :
    Prop where
  amount : args.sendAmount = recipientAmount req resp
  subtract : req.subtractFeeFromAmount = true → maxAssetFee req resp < req.amount
  asset : args.sendAssetId = req.assetId
  lbtc : resp.utxos.head?.map (·.assetId) = some args.lbtcAssetId
  selected : args.selectedUtxos = clientSelected req resp ++ serverSelected req resp
  fixedFee : args.fixedFee = resp.fixedFee
  price : args.price = resp.price
  addresses : args.sendAddress = req.address ∧ args.feeAddress = resp.feeAddress ∧
    args.clientChangeAddress = req.changeAddress ∧ args.serverChangeAddress = resp.changeAddress
  assetTotal : args.utxoAssetAmount.toNat = total (clientSelected req resp) % 2 ^ 64
  lbtcTotal : args.utxoLbtcAmount.toNat = total (serverSelected req resp) % 2 ^ 64
  assetEnough : recipientAmount req resp + maxAssetFee req resp ≤ args.utxoAssetAmount
  lbtcEnough : maxNetworkFee req resp ≤ args.utxoLbtcAmount

theorem preparePayjoin_ok {req : CreatePayjoin} {resp : StartResponse} {args : ConstructPsetArgs}
    (h : preparePayjoin req resp = .ok args) : Prepared req resp args := by
  obtain ⟨_, _, h⟩ := bind_returns h
  obtain ⟨amount, hamount, h⟩ := bind_returns h
  obtain ⟨lbtc, hlbtc, h⟩ := bind_returns h
  obtain ⟨_, hasset, h⟩ := bind_returns h
  obtain ⟨_, hnetwork, h⟩ := bind_returns h
  cases h
  obtain ⟨rfl, hsubtract⟩ := sendAmount_ok hamount
  have hclient := selectUtxos_total (recipientAmount req resp + maxAssetFee req resp) req.utxos 0
  have hserver := selectUtxos_total (maxNetworkFee req resp) resp.utxos 0
  rw [UInt64.toNat_zero, Nat.zero_add] at hclient hserver
  refine ⟨rfl, hsubtract, rfl, ?_, rfl, rfl, rfl, ⟨rfl, rfl, rfl, rfl⟩, hclient, hserver,
    of_decide_eq_true (ensure_ok hasset), of_decide_eq_true (ensure_ok hnetwork)⟩
  cases hfirst : resp.utxos.head? with
  | none =>
      rw [hfirst] at hlbtc
      cases hlbtc
  | some first =>
      rw [hfirst] at hlbtc
      cases hlbtc
      rfl

theorem Prepared.networkFee {req : CreatePayjoin} {resp : StartResponse} {args : ConstructPsetArgs}
    (h : Prepared req resp args) : args.networkFee = selectedNetworkFee req resp := by
  rw [ConstructPsetArgs.networkFee, h.selected, selectedNetworkFee]

theorem Prepared.assetFee {req : CreatePayjoin} {resp : StartResponse} {args : ConstructPsetArgs}
    (h : Prepared req resp args) : args.assetFee = selectedAssetFee req resp := by
  rw [ConstructPsetArgs.assetFee, h.networkFee, h.fixedFee, h.price, selectedAssetFee]

theorem Prepared.ne_lbtc {req : CreatePayjoin} {resp : StartResponse} {args : ConstructPsetArgs}
    (h : Prepared req resp args) {asset : AssetId} :
    resp.utxos.head?.map (·.assetId) ≠ some asset ↔ asset ≠ args.lbtcAssetId := by
  rw [h.lbtc, ne_eq, Option.some.injEq]
  exact ⟨Ne.symm, Ne.symm⟩

/-- The client's coins are of the asset that is sent. -/
theorem clientSelected_asset {req : CreatePayjoin} (h : checkRequest req = .ok ())
    (resp : StartResponse) : ∀ utxo ∈ clientSelected req resp, utxo.assetId = req.assetId := by
  obtain ⟨_, _, h⟩ := bind_returns h
  obtain ⟨_, hasset, _⟩ := bind_returns h
  intro utxo hmem
  have hall := List.all_eq_true.mp (ensure_ok hasset) utxo
    ((selectUtxos_isPrefix _ _ _).subset hmem)
  exact eq_of_beq hall

/-! ## The balance -/

/-- The wraps of the client's total, less what is paid from it. -/
def clientWraps (req : CreatePayjoin) (resp : StartResponse) : Int :=
  wraps (total (clientSelected req resp))
    ((recipientAmount req resp).toNat + (selectedAssetFee req resp).toNat)

/-- Those of the server's. -/
def serverWraps (req : CreatePayjoin) (resp : StartResponse) : Int :=
  wraps (total (serverSelected req resp)) (selectedNetworkFee req resp).toNat

/-- The two totals are off by the same multiple of `2^64` in opposite directions,
    in particular if neither is off at all; and the server's coins of an asset
    other than the first one's are worth nothing, but for what makes up for
    that in the client's asset. -/
structure Accounted (req : CreatePayjoin) (resp : StartResponse) : Prop where
  cancel : clientWraps req resp = - serverWraps req resp
  foreign : ∀ asset, resp.utxos.head?.map (·.assetId) ≠ some asset →
    (valueOf asset (serverSelected req resp) : Int) =
      if asset = req.assetId then 2 ^ 64 * serverWraps req resp else 0

/-- The inputs and the outputs of an asset are worth the same. -/
def BalancedIn (asset : AssetId) (args : ConstructPsetArgs) (pset : Pset) : Prop :=
  valueOf asset args.selectedUtxos = amountOf asset pset.outputs

/-- The balance of an asset, from the wraps. -/
theorem balancedIn_iff {req : CreatePayjoin} {resp : StartResponse} {args : ConstructPsetArgs}
    {pset : Pset} (hreq : checkRequest req = .ok ()) (hargs : Prepared req resp args)
    (hpset : Layout args pset) (asset : AssetId) :
    BalancedIn asset args pset ↔
      (valueOf asset (serverSelected req resp) : Int) =
        (if args.lbtcAssetId = asset then
          total (serverSelected req resp) - 2 ^ 64 * serverWraps req resp else 0) -
        (if req.assetId = asset then 2 ^ 64 * clientWraps req resp else 0) := by
  have hclient := valueOf_of_all (clientSelected_asset hreq resp) asset
  have hchange := toNat_sub_sub_wraps (y := recipientAmount req resp)
    (z := selectedAssetFee req resp) hargs.assetTotal
  have hlbtc := toNat_sub_wraps (y := selectedNetworkFee req resp) hargs.lbtcTotal
  unfold BalancedIn clientWraps serverWraps
  rw [hpset.amountOf, hargs.selected, valueOf_append, hclient, hargs.asset, hargs.networkFee,
    hargs.assetFee, hargs.amount]
  by_cases h1 : req.assetId = asset
  · subst h1
    by_cases h2 : args.lbtcAssetId = req.assetId
    · simp only [h2, if_true]
      omega
    · simp only [h2, if_true, if_false]
      omega
  · by_cases h2 : args.lbtcAssetId = asset
    · simp only [h1, Ne.symm h1, h2, if_true, if_false]
      omega
    · simp only [h1, Ne.symm h1, h2, if_false]
      omega

/-- Where every asset balances, what the server's totals are off by is made up
    for by the client's. -/
theorem accounted_of_balanced {req : CreatePayjoin} {resp : StartResponse}
    {args : ConstructPsetArgs} {pset : Pset} (hreq : checkRequest req = .ok ())
    (hargs : Prepared req resp args) (hpset : Layout args pset)
    (hall : ∀ asset, BalancedIn asset args pset) : Accounted req resp := by
  have hvalue := fun asset => (balancedIn_iff hreq hargs hpset asset).mp (hall asset)
  by_cases hsame : req.assetId = args.lbtcAssetId
  · -- one asset for both: the server's other coins are worth nothing
    have hzero : ∀ a, a ≠ args.lbtcAssetId → valueOf a (serverSelected req resp) = 0 := by
      intro a ha
      have ha' := hvalue a
      rw [if_neg (Ne.symm ha), if_neg (hsame ▸ Ne.symm ha)] at ha'
      omega
    have hlbtc := hvalue args.lbtcAssetId
    have htotal := total_of_one hzero
    rw [if_pos rfl, if_pos hsame] at hlbtc
    refine ⟨by omega, fun a hfirst => ?_⟩
    have ha := hargs.ne_lbtc.mp hfirst
    rw [if_neg (hsame ▸ ha), hzero a ha]
    rfl
  · -- two assets: the client's asset is the only other one among the server's coins
    have hzero : ∀ a, a ≠ args.lbtcAssetId → a ≠ req.assetId →
        valueOf a (serverSelected req resp) = 0 := by
      intro a ha ha'
      have hvalue' := hvalue a
      rw [if_neg (Ne.symm ha), if_neg (Ne.symm ha')] at hvalue'
      omega
    have hlbtc := hvalue args.lbtcAssetId
    have hasset := hvalue req.assetId
    have htotal := total_of_two hsame hzero
    rw [if_pos rfl, if_neg hsame] at hlbtc
    rw [if_neg (Ne.symm hsame), if_pos rfl] at hasset
    refine ⟨by omega, fun a hfirst => ?_⟩
    have ha := hargs.ne_lbtc.mp hfirst
    by_cases ha' : a = req.assetId
    · rw [if_pos ha', ha']
      omega
    · rw [if_neg ha', hzero a ha ha']
      rfl

theorem balanced_of_accounted {req : CreatePayjoin} {resp : StartResponse}
    {args : ConstructPsetArgs} {pset : Pset} (hreq : checkRequest req = .ok ())
    (hargs : Prepared req resp args) (hpset : Layout args pset) (h : Accounted req resp)
    (asset : AssetId) : BalancedIn asset args pset := by
  obtain ⟨hcancel, hfirst⟩ := h
  have hforeign := fun a ha => hfirst a (hargs.ne_lbtc.mpr ha)
  refine (balancedIn_iff hreq hargs hpset asset).mpr ?_
  by_cases hlbtc : args.lbtcAssetId = asset
  · rw [if_pos hlbtc]
    by_cases hsame : req.assetId = asset
    · have htotal : total (serverSelected req resp) = valueOf asset (serverSelected req resp) := by
        refine total_of_one fun a ha => ?_
        have ha' := hforeign a (hlbtc ▸ ha)
        rw [if_neg (hsame ▸ ha)] at ha'
        omega
      rw [if_pos hsame]
      omega
    · have hzero : ∀ a, a ≠ asset → a ≠ req.assetId →
          valueOf a (serverSelected req resp) = 0 := by
        intro a ha ha'
        have hzero := hforeign a (hlbtc ▸ ha)
        rw [if_neg ha'] at hzero
        omega
      have htotal := total_of_two hsame hzero
      have hasset := hforeign req.assetId (hlbtc ▸ hsame)
      rw [if_pos rfl] at hasset
      rw [if_neg hsame]
      omega
  · have hvalue := hforeign asset (Ne.symm hlbtc)
    rw [if_neg hlbtc]
    by_cases hsame : req.assetId = asset
    · rw [if_pos hsame.symm] at hvalue
      rw [if_pos hsame]
      omega
    · rw [if_neg (Ne.symm hsame)] at hvalue
      rw [if_neg hsame]
      omega

theorem balanced_iff_accounted {req : CreatePayjoin} {resp : StartResponse}
    {args : ConstructPsetArgs} {pset : Pset} (hreq : checkRequest req = .ok ())
    (hargs : Prepared req resp args) (hpset : Layout args pset) :
    (∀ asset, BalancedIn asset args pset) ↔ Accounted req resp :=
  ⟨accounted_of_balanced hreq hargs hpset, balanced_of_accounted hreq hargs hpset⟩

/-- **THE BALANCE**: a payjoin that is constructed balances in every asset
    exactly when its coins are accounted for. -/
theorem payjoin_balances_iff (crypto : Crypto) (shuffleInputs shuffleOutputs : Shuffle)
    {req : CreatePayjoin} {resp : StartResponse} {args : ConstructPsetArgs} {blinded : Pset}
    (hreq : checkRequest req = .ok ()) (hprepare : preparePayjoin req resp = .ok args)
    (hconstruct : constructPset crypto shuffleInputs shuffleOutputs args = .ok blinded) :
    ∃ pset, buildPset args = .ok pset ∧
      ((∀ asset, BalancedIn asset args pset) ↔ Accounted req resp) := by
  obtain ⟨pset, hbuild, _⟩ := bind_returns hconstruct
  obtain ⟨hlayout⟩ := buildPset_layout hbuild
  exact ⟨pset, hbuild, balanced_iff_accounted hreq (preparePayjoin_ok hprepare) hlayout⟩

/-! ## An offer -/

theorem returns_of_isOk {α : Type} {x : Except Stop α} (h : x.isOk = true) :
    ∃ a, x = .ok a := by
  cases x with
  | error e => cases h
  | ok a => exact ⟨a, rfl⟩

/-- Cryptography with constant proofs and commitments. -/
def sampleCrypto : Crypto where
  explicitProofs := fun _ _ => .ok ("asset proof", "value proof")
  valueText := fun _ => "value"
  assetText := fun _ => "asset"
  blindLast := fun pset _ => .ok
    { pset with
      outputs := pset.outputs.map fun output =>
        if output.blindingKey.isSome then { output with commitments := some "commitments" }
        else output }

/-- A shuffle that moves nothing. -/
def unshuffled : Shuffle where
  apply := fun _ l => l
  perm := fun _ l => .refl l

def sampleAddress (script : String) : Address := ⟨script, some "key", "liquid"⟩

def sampleUtxo (txid : Txid) (asset : AssetId) (value : UInt64) : Utxo :=
  ⟨txid, 0, "script", asset, value, "abf", "vbf", "asset commitment", "value commitment"⟩

/-- Half of a coin of the asset 2 is sent. -/
def sampleRequest : CreatePayjoin where
  assetId := 2
  amount := 50000
  address := sampleAddress "send"
  subtractFeeFromAmount := false
  changeAddress := sampleAddress "change"
  utxos := [sampleUtxo 1 2 100000]

def sampleOffer (utxos : List Utxo) : StartResponse where
  orderId := "order"
  price := 1
  fixedFee := 100
  feeAddress := sampleAddress "fee"
  changeAddress := sampleAddress "server change"
  utxos := utxos

/-- What is constructed for it. -/
def sampleArgs (utxos : List Utxo) (lbtcAmount : UInt64) : ConstructPsetArgs where
  selectedUtxos := sampleUtxo 1 2 100000 :: utxos
  sendAddress := sampleAddress "send"
  sendAssetId := 2
  sendAmount := 50000
  feeAddress := sampleAddress "fee"
  fixedFee := 100
  price := 1
  clientChangeAddress := sampleAddress "change"
  utxoAssetAmount := 100000
  utxoLbtcAmount := lbtcAmount
  serverChangeAddress := sampleAddress "server change"
  lbtcAssetId := 1

/-- A coin of the asset 1 pays the network fee. -/
theorem offered_coin_balances :
    ∃ pset, buildPset (sampleArgs [sampleUtxo 2 1 10000] 10000) = .ok pset ∧
      ∀ asset, BalancedIn asset (sampleArgs [sampleUtxo 2 1 10000] 10000) pset := by
  have hselected : serverSelected sampleRequest (sampleOffer [sampleUtxo 2 1 10000]) =
      [sampleUtxo 2 1 10000] := by
    decide +kernel
  have hwraps : serverWraps sampleRequest (sampleOffer [sampleUtxo 2 1 10000]) = 0 := by
    decide +kernel
  have hcheck : checkRequest sampleRequest = .ok () := rfl
  have hprepare : preparePayjoin sampleRequest (sampleOffer [sampleUtxo 2 1 10000]) =
      .ok (sampleArgs [sampleUtxo 2 1 10000] 10000) := by
    decide +kernel
  have hconstruct : (constructPset sampleCrypto unshuffled unshuffled
      (sampleArgs [sampleUtxo 2 1 10000] 10000)).isOk = true := by
    decide +kernel
  obtain ⟨blinded, hblinded⟩ := returns_of_isOk hconstruct
  obtain ⟨pset, hbuild, hiff⟩ := payjoin_balances_iff sampleCrypto unshuffled unshuffled hcheck
    hprepare hblinded
  refine ⟨pset, hbuild, hiff.mpr ⟨by decide +kernel, fun asset hasset => ?_⟩⟩
  have hne : (sampleUtxo 2 1 10000).assetId ≠ asset := fun h => hasset (congrArg some h)
  rw [hselected, hwraps, valueOf_cons, if_neg hne]
  split
  · rfl
  · rfl

/-- A second coin, of the asset 3, is taken for bitcoin and lost. -/
theorem coin_of_another_asset_lost :
    checkRequest sampleRequest = .ok () ∧
    preparePayjoin sampleRequest (sampleOffer [sampleUtxo 2 1 100, sampleUtxo 3 3 10000]) =
      .ok (sampleArgs [sampleUtxo 2 1 100, sampleUtxo 3 3 10000] 10100) ∧
    valueOf 3 (sampleArgs [sampleUtxo 2 1 100, sampleUtxo 3 3 10000] 10100).selectedUtxos = 10000 ∧
    (constructPset sampleCrypto unshuffled unshuffled
      (sampleArgs [sampleUtxo 2 1 100, sampleUtxo 3 3 10000] 10100)).map
        (fun pset => amountOf 3 pset.outputs) = .ok 0 := by
  refine ⟨rfl, by decide +kernel, by decide +kernel, by decide +kernel⟩

end Payjoin
