import SideSwap.PayjoinBalance

/-! # What a payjoin broadcasts

    Inputs and outputs are shuffled, the network fee is moved to the end, the
    secrets of the inputs are passed on by index, and signatures are copied
    twice, from the server's PSET and into the one the wallet has signed.

    `Libraries` says what is relied on: blinding, signing and extracting keep
    the outpoints of the inputs, and the script, asset and amount of the
    outputs, in their order. -/

namespace Payjoin

open Api Program

/-! ## The parts that must not change -/

/-- The output an input spends. -/
def Input.outpoint (input : Input) : Txid × Nat :=
  (input.previousTxid, input.previousOutputIndex)

def Utxo.outpoint (utxo : Utxo) : Txid × Nat := (utxo.txid, utxo.vout)

def TxIn.outpoint (input : TxIn) : Txid × Nat := (input.previousTxid, input.previousOutputIndex)

/-- What an output pays, and to whom. -/
def Output.payment (output : Output) : TxOut :=
  ⟨output.scriptPubkey, output.asset, output.amount⟩

/-- The same outpoints and payments in the same order. -/
structure SameShape (pset pset' : Pset) : Prop where
  inputs : pset'.inputs.map Input.outpoint = pset.inputs.map Input.outpoint
  outputs : pset'.outputs.map Output.payment = pset.outputs.map Output.payment

/-- What is relied on of the libraries. -/
structure Libraries (crypto : Crypto) (signPset : Pset → Except String Pset)
    (extractTx : Pset → Except String Transaction) : Prop where
  blind : ∀ {pset secrets blinded}, crypto.blindLast pset secrets = .ok blinded →
    SameShape pset blinded
  sign : ∀ {pset signed}, signPset pset = .ok signed → SameShape pset signed
  extractInputs : ∀ {pset tx}, extractTx pset = .ok tx →
    tx.inputs = pset.inputs.map fun input =>
      ⟨input.previousTxid, input.previousOutputIndex, input.finalScriptSig.getD "",
        input.finalScriptWitness.getD []⟩
  extractOutputs : ∀ {pset tx}, extractTx pset = .ok tx →
    tx.outputs = pset.outputs.map Output.payment

theorem mapError_returns {α ε ε' : Type} {x : Except ε α} {f : ε → ε'} {a : α}
    (h : x.mapError f = .ok a) : x = .ok a := by
  cases x with
  | error e => cases h
  | ok b =>
      cases h
      rfl

/-! ## Copying signatures -/

@[simp] theorem copySignature_outpoint (dst src : Input) :
    (copySignature dst src).outpoint = dst.outpoint := by
  unfold copySignature
  split
  · rfl
  · rfl

theorem zipWith_copySignature_outpoint : ∀ {dst src : List Input}, dst.length = src.length →
    (dst.zipWith copySignature src).map Input.outpoint = dst.map Input.outpoint
  | [], _, _ => rfl
  | _ :: _, [], h => absurd h (Nat.succ_ne_zero _)
  | d :: dst, s :: src, h => by
      rw [List.zipWith_cons_cons, List.map_cons, List.map_cons, copySignature_outpoint,
        zipWith_copySignature_outpoint (Nat.succ.inj h)]

/-- Nothing but signatures is taken over. -/
theorem copySignatures_ok {dst src pset : Pset} (h : copySignatures dst src = .ok pset) :
    dst.inputs.length = src.inputs.length ∧ SameShape dst pset ∧
      pset.outputs = dst.outputs ∧ pset.inputs = dst.inputs.zipWith copySignature src.inputs := by
  obtain ⟨_, hinputs, h⟩ := bind_returns h
  obtain ⟨_, _, h⟩ := bind_returns h
  cases h
  have hlength := eq_of_beq (ensure_ok hinputs)
  exact ⟨hlength, ⟨zipWith_copySignature_outpoint hlength, rfl⟩, rfl, rfl⟩

/-! ## Shuffling -/

theorem swap_perm (outputs : List Output) (i j : Nat) : (swap outputs i j).Perm outputs := by
  unfold swap
  split
  · next a b hi hj =>
      obtain ⟨hi', rfl⟩ := List.getElem?_eq_some_iff.mp hi
      obtain ⟨hj', rfl⟩ := List.getElem?_eq_some_iff.mp hj
      exact List.set_set_perm hi' hj'
  · exact .refl _

/-- The swapped output ends up last. -/
theorem swap_getLast? {outputs : List Output} {i : Nat} {output : Output}
    (h : outputs[i]? = some output) :
    (swap outputs i (outputs.length - 1)).getLast? = some output := by
  have hlt := (List.getElem?_eq_some_iff.mp h).1
  have hlast : ∃ b, outputs[outputs.length - 1]? = some b :=
    ⟨_, List.getElem?_eq_getElem (by omega)⟩
  obtain ⟨b, hb⟩ := hlast
  unfold swap
  rw [h, hb]
  show ((outputs.set i b).set (outputs.length - 1) output).getLast? = some output
  rw [List.getLast?_eq_getElem?, List.length_set, List.length_set, List.getElem?_set_self]
  rw [List.length_set]
  omega

/-- The outputs are permuted, and one that is not blinded is last. -/
theorem orderOutputs_ok {shuffle : Shuffle} {outputs ordered : List Output}
    (h : orderOutputs shuffle outputs = .ok ordered) :
    ordered.Perm outputs ∧
      ∃ fee, ordered.getLast? = some fee ∧ fee.blindingKey = none := by
  obtain ⟨i, hi, h⟩ := bind_returns h
  cases h
  cases hfind : (shuffle.apply Output outputs).findIdx? fun output => output.blindingKey.isNone with
  | none =>
      rw [hfind] at hi
      cases hi
  | some k =>
      rw [hfind] at hi
      cases hi
      obtain ⟨hk, hnone, _⟩ := List.findIdx?_eq_some_iff_getElem.mp hfind
      refine ⟨(swap_perm _ _ _).trans (shuffle.perm Output outputs), _,
        swap_getLast? (List.getElem?_eq_getElem hk), Option.isNone_iff_eq_none.mp hnone⟩

/-- A permutation of images is the image of a permutation. -/
theorem exists_perm_of_map {α β : Type} {f : α → β} {images : List β} {l : List α}
    (h : images.Perm (l.map f)) :
    ∃ placed : List α, placed.Perm l ∧ images = placed.map f := by
  generalize hl : l.map f = l' at h
  induction h generalizing l with
  | nil =>
      obtain rfl := List.map_eq_nil_iff.mp hl
      exact ⟨[], .nil, rfl⟩
  | cons x _ ih =>
      obtain ⟨a, rest, rfl, rfl, hrest⟩ := List.map_eq_cons_iff.mp hl
      obtain ⟨placed, hplaced, rfl⟩ := ih hrest
      exact ⟨a :: placed, hplaced.cons a, rfl⟩
  | swap x y _ =>
      obtain ⟨a, rest, rfl, rfl, hrest⟩ := List.map_eq_cons_iff.mp hl
      obtain ⟨b, rest', rfl, rfl, rfl⟩ := List.map_eq_cons_iff.mp hrest
      exact ⟨b :: a :: rest', .swap _ _ _, rfl⟩
  | trans _ _ ih ih' =>
      obtain ⟨placed, hplaced, rfl⟩ := ih' hl
      obtain ⟨placed', hplaced', rfl⟩ := ih rfl
      exact ⟨placed', hplaced'.trans hplaced, rfl⟩

/-! ## The secrets -/

/-- The secret at an index is that of the input there. -/
theorem secretsByIndex_getElem? (secrets : List TxOutSecrets) (i : Nat) :
    (secretsByIndex secrets)[i]? = secrets[i]? := by
  have hkeys : (secrets.zipIdx.map fun entry => (entry.2, entry.1)).map Prod.fst =
      List.range secrets.length := by
    rw [List.map_map, List.range_eq_range']
    exact List.zipIdx_map_snd 0 secrets
  rw [show secretsByIndex secrets =
    .ofList (secrets.zipIdx.map fun entry => (entry.2, entry.1)) from rfl]
  by_cases hi : i < secrets.length
  · rw [List.getElem?_eq_getElem hi]
    refine Std.TreeMap.getElem?_ofList_of_mem (Std.ReflCmp.compare_self (a := i)) ?_ ?_
    · -- the indices are pairwise distinct
      have hnodup := hkeys ▸ List.nodup_range (n := secrets.length)
      refine (List.pairwise_map.mp hnodup).imp fun hne heq => hne ?_
      exact Std.LawfulEqCmp.eq_of_compare heq
    · refine List.mem_map.mpr ⟨(secrets[i], i), ?_, rfl⟩
      exact List.mk_mem_zipIdx_iff_getElem?.mpr (List.getElem?_eq_getElem hi)
  · rw [List.getElem?_eq_none (by omega)]
    refine Std.TreeMap.getElem?_ofList_of_contains_eq_false ?_
    rw [hkeys]
    simpa using hi

theorem addInputExplicitProofs_outpoint {crypto : Crypto} {input proved : Input}
    {secret : TxOutSecrets} (h : addInputExplicitProofs crypto input secret = .ok proved) :
    proved.outpoint = input.outpoint := by
  obtain ⟨_, _, h⟩ := bind_returns h
  obtain ⟨⟨_, _⟩, _, h⟩ := bind_returns h
  cases h
  rfl

theorem mapM_addInputExplicitProofs {crypto : Crypto} :
    ∀ {inputs : List (Input × TxOutSecrets)} {proved : List Input},
      (inputs.mapM fun (input, secret) => addInputExplicitProofs crypto input secret) =
        .ok proved →
      proved.map Input.outpoint = inputs.map (·.1.outpoint) := by
  intro inputs
  induction inputs with
  | nil =>
      intro proved h
      cases h
      rfl
  | cons input inputs ih =>
      intro proved h
      rw [List.mapM_cons] at h
      obtain ⟨first, hfirst, h⟩ := bind_returns h
      obtain ⟨rest, hrest, h⟩ := bind_returns h
      cases h
      rw [List.map_cons, List.map_cons, addInputExplicitProofs_outpoint hfirst, ih hrest]

/-! ## Blinding -/

/-- What is passed to the blinding: the coins in some order, each with its own
    secret, and the outputs in some order, with an unblinded one at the end. -/
structure Arranged (selected : List Utxo) (outputs : List Output) (placed : List Utxo)
    (unblinded : Pset) (secrets : Std.TreeMap Nat TxOutSecrets) : Prop where
  order : placed.Perm selected
  outpoints : unblinded.inputs.map Input.outpoint = placed.map Utxo.outpoint
  secretAt : ∀ i : Nat, secrets[i]? = placed[i]?.map Utxo.secrets
  payments : unblinded.outputs.Perm outputs
  last : ∃ fee, unblinded.outputs.getLast? = some fee ∧ fee.blindingKey = none

theorem randomizeAndBlindPset_ok {crypto : Crypto} {shuffleInputs shuffleOutputs : Shuffle}
    {pset blinded : Pset} {selected : List Utxo} (hinputs : pset.inputs = selected.map Utxo.input)
    (h : randomizeAndBlindPset crypto shuffleInputs shuffleOutputs pset
      (selected.map Utxo.secrets) = .ok blinded) :
    ∃ placed unblinded secrets, Arranged selected pset.outputs placed unblinded secrets ∧
      crypto.blindLast unblinded secrets = .ok blinded := by
  obtain ⟨_, _, h⟩ := bind_returns h
  obtain ⟨outputs, houtputs, h⟩ := bind_returns h
  obtain ⟨proved, hproved, h⟩ := bind_returns h
  have hzip : (pset.inputs.zip (selected.map Utxo.secrets)) =
      selected.map fun utxo => (utxo.input, utxo.secrets) := by
    rw [hinputs]
    exact List.zip_map'
  have hperm := shuffleInputs.perm _ (pset.inputs.zip (selected.map Utxo.secrets))
  rw [hzip] at hperm
  obtain ⟨placed, hplaced, heq⟩ := exists_perm_of_map hperm
  rw [hzip, heq] at h hproved
  obtain ⟨houtputs, hlast⟩ := orderOutputs_ok houtputs
  refine ⟨placed, ⟨proved, outputs⟩, _, ⟨hplaced, ?_, fun i => ?_, houtputs, hlast⟩,
    mapError_returns h⟩
  · show proved.map Input.outpoint = _
    rw [mapM_addInputExplicitProofs hproved, List.map_map]
    rfl
  · rw [secretsByIndex_getElem?, List.map_map, List.getElem?_map]
    rfl

/-- The only output without a blinding key is the network fee. -/
theorem Layout.fee_of_unblinded {args : ConstructPsetArgs} {pset : Pset} (h : Layout args pset)
    {output : Output} (hmem : output ∈ pset.outputs) (hkey : output.blindingKey = none) :
    output = psetNetworkFee args.lbtcAssetId args.networkFee := by
  have hblinded : ∀ {o : Output}, o = output → o.blindingKey.isSome = true → False := by
    rintro o rfl hsome
    rw [hkey] at hsome
    cases hsome
  rw [h.outputs] at hmem
  rcases List.mem_append.mp hmem with hmem | hfee
  · rcases List.mem_append.mp hmem with hmem | hlbtc
    · rcases List.mem_append.mp hmem with hmem | hasset
      · rcases List.mem_cons.mp hmem with hsend | hfee
        · exact (hblinded hsend.symm (psetOutput_ok h.sendOk).2.2.2).elim
        · exact (hblinded (List.mem_singleton.mp hfee).symm (psetOutput_ok h.feeOk).2.2.2).elim
      · exact (hblinded rfl ((changeOutput_ok h.assetChangeOk).1 _ hasset).2.2).elim
    · exact (hblinded rfl ((changeOutput_ok h.lbtcChangeOk).1 _ hlbtc).2.2).elim
  · exact List.mem_singleton.mp hfee

/-! ## The transaction -/

/-- The round of a signature copied from one input into another. -/
def TakesSignature (dst src result : Input) : Prop :=
  if src.finalScriptWitness.isSome then
    result = { dst with
      finalScriptSig := src.finalScriptSig
      finalScriptWitness := src.finalScriptWitness }
  else result = dst

theorem takesSignature_copySignature (dst src : Input) :
    TakesSignature dst src (copySignature dst src) := by
  unfold TakesSignature copySignature
  by_cases h : src.finalScriptWitness.isSome = true
  · rw [if_pos h, if_pos h]
  · rw [if_neg h, if_neg h]

/-- The inputs of a PSET after the signatures of another are copied, one by one. -/
theorem copySignatures_getElem? {dst src pset : Pset} (h : copySignatures dst src = .ok pset)
    {i : Nat} {result : Input} (hi : pset.inputs[i]? = some result) :
    ∃ d s, dst.inputs[i]? = some d ∧ src.inputs[i]? = some s ∧ TakesSignature d s result := by
  obtain ⟨_, _, _, hinputs⟩ := copySignatures_ok h
  rw [hinputs] at hi
  obtain ⟨d, s, hd, hs, rfl⟩ := List.getElem?_zipWith_eq_some.mp hi
  exact ⟨d, s, hd, hs, takesSignature_copySignature d s⟩

/-- A transaction is the one that was built: it spends the selected coins, each
    once, and makes the payments that were built, each once, the network fee
    last; each coin was blinded with its own secret. -/
structure AsBuilt (args : ConstructPsetArgs) (built unblinded : Pset)
    (secrets : Std.TreeMap Nat TxOutSecrets) (tx : Transaction) : Prop where
  coins : ∃ placed : List Utxo, placed.Perm args.selectedUtxos ∧
    tx.inputs.map TxIn.outpoint = placed.map Utxo.outpoint ∧
    unblinded.inputs.map Input.outpoint = placed.map Utxo.outpoint ∧
    ∀ i : Nat, secrets[i]? = placed[i]?.map Utxo.secrets
  payments : tx.outputs.Perm (built.outputs.map Output.payment)
  feeLast : tx.outputs.getLast? = some (psetNetworkFee args.lbtcAssetId args.networkFee).payment

/-- The server's PSET gives signatures only, and only for the inputs it has
    signed; the transaction has these, or else the client's. -/
structure OnlySigned (blinded serverSigned created signed : Pset) (tx : Transaction) : Prop where
  outputs : created.outputs = blinded.outputs
  inputs : ∀ {i : Nat} {input : Input}, created.inputs[i]? = some input →
    ∃ b s, blinded.inputs[i]? = some b ∧ serverSigned.inputs[i]? = some s ∧
      TakesSignature b s input
  scripts : ∀ {i : Nat} {input : TxIn}, tx.inputs[i]? = some input →
    ∃ c d result, signed.inputs[i]? = some c ∧ created.inputs[i]? = some d ∧
      TakesSignature c d result ∧ input.scriptSig = result.finalScriptSig.getD "" ∧
      input.scriptWitness = result.finalScriptWitness.getD []

theorem SameShape.trans {a b c : Pset} (h : SameShape a b) (h' : SameShape b c) : SameShape a c :=
  ⟨h'.inputs.trans h.inputs, h'.outputs.trans h.outputs⟩

/-- The created PSET has the shape of the one that was arranged, and so has the
    transaction. -/
theorem sendPayjoin_shape {crypto : Crypto} {signPset : Pset → Except String Pset}
    {extractTx : Pset → Except String Transaction} (libs : Libraries crypto signPset extractTx)
    {created : Pset} {tx : Transaction} (h : sendPayjoin signPset extractTx created = .ok tx) :
    ∃ signed final, signPset created = .ok signed ∧ copySignatures signed created = .ok final ∧
      SameShape created final ∧ extractTx final = .ok tx := by
  obtain ⟨signed, hsigned, h⟩ := bind_returns h
  obtain ⟨final, hfinal, h⟩ := bind_returns h
  have hsigned := mapError_returns hsigned
  obtain ⟨_, hshape, _⟩ := copySignatures_ok hfinal
  exact ⟨signed, final, hsigned, hfinal, (libs.sign hsigned).trans hshape, mapError_returns h⟩

/-- What is built is what is sent, for any shape between. -/
theorem asBuilt_of_shape {crypto : Crypto} {signPset : Pset → Except String Pset}
    {extractTx : Pset → Except String Transaction} (libs : Libraries crypto signPset extractTx)
    {args : ConstructPsetArgs} {built unblinded final : Pset} (layout : Layout args built)
    {placed : List Utxo} {secrets : Std.TreeMap Nat TxOutSecrets}
    (harranged : Arranged args.selectedUtxos built.outputs placed unblinded secrets)
    (hshape : SameShape unblinded final) {tx : Transaction} (hextract : extractTx final = .ok tx) :
    AsBuilt args built unblinded secrets tx := by
  have houtputs : tx.outputs = unblinded.outputs.map Output.payment :=
    (libs.extractOutputs hextract).trans hshape.outputs
  have hinputs : tx.inputs.map TxIn.outpoint = placed.map Utxo.outpoint := by
    rw [libs.extractInputs hextract, List.map_map, ← harranged.outpoints, ← hshape.inputs]
    rfl
  obtain ⟨fee, hlast, hkey⟩ := harranged.last
  refine ⟨⟨placed, harranged.order, hinputs, harranged.outpoints, harranged.secretAt⟩, ?_, ?_⟩
  · rw [houtputs]
    exact harranged.payments.map Output.payment
  · -- the last output has no blinding key, so it is the network fee
    have hmem : fee ∈ built.outputs := harranged.payments.subset (List.mem_of_getLast? hlast)
    rw [houtputs, List.getLast?_map, hlast, Option.map_some, layout.fee_of_unblinded hmem hkey]

/-- **THE BROADCAST**: whatever the server answers and however the inputs and
    outputs are shuffled, the transaction that is sent is the one that was
    built, and the server's PSET has given it nothing but signatures. -/
theorem payjoin_sent_as_built {crypto : Crypto} {signPset : Pset → Except String Pset}
    {extractTx : Pset → Except String Transaction} (libs : Libraries crypto signPset extractTx)
    (shuffleInputs shuffleOutputs : Shuffle) (server : Server) {req : CreatePayjoin}
    {created : CreatedPayjoin} {tx : Transaction}
    (hcreate : createPayjoin crypto shuffleInputs shuffleOutputs server req = .ok created)
    (hsend : sendPayjoin signPset extractTx created.pset = .ok tx) :
    ∃ resp args built unblinded secrets blinded serverSigned signed,
      server.start req.assetId = .ok (.start resp) ∧
      preparePayjoin req resp = .ok args ∧ buildPset args = .ok built ∧
      constructPset crypto shuffleInputs shuffleOutputs args = .ok blinded ∧
      crypto.blindLast unblinded secrets = .ok blinded ∧
      server.sign resp.orderId (removeExplicitValues blinded) = .ok (.sign (.ok serverSigned)) ∧
      signPset created.pset = .ok signed ∧
      AsBuilt args built unblinded secrets tx ∧
      OnlySigned blinded serverSigned created.pset signed tx := by
  obtain ⟨_, _, h⟩ := bind_returns hcreate
  obtain ⟨start, hstart, h⟩ := bind_returns h
  cases start with
  | acceptedAssets => cases h
  | sign _ => cases h
  | start resp =>
      obtain ⟨args, hargs, h⟩ := bind_returns h
      obtain ⟨blinded, hconstruct, h⟩ := bind_returns h
      obtain ⟨answer, hanswer, h⟩ := bind_returns h
      cases answer with
      | acceptedAssets => cases h
      | start _ => cases h
      | sign text =>
          obtain ⟨serverSigned, htext, h⟩ := bind_returns h
          obtain ⟨pset, hcopy, h⟩ := bind_returns h
          cases h
          obtain rfl := mapError_returns htext
          obtain ⟨built, hbuild, hblind⟩ := bind_returns hconstruct
          obtain ⟨layout⟩ := buildPset_layout hbuild
          obtain ⟨placed, unblinded, secrets, harranged, hblinded⟩ :=
            randomizeAndBlindPset_ok layout.inputs hblind
          obtain ⟨signed, final, hsigned, hfinal, hsent, hextract⟩ := sendPayjoin_shape libs hsend
          obtain ⟨_, hcreated, houtputs, _⟩ := copySignatures_ok hcopy
          have hshape := ((libs.blind hblinded).trans hcreated).trans hsent
          refine ⟨resp, args, built, unblinded, secrets, blinded, serverSigned, signed,
            mapError_returns hstart, hargs, hbuild, hconstruct, hblinded, mapError_returns hanswer,
            hsigned, asBuilt_of_shape libs layout harranged hshape hextract,
            ⟨houtputs, copySignatures_getElem? hcopy, fun {i input} hi => ?_⟩⟩
          rw [libs.extractInputs hextract, List.getElem?_map] at hi
          obtain ⟨result, hresult, rfl⟩ := Option.map_eq_some_iff.mp hi
          obtain ⟨c, d, hc, hd, htakes⟩ := copySignatures_getElem? hfinal hresult
          exact ⟨c, d, result, hc, hd, htakes, rfl, rfl⟩

/-- The inputs of one coin are signed. -/
def signInputs (txid : Txid) (witness : List String) (pset : Pset) : Pset :=
  { pset with
    inputs := pset.inputs.map fun input =>
      if input.previousTxid = txid then { input with finalScriptWitness := some witness }
      else input }

theorem signInputs_shape (txid : Txid) (witness : List String) (pset : Pset) :
    SameShape pset (signInputs txid witness pset) := by
  refine ⟨?_, rfl⟩
  show (pset.inputs.map _).map Input.outpoint = _
  rw [List.map_map]
  refine List.map_congr_left fun input _ => ?_
  show (if input.previousTxid = txid then _ else input : Input).outpoint = _
  split
  · rfl
  · rfl

def sampleExtractTx (pset : Pset) : Except String Transaction :=
  .ok
    { inputs := pset.inputs.map fun input =>
        ⟨input.previousTxid, input.previousOutputIndex, input.finalScriptSig.getD "",
          input.finalScriptWitness.getD []⟩
      outputs := pset.outputs.map Output.payment }

/-- A server that makes one offer and signs its own coin. -/
def sampleServer : Server where
  start := fun _ => .ok (.start (sampleOffer [sampleUtxo 2 1 10000]))
  sign := fun _ pset => .ok (.sign (.ok (signInputs 2 ["server"] pset)))

theorem sampleLibraries :
    Libraries sampleCrypto (fun pset => .ok (signInputs 1 ["client"] pset)) sampleExtractTx := by
  constructor
  · rintro pset secrets blinded ⟨⟩
    refine ⟨rfl, ?_⟩
    show (pset.outputs.map _).map Output.payment = _
    rw [List.map_map]
    refine List.map_congr_left fun output _ => ?_
    show (if output.blindingKey.isSome then _ else output : Output).payment = _
    split
    · rfl
    · rfl
  · rintro pset signed ⟨⟩
    exact signInputs_shape 1 ["client"] pset
  · rintro pset tx ⟨⟩
    rfl
  · rintro pset tx ⟨⟩
    rfl

/-- A payjoin that is created, signed and sent. -/
theorem offered_payjoin_sent : ∃ args built unblinded secrets tx,
    AsBuilt args built unblinded secrets tx := by
  have hrun : (createPayjoin sampleCrypto unshuffled unshuffled sampleServer sampleRequest >>=
      fun created => sendPayjoin (fun pset => .ok (signInputs 1 ["client"] pset)) sampleExtractTx
        created.pset).isOk = true := by
    decide +kernel
  obtain ⟨tx, htx⟩ := returns_of_isOk hrun
  obtain ⟨created, hcreate, hsend⟩ := bind_returns htx
  obtain ⟨_, args, built, unblinded, secrets, _, _, _, _, _, _, _, _, _, _, hbuilt, _⟩ :=
    payjoin_sent_as_built sampleLibraries unshuffled unshuffled sampleServer hcreate hsend
  exact ⟨args, built, unblinded, secrets, tx, hbuilt⟩

end Payjoin
