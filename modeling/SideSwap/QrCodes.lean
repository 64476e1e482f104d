import SideSwap.Handler
import SideSwap.Base64
import SideSwap.DartUri
import SideSwap.DecimalText

/-! # Payment QR codes

    `createDynamicQrCodeUrl` of `providers/qrcode_provider.dart` writes a payment
    as `sideswap:address?T=type;amount;asset;message;mask`, with the message in
    Base64, and `parseDynamicQrCode` reads scanned codes: plain addresses, BIP21
    links and these payments.

    What is read of a payment is kept in the provider (`parse_created_keeps`), as
    long as no `+` stands in the amount or in the Base64 text, which the query
    would turn into a space (`parse_created_plus`).  But the parser returns a new
    result instead of the one it has filled: no result of it names a type
    (`parseDynamicQrCode_untyped`), so no payment is returned as it was given
    (`created_never_decodes`). -/

namespace QrCodes

open Program MachineInt DartText DartUri DecimalText

variable {δ : Type}

/-- The doubles of Dart as far as they are printed, read and compared. -/
structure Doubles (δ : Type) where
  /-- `toString` -/
  print : δ → List Char
  /-- `double.tryParse` -/
  tryParse : List Char → Option δ
  zero : δ
  isNegative : δ → Bool

inductive AddrType where
  | bitcoin
  | elements
deriving DecidableEq, Repr

inductive BIP21AddressTypeEnum where
  | elements
  | bitcoin
  | liquidnetwork
  | other
deriving DecidableEq, Repr

inductive QrCodeResultType where
  | merchant
  | client
deriving DecidableEq, Repr

structure QrCodeResult (δ : Type) where
  address : Option (List Char) := none
  addressType : Option BIP21AddressTypeEnum := none
  type : Option QrCodeResultType := none
  amount : Option δ := none
  ticker : Option (List Char) := none
  message : Option (List Char) := none
  label : Option (List Char) := none
  bitMask : Option Int := none
  error : Option Bool := none
  errorMessage : Option (List Char) := none
  assetId : Option (List Char) := none

/-- What the parser reads of other providers and of the SDK. -/
structure Env (δ : Type) where
  doubles : Doubles δ
  uri : Validity
  /-- the native check of an address -/
  isAddrTypeValid : List Char → AddrType → Bool
  /-- the localisation of a text -/
  tr : String → List Char
  liquidAssetId : List Char
  /-- the ticker of a known asset -/
  ticker : List Char → Option (List Char)

/-! ## BIP21 links -/

structure BIP21Result (δ : Type) where
  amount : δ
  label : List Char
  message : List Char
  assetId : List Char
  ticker : List Char
  address : List Char
  addressType : BIP21AddressTypeEnum

def kUnknownTicker : List Char := ['?', '?', '?']

/-- The amount of a link: what is no number or below zero counts as zero. -/
def bip21Amount (D : Doubles δ) (text : List Char) : δ :=
  let amount := (D.tryParse text).getD D.zero
  if D.isNegative amount then D.zero else amount

/-- `parseBIP21`: every exception on the way makes the link invalid. -/
def parseBIP21 (env : Env δ) (address : List Char) (addressType : BIP21AddressTypeEnum) :
    Except (List Char) (BIP21Result δ) :=
  let parsed : Except Panic (Uri × Params) := do
    let url ← parse env.uri address
    let params ← url.queryParameters
    pure (url, params)
  match parsed with
  | .error _ => .error "Invalid BIP21 address".toList
  | .ok (url, params) =>
      let assetId := (lookupParam params "assetid".toList).getD env.liquidAssetId
      let ticker := match lookupParam params "assetid".toList with
        | some id => (env.ticker id).getD kUnknownTicker
        | none => (env.ticker env.liquidAssetId).getD []
      .ok {
        amount := match lookupParam params "amount".toList with
          | some text => bip21Amount env.doubles text
          | none => env.doubles.zero
        label := (lookupParam params "label".toList).getD []
        message := (lookupParam params "message".toList).getD []
        assetId := assetId
        ticker := ticker
        address := url.path
        addressType := addressType }

/-- The result that is made of a link. -/
def BIP21Result.toQrCode (r : BIP21Result δ) : QrCodeResult δ :=
  { address := some r.address
    addressType := some r.addressType
    amount := some r.amount
    ticker := some r.ticker
    message := some r.message
    label := some r.label
    assetId := some r.assetId }

/-! ## The parser -/

/-- `_emitError`. -/
def emitError (errorMessage : List Char) : Prog (QrCodeResult δ) (QrCodeResult δ) := do
  modify fun _ => { error := some true, errorMessage := some errorMessage }
  pure { error := some true, errorMessage := some errorMessage }

/-- A text that is not empty. -/
def nonEmpty (text : List Char) : Option (List Char) := if text.isEmpty then none else some text

/-- The fields of a payment.  The block that reads them is left by an exception
    of the Base64 or the UTF-8 decoder only. -/
def readFields (env : Env δ) (amount ticker message bitMask : List Char) :
    Prog (QrCodeResult δ) (QrCodeResult δ) := do
  modify fun r => { r with amount := env.doubles.tryParse amount, ticker := nonEmpty ticker }
  match (Base64.decode message).bind utf8Decode with
  | none => emitError (env.tr "Invalid QR code")
  | some decodedMessage => do
      modify fun r => { r with message := nonEmpty decodedMessage, bitMask := intTryParse bitMask }
      -- what is returned is a new result, not the one that was filled
      pure {}

/-- The type that the first field names. -/
def readType (kind : List Char) (type : Option QrCodeResultType) : Option QrCodeResultType :=
  if kind = ['C'] then some .client else if kind = ['M'] then some .merchant else type

/-- The data of the parameter `T`; fields behind the fifth are ignored. -/
def readData (env : Env δ) (dataList : List (List Char)) :
    Prog (QrCodeResult δ) (QrCodeResult δ) :=
  match dataList with
  | kind :: amount :: ticker :: message :: bitMask :: _ => do
      modify fun r => { r with type := readType kind r.type }
      let r ← get
      if r.type.isNone then emitError (env.tr "Invalid QR code")
      else readFields env amount ticker message bitMask
  | _ => emitError (env.tr "Invalid QR code")

def parseSideSwapAddress (env : Env δ) (qrCode : List Char) :
    Prog (QrCodeResult δ) (QrCodeResult δ) := do
  let url ← ofPanic (parse env.uri qrCode)
  let queryParams ← ofPanic url.queryParameters
  if queryParams = [] then emitError (env.tr "Invalid QR code")
  else do
    modify fun r => { r with address := some url.path, addressType := some .other }
    if url.path = [] then emitError (env.tr "Invalid QR code")
    else match lookupParam queryParams ['T'] with
      | none => emitError (env.tr "")
      | some data => readData env (data.splitOn ';')

/-- A code that is an address and nothing else. -/
def plainAddress (qrCode : List Char) (addressType : BIP21AddressTypeEnum) :
    Prog (QrCodeResult δ) (QrCodeResult δ) := do
  modify fun _ => { address := some qrCode, addressType := some addressType }
  pure { address := some qrCode, addressType := some addressType }

/-- A result as the source's `Right`. -/
def right (p : Prog (QrCodeResult δ) (QrCodeResult δ)) :
    Prog (QrCodeResult δ) (Except (List Char) (QrCodeResult δ)) := do
  let r ← p
  pure (.ok r)

/-- `parseDynamicQrCode`: an error value is the source's `Left`. -/
def parseDynamicQrCode (env : Env δ) (qrCode : List Char) :
    Prog (QrCodeResult δ) (Except (List Char) (QrCodeResult δ)) :=
  if qrCode = [] then right (emitError (env.tr "Empty qr code"))
  else do
    modify fun _ => {}
    if env.isAddrTypeValid qrCode .bitcoin then right (plainAddress qrCode .bitcoin)
    else if env.isAddrTypeValid qrCode .elements then right (plainAddress qrCode .elements)
    else do
      let url ← ofPanic (parse env.uri qrCode)
      if url.scheme = "bitcoin".toList then
        pure ((parseBIP21 env qrCode .bitcoin).map BIP21Result.toQrCode)
      else if url.scheme = "liquidnetwork".toList then
        pure ((parseBIP21 env qrCode .liquidnetwork).map BIP21Result.toQrCode)
      else if url.scheme = "sideswap".toList then right (parseSideSwapAddress env qrCode)
      else right (emitError (env.tr "Invalid QR code"))

/-! ## The writer -/

/-- The arguments of `createDynamicQrCodeUrl`. -/
structure Payment (δ : Type) where
  address : List Char
  type : QrCodeResultType := .client
  amount : Option δ := none
  asset : Option (List Char) := none
  message : Option (List Char) := none
  bitMask : Int := 0

def typeText : QrCodeResultType → List Char
  | .merchant => ['M']
  | .client => ['C']

def messageText (message : Option (List Char)) : List Char :=
  match message with
  | some text => Base64.encode (utf8Encode text)
  | none => []

def dataList (D : Doubles δ) (p : Payment δ) : List (List Char) :=
  [typeText p.type, (p.amount.map D.print).getD [], p.asset.getD [], messageText p.message,
    intText p.bitMask]

/-- `createDynamicQrCodeUrl`. -/
def createDynamicQrCodeUrl (D : Doubles δ) (p : Payment δ) : List Char :=
  let data := [';'].intercalate (dataList D p)
  "sideswap:".toList ++ p.address ++ "?T=".toList ++ data

/-! ## What is returned has no type -/

theorem emitError_untyped (msg : List Char) :
    Yields (fun r : QrCodeResult δ => r.type = none) (emitError msg) :=
  Yields.after fun _ => Yields.pure rfl

theorem readFields_untyped (env : Env δ) (amount ticker message bitMask : List Char) :
    Yields (fun r => r.type = none) (readFields env amount ticker message bitMask) := by
  refine Yields.after fun _ => ?_
  split
  · exact emitError_untyped _
  · exact Yields.after fun _ => Yields.pure rfl

theorem readData_untyped (env : Env δ) (dataList : List (List Char)) :
    Yields (fun r => r.type = none) (readData env dataList) := by
  unfold readData
  split
  · refine Yields.after fun _ => Yields.after fun r => ?_
    by_cases htype : r.type.isNone = true
    · rw [if_pos htype]
      exact emitError_untyped _
    · rw [if_neg htype]
      exact readFields_untyped env _ _ _ _
  · exact emitError_untyped _

theorem parseSideSwapAddress_untyped (env : Env δ) (qrCode : List Char) :
    Yields (fun r => r.type = none) (parseSideSwapAddress env qrCode) := by
  refine Yields.after fun url => Yields.after fun queryParams => ?_
  by_cases hempty : queryParams = []
  · rw [if_pos hempty]
    exact emitError_untyped _
  rw [if_neg hempty]
  refine Yields.after fun _ => ?_
  by_cases hpath : url.path = []
  · rw [if_pos hpath]
    exact emitError_untyped _
  rw [if_neg hpath]
  split
  · exact emitError_untyped _
  · exact readData_untyped env _

theorem right_untyped {p : Prog (QrCodeResult δ) (QrCodeResult δ)}
    (h : Yields (fun r => r.type = none) p) :
    Yields (fun x => ∀ r, x = .ok r → r.type = none) (right p) := by
  refine h.bind fun r hr => Yields.pure ?_
  rintro r' heq
  cases heq
  exact hr

theorem bip21_untyped (x : Except (List Char) (BIP21Result δ)) {r : QrCodeResult δ}
    (h : x.map BIP21Result.toQrCode = .ok r) : r.type = none := by
  cases x with
  | error msg => exact nomatch h
  | ok b =>
      cases h
      rfl

/-- **NO TYPE**: whatever code is scanned, the result that is returned names no
    type. -/
theorem parseDynamicQrCode_untyped (env : Env δ) (qrCode : List Char) :
    Yields (fun x => ∀ r, x = .ok r → r.type = none) (parseDynamicQrCode env qrCode) := by
  unfold parseDynamicQrCode
  by_cases hempty : qrCode = []
  · rw [if_pos hempty]
    exact right_untyped (emitError_untyped _)
  rw [if_neg hempty]
  refine Yields.after fun _ => ?_
  have hplain : ∀ type : BIP21AddressTypeEnum,
      Yields (fun r : QrCodeResult δ => r.type = none) (plainAddress qrCode type) := fun _ =>
    Yields.after fun _ => Yields.pure rfl
  split_ifs
  · exact right_untyped (hplain _)
  · exact right_untyped (hplain _)
  refine Yields.after fun url => ?_
  split_ifs
  · exact Yields.pure fun r hr => bip21_untyped _ hr
  · exact Yields.pure fun r hr => bip21_untyped _ hr
  · exact right_untyped (parseSideSwapAddress_untyped env qrCode)
  · exact right_untyped (emitError_untyped _)

/-! ## What is kept of a payment -/

/-- What the writer and the parser rely on in the doubles: reading undoes
    printing, and a number is printed in letters, digits, dots and signs. -/
structure Doubles.Lawful (D : Doubles δ) : Prop where
  undoes : ∀ x, D.tryParse (D.print x) = some x
  chars : ∀ x, ∀ c ∈ D.print x, c.isAlphanum = true ∨ c ∈ ['.', '+', '-']
  empty : D.tryParse [] = none

/-- The payments that are written: the address is of letters and digits, the
    asset has no character with a meaning in the link, and no text is empty. -/
structure Payment.Plain (p : Payment δ) : Prop where
  addressNe : p.address ≠ []
  address : ∀ c ∈ p.address, c.isAlphanum = true
  assetNe : p.asset ≠ some []
  asset : ∀ t, p.asset = some t → ∀ c ∈ t, c ∉ [';', '&', '+', '%', '#']
  messageNe : p.message ≠ some []
  bitMask : IsI64 p.bitMask

/-- A character without a meaning in the data, the query or the link. -/
def Harmless (c : Char) : Prop := c ≠ ';' ∧ c ≠ '&' ∧ c ≠ '%' ∧ c ≠ '#'

theorem harmless_alphanum {c : Char} (h : c.isAlphanum = true) : Harmless c :=
  ⟨ne_of_isAlphanum h (by decide), ne_of_isAlphanum h (by decide),
    ne_of_isAlphanum h (by decide), ne_of_isAlphanum h (by decide)⟩

theorem isAlphanum_isDigit {c : Char} (h : c.isDigit = true) : c.isAlphanum = true := by
  rw [Char.isAlphanum, h, Bool.or_true]

theorem harmless_intText {n : Int} {c : Char} (h : c ∈ intText n) : Harmless c := by
  rcases mem_intText h with rfl | h
  · unfold Harmless
    decide
  · exact harmless_alphanum (isAlphanum_isDigit h)

theorem harmless_base64 {c : Char} (h : Base64.isPlain c = true) : Harmless c := by
  simp only [Base64.isPlain, Bool.or_eq_true, beq_iff_eq] at h
  rcases h with ((h | rfl) | rfl) | rfl
  · exact harmless_alphanum h
  · unfold Harmless
    decide
  · unfold Harmless
    decide
  · unfold Harmless
    decide

/-- No field of the data has a character with a meaning. -/
theorem harmless_dataList {D : Doubles δ} (hD : D.Lawful) {p : Payment δ} (hp : p.Plain) :
    ∀ field ∈ dataList D p, ∀ c ∈ field, Harmless c := by
  intro field hfield c hc
  simp only [dataList, List.mem_cons, List.not_mem_nil, or_false] at hfield
  rcases hfield with rfl | rfl | rfl | rfl | rfl
  · cases htype : p.type <;> rw [htype] at hc <;>
      exact List.mem_singleton.mp hc ▸ harmless_alphanum (by decide)
  · cases hamount : p.amount with
    | none =>
        rw [hamount] at hc
        exact nomatch hc
    | some x =>
        rw [hamount] at hc
        rcases hD.chars x c hc with hc | hc
        · exact harmless_alphanum hc
        · simp only [List.mem_cons, List.not_mem_nil, or_false] at hc
          rcases hc with rfl | rfl | rfl <;> (unfold Harmless; decide)
  · cases hasset : p.asset with
    | none =>
        rw [hasset] at hc
        exact nomatch hc
    | some t =>
        rw [hasset] at hc
        have hnot := hp.asset t hasset c hc
        simp only [List.mem_cons, List.not_mem_nil, or_false, not_or] at hnot
        exact ⟨hnot.1, hnot.2.1, hnot.2.2.2.1, hnot.2.2.2.2⟩
  · cases hmessage : p.message with
    | none =>
        rw [hmessage] at hc
        exact nomatch hc
    | some m =>
        rw [hmessage] at hc
        exact harmless_base64 (Base64.encode_chars _ c hc)
  · exact harmless_intText hc

/-- What the data has no character of. -/
theorem not_mem_data {D : Doubles δ} (hD : D.Lawful) {p : Payment δ} (hp : p.Plain) {c : Char}
    (hsep : c ≠ ';') (hc : ¬ Harmless c) : c ∉ [';'].intercalate (dataList D p) := by
  intro hmem
  rcases mem_intercalate hmem with hmem | ⟨field, hfield, hmem⟩
  · exact hsep hmem
  · exact hc (harmless_dataList hD hp field hfield c hmem)

/-- The link as its scheme, path and query. -/
theorem createDynamicQrCodeUrl_eq (D : Doubles δ) (p : Payment δ) :
    createDynamicQrCodeUrl D p = "sideswap".toList ++
      ':' :: (p.address ++ '?' :: (['T'] ++ '=' :: [';'].intercalate (dataList D p))) := by
  have hscheme : "sideswap:".toList = "sideswap".toList ++ [':'] := by decide
  have hquery : "?T=".toList = ['?', 'T', '='] := by decide
  unfold createDynamicQrCodeUrl
  rw [hscheme, hquery]
  simp

/-- The data of a link that was written. -/
def linkData (D : Doubles δ) (p : Payment δ) : List Char := [';'].intercalate (dataList D p)

theorem linkData_head (D : Doubles δ) (p : Payment δ) : (linkData D p).head? ≠ some bom := by
  have hhead : (linkData D p).head? = (typeText p.type).head? := by
    unfold linkData dataList
    rw [List.intercalate_cons_cons, List.append_assoc]
    cases p.type <;> rfl
  rw [hhead]
  cases p.type <;> decide

/-- The link as the core library reads it. -/
theorem parse_created {env : Env δ} (hD : env.doubles.Lawful) {p : Payment δ} (hp : p.Plain) :
    ∃ u, parse env.uri (createDynamicQrCodeUrl env.doubles p) = .ok u ∧
      u.scheme = "sideswap".toList ∧ u.path = p.address ∧
      u.queryParameters = .ok [(['T'], (linkData env.doubles p).map plusToSpace)] := by
  have hpercent : '%' ∉ linkData env.doubles p :=
    not_mem_data hD hp (by decide) fun h => h.2.2.1 rfl
  have hand : '&' ∉ linkData env.doubles p := not_mem_data hD hp (by decide) fun h => h.2.1 rfl
  have hhash : '#' ∉ ['T'] ++ '=' :: linkData env.doubles p := by
    have hno : '#' ∉ linkData env.doubles p :=
      not_mem_data hD hp (by decide) fun h => h.2.2.2 rfl
    simpa using hno
  refine ⟨⟨"sideswap".toList, p.address,
    normalize isQueryChar false (['T'] ++ '=' :: linkData env.doubles p)⟩, ?_, rfl, rfl, ?_⟩
  · rw [createDynamicQrCodeUrl_eq]
    exact parse_alphanum (by decide) (List.all_eq_true.mp (by decide)) (by decide) (by decide)
      hp.addressNe hp.address hhash
  · exact splitQueryString_single (List.cons_ne_nil _ _) (List.all_eq_true.mp (by decide)) hpercent
      hand (linkData_head env.doubles p)

/-- The fields of the data, with a space for every `+`. -/
theorem split_linkData {D : Doubles δ} (hD : D.Lawful) {p : Payment δ} (hp : p.Plain) :
    ((linkData D p).map plusToSpace).splitOn ';' = (dataList D p).map (List.map plusToSpace) := by
  have hsep : plusToSpace ';' = ';' := by decide
  unfold linkData
  rw [map_intercalate, hsep]
  refine List.splitOn_intercalate ';' ?_ (by simp [dataList])
  intro mapped hmapped hmem
  obtain ⟨field, hfield, rfl⟩ := List.mem_map.mp hmapped
  obtain ⟨c, hc, heq⟩ := List.mem_map.mp hmem
  exact (harmless_dataList hD hp field hfield c hc).1 (plusToSpace_eq (by decide) heq)

theorem exec_parseSideSwapAddress {env : Env δ} {qrCode : List Char} {u : Uri} {data : List Char}
    (hparse : parse env.uri qrCode = .ok u) (hparams : u.queryParameters = .ok [(['T'], data)])
    (hpath : u.path ≠ []) (r : QrCodeResult δ) :
    exec (parseSideSwapAddress env qrCode) r =
      exec (readData env (data.splitOn ';'))
        { r with address := some u.path, addressType := some .other } := by
  unfold parseSideSwapAddress
  rw [exec_ofPanic_ok_bind hparse, exec_ofPanic_ok_bind hparams, if_neg (List.cons_ne_nil _ _),
    exec_modify_bind, if_neg hpath]
  rfl

theorem exec_parseDynamicQrCode {env : Env δ} {qrCode : List Char} {u : Uri} (hne : qrCode ≠ [])
    (haddr : ∀ t, env.isAddrTypeValid qrCode t = false)
    (hparse : parse env.uri qrCode = .ok u) (hscheme : u.scheme = "sideswap".toList)
    (s : QrCodeResult δ) :
    exec (parseDynamicQrCode env qrCode) s = exec (right (parseSideSwapAddress env qrCode)) {} := by
  have hbitcoin : ¬ u.scheme = "bitcoin".toList := by
    rw [hscheme]
    decide
  have hliquid : ¬ u.scheme = "liquidnetwork".toList := by
    rw [hscheme]
    decide
  unfold parseDynamicQrCode
  rw [if_neg hne, exec_modify_bind, haddr, haddr, if_neg Bool.false_ne_true,
    if_neg Bool.false_ne_true, exec_ofPanic_ok_bind hparse, if_neg hbitcoin, if_neg hliquid,
    if_pos hscheme]

/-- **PARSED LINK**: the parser reads the fields of a link that was written, with
    a space for every `+` in them. -/
theorem parse_created_fields {env : Env δ} (hD : env.doubles.Lawful) {p : Payment δ} (hp : p.Plain)
    (haddr : ∀ t, env.isAddrTypeValid (createDynamicQrCodeUrl env.doubles p) t = false)
    (s : QrCodeResult δ) :
    exec (parseDynamicQrCode env (createDynamicQrCodeUrl env.doubles p)) s =
      exec (right (readData env ((dataList env.doubles p).map (List.map plusToSpace))))
        { address := some p.address, addressType := some .other } := by
  obtain ⟨u, hparse, hscheme, hpath, hparams⟩ := parse_created hD hp
  have hne : createDynamicQrCodeUrl env.doubles p ≠ [] := by
    rw [createDynamicQrCodeUrl_eq]
    exact List.append_ne_nil_of_right_ne_nil _ (List.cons_ne_nil _ _)
  rw [exec_parseDynamicQrCode hne haddr hparse hscheme]
  unfold right
  rw [exec_bind, exec_bind, exec_parseSideSwapAddress hparse hparams (hpath ▸ hp.addressNe),
    split_linkData hD hp, hpath]

/-- What the provider holds of a payment. -/
def Payment.kept (p : Payment δ) : QrCodeResult δ :=
  { address := some p.address
    addressType := some .other
    type := some p.type
    amount := p.amount
    ticker := p.asset
    message := p.message
    bitMask := some p.bitMask }

theorem readType_typeText (type : QrCodeResultType) (o : Option QrCodeResultType) :
    readType (typeText type) o = some type := by
  cases type <;> rfl

theorem nonEmpty_getD {o : Option (List Char)} (h : o ≠ some []) : nonEmpty (o.getD []) = o := by
  cases o with
  | none => rfl
  | some t =>
      cases t with
      | nil => exact absurd rfl h
      | cons c s => rfl

theorem tryParse_amount {D : Doubles δ} (hD : D.Lawful) (amount : Option δ) :
    D.tryParse ((amount.map D.print).getD []) = amount := by
  cases amount with
  | none => exact hD.empty
  | some x => exact hD.undoes x

/-- The message is read back from its Base64 text, but for a byte order mark. -/
theorem decode_messageText {message : Option (List Char)}
    (hbom : ∀ m, message = some m → m.head? ≠ some bom) :
    (Base64.decode (messageText message)).bind utf8Decode = some (message.getD []) := by
  cases message with
  | none =>
      have hempty : ([] : List Char).head? ≠ some bom := fun h => nomatch h
      exact utf8Decode_encode hempty
  | some m =>
      show (Base64.decode (Base64.encode (utf8Encode m))).bind utf8Decode = _
      rw [Base64.decode_encode, Option.bind_some, utf8Decode_encode (hbom m rfl)]
      rfl

/-- The fields as the parser finds them: only the amount and the message can have
    a `+` in them. -/
theorem dataList_spaced {D : Doubles δ} {p : Payment δ} (hp : p.Plain) :
    (dataList D p).map (List.map plusToSpace) =
      [typeText p.type, ((p.amount.map D.print).getD []).map plusToSpace, p.asset.getD [],
        (messageText p.message).map plusToSpace, intText p.bitMask] := by
  have htype : (typeText p.type).map plusToSpace = typeText p.type := by
    cases p.type <;> rfl
  have hasset : (p.asset.getD []).map plusToSpace = p.asset.getD [] := by
    refine map_plusToSpace fun hmem => ?_
    cases hasset : p.asset with
    | none =>
        rw [hasset] at hmem
        exact nomatch hmem
    | some t =>
        rw [hasset] at hmem
        exact hp.asset t hasset '+' hmem (by decide)
  have hmask : (intText p.bitMask).map plusToSpace = intText p.bitMask := by
    refine map_plusToSpace fun hmem => ?_
    rcases mem_intText hmem with hmem | hmem
    · exact absurd hmem (by decide)
    · exact absurd hmem (by decide)
  unfold dataList
  simp only [List.map_cons, List.map_nil, htype, hasset, hmask]

/-- The fields of a payment up to the message. -/
theorem exec_readData {env : Env δ} {type : QrCodeResultType}
    (amount ticker message bitMask : List Char) (r : QrCodeResult δ) :
    exec (readData env [typeText type, amount, ticker, message, bitMask]) r =
      exec (readFields env amount ticker message bitMask) { r with type := some type } := by
  unfold readData
  simp only
  rw [exec_modify_bind, exec_get_bind, readType_typeText]
  rfl

/-- **WHAT IS KEPT**: without a `+` in the amount or in the Base64 text and without
    a byte order mark the provider holds the payment as it was given.  What it
    returns is empty. -/
theorem parse_created_keeps {env : Env δ} (hD : env.doubles.Lawful) {p : Payment δ} (hp : p.Plain)
    (haddr : ∀ t, env.isAddrTypeValid (createDynamicQrCodeUrl env.doubles p) t = false)
    (hamount : '+' ∉ (p.amount.map env.doubles.print).getD [])
    (hmessage : '+' ∉ messageText p.message)
    (hbom : ∀ m, p.message = some m → m.head? ≠ some bom) (s : QrCodeResult δ) :
    exec (parseDynamicQrCode env (createDynamicQrCodeUrl env.doubles p)) s =
      (.ok (.ok {}), p.kept) := by
  rw [parse_created_fields hD hp haddr, dataList_spaced hp, map_plusToSpace hamount,
    map_plusToSpace hmessage]
  unfold right
  rw [exec_bind, exec_readData]
  unfold readFields
  rw [exec_modify_bind, decode_messageText hbom]
  simp only
  rw [exec_modify_bind, exec_pure, tryParse_amount hD, nonEmpty_getD hp.assetNe,
    nonEmpty_getD hp.messageNe, intTryParse_intText hp.bitMask]
  rfl

/-- **WHAT IS REFUSED**: with a `+` in the Base64 text the code is invalid. -/
theorem parse_created_plus {env : Env δ} (hD : env.doubles.Lawful) {p : Payment δ} (hp : p.Plain)
    (haddr : ∀ t, env.isAddrTypeValid (createDynamicQrCodeUrl env.doubles p) t = false)
    (hmessage : '+' ∈ messageText p.message) (s : QrCodeResult δ) :
    exec (parseDynamicQrCode env (createDynamicQrCodeUrl env.doubles p)) s =
      (.ok (.ok { error := some true, errorMessage := some (env.tr "Invalid QR code") }),
        { error := some true, errorMessage := some (env.tr "Invalid QR code") }) := by
  have hspace : ' ' ∈ (messageText p.message).map plusToSpace :=
    List.mem_map.mpr ⟨'+', hmessage, by decide⟩
  rw [parse_created_fields hD hp haddr, dataList_spaced hp]
  unfold right
  rw [exec_bind, exec_readData]
  unfold readFields
  rw [exec_modify_bind, Base64.decode_space hspace]
  rfl

/-- A payment is returned as it was given. -/
def Decodes (env : Env δ) (s : QrCodeResult δ) (p : Payment δ) : Prop :=
  ∃ r s', exec (parseDynamicQrCode env (createDynamicQrCodeUrl env.doubles p)) s =
      (.ok (.ok r), s') ∧
    r.address = some p.address ∧ r.type = some p.type ∧ r.amount = p.amount ∧
    r.ticker = p.asset ∧ r.message = p.message ∧ r.bitMask = some p.bitMask

/-- **NEVER DECODED**: no payment is returned as it was given. -/
theorem created_never_decodes (env : Env δ) (s : QrCodeResult δ) (p : Payment δ) :
    ¬ Decodes env s p := by
  rintro ⟨r, s', hrun, -, htype, -⟩
  have hnone := parseDynamicQrCode_untyped env _ s _ s' hrun r rfl
  rw [hnone] at htype
  exact nomatch htype

/-- Doubles that are whole tenths. -/
def tenths : Doubles Nat where
  print n := fixedText n 1
  tryParse text := (decimalValue text).bind fun x =>
    if (x * 10).den = 1 ∧ 0 ≤ x then some (x * 10).num.toNat else none
  zero := 0
  isNegative _ := false

theorem tenths_lawful : tenths.Lawful where
  undoes n := by
    have hvalue : decimalValue (fixedText n 1) = some ((n : ℚ) / 10 ^ 1) :=
      decimalValue_unsigned (fun c hc => isDigit_head_fixedText hc)
        (unsignedValue_fixedText (by decide))
    have hscale : (n : ℚ) / 10 ^ 1 * 10 = n := by
      rw [pow_one, div_mul_cancel₀ _ (by norm_num)]
    show (decimalValue (fixedText n 1)).bind _ = _
    rw [hvalue, Option.bind_some, hscale, if_pos ⟨Rat.den_natCast n, by positivity⟩,
      Rat.num_natCast, Int.toNat_natCast]
  chars n c hc := by
    rcases List.mem_append.mp hc with hc | hc
    · exact .inl (isAlphanum_isDigit (isDigit_digits hc))
    rcases List.mem_cons.mp hc with rfl | hc
    · exact .inr List.mem_cons_self
    · exact .inl (isAlphanum_isDigit (isDigit_leftpad (fun d hd => isDigit_digits hd) c hc))
  empty := rfl

def tenthsEnv : Env Nat where
  doubles := tenths
  uri := ⟨fun _ => true, fun _ => true⟩
  isAddrTypeValid _ _ := false
  tr := String.toList
  liquidAssetId := "L-BTC".toList
  ticker _ := none

/-- A payment of 12.5. -/
def samplePayment : Payment Nat where
  address := "VJL9abc123".toList
  type := .merchant
  amount := some 125
  asset := some "L-BTC".toList
  message := some "Hello".toList
  bitMask := 7

theorem samplePayment_plain : samplePayment.Plain where
  addressNe := by decide
  address := List.all_eq_true.mp (by decide)
  assetNe := by decide
  asset t ht := by
    cases ht
    have hall : ("L-BTC".toList.all fun c => !([';', '&', '+', '%', '#'].contains c)) = true := by
      decide
    intro c hc
    simpa using List.all_eq_true.mp hall c hc
  messageNe := by decide
  bitMask := by
    unfold IsI64
    decide

/-- The payment is read and kept, but an empty result is returned. -/
theorem sample_returned_empty :
    tenths.Lawful ∧ samplePayment.Plain ∧
    exec (parseDynamicQrCode tenthsEnv (createDynamicQrCodeUrl tenths samplePayment)) {} =
      (.ok (.ok {}), samplePayment.kept) ∧
    ¬ Decodes tenthsEnv {} samplePayment := by
  have hrun : exec (parseDynamicQrCode tenthsEnv (createDynamicQrCodeUrl tenths samplePayment)) {} =
      (.ok (.ok {}), samplePayment.kept) := by
    have hlawful : tenthsEnv.doubles.Lawful := tenths_lawful
    refine parse_created_keeps hlawful samplePayment_plain (fun _ => rfl) (by decide +kernel)
      (by decide +kernel) ?_ {}
    intro m hm
    cases hm
    decide
  refine ⟨tenths_lawful, samplePayment_plain, hrun, ?_⟩
  rintro ⟨r, s', hback, haddr, -⟩
  cases hrun.symm.trans hback
  exact nomatch haddr

end QrCodes
