import Mathlib.Data.List.TakeWhile
import SideSwap.Program
import SideSwap.HexText
import SideSwap.DartText

/-! # The URIs of the Dart core library

    `Uri.parse` cuts a text into scheme, authority, path, query and fragment and
    brings path and query into a normal form: characters that do not belong
    there are escaped, escapes that are not needed are undone, and dot segments
    are taken out of the path.  `queryParameters` cuts the query at `&` and the
    first `=` and decodes what it finds, where a `+` stands for a space.

    A query without `%` and `+` survives normalising and decoding
    (`decodeQueryComponent_normalize`): what is escaped on the way in is unescaped
    on the way out. -/

namespace DartUri

open Program DartText

/-- What of the checks on a text is not spelled out: whether its authority is
    one, and whether it is a well-formed `data:` URI. -/
structure Validity where
  authority : List Char → Bool
  dataUri : List Char → Bool

/-- The parts of a URI that are read. -/
structure Uri where
  scheme : List Char
  path : List Char
  query : List Char
deriving DecidableEq, Repr

/-! ## Characters -/

def isUnreserved (c : Char) : Bool := c.isAlphanum || ['-', '.', '_', '~'].contains c

def isSubDelim (c : Char) : Bool :=
  ['!', '$', '&', '\'', '(', ')', '*', '+', ',', ';', '='].contains c

def isPathChar (c : Char) : Bool := isUnreserved c || isSubDelim c || [':', '@', '/'].contains c

def isQueryChar (c : Char) : Bool := isPathChar c || c == '?'

def isSchemeChar (c : Char) : Bool := c.isAlphanum || ['+', '-', '.'].contains c

/-- A backslash counts as a slash. -/
def isSlash (c : Char) : Bool := c == '/' || c == '\\'

/-- Where a scheme or an authority ends at the latest. -/
def isDelimiter (c : Char) : Bool := isSlash c || c == '?' || c == '#'

/-! ## Normal form -/

/-- An upper-case hex digit. -/
def hexDigit (n : Nat) : Char := if n < 10 then Char.ofNat (48 + n) else Char.ofNat (55 + n)

def escapeByte (b : UInt8) : List Char := ['%', hexDigit (b.toNat / 16), hexDigit (b.toNat % 16)]

/-- A character as the escapes of its UTF-8 bytes. -/
def escapeChar (c : Char) : List Char := (String.utf8EncodeChar c).flatMap escapeByte

/-- An escape in normal form: undone where it is not needed, else in upper case. -/
def normalizeEscape (n : Nat) : List Char :=
  if isUnreserved (Char.ofNat n) then [Char.ofNat n] else escapeByte (UInt8.ofNat n)

/-- One character that is no `%`. -/
def normalizeChar (allowed : Char → Bool) (replaceBackslash : Bool) (c : Char) : List Char :=
  if allowed c then [c]
  else if replaceBackslash && c == '\\' then ['/']
  else escapeChar c

/-- The normal form of a path or a query; a `%` that starts no escape is escaped. -/
def normalize (allowed : Char → Bool) (replaceBackslash : Bool) : List Char → List Char
  | [] => []
  | '%' :: a :: b :: s =>
      match HexText.value a, HexText.value b with
      | some x, some y => normalizeEscape (x * 16 + y) ++ normalize allowed replaceBackslash s
      | _, _ => ['%', '2', '5'] ++ normalize allowed replaceBackslash (a :: b :: s)
  | '%' :: s => ['%', '2', '5'] ++ normalize allowed replaceBackslash s
  | c :: s => normalizeChar allowed replaceBackslash c ++ normalize allowed replaceBackslash s

/-- Whether a path may have dot segments. -/
def mayContainDotSegments (path : List Char) : Bool :=
  path.head? == some '.' || decide (['/', '.'] <:+: path)

/-- One segment of a path; the flag says whether the path ends in a slash so far. -/
def dotStep (acc : List (List Char) × Bool) (segment : List Char) : List (List Char) × Bool :=
  let (output, _) := acc
  if segment = ['.', '.'] then
    (if output = [] then [] else if output.length = 1 then [[]] else output.dropLast, true)
  else if segment = ['.'] then (output, true)
  else (output ++ [segment], false)

def removeDotSegments (path : List Char) : List Char :=
  if mayContainDotSegments path then
    let (output, appendSlash) := (path.splitOn '/').foldl dotStep ([], false)
    ['/'].intercalate (if appendSlash then output ++ [[]] else output)
  else path

/-! ## Parsing -/

/-- The scheme and what follows it; the empty scheme stands for none. -/
def parseScheme (text : List Char) : Except Panic (List Char × List Char) :=
  let first := text.takeWhile (!isDelimiter ·)
  if ':' ∈ first then
    let scheme := first.takeWhile (· != ':')
    if scheme = [] then .error ⟨"FormatException: Invalid empty scheme"⟩
    else if !(scheme.head?.any Char.isAlpha) then
      .error ⟨"FormatException: Scheme not starting with alphabetic character"⟩
    else if !scheme.all isSchemeChar then .error ⟨"FormatException: Illegal scheme character"⟩
    else .ok (scheme.map Char.toLower, text.drop (scheme.length + 1))
  else .ok ([], text)

/-- What follows the authority, if there is one. -/
def skipAuthority (v : Validity) (rest : List Char) : Except Panic (Bool × List Char) :=
  match rest with
  | a :: b :: s =>
      if isSlash a && isSlash b then
        if v.authority (s.takeWhile (!isDelimiter ·)) then
          .ok (true, s.dropWhile (!isDelimiter ·))
        else .error ⟨"FormatException: Invalid authority"⟩
      else .ok (false, rest)
  | _ => .ok (false, rest)

/-- The path in normal form.  The further rules for a reference without scheme
    and authority are left out: its path is not read. -/
def makePath (scheme : List Char) (hasAuthority : Bool) (path : List Char) : List Char :=
  let path := normalize isPathChar true path
  let path :=
    if path = [] then (if scheme = "file".toList then ['/'] else [])
    else if (hasAuthority || scheme == "file".toList) && path.head? != some '/' then '/' :: path
    else path
  if scheme = [] ∧ !hasAuthority then path else removeDotSegments path

/-- `Uri.parse`. -/
def parse (v : Validity) (text : List Char) : Except Panic Uri := do
  let (scheme, rest) ← parseScheme text
  if scheme = "data".toList ∧ v.dataUri text = false then
    .error ⟨"FormatException: Invalid data URI"⟩
  else do
    let (hasAuthority, rest) ← skipAuthority v rest
    let path := rest.takeWhile fun c => c != '?' && c != '#'
    let rest := rest.dropWhile fun c => c != '?' && c != '#'
    let query := match rest with
      | '?' :: s => s.takeWhile (· != '#')
      | _ => []
    pure ⟨scheme, makePath scheme hasAuthority path, normalize isQueryChar false query⟩

/-! ## Query parameters -/

/-- The bytes that an encoded text stands for. -/
def decodeBytes : List Char → Except Panic (List UInt8)
  | [] => .ok []
  | '%' :: a :: b :: s =>
      match HexText.value a, HexText.value b with
      | some x, some y => (decodeBytes s).map (UInt8.ofNat (x * 16 + y) :: ·)
      | _, _ => .error ⟨"Invalid argument(s): Invalid URL encoding"⟩
  | '%' :: _ => .error ⟨"Invalid argument(s): Truncated URI"⟩
  | c :: s =>
      if 127 < c.toNat then .error ⟨"Invalid argument(s): Illegal percent encoding in URI"⟩
      else (decodeBytes s).map (UInt8.ofNat (if c = '+' then ' ' else c).toNat :: ·)

/-- A text in which nothing is encoded. -/
def isSimple (text : List Char) : Bool :=
  text.all fun c => decide (c.toNat ≤ 127) && c != '%' && c != '+'

/-- `Uri.decodeQueryComponent`. -/
def decodeQueryComponent (text : List Char) : Except Panic (List Char) :=
  if isSimple text then .ok text
  else (decodeBytes text).bind fun bytes =>
    expect (utf8Decode bytes) "FormatException: Invalid UTF-8 byte"

/-- A map of parameters; a later value of a key replaces the earlier one. -/
abbrev Params := List (List Char × List Char)

def insertParam (params : Params) (key value : List Char) : Params :=
  (key, value) :: params.filter (·.1 ≠ key)

/-- One element of a query. -/
def addElement (params : Params) (element : List Char) : Except Panic Params :=
  match element.idxOf? '=' with
  | none =>
      if element = [] then .ok params
      else (decodeQueryComponent element).map fun key => insertParam params key []
  | some 0 => .ok params
  | some i => do
      let key ← decodeQueryComponent (element.take i)
      let value ← decodeQueryComponent (element.drop (i + 1))
      pure (insertParam params key value)

/-- `Uri.splitQueryString`. -/
def splitQueryString (query : List Char) : Except Panic Params :=
  (query.splitOn '&').foldlM addElement []

/-- `url.queryParameters`. -/
def Uri.queryParameters (u : Uri) : Except Panic Params := splitQueryString u.query

/-- `params[key]`. -/
def lookupParam (params : Params) (key : List Char) : Option (List Char) := params.lookup key

/-! ## What survives -/

/-- The normal form of a text without escapes, character by character. -/
theorem normalize_plain {allowed : Char → Bool} {rb : Bool} {s : List Char} (h : '%' ∉ s) :
    normalize allowed rb s = s.flatMap (normalizeChar allowed rb) := by
  induction s with
  | nil => rfl
  | cons c s ih =>
      rw [List.mem_cons, not_or] at h
      rw [normalize, List.flatMap_cons, ih h.2]
      · exact fun a b t hc _ => h.1 hc.symm
      · exact fun hc => h.1 hc.symm

/-- Characters that are allowed are left alone. -/
theorem flatMap_normalizeChar_allowed {allowed : Char → Bool} {rb : Bool} {s : List Char}
    (h : ∀ c ∈ s, allowed c = true) : s.flatMap (normalizeChar allowed rb) = s := by
  induction s with
  | nil => rfl
  | cons c s ih =>
      have hc : normalizeChar allowed rb c = [c] := if_pos (h c List.mem_cons_self)
      rw [List.flatMap_cons, hc, ih fun d hd => h d (List.mem_cons_of_mem _ hd)]
      rfl

theorem value_hexDigit {n : Nat} (h : n < 16) : HexText.value (hexDigit n) = some n := by
  interval_cases n <;> decide

/-- An escaped byte is read back. -/
theorem decodeBytes_escapeByte (b : UInt8) (s : List Char) :
    decodeBytes (escapeByte b ++ s) = (decodeBytes s).map (b :: ·) := by
  have hb := b.toNat_lt
  show decodeBytes ('%' :: hexDigit (b.toNat / 16) :: hexDigit (b.toNat % 16) :: s) = _
  rw [decodeBytes, value_hexDigit (by omega), value_hexDigit (by omega)]
  have hback : b.toNat / 16 * 16 + b.toNat % 16 = b.toNat := by omega
  simp only [hback, UInt8.ofNat_toNat]

theorem decodeBytes_escapes (bytes : List UInt8) (s : List Char) :
    decodeBytes (bytes.flatMap escapeByte ++ s) = (decodeBytes s).map (bytes ++ ·) := by
  induction bytes with
  | nil => cases hs : decodeBytes s <;> simp [hs, Except.map]
  | cons b bytes ih =>
      rw [List.flatMap_cons, List.append_assoc, decodeBytes_escapeByte, ih]
      cases decodeBytes s <;> rfl

theorem isAlphanum_le {c : Char} (h : c.isAlphanum = true) : c.toNat ≤ 122 := by
  delta Char.isAlphanum Char.isAlpha Char.isUpper Char.isLower Char.isDigit at h
  simp only [Bool.or_eq_true, Bool.and_eq_true, decide_eq_true_eq, UInt32.le_iff_toNat_le] at h
  have hval : c.toNat = c.val.toNat := rfl
  have hZ : 'Z'.val.toNat = 90 := rfl
  have hz : 'z'.val.toNat = 122 := rfl
  have h9 : '9'.val.toNat = 57 := rfl
  omega

/-- The characters of a query are ASCII and no `%`. -/
theorem isQueryChar_ascii {c : Char} (h : isQueryChar c = true) : c.toNat ≤ 127 ∧ c ≠ '%' := by
  by_cases hword : c.isAlphanum = true
  · refine ⟨(isAlphanum_le hword).trans (by decide), ?_⟩
    rintro rfl
    exact absurd hword (by decide)
  · have hmark : c ∈ ['-', '.', '_', '~', '!', '$', '&', '\'', '(', ')', '*', '+', ',', ';', '=',
        ':', '@', '/', '?'] := by
      simp only [isQueryChar, isPathChar, isUnreserved, isSubDelim, hword, Bool.false_or,
        Bool.or_eq_true, List.contains_iff_mem, beq_iff_eq] at h
      simpa [or_assoc] using h
    have hall : (['-', '.', '_', '~', '!', '$', '&', '\'', '(', ')', '*', '+', ',', ';', '=',
        ':', '@', '/', '?'].all fun c => decide (c.toNat ≤ 127) && c != '%') = true := by decide
    simpa using List.all_eq_true.mp hall c hmark

/-- A character that is no escape, as decoding leaves it: `+` stands for a space. -/
def plusToSpace (c : Char) : Char := if c = '+' then ' ' else c

theorem plusToSpace_eq {c d : Char} (hd : d ≠ ' ') (h : plusToSpace c = d) : c = d := by
  unfold plusToSpace at h
  by_cases hc : c = '+'
  · rw [if_pos hc] at h
    exact absurd h.symm hd
  · rwa [if_neg hc] at h

theorem map_plusToSpace {s : List Char} (h : '+' ∉ s) : s.map plusToSpace = s := by
  have hid : ∀ c ∈ s, plusToSpace c = id c := by
    intro c hc
    have hne : c ≠ '+' := fun e => h (e ▸ hc)
    exact if_neg hne
  rw [List.map_congr_left hid, List.map_id]

theorem decodeBytes_plain {c : Char} (hascii : c.toNat ≤ 127) (hne : c ≠ '%') (s : List Char) :
    decodeBytes (c :: s) =
      (decodeBytes s).map (String.utf8EncodeChar (plusToSpace c) ++ ·) := by
  have hplus : (plusToSpace c).toNat < 128 := by
    unfold plusToSpace
    split
    · decide
    · omega
  rw [decodeBytes, if_neg (by omega), utf8EncodeChar_ascii hplus]
  · rfl
  · exact fun a b t hc _ => hne hc
  · exact hne

/-- The bytes of a normalised text are those of the text with spaces for `+`. -/
theorem decodeBytes_normalized {s : List Char} (h : '%' ∉ s) :
    decodeBytes (s.flatMap (normalizeChar isQueryChar false)) =
      .ok (utf8Encode (s.map plusToSpace)) := by
  induction s with
  | nil => rfl
  | cons c s ih =>
      rw [List.mem_cons, not_or] at h
      rw [List.flatMap_cons, List.map_cons, utf8Encode_cons]
      by_cases hc : isQueryChar c = true
      · obtain ⟨hascii, hne⟩ := isQueryChar_ascii hc
        have hkeep : normalizeChar isQueryChar false c = [c] := if_pos hc
        rw [hkeep, List.singleton_append, decodeBytes_plain hascii hne, ih h.2]
        rfl
      · -- an escaped character is no `+`, which belongs to a query
        have hplus : plusToSpace c = c := if_neg (by rintro rfl; exact hc (by decide))
        have hesc : normalizeChar isQueryChar false c = escapeChar c := by
          unfold normalizeChar
          rw [if_neg hc]
          rfl
        rw [hesc, hplus, escapeChar, decodeBytes_escapes, ih h.2]
        rfl

/-- A text in which nothing is encoded is its own bytes. -/
theorem decodeBytes_simple {s : List Char} (h : isSimple s = true) :
    decodeBytes s = .ok (utf8Encode s) := by
  induction s with
  | nil => rfl
  | cons c s ih =>
      unfold isSimple at h ih
      simp only [List.all_cons, Bool.and_eq_true, decide_eq_true_eq, bne_iff_ne] at h
      obtain ⟨⟨⟨hascii, hne⟩, hplus⟩, hs⟩ := h
      have hkeep : plusToSpace c = c := if_neg hplus
      rw [decodeBytes_plain hascii hne, ih hs, hkeep, utf8Encode_cons]
      rfl

/-- **QUERY ROUND TRIP**: a component without `%` is decoded to itself, with a
    space for every `+`. -/
theorem decodeQueryComponent_normalize {s : List Char} (h : '%' ∉ s) (hbom : s.head? ≠ some bom) :
    decodeQueryComponent (normalize isQueryChar false s) = .ok (s.map plusToSpace) := by
  have hbom' : (s.map plusToSpace).head? ≠ some bom := by
    cases s with
    | nil => exact fun e => nomatch e
    | cons c s =>
        exact fun e => hbom (congrArg some (plusToSpace_eq (by decide) (Option.some.inj e)))
  have hbytes := decodeBytes_normalized h
  rw [← normalize_plain h] at hbytes
  unfold decodeQueryComponent
  by_cases hsimple : isSimple (normalize isQueryChar false s) = true
  · -- nothing was encoded, so the text is read as it stands
    rw [if_pos hsimple]
    have hsame := Except.ok.inj ((decodeBytes_simple hsimple).symm.trans hbytes)
    have hdecode := congrArg utf8Decode hsame
    rw [utf8Decode_encode hbom', utf8Decode_encode] at hdecode
    · exact congrArg Except.ok (Option.some.inj hdecode)
    · intro e
      have hmem := List.all_eq_true.mp hsimple bom (List.mem_of_head? e)
      exact absurd hmem (by decide)
  · rw [if_neg hsimple, hbytes]
    show expect (utf8Decode (utf8Encode (s.map plusToSpace))) _ = _
    rw [utf8Decode_encode hbom', expect_some]

theorem normalize_append {allowed : Char → Bool} {rb : Bool} {a b : List Char} (ha : '%' ∉ a)
    (hb : '%' ∉ b) :
    normalize allowed rb (a ++ b) = normalize allowed rb a ++ normalize allowed rb b := by
  rw [normalize_plain ha, normalize_plain hb, normalize_plain (by simp [ha, hb]), List.flatMap_append]

/-- Escaping brings no `&` into a text. -/
theorem not_mem_normalize {s : List Char} (h : '%' ∉ s) (hs : '&' ∉ s) :
    '&' ∉ normalize isQueryChar false s := by
  have hbyte : ∀ b, '&' ∉ escapeByte b := by
    intro b hmem
    have hb := b.toNat_lt
    have hdigit : ∀ n < 16, hexDigit n ≠ '&' := by
      intro n hn
      interval_cases n <;> decide
    simp only [escapeByte, List.mem_cons, List.not_mem_nil, or_false] at hmem
    rcases hmem with hmem | hmem | hmem
    · exact absurd hmem (by decide)
    · exact hdigit _ (by omega) hmem.symm
    · exact hdigit _ (by omega) hmem.symm
  rw [normalize_plain h]
  intro hmem
  obtain ⟨c, hc, hmem⟩ := List.mem_flatMap.mp hmem
  unfold normalizeChar at hmem
  by_cases hallowed : isQueryChar c = true
  · rw [if_pos hallowed] at hmem
    exact hs (List.mem_singleton.mp hmem ▸ hc)
  · rw [if_neg hallowed] at hmem
    obtain ⟨b, -, hmem⟩ := List.mem_flatMap.mp hmem
    exact hbyte b hmem

theorem ne_of_isAlphanum {c d : Char} (hc : c.isAlphanum = true) (hd : d.isAlphanum = false) :
    c ≠ d := by
  rintro rfl
  exact absurd hc (by rw [hd]; exact Bool.false_ne_true)

/-- Letters and digits are left alone by a normal form that allows them. -/
theorem normalize_alphanum {allowed : Char → Bool} {rb : Bool} {s : List Char}
    (hallowed : ∀ c, c.isAlphanum = true → allowed c = true)
    (h : ∀ c ∈ s, c.isAlphanum = true) : normalize allowed rb s = s := by
  have hpercent : '%' ∉ s := fun hc => ne_of_isAlphanum (h _ hc) (by decide) rfl
  rw [normalize_plain hpercent, flatMap_normalizeChar_allowed fun c hc => hallowed c (h c hc)]

theorem isPathChar_alphanum {c : Char} (h : c.isAlphanum = true) : isPathChar c = true := by
  unfold isPathChar isUnreserved
  rw [h]
  rfl

theorem isQueryChar_alphanum {c : Char} (h : c.isAlphanum = true) : isQueryChar c = true := by
  unfold isQueryChar
  rw [isPathChar_alphanum h]
  rfl

theorem splitOn_absent {c : Char} {s : List Char} (h : c ∉ s) : s.splitOn c = [s] := by
  have hone : ∀ l ∈ [s], c ∉ l := by
    intro l hl
    rwa [List.mem_singleton.mp hl]
  have hsplit := List.splitOn_intercalate c hone (List.cons_ne_nil _ _)
  rwa [List.intercalate_singleton] at hsplit

/-- **ONE PARAMETER**: a query that holds a single parameter gives it back. -/
theorem splitQueryString_single {key value : List Char} (hne : key ≠ [])
    (hkey : ∀ c ∈ key, c.isAlphanum = true) (hpercent : '%' ∉ value) (hand : '&' ∉ value)
    (hbom : value.head? ≠ some bom) :
    splitQueryString (normalize isQueryChar false (key ++ '=' :: value)) =
      .ok [(key, value.map plusToSpace)] := by
  have hnot : ∀ d, d.isAlphanum = false → d ∉ key := fun d hd hc =>
    ne_of_isAlphanum (hkey d hc) hd rfl
  have hkeyPercent : '%' ∉ key := hnot _ (by decide)
  have hkeyNorm : normalize isQueryChar false key = key :=
    normalize_alphanum (fun c hc => isQueryChar_alphanum hc) hkey
  have hequals : normalize isQueryChar false ('=' :: value) =
      '=' :: normalize isQueryChar false value :=
    normalize_append (a := ['=']) (by decide) hpercent
  have hnorm : normalize isQueryChar false (key ++ '=' :: value) =
      key ++ '=' :: normalize isQueryChar false value := by
    rw [normalize_append hkeyPercent (by simp [hpercent]), hkeyNorm, hequals]
  have handNorm : '&' ∉ key ++ '=' :: normalize isQueryChar false value := by
    have hvalue := not_mem_normalize hpercent hand
    simp [hnot '&' (by decide), hvalue]
  -- the only element is cut at its first `=`
  obtain ⟨k, hk⟩ : ∃ k, key.length = k + 1 := Nat.exists_eq_succ_of_ne_zero (by simpa using hne)
  have hidx := idxOf?_append (hnot '=' (by decide)) (normalize isQueryChar false value)
  have htake : (key ++ '=' :: normalize isQueryChar false value).take (k + 1) = key := by
    rw [← hk, List.take_left]
  have hdrop : (key ++ '=' :: normalize isQueryChar false value).drop (k + 1 + 1) =
      normalize isQueryChar false value := by
    rw [← hk]
    simp
  have hkeyDecode : decodeQueryComponent key = .ok key := by
    have hround := decodeQueryComponent_normalize hkeyPercent
      (fun e => hnot bom (by decide) (List.mem_of_head? e))
    rwa [hkeyNorm, map_plusToSpace (hnot '+' (by decide))] at hround
  unfold splitQueryString
  rw [hnorm, splitOn_absent handNorm]
  show (addElement [] (key ++ '=' :: normalize isQueryChar false value) >>= pure) = _
  unfold addElement
  rw [hidx, hk]
  simp only [htake, hdrop, hkeyDecode, decodeQueryComponent_normalize hpercent hbom]
  rfl

/-! ## A scheme, a plain path and a query -/

theorem takeWhile_append_stop {p : Char → Bool} {a : List Char} {c : Char}
    (ha : ∀ d ∈ a, p d = true) (hc : p c = false) (s : List Char) :
    (a ++ c :: s).takeWhile p = a ∧ (a ++ c :: s).dropWhile p = c :: s := by
  rw [List.takeWhile_append_of_pos ha, List.dropWhile_append_of_pos ha,
    List.takeWhile_cons_of_neg (by rw [hc]; exact Bool.false_ne_true),
    List.dropWhile_cons_of_neg (by rw [hc]; exact Bool.false_ne_true), List.append_nil]
  exact ⟨rfl, rfl⟩

theorem isDelimiter_alphanum {c : Char} (h : c.isAlphanum = true) : isDelimiter c = false := by
  have hne : ∀ d : Char, d.isAlphanum = false → (c == d) = false := fun d hd =>
    beq_eq_false_iff_ne.mpr (ne_of_isAlphanum h hd)
  unfold isDelimiter isSlash
  rw [hne '/' (by decide), hne '\\' (by decide), hne '?' (by decide), hne '#' (by decide)]
  rfl

theorem toLower_isLower {c : Char} (h : c.isLower = true) : c.toLower = c := by
  delta Char.isLower at h
  simp only [Bool.and_eq_true, decide_eq_true_eq, UInt32.le_iff_toNat_le, ge_iff_le] at h
  have ha : 'a'.val.toNat = 97 := rfl
  have hZ : 'Z'.val.toNat = 90 := rfl
  unfold Char.toLower
  rw [dif_neg]
  simp only [UInt32.le_iff_toNat_le, ge_iff_le]
  omega

/-- A lower-case scheme in front of a text is taken off it. -/
theorem parseScheme_lower {scheme path query : List Char} (hne : scheme ≠ [])
    (hscheme : ∀ c ∈ scheme, c.isLower = true) (hpath : ∀ c ∈ path, c.isAlphanum = true) :
    parseScheme (scheme ++ ':' :: (path ++ '?' :: query)) = .ok (scheme, path ++ '?' :: query) := by
  have halpha : ∀ c ∈ scheme, c.isAlpha = true := by
    intro c hc
    show (c.isUpper || c.isLower) = true
    rw [hscheme c hc, Bool.or_true]
  have hword : ∀ c ∈ scheme, c.isAlphanum = true := by
    intro c hc
    show (c.isAlpha || c.isDigit) = true
    rw [halpha c hc, Bool.true_or]
  have hfirst : (scheme ++ ':' :: (path ++ '?' :: query)).takeWhile (!isDelimiter ·) =
      scheme ++ ':' :: path := by
    have happ : scheme ++ ':' :: (path ++ '?' :: query) = (scheme ++ ':' :: path) ++ '?' :: query := by
      simp
    rw [happ]
    refine (takeWhile_append_stop ?_ (by decide) query).1
    intro d hd
    simp only [List.mem_append, List.mem_cons] at hd
    rcases hd with hd | rfl | hd
    · rw [isDelimiter_alphanum (hword d hd)]
      rfl
    · decide
    · rw [isDelimiter_alphanum (hpath d hd)]
      rfl
  have hname : (scheme ++ ':' :: path).takeWhile (· != ':') = scheme :=
    (takeWhile_append_stop (fun d hd => bne_iff_ne.mpr (ne_of_isAlphanum (hword d hd) (by decide)))
      (by decide) path).1
  have hhead : scheme.head?.any Char.isAlpha = true := by
    obtain ⟨c, s, rfl⟩ := List.exists_cons_of_ne_nil hne
    exact halpha c List.mem_cons_self
  have hall : scheme.all isSchemeChar = true := by
    refine List.all_eq_true.mpr fun c hc => ?_
    unfold isSchemeChar
    rw [hword c hc]
    rfl
  have hlower : scheme.map Char.toLower = scheme := by
    have hid : ∀ c ∈ scheme, c.toLower = id c := fun c hc => toLower_isLower (hscheme c hc)
    rw [List.map_congr_left hid, List.map_id]
  have hdrop : (scheme ++ ':' :: (path ++ '?' :: query)).drop (scheme.length + 1) =
      path ++ '?' :: query := by simp
  unfold parseScheme
  simp only [hfirst, hname]
  rw [if_pos (by simp), if_neg hne, if_neg (by rw [hhead]; decide), if_neg (by rw [hall]; decide),
    hlower, hdrop]

/-- Letters and digits have no dot segments. -/
theorem removeDotSegments_alphanum {path : List Char} (h : ∀ c ∈ path, c.isAlphanum = true) :
    removeDotSegments path = path := by
  have hnot : ∀ d, d.isAlphanum = false → d ∉ path := fun d hd hc =>
    ne_of_isAlphanum (h d hc) hd rfl
  have hhead : (path.head? == some '.') = false :=
    beq_eq_false_iff_ne.mpr fun e => hnot '.' (by decide) (List.mem_of_head? e)
  have hinfix : ¬ ['/', '.'] <:+: path := fun hi =>
    hnot '/' (by decide) (hi.subset List.mem_cons_self)
  unfold removeDotSegments mayContainDotSegments
  rw [hhead, decide_eq_false hinfix]
  rfl

/-- **PARSING**: a scheme, a path of letters and digits and a query. -/
theorem parse_alphanum {v : Validity} {scheme path query : List Char} (hne : scheme ≠ [])
    (hscheme : ∀ c ∈ scheme, c.isLower = true) (hdata : scheme ≠ "data".toList)
    (hfile : scheme ≠ "file".toList) (hpathNe : path ≠ [])
    (hpath : ∀ c ∈ path, c.isAlphanum = true) (hquery : '#' ∉ query) :
    parse v (scheme ++ ':' :: (path ++ '?' :: query)) =
      .ok ⟨scheme, path, normalize isQueryChar false query⟩ := by
  have hslash : skipAuthority v (path ++ '?' :: query) = .ok (false, path ++ '?' :: query) := by
    obtain ⟨c, t, rfl⟩ := List.exists_cons_of_ne_nil hpathNe
    have hc : isSlash c = false := by
      have hdelim := isDelimiter_alphanum (hpath c List.mem_cons_self)
      unfold isDelimiter at hdelim
      simp only [Bool.or_eq_false_iff] at hdelim
      exact hdelim.1.1
    cases ht : t ++ '?' :: query with
    | nil => exact absurd (List.append_eq_nil_iff.mp ht).2 (List.cons_ne_nil _ _)
    | cons b s =>
        rw [List.cons_append, ht]
        unfold skipAuthority
        simp only [hc, Bool.false_and]
        rfl
  have hstop : ∀ d ∈ path, (d != '?' && d != '#') = true := by
    intro d hd
    rw [Bool.and_eq_true, bne_iff_ne, bne_iff_ne]
    exact ⟨ne_of_isAlphanum (hpath d hd) (by decide), ne_of_isAlphanum (hpath d hd) (by decide)⟩
  obtain ⟨htake, hdrop⟩ := takeWhile_append_stop (c := '?') hstop (by decide) query
  have hfragment : query.takeWhile (· != '#') = query := by
    refine List.takeWhile_eq_self_iff.mpr fun c hc => bne_iff_ne.mpr ?_
    exact fun e => hquery (e ▸ hc)
  have hmake : makePath scheme false path = path := by
    have hfile' : (scheme == "file".toList) = false := beq_eq_false_iff_ne.mpr hfile
    unfold makePath
    simp only [normalize_alphanum (fun c hc => isPathChar_alphanum hc) hpath, if_neg hpathNe, hfile',
      Bool.false_or, Bool.false_and, Bool.false_eq_true, if_false, hne, false_and,
      removeDotSegments_alphanum hpath]
  unfold parse
  rw [parseScheme_lower hne hscheme hpath]
  show (if scheme = "data".toList ∧ v.dataUri _ = false then _ else _) = _
  rw [if_neg fun h => hdata h.1, hslash]
  show Except.ok _ = _
  simp only [htake, hdrop, hfragment, hmake]

end DartUri
