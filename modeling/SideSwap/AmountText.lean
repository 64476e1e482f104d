import SideSwap.MachineInt
import SideSwap.Program
import SideSwap.DartText
import SideSwap.DecimalText

/-! # Amounts as text

    `AmountToString.amountToString` prints an amount of the smallest unit with
    the decimals of its asset, and `parseAssetAmount` of `providers/wallet.dart`
    reads what a user types.  Both compute with the packages `decimal` and
    `rational`, which enter through what the code relies on (`Exact`): they read
    every text that denotes a number as that number and print fixed decimals.

    What is read is characterised by the number the text denotes
    (`parseAssetAmount_some_iff`); that what is printed is read back follows from
    the number it denotes (`amountToString_denotes`). -/

namespace AmountText

open Program MachineInt DartText DecimalText

/-- The functions of the packages `decimal` and `rational` that the code calls,
    besides exact arithmetic on their values. -/
structure DecimalPackage where
  /-- `Decimal.tryParse` -/
  tryParse : List Char → Option ℚ
  /-- `Rational.toDecimal`, which throws on a number without finite expansion -/
  toDecimal : ℚ → Option ℚ
  /-- `Decimal.toStringAsFixed` -/
  toStringAsFixed : ℚ → Int → List Char

/-- The package is exact. -/
structure DecimalPackage.Exact (d : DecimalPackage) : Prop where
  parses : ∀ text x, decimalValue text = some x → d.tryParse text = some x
  converts : ∀ n p : Nat, d.toDecimal ((n : ℚ) / 10 ^ p) = some ((n : ℚ) / 10 ^ p)
  prints : ∀ n p : Nat, 0 < p → d.toStringAsFixed ((n : ℚ) / 10 ^ p) p = fixedText n p

/-- `toBigInt` of a decimal or rational: the fraction is cut off. -/
def toBigInt (x : ℚ) : Int := x.num.tdiv x.den

/-- `BigInt.toInt`: a value out of range is clamped. -/
def toInt (n : Int) : Int := max (-2 ^ 63) (min (2 ^ 63 - 1) n)

/-- `parseAssetAmount`. -/
def parseAssetAmount (d : DecimalPackage) (value : List Char) (precision : Int) : Option Int :=
  if precision < 0 ∨ 8 < precision then none
  else
    let newValue := removeAll [' '] value
    match d.tryParse newValue with
    | none => none
    | some amount =>
        let amountDec := amount * (10 ^ precision.toNat : ℚ)
        let amountInt := toInt (toBigInt amountDec)
        if (amountInt : ℚ) ≠ amountDec then none else some amountInt

/-- `getPrecisionForAssetId` over the precisions of the known assets. -/
def getPrecisionForAssetId (precisions : String → Option Int) (assetId : Option String) : Int :=
  match assetId with
  | none => 8
  | some id => (precisions id).getD 8

/-- `getSatoshiForAmount`: what cannot be read counts as nothing. -/
def getSatoshiForAmount (d : DecimalPackage) (precisions : String → Option Int) (asset : String)
    (value : List Char) : Int :=
  (parseAssetAmount d value (getPrecisionForAssetId precisions (some asset))).getD 0

structure AmountToStringParameters where
  amount : Int
  forceSign : Bool := false
  precision : Int := 8

def kCoin : Int := 100000000

/-- `pow(10, precision).toStringAsFixed(precision)`.  The power wraps as a
    64-bit number, and is a whole number that a double holds exactly for every
    precision that `toStringAsFixed` takes. -/
def powerText (precision : Int) : Except Panic (List Char) :=
  if precision < 0 ∨ 20 < precision then .error ⟨"RangeError"⟩
  else if precision = 0 then .ok (intText (i64 (10 ^ precision.toNat)))
  else .ok (intText (i64 (10 ^ precision.toNat)) ++ '.' :: List.replicate precision.toNat '0')

/-- `/` of two decimals. -/
def divide (x y : ℚ) : Except Panic ℚ :=
  if y = 0 then .error ⟨"ArgumentError: zero can not be used as denominator"⟩ else .ok (x / y)

/-- The sign that is printed, and the amount that is printed behind it. -/
def splitSign (amount : Int) (forceSign : Bool) : List Char × Int :=
  if amount < 0 then (['-'], i64 (-amount))
  else if forceSign && decide (0 < amount) then (['+'], amount)
  else ([], amount)

/-- The amount as a decimal, read from the text of its two halves. -/
def newAmount (d : DecimalPackage) (amount : Int) : ℚ :=
  let bitAmount := amount.tdiv kCoin
  let satAmount := amount % kCoin
  let satAmountStr := (intText satAmount).leftpad 8 '0'
  (d.tryParse (intText bitAmount ++ satAmountStr)).getD 0

/-- `amountToString`. -/
def amountToString (d : DecimalPackage) (arg : AmountToStringParameters) :
    Except Panic (List Char) := do
  let (sign, amount) := splitSign arg.amount arg.forceSign
  let text ← powerText arg.precision
  let power := (d.tryParse text).getD 0
  let amountWithPrecision ← divide (newAmount d amount) power
  if arg.precision = 0 then pure (sign ++ intText (toBigInt amountWithPrecision))
  else do
    let rescaled ← expect (d.toDecimal amountWithPrecision) "AssertionError"
    pure (sign ++ d.toStringAsFixed rescaled arg.precision)

/-! ## Reading -/

@[simp] theorem toBigInt_intCast (n : Int) : toBigInt (n : ℚ) = n := by
  unfold toBigInt
  rw [Rat.num_intCast, Rat.den_intCast, Nat.cast_one, Int.tdiv_one]

theorem isI64_toInt (n : Int) : IsI64 (toInt n) := by
  unfold IsI64 toInt
  omega

theorem toInt_of_isI64 {n : Int} (h : IsI64 n) : toInt n = n := by
  unfold IsI64 at h
  unfold toInt
  omega

/-- **READING**: a text that denotes a number is read as the amount it makes in
    the smallest unit, if that is a whole 64-bit number, and else not at all. -/
theorem parseAssetAmount_some_iff {d : DecimalPackage} (hd : d.Exact) {value : List Char}
    {precision : Int} (h₀ : 0 ≤ precision) (h₈ : precision ≤ 8) {x : ℚ}
    (hx : decimalValue (removeAll [' '] value) = some x) (n : Int) :
    parseAssetAmount d value precision = some n ↔ x * 10 ^ precision.toNat = n ∧ IsI64 n := by
  unfold parseAssetAmount
  rw [if_neg (by omega)]
  simp only [hd.parses _ x hx]
  by_cases hback : ((toInt (toBigInt (x * 10 ^ precision.toNat)) : Int) : ℚ) =
      x * 10 ^ precision.toNat
  · rw [if_neg (not_not.mpr hback)]
    constructor
    · intro hn
      cases hn
      exact ⟨hback.symm, isI64_toInt _⟩
    · rintro ⟨hn, hi⟩
      rw [hn, toBigInt_intCast, toInt_of_isI64 hi]
  · -- comparing back fails: the number is no whole number, or was clamped
    rw [if_pos hback]
    constructor
    · exact fun hn => nomatch hn
    · rintro ⟨hn, hi⟩
      rw [hn, toBigInt_intCast, toInt_of_isI64 hi] at hback
      exact absurd rfl hback

/-! ## Printing -/

theorem intText_natCast (n : Nat) : intText (n : Int) = digits n := by
  unfold intText
  rw [if_neg (by omega), Int.natAbs_natCast]

/-- The amount is read back from its whole coins and the rest. -/
theorem newAmount_natCast {d : DecimalPackage} (hd : d.Exact) (m : Nat) :
    newAmount d (m : Int) = m := by
  have hbit : (m : Int).tdiv kCoin = ((m / 10 ^ 8 : Nat) : Int) := by
    unfold kCoin
    rw [Int.tdiv_eq_ediv_of_nonneg (by omega)]
    omega
  have hsat : (m : Int) % kCoin = ((m % 10 ^ 8 : Nat) : Int) := by
    unfold kCoin
    omega
  have hall : ∀ c ∈ digits (m / 10 ^ 8) ++ (digits (m % 10 ^ 8)).leftpad 8 '0',
      c.isDigit = true := by
    intro c hc
    rcases List.mem_append.mp hc with hc | hc
    · exact isDigit_digits hc
    · exact isDigit_leftpad (fun c hc => isDigit_digits hc) c hc
  have hne : digits (m / 10 ^ 8) ++ (digits (m % 10 ^ 8)).leftpad 8 '0' ≠ [] := by
    simp [digits_ne_nil]
  have hread := hd.parses _ _ (decimalValue_unsigned (fun c hc => hall c (List.mem_of_head? hc))
    (unsignedValue_digits hne hall))
  unfold newAmount
  simp only [hbit, hsat, intText_natCast]
  rw [hread, Option.getD_some, value_append, value_leftpad, value_digits, value_digits,
    length_leftpad_digits (by decide) (Nat.mod_lt m (by decide)), Nat.div_add_mod']

/-- The text of the power denotes it. -/
theorem powerText_denotes {precision : Nat} (h : precision ≤ 8) :
    ∃ text, powerText precision = .ok text ∧ decimalValue text = some ((10 : ℚ) ^ precision) := by
  have hfits : i64 (10 ^ precision) = ((10 ^ precision : Nat) : Int) := by
    have hle : (10 : Nat) ^ precision ≤ 10 ^ 8 := Nat.pow_le_pow_right (by decide) h
    rw [← i64_natCast (n := 10 ^ precision) (by omega)]
    push_cast
    rfl
  have hdigits : ∀ c ∈ digits (10 ^ precision), c.isDigit = true := fun c hc => isDigit_digits hc
  unfold powerText
  rw [if_neg (by omega), Int.toNat_natCast, hfits, intText_natCast]
  by_cases hzero : precision = 0
  · rw [if_pos (by omega)]
    refine ⟨_, rfl, ?_⟩
    rw [decimalValue_unsigned (fun c hc => hdigits c (List.mem_of_head? hc))
      (unsignedValue_digits (digits_ne_nil _) hdigits), value_digits, Nat.cast_pow]
    rfl
  · rw [if_neg (by omega)]
    have hzeros : ∀ c ∈ List.replicate precision '0', c.isDigit = true := by
      intro c hc
      rw [List.eq_of_mem_replicate hc]
      decide
    have hhead : ∀ c, (digits (10 ^ precision) ++ '.' :: List.replicate precision '0').head? =
        some c → c.isDigit = true := by
      intro c hc
      rw [List.head?_append_of_ne_nil _ (digits_ne_nil _)] at hc
      exact hdigits c (List.mem_of_head? hc)
    refine ⟨_, rfl, ?_⟩
    rw [decimalValue_unsigned hhead (unsignedValue_fraction (by simp [digits_ne_nil]) hdigits hzeros),
      value_append, value_digits]
    have hvalue : value (List.replicate precision '0') = 0 := by
      have hpad := value_leftpad precision []
      rwa [List.leftpad, List.append_nil] at hpad
    rw [hvalue, List.length_replicate, Nat.add_zero, Nat.cast_mul, Nat.cast_pow, Nat.cast_ofNat,
      mul_div_assoc, div_self (by positivity), mul_one]

/-- What is printed behind the sign. -/
theorem amountToString_body {d : DecimalPackage} (hd : d.Exact) {arg : AmountToStringParameters}
    {p m : Nat} (hp : p ≤ 8) (hprec : arg.precision = p) {sign : List Char}
    (hsign : splitSign arg.amount arg.forceSign = (sign, (m : Int))) :
    amountToString d arg = .ok (sign ++ if p = 0 then digits m else fixedText m p) := by
  obtain ⟨text, hpower, hdenotes⟩ := powerText_denotes hp
  have hdivide : divide (m : ℚ) (10 ^ p) = .ok ((m : ℚ) / 10 ^ p) := if_neg (by positivity)
  unfold amountToString
  simp only [hsign, hprec, hpower, newAmount_natCast hd]
  show (divide (m : ℚ) ((d.tryParse text).getD 0) >>= _) = _
  rw [hd.parses _ _ hdenotes, Option.getD_some, hdivide]
  show (if (p : Int) = 0 then pure (sign ++ intText (toBigInt ((m : ℚ) / 10 ^ p)))
    else expect (d.toDecimal ((m : ℚ) / 10 ^ p)) "AssertionError" >>= fun rescaled =>
      pure (sign ++ d.toStringAsFixed rescaled p)) = _
  by_cases hzero : p = 0
  · have hwhole : (m : ℚ) / 10 ^ p = ((m : Int) : ℚ) := by
      rw [hzero, pow_zero, div_one, Int.cast_natCast]
    rw [if_pos (by omega), if_pos hzero, hwhole, toBigInt_intCast, intText_natCast]
    rfl
  · rw [if_neg (by omega), if_neg hzero, hd.converts, expect_some]
    show Except.ok (sign ++ d.toStringAsFixed ((m : ℚ) / 10 ^ p) p) = _
    rw [hd.prints m p (by omega)]

/-- The text behind the sign: digits and perhaps a dot, that denote the amount. -/
theorem body_denotes (m p : Nat) :
    ∃ c s, (if p = 0 then digits m else fixedText m p) = c :: s ∧ c.isDigit = true ∧
      ' ' ∉ c :: s ∧ unsignedValue (c :: s) = some ((m : ℚ) / 10 ^ p) := by
  have hspace : ∀ n, ' ' ∉ digits n := fun n h => absurd (isDigit_digits h) (by decide)
  have hbody : ∀ body : List Char, body ≠ [] → (∀ c, body.head? = some c → c.isDigit = true) →
      ' ' ∉ body → unsignedValue body = some ((m : ℚ) / 10 ^ p) →
      ∃ c s, body = c :: s ∧ c.isDigit = true ∧ ' ' ∉ c :: s ∧
        unsignedValue (c :: s) = some ((m : ℚ) / 10 ^ p) := by
    intro body hne hhead hsp hval
    obtain ⟨c, s, rfl⟩ := List.exists_cons_of_ne_nil hne
    exact ⟨c, s, rfl, hhead c rfl, hsp, hval⟩
  by_cases hzero : p = 0
  · rw [if_pos hzero]
    refine hbody _ (digits_ne_nil m) (fun c hc => isDigit_digits (List.mem_of_head? hc)) (hspace m) ?_
    rw [unsignedValue_digits (digits_ne_nil m) (fun c hc => isDigit_digits hc), value_digits, hzero,
      pow_zero, div_one]
  · rw [if_neg hzero]
    refine hbody _ (by simp [fixedText]) (fun c hc => isDigit_head_fixedText hc) ?_
      (unsignedValue_fixedText (by omega))
    intro hc
    rcases List.mem_append.mp hc with hc | hc
    · exact hspace _ hc
    rcases List.mem_cons.mp hc with hc | hc
    · exact absurd hc (by decide)
    · exact absurd (isDigit_leftpad (fun c hc => isDigit_digits hc) _ hc) (by decide)

/-- **PRINTING**: an amount is printed as a text without spaces that denotes it. -/
theorem amountToString_denotes {d : DecimalPackage} (hd : d.Exact) (amount : Int)
    (forceSign : Bool) {precision : Int} (hamount : |amount| < 2 ^ 63) (h₀ : 0 ≤ precision)
    (h₈ : precision ≤ 8) :
    ∃ text, amountToString d ⟨amount, forceSign, precision⟩ = .ok text ∧ ' ' ∉ text ∧
      decimalValue text = some ((amount : ℚ) / 10 ^ precision.toNat) := by
  obtain ⟨p, rfl⟩ := Int.eq_ofNat_of_zero_le h₀
  rw [abs_lt] at hamount
  obtain ⟨c, s, hbody, hc, hspace, hvalue⟩ := body_denotes amount.natAbs p
  have hrun : ∀ sign, splitSign amount forceSign = (sign, (amount.natAbs : Int)) →
      amountToString d ⟨amount, forceSign, (p : Int)⟩ = .ok (sign ++ c :: s) := by
    intro sign hsign
    rw [← hbody]
    exact amountToString_body hd (by omega) rfl hsign
  have hfirst : ∀ e, (c :: s).head? = some e → e.isDigit = true := by
    intro e he
    rwa [← Option.some.inj he]
  -- the sign that is printed and the sign of the amount
  by_cases hneg : amount < 0
  · refine ⟨['-'] ++ c :: s, hrun _ ?_, ?_, ?_⟩
    · unfold splitSign
      rw [if_pos hneg, i64_of_isI64 (by unfold IsI64; omega)]
      congr 1
      omega
    · exact fun h => (List.mem_cons.mp h).elim (by decide) hspace
    · have hcast : (amount : ℚ) = -((amount.natAbs : Nat) : ℚ) := by
        have hint : amount = -((amount.natAbs : Nat) : Int) := by omega
        exact_mod_cast hint
      rw [List.singleton_append, decimalValue_minus hvalue, Int.toNat_natCast, hcast, neg_div]
  · have habs : amount = ((amount.natAbs : Nat) : Int) := by omega
    have hcast : (amount : ℚ) = ((amount.natAbs : Nat) : ℚ) :=
      (congrArg (Int.cast : Int → ℚ) habs).trans (Int.cast_natCast _)
    rw [Int.toNat_natCast, hcast]
    by_cases hplus : (forceSign && decide (0 < amount)) = true
    · refine ⟨['+'] ++ c :: s, hrun _ ?_, ?_, decimalValue_plus hvalue⟩
      · unfold splitSign
        rw [if_neg hneg, if_pos hplus, ← habs]
      · exact fun h => (List.mem_cons.mp h).elim (by decide) hspace
    · refine ⟨[] ++ c :: s, hrun _ ?_, hspace, decimalValue_unsigned hfirst hvalue⟩
      unfold splitSign
      rw [if_neg hneg, if_neg hplus, ← habs]

/-- **ROUND TRIP**: what is printed is read back. -/
theorem parse_printed {d : DecimalPackage} (hd : d.Exact) (amount : Int) (forceSign : Bool)
    {precision : Int} (hamount : |amount| < 2 ^ 63) (h₀ : 0 ≤ precision) (h₈ : precision ≤ 8) :
    ∃ text, amountToString d ⟨amount, forceSign, precision⟩ = .ok text ∧
      parseAssetAmount d text precision = some amount := by
  obtain ⟨text, hrun, hspace, hdenotes⟩ :=
    amountToString_denotes hd amount forceSign hamount h₀ h₈
  have hplain : removeAll [' '] text = text := removeAll_disjoint fun c hc hm =>
    hspace (List.mem_singleton.mp hm ▸ hc)
  refine ⟨text, hrun, (parseAssetAmount_some_iff hd h₀ h₈ (by rw [hplain, hdenotes]) _).mpr ?_⟩
  rw [abs_lt] at hamount
  exact ⟨div_mul_cancel₀ _ (by positivity), ⟨by omega, hamount.2⟩⟩

/-- **EXACT INVERSES**: what is printed is read back, and a text that denotes a
    number is read as the whole 64-bit amount it makes, or not at all. -/
theorem amount_text_exact {d : DecimalPackage} (hd : d.Exact) :
    (∀ (amount : Int) (forceSign : Bool) (precision : Int),
      |amount| < 2 ^ 63 → 0 ≤ precision → precision ≤ 8 →
      ∃ text, amountToString d ⟨amount, forceSign, precision⟩ = .ok text ∧
        parseAssetAmount d text precision = some amount) ∧
    (∀ (value : List Char) (precision : Int) (x : ℚ),
      0 ≤ precision → precision ≤ 8 → decimalValue (removeAll [' '] value) = some x →
      (∀ n : Int, parseAssetAmount d value precision = some n ↔
        x * 10 ^ precision.toNat = n ∧ IsI64 n) ∧
      (parseAssetAmount d value precision = none ↔
        ¬ ∃ n : Int, x * 10 ^ precision.toNat = n ∧ IsI64 n)) := by
  constructor
  · intro amount forceSign precision hamount h₀ h₈
    exact parse_printed hd amount forceSign hamount h₀ h₈
  · intro value precision x h₀ h₈ hx
    have hsome := parseAssetAmount_some_iff hd h₀ h₈ hx
    refine ⟨hsome, ?_⟩
    rw [Option.eq_none_iff_forall_ne_some, not_exists]
    exact forall_congr' fun n => not_congr (hsome n)

/-- An amount that is printed with the decimals of its asset is read back for it. -/
theorem getSatoshiForAmount_printed {d : DecimalPackage} (hd : d.Exact)
    {precisions : String → Option Int} {asset : String} {precision : Int}
    (hasset : (precisions asset).getD 8 = precision) (h₀ : 0 ≤ precision) (h₈ : precision ≤ 8)
    {amount : Int} (hamount : |amount| < 2 ^ 63) (forceSign : Bool) :
    ∃ text, amountToString d ⟨amount, forceSign, precision⟩ = .ok text ∧
      getSatoshiForAmount d precisions asset text = amount := by
  obtain ⟨text, hrun, hread⟩ := parse_printed hd amount forceSign hamount h₀ h₈
  refine ⟨text, hrun, ?_⟩
  unfold getSatoshiForAmount getPrecisionForAssetId
  simp only [hasset, hread, Option.getD_some]

/-- A package that computes with the texts' own values. -/
def plainDecimals : DecimalPackage where
  tryParse := decimalValue
  toDecimal := some
  toStringAsFixed x p :=
    let n := ⌊|x| * 10 ^ p.toNat + 1 / 2⌋.toNat
    (if x < 0 then ['-'] else []) ++ if p ≤ 0 then digits n else fixedText n p.toNat

theorem plainDecimals_exact : plainDecimals.Exact where
  parses text x h := h
  converts n p := rfl
  prints n p hp := by
    have hpos : ¬ (n : ℚ) / 10 ^ p < 0 := not_lt.mpr (by positivity)
    have habs : |(n : ℚ) / 10 ^ p| * 10 ^ p = n := by
      rw [abs_of_nonneg (not_lt.mp hpos), div_mul_cancel₀ _ (by positivity)]
    have hfloor : ⌊(n : ℚ) + 1 / 2⌋ = (n : Int) := by
      rw [Int.floor_eq_iff, Int.cast_natCast]
      constructor <;> linarith
    show (if (n : ℚ) / 10 ^ p < 0 then ['-'] else []) ++ _ = _
    rw [if_neg hpos, if_neg (by omega), List.nil_append, Int.toNat_natCast, habs, hfloor]
    rfl

theorem amount_text_exact_plain :
    (∃ text, amountToString plainDecimals ⟨-123456789, false, 2⟩ = .ok text ∧
      parseAssetAmount plainDecimals text 2 = some (-123456789)) ∧
    (parseAssetAmount plainDecimals "1 000.25".toList 2 = some 100025 ↔
      (100025 / 100 : ℚ) * 10 ^ (2 : Int).toNat = (100025 : Int) ∧ IsI64 100025) := by
  refine ⟨(amount_text_exact plainDecimals_exact).1 (-123456789) false 2 (by decide) (by decide)
    (by decide), ?_⟩
  exact ((amount_text_exact plainDecimals_exact).2 "1 000.25".toList 2 (100025 / 100) (by decide)
    (by decide) (by decide +kernel)).1 100025

example : amountToString plainDecimals ⟨-123456789, false, 2⟩ = .ok "-1234567.89".toList := by
  decide +kernel

end AmountText
