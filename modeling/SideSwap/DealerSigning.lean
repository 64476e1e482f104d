import SideSwap.OrderDealer
import SideSwap.Quotes

/-! # What the dealer signs

    When an order of the dealer is taken, the server asks for its signature, and
    `take_order` of `sideswap_dealer/src/dealer.rs` checks the terms against the
    index price and the balances.  The dealer submits at one interest and signs
    at a smaller one: the margin between the two is meant to cover the fee.

    It does not always.  The price of an order is worked out with the fee of
    `bitcoin_amount_submit`, the check with the fee of the amount itself, and
    the fee of a small amount is a larger part of it.  Most of the check is
    settled when the order is submitted, because the amount is the same.  What
    is left depends on the price: an inequality between the two interests and
    the two fees, and the limits that are set for the asset. -/

namespace Program

variable {α β : Type}

/-- `ensure!` and `assert!`. -/
def require (b : Bool) (stop : Stop) : Except Stop Unit := if b then .ok () else .error stop

/-- `Option::unwrap`, and `ok_or` followed by `?`. -/
def getOr (o : Option α) (stop : Stop) : Except Stop α :=
  match o with
  | some a => .ok a
  | none => .error stop

theorem require_bind {b : Bool} {stop : Stop} {k : Unit → Except Stop β} {y : β} :
    (require b stop >>= k) = .ok y ↔ b = true ∧ k () = .ok y := by
  cases b with
  | false => exact ⟨(nomatch ·), fun h => nomatch h.1⟩
  | true => exact ⟨fun h => ⟨rfl, h⟩, fun h => h.2⟩

theorem require_ok {b : Bool} {stop : Stop} : require b stop = .ok () ↔ b = true := by
  cases b with
  | false => exact ⟨(nomatch ·), (nomatch ·)⟩
  | true => exact ⟨fun _ => rfl, fun _ => rfl⟩

theorem getOr_bind {o : Option α} {stop : Stop} {k : α → Except Stop β} {y : β} :
    (getOr o stop >>= k) = .ok y ↔ ∃ a, o = some a ∧ k a = .ok y := by
  cases o with
  | none =>
      constructor
      · intro h
        exact nomatch h
      · rintro ⟨a, ⟨⟩, _⟩
  | some a =>
      constructor
      · intro h
        exact ⟨a, rfl, h⟩
      · rintro ⟨_, ⟨⟩, h⟩
        exact h

end Program

namespace Pricing

open MachineInt

/-! ## Amounts from doubles -/

/-- `x <= y`: a comparison with NaN fails. -/
def Double.leq (x y : Double) : Bool :=
  match x, y with
  | .nan, _ => false
  | _, .nan => false
  | .fin a, .fin b => decide (a ≤ b)
  | .inf negative, .fin _ => negative
  | .fin _, .inf negative => !negative
  | .inf negative, .inf other => negative || !other

/-- A bound that `f64::min` does not bring below an amount: it is large enough, or
    it is not a number and plays no part. -/
def Double.Admits (x : Double) (amount : Int) : Prop := x = .nan ∨ amount ≤ fromBitcoin x

/-- In satoshis, up to rounding. -/
theorem le_fromBitcoin_fin {amount : Int} (hpos : 0 < amount) (hi64 : amount < 2 ^ 63) {q : ℚ} :
    amount ≤ fromBitcoin (.fin q) ↔ amount - 1 / 2 ≤ q * coin := by
  rw [← le_round_iff_of_pos hpos]
  show amount ≤ clamp (round (q * coin)) ↔ _
  unfold clamp
  omega

theorem Double.admits_fin {amount : Int} (hpos : 0 < amount) (hi64 : amount < 2 ^ 63) {q : ℚ} :
    (Double.fin q).Admits amount ↔ amount - 1 / 2 ≤ q * coin := by
  rw [← le_fromBitcoin_fin hpos hi64]
  constructor
  · rintro (⟨⟨⟩⟩ | h)
    exact h
  · intro h
    exact .inr h

theorem Double.admits_inf {amount : Int} (hpos : 0 < amount) (hi64 : amount < 2 ^ 63)
    {negative : Bool} : (Double.inf negative).Admits amount ↔ negative = false := by
  cases negative with
  | false => exact iff_of_true (.inr (Int.le_sub_one_of_lt hi64)) rfl
  | true =>
      refine iff_of_false ?_ (by decide)
      rintro (⟨⟨⟩⟩ | h)
      have hneg : amount ≤ -2 ^ 63 := h
      omega

/-- **THE SMALLER BOUND**: `f64::min` admits what both of its arguments admit. -/
theorem Double.admits_minOf {amount : Int} (hpos : 0 < amount) (hi64 : amount < 2 ^ 63)
    (x y : Double) : (x.minOf y).Admits amount ↔ x.Admits amount ∧ y.Admits amount := by
  have hnan : Double.nan.Admits amount := .inl rfl
  have hinf : (Double.inf false).Admits amount := (admits_inf hpos hi64).mpr rfl
  have hneg : ¬ (Double.inf true).Admits amount :=
    fun h => absurd ((admits_inf hpos hi64).mp h) (by decide)
  cases x with
  | nan => exact ⟨fun h => ⟨hnan, h⟩, fun h => h.2⟩
  | inf negative =>
      cases y with
      | nan => exact ⟨fun h => ⟨h, hnan⟩, fun h => h.1⟩
      | fin b => cases negative with
        | false => exact ⟨fun h => ⟨hinf, h⟩, fun h => h.2⟩
        | true => exact ⟨fun h => absurd h hneg, fun h => absurd h.1 hneg⟩
      | inf other => cases negative with
        | false => exact ⟨fun h => ⟨hinf, h⟩, fun h => h.2⟩
        | true => exact ⟨fun h => absurd h hneg, fun h => absurd h.1 hneg⟩
  | fin a =>
      cases y with
      | nan => exact ⟨fun h => ⟨h, hnan⟩, fun h => h.1⟩
      | inf other => cases other with
        | false => exact ⟨fun h => ⟨h, hinf⟩, fun h => h.1⟩
        | true => exact ⟨fun h => absurd h hneg, fun h => absurd h.2 hneg⟩
      | fin b =>
          show (Double.fin (min a b)).Admits amount ↔ _
          rw [admits_fin hpos hi64, admits_fin hpos hi64, admits_fin hpos hi64,
            min_mul_of_nonneg _ _ coin_pos.le, le_min_iff]

/-- A number decides the amount. -/
theorem Double.le_fromBitcoin_iff {x : Double} (h : x ≠ .nan) {amount : Int} :
    amount ≤ fromBitcoin x ↔ x.Admits amount := by
  constructor
  · exact .inr
  · rintro (hnan | hle)
    · exact absurd hnan h
    · exact hle

theorem Double.minOf_ne_nan {x y : Double} (h : x ≠ .nan) : x.minOf y ≠ .nan := by
  cases x with
  | nan => exact absurd rfl h
  | fin a =>
      cases y with
      | nan => exact h
      | fin b => exact nofun
      | inf negative => cases negative <;> exact nofun
  | inf negative =>
      cases y with
      | nan => exact h
      | fin b => cases negative <;> exact nofun
      | inf other => cases negative <;> exact nofun

/-- An amount below the smallest of three bounds is admitted by each. -/
theorem Double.admits_of_le_min {amount : Int} (hpos : 0 < amount) (hi64 : amount < 2 ^ 63)
    {x y z : Double} (h : amount ≤ fromBitcoin ((x.minOf y).minOf z)) :
    x.Admits amount ∧ y.Admits amount ∧ z.Admits amount := by
  obtain ⟨hxy, hz⟩ := (admits_minOf hpos hi64 _ _).mp (.inr h)
  obtain ⟨hx, hy⟩ := (admits_minOf hpos hi64 _ _).mp hxy
  exact ⟨hx, hy, hz⟩

/-- And the other way round, if one of them is a number. -/
theorem Double.le_min_of_admits {amount : Int} (hpos : 0 < amount) (hi64 : amount < 2 ^ 63)
    {x y z : Double} (hnan : x ≠ .nan) (hx : x.Admits amount) (hy : y.Admits amount)
    (hz : z.Admits amount) : amount ≤ fromBitcoin ((x.minOf y).minOf z) := by
  refine (le_fromBitcoin_iff (minOf_ne_nan (minOf_ne_nan hnan))).mpr ?_
  exact (admits_minOf hpos hi64 _ _).mpr ⟨(admits_minOf hpos hi64 _ _).mpr ⟨hx, hy⟩, hz⟩

@[simp] theorem Double.scale_one (x : Double) : x.scale 1 = x := by
  cases x with
  | nan => rfl
  | inf negative => rfl
  | fin q => exact congrArg Double.fin (mul_one q)

theorem Double.roundI64_lt (x : Double) : x.roundI64 < 2 ^ 63 := by
  cases x with
  | nan => decide
  | inf negative => cases negative <;> decide
  | fin q => exact (isI64_clamp (round q)).2

theorem Double.roundI64_nonneg {q : ℚ} (h : 0 ≤ q) : 0 ≤ (Double.fin q).roundI64 := by
  have hround : 0 ≤ round q := le_round_of_le (by exact_mod_cast h)
  rw [roundI64_fin]
  unfold clamp
  omega

theorem Double.div_of_ne {a b : ℚ} (h : b ≠ 0) : Double.div a b = .fin (a / b) := if_pos h

end Pricing

namespace OrderDealer

open Api Program Pricing MachineInt Relation

/-! ## The source -/

/-- `Params`, with what the check of an order reads. -/
structure SignParams extends Params where
  interestSignUsdt : ℚ
  interestSignEurx : ℚ
  bitcoinAmountMax : Int

/-- The assertions `worker` starts with. -/
structure SignParams.Admitted (params : SignParams) : Prop where
  min_ge : 1 / 10000 ≤ toBitcoin params.bitcoinAmountMin
  min_le_submit : params.bitcoinAmountMin ≤ params.bitcoinAmountSubmit
  submit_le_max : params.bitcoinAmountSubmit ≤ params.bitcoinAmountMax
  sign_usdt : 1 < params.interestSignUsdt
  sign_lt_submit_usdt : params.interestSignUsdt < params.interestSubmitUsdt
  submit_usdt : params.interestSubmitUsdt < 11 / 10
  sign_eurx : 1 < params.interestSignEurx
  sign_lt_submit_eurx : params.interestSignEurx < params.interestSubmitEurx
  submit_eurx : params.interestSubmitEurx < 11 / 10

/-- `interest_sign`, which the worker finds by the asset of the order. -/
def SignParams.interestSign (params : SignParams) : DealerTicker → Except Panic ℚ
  | .usdt => .ok params.interestSignUsdt
  | .eurx => .ok params.interestSignEurx
  | _ => .error ⟨"unexpected asset"⟩

/-- `apply_interest`. -/
def applyInterest (price : PricePair) (interest : ℚ) : Except Stop PricePair := do
  require (decide (1 ≤ interest ∧ interest ≤ 11 / 10))
    (.panic ⟨"assertion failed: (1.0..=1.1).contains(&interest)"⟩)
  pure ⟨price.bid.scale (1 / interest), price.ask.scale interest⟩

/-- `take_order`; `text` prints a double. -/
def takeOrder (text : Double → String) (params : SignParams) (assets : List Asset)
    (details : Details) (all : AllBalances) (indexPrices : DealerTicker → Option PriceTimestamp)
    (interest : ℚ) : Except Stop Unit := do
  require (decide (params.bitcoinAmountMin ≤ details.bitcoinAmount)) (.error
    ("Condition failed: `details.bitcoin_amount >= params.bitcoin_amount_min.to_sat()` (" ++
      toString details.bitcoinAmount ++ " vs " ++ toString params.bitcoinAmountMin ++ ")"))
  require (decide (details.bitcoinAmount ≤ params.bitcoinAmountMax)) (.error
    ("Condition failed: `details.bitcoin_amount <= params.bitcoin_amount_max.to_sat()` (" ++
      toString details.bitcoinAmount ++ " vs " ++ toString params.bitcoinAmountMax ++ ")"))
  let asset ← getOr (assets.find? fun asset => asset.assetId == details.asset)
    (.panic ⟨"called `Option::unwrap()` on a `None` value"⟩)
  let ticker ← getOr (tickerFromAsset asset) (.error ("ticker " ++ asset.ticker ++ " not found"))
  let actualBitcoinAmount := i64 (
    if details.sendBitcoins then details.bitcoinAmount + details.serverFee
    else details.bitcoinAmount - details.serverFee)
  let actualPrice := Double.div (assetFloatAmount details.assetAmount asset.precision)
    (toBitcoin actualBitcoinAmount)
  require (actualPrice.gt 0) (.panic ⟨"assertion failed: actual_price > 0.0"⟩)
  let indexPrice ← getOr (indexPrices ticker) (.error "index price is not known")
  let dealerPrice ← applyInterest indexPrice.price interest
  let bitcoinAmountMax := getBitcoinAmount all ticker actualPrice details.sendBitcoins true
  if details.sendBitcoins then
    require (dealerPrice.ask.leq actualPrice) (.error
      ("actual_price: " ++ text actualPrice ++ ", dealer_price.ask: " ++ text dealerPrice.ask))
  else
    require (actualPrice.leq dealerPrice.bid) (.error
      ("actual_price: " ++ text actualPrice ++ ", dealer_price.bid: " ++ text dealerPrice.bid))
  require (decide (details.bitcoinAmount ≤ bitcoinAmountMax)) (.error
    ("bitcoin amount: " ++ toString details.bitcoinAmount ++ ", max bitcoin amount: " ++
      toString bitcoinAmountMax))

/-! ## The property -/

/-- `update_price` submits an order of this amount and price. -/
def Submits (world : World) (params : Params) (data : Data) (key : OwnOrderKey) (asset : AssetId)
    (bitcoinAmount : Int) (price : Double) : Prop :=
  ∃ added res, (exec (updatePrice world params key) data).2.log = data.log ++ added ∧
    Event.request key (.submit asset
      (if key.sendBitcoins then -toBitcoin bitcoinAmount else toBitcoin bitcoinAmount) price) res ∈
        added

/-- The details that the server builds for an order of this amount and price. -/
structure Builds (key : OwnOrderKey) (assetId : AssetId) (amount : Int) (price : ℚ)
    (details : Details) : Prop where
  asset : details.asset = assetId
  bitcoinAmount : details.bitcoinAmount = amount
  serverFee : details.serverFee = getServerFee amount
  sendBitcoins : details.sendBitcoins = key.sendBitcoins
  market : details.market.pricedInBitcoins = false
  assetAmount : details.assetAmount = Pricing.assetAmount amount price 8 details.market

/-- An asset id stands for an asset of the ticker, with eight digits. -/
structure Lists (assets : List Asset) (assetId : AssetId) (ticker : DealerTicker) (asset : Asset) :
    Prop where
  found : assets.find? (fun asset => asset.assetId == assetId) = some asset
  ticker : tickerFromAsset asset = some ticker
  precision : asset.precision = 8

/-- The dealer signs: it accepts the details, at a positive asset amount that is at
    most one unit from the one they have. -/
def Signs (text : Double → String) (params : SignParams) (data : Data) (interest : ℚ)
    (details : Details) : Prop :=
  ∃ amount, 0 < amount ∧ amount < 2 ^ 63 ∧ |amount - details.assetAmount| ≤ 1 ∧
    takeOrder text params data.assets { details with assetAmount := amount } data.allBalances
      data.indexPrices interest = .ok ()

/-! ## The checks of an order -/

/-- The satoshis that move: the fee is paid on top of what is sent, and out of what
    is received. -/
def actualAmount (sendBitcoins : Bool) (amount : Int) : Int :=
  if sendBitcoins then amount + getServerFee amount else amount - getServerFee amount

/-- The price against the interest. -/
def PaysInterest (sendBitcoins : Bool) (index : PricePair) (interest : ℚ) (price : Double) : Prop :=
  if sendBitcoins then (index.ask.scale interest).leq price = true
  else price.leq (index.bid.scale (1 / interest)) = true

theorem takeOrder_ok_iff {text : Double → String} {params : SignParams} {assets : List Asset}
    {details : Details} {all : AllBalances} {indexPrices : DealerTicker → Option PriceTimestamp}
    {interest : ℚ} {ticker : DealerTicker} {asset : Asset} {index : PriceTimestamp} {price : Double}
    (hlists : Lists assets details.asset ticker asset) (hindex : indexPrices ticker = some index)
    (hfee : details.serverFee = getServerFee details.bitcoinAmount)
    (hprice : Double.div (assetFloatAmount details.assetAmount 8)
      (toBitcoin (i64 (actualAmount details.sendBitcoins details.bitcoinAmount))) = price) :
    takeOrder text params assets details all indexPrices interest = .ok () ↔
      params.bitcoinAmountMin ≤ details.bitcoinAmount ∧
      details.bitcoinAmount ≤ params.bitcoinAmountMax ∧
      price.gt 0 = true ∧ (1 ≤ interest ∧ interest ≤ 11 / 10) ∧
      PaysInterest details.sendBitcoins index.price interest price ∧
      details.bitcoinAmount ≤ getBitcoinAmount all ticker price details.sendBitcoins true := by
  unfold takeOrder applyInterest
  rw [require_bind, require_bind, getOr_bind]
  -- the lookups succeed, so that only the requirements are left
  simp only [hlists.found, Option.some.injEq, exists_eq_left', getOr_bind, hlists.ticker,
    hlists.precision, require_bind, hindex, bind_assoc, pure_bind, decide_eq_true_eq, hfee]
  rw [actualAmount] at hprice
  rw [hprice]
  cases details.sendBitcoins with
  | true => simp [PaysInterest, require_bind, require_ok]
  | false => simp [PaysInterest, require_bind, require_ok]

/-! ## Balances -/

/-- A limit of the asset covers an order: its value at the price of `units` for
    `actual` satoshis is at least the amount, up to half a satoshi. -/
def LimitCovers (limit : Double) (amount actual units : Int) : Prop :=
  match limit with
  | .fin q => (amount - 1 / 2) * units ≤ q * coin * actual
  | .inf negative => negative = false
  | .nan => True

/-- The more units, the more of the limit they take. -/
theorem LimitCovers.mono {limit : Double} {amount actual units units' : Int} (hamount : 0 < amount)
    (h : LimitCovers limit amount actual units) (hle : units' ≤ units) :
    LimitCovers limit amount actual units' := by
  cases limit with
  | nan => trivial
  | inf negative => exact h
  | fin q =>
      have hamount' : (1 : ℚ) ≤ amount := by exact_mod_cast hamount
      have hle' : (units' : ℚ) ≤ units := by exact_mod_cast hle
      exact (mul_le_mul_of_nonneg_left hle' (by linarith)).trans h

theorem admits_quot_iff {limit : Double} {amount actual units : Int} (hpos : 0 < amount)
    (hi64 : amount < 2 ^ 63) (hactual : 0 < actual) (hunits : 0 < units) :
    (limit.quot (.fin (units / actual))).Admits amount ↔ LimitCovers limit amount actual units := by
  have hactual' : (0 : ℚ) < actual := by exact_mod_cast hactual
  have hunits' : (0 : ℚ) < units := by exact_mod_cast hunits
  have hprice : (0 : ℚ) < units / actual := div_pos hunits' hactual'
  cases limit with
  | nan => exact iff_of_true (.inl rfl) trivial
  | inf negative =>
      show (Double.inf (negative != decide ((units / actual : ℚ) < 0))).Admits amount ↔ _
      rw [decide_eq_false (not_lt.mpr hprice.le), Bool.bne_false]
      exact Double.admits_inf hpos hi64
  | fin q =>
      show (Double.div q (units / actual)).Admits amount ↔ (amount - 1 / 2) * units ≤ q * coin * actual
      have hvalue : q / (units / actual) * coin = q * coin * actual / units := by
        field_simp
      rw [Double.div_of_ne hprice.ne', Double.admits_fin hpos hi64, hvalue, le_div_iff₀ hunits']

section Balance

variable {all : AllBalances} {ticker : DealerTicker} {price : Double} {amount actual units : Int}

/-- Of an order that was submitted, sending bitcoins, only the limit of the asset is
    left to check: the other bounds do not depend on the price. -/
theorem send_balance_iff (hpos : 0 < amount) (hi64 : amount < 2 ^ 63) (hactual : 0 < actual)
    (hunits : 0 < units) (hoffer : amount ≤ getBitcoinAmount all ticker price true false) :
    amount ≤ getBitcoinAmount all ticker (.fin (units / actual)) true true ↔
      LimitCovers ((all.maxRecv ticker).getD maxDouble) amount actual units := by
  obtain ⟨hwallet, -, hsend⟩ := Double.admits_of_le_min hpos hi64 hoffer
  rw [← admits_quot_iff hpos hi64 hactual hunits]
  constructor
  · intro h
    obtain ⟨-, hlimit, -⟩ := Double.admits_of_le_min hpos hi64 h
    rwa [if_pos rfl, Double.scale_one] at hlimit
  · intro h
    refine Double.le_min_of_admits hpos hi64 nofun hwallet ?_ hsend
    rwa [if_pos rfl, Double.scale_one]

/-- Receiving bitcoins, it is what the wallet has of the asset, and its limit. -/
theorem recv_balance_iff (hpos : 0 < amount) (hi64 : amount < 2 ^ 63) (hactual : 0 < actual)
    (hunits : 0 < units) (hoffer : amount ≤ getBitcoinAmount all ticker price false false) :
    amount ≤ getBitcoinAmount all ticker (.fin (units / actual)) false true ↔
      LimitCovers (.fin ((all.wallet ticker).getD 0)) amount actual units ∧
      LimitCovers ((all.maxSend ticker).getD maxDouble) amount actual units := by
  obtain ⟨-, hrecv, -⟩ := Double.admits_of_le_min hpos hi64 hoffer
  rw [← admits_quot_iff hpos hi64 hactual hunits, ← admits_quot_iff hpos hi64 hactual hunits]
  constructor
  · intro h
    obtain ⟨hwallet, -, hlimit⟩ := Double.admits_of_le_min hpos hi64 h
    rw [if_pos rfl, mul_one] at hwallet
    rw [if_pos rfl, Double.scale_one] at hlimit
    exact ⟨hwallet, hlimit⟩
  · rintro ⟨hwallet, hlimit⟩
    have hprice : (units / actual : ℚ) ≠ 0 := by
      have hactual' : (0 : ℚ) < actual := by exact_mod_cast hactual
      have hunits' : (0 : ℚ) < units := by exact_mod_cast hunits
      exact (div_pos hunits' hactual').ne'
    refine Double.le_min_of_admits hpos hi64 ?_ ?_ hrecv ?_
    · show Double.div _ (units / actual : ℚ) ≠ .nan
      rw [Double.div_of_ne hprice]
      exact nofun
    · rwa [if_pos rfl, mul_one]
    · rwa [if_pos rfl, Double.scale_one]

end Balance

/-! ## The fee -/

/-- The fee of an order is less than the order. -/
theorem getServerFee_lt {amount : Int} (hmin : 10000 ≤ amount) (hi64 : amount < 2 ^ 63) :
    getServerFee amount < amount := by
  by_contra hnot
  have hfee := (le_getServerFee_iff (k := getServerFee amount) ⟨by omega, hi64⟩ (by omega)).mp le_rfl
  omega

theorem actualAmount_pos {amount : Int} (hmin : 10000 ≤ amount) (hi64 : amount < 2 ^ 63)
    (sendBitcoins : Bool) : 0 < actualAmount sendBitcoins amount := by
  have hfee := getServerFee_lt hmin hi64
  have hmin := minServerFee_le amount
  cases sendBitcoins with
  | false =>
      show 0 < amount - getServerFee amount
      omega
  | true =>
      show 0 < amount + getServerFee amount
      omega

/-- A sum that wraps around makes the price negative. -/
theorem actualAmount_lt_of_gt {amount units : Int} (hmin : 10000 ≤ amount) (hi64 : amount < 2 ^ 63)
    {sendBitcoins : Bool} (hunits : 0 < units)
    (h : (Double.div (assetFloatAmount units 8)
      (toBitcoin (i64 (actualAmount sendBitcoins amount)))).gt 0 = true) :
    actualAmount sendBitcoins amount < 2 ^ 63 := by
  have hpos := actualAmount_pos hmin hi64 sendBitcoins
  have hlt : actualAmount sendBitcoins amount < 2 ^ 64 := by
    have hfee := getServerFee_lt hmin hi64
    have hmin := minServerFee_le amount
    unfold actualAmount
    split <;> omega
  have hnonneg : 0 ≤ i64 (actualAmount sendBitcoins amount) := by
    by_contra hneg
    have hneg' : toBitcoin (i64 (actualAmount sendBitcoins amount)) < 0 :=
      not_le.mp (toBitcoin_nonneg.not.mpr hneg)
    have hfloat : 0 ≤ assetFloatAmount units 8 := by
      have hcast : (0 : ℚ) ≤ units := by exact_mod_cast hunits.le
      unfold assetFloatAmount assetScale
      positivity
    have hquot := div_nonpos_of_nonneg_of_nonpos hfloat hneg'.le
    rw [Double.div_of_ne hneg'.ne] at h
    exact absurd (of_decide_eq_true h) (not_lt.mpr hquot)
  -- a sum that stayed positive has not wrapped
  rw [← i64_eq_of_nonneg hpos.le hlt hnonneg]
  exact (isI64_i64 _).2

/-- The price that is checked: the scales of the bitcoin and of the asset are the same. -/
theorem actualPrice_eq {actual units : Int} (hactual : 0 < actual) (hlt : actual < 2 ^ 63) :
    Double.div (assetFloatAmount units 8) (toBitcoin (i64 actual)) = .fin (units / actual) := by
  have hactual' : (0 : ℚ) < actual := by exact_mod_cast hactual
  rw [i64_of_isI64 ⟨by omega, hlt⟩]
  have hne : toBitcoin actual ≠ 0 := (toBitcoin_pos.mpr hactual).ne'
  have hvalue : assetFloatAmount units 8 / toBitcoin actual = units / actual := by
    unfold assetFloatAmount assetScale toBitcoin coin
    push_cast
    field_simp
    norm_num
  rw [Double.div_of_ne hne, hvalue]

/-! ## The check of an order that was submitted -/

/-- What the terms of an order have to satisfy apart from the asset amount, which the
    worker's assertions and `update_price` see to. -/
structure Checked (params : SignParams) (sign : ℚ) (amount : Int) : Prop where
  floor : 10000 ≤ amount
  i64 : amount < 2 ^ 63
  min : params.bitcoinAmountMin ≤ amount
  max : amount ≤ params.bitcoinAmountMax
  sign_gt : 1 < sign
  sign_le : sign ≤ 11 / 10

section Check

variable {text : Double → String} {params : SignParams} {data : Data} {key : OwnOrderKey}
  {asset : Asset} {assetId : AssetId} {bid ask price sign : ℚ} {time : Nat} {amount units : Int}
  {details : Details}

/-- The check of the details, at any asset amount. -/
theorem takeOrder_units_iff (hchecked : Checked params sign amount)
    (hindex : data.indexPrices key.ticker = some ⟨⟨.fin bid, .fin ask⟩, time⟩)
    (hlists : Lists data.assets assetId key.ticker asset)
    (hbuilds : Builds key assetId amount price details) (hunits : 0 < units) :
    takeOrder text params data.assets { details with assetAmount := units } data.allBalances
        data.indexPrices sign = .ok () ↔
      actualAmount key.sendBitcoins amount < 2 ^ 63 ∧
      PaysInterest key.sendBitcoins ⟨.fin bid, .fin ask⟩ sign
        (.fin (units / actualAmount key.sendBitcoins amount)) ∧
      amount ≤ getBitcoinAmount data.allBalances key.ticker
        (.fin (units / actualAmount key.sendBitcoins amount)) key.sendBitcoins true := by
  have hpos := actualAmount_pos hchecked.floor hchecked.i64 key.sendBitcoins
  have hpos' : (0 : ℚ) < actualAmount key.sendBitcoins amount := by exact_mod_cast hpos
  obtain ⟨rfl, rfl, hfee, hsend, -, -⟩ := hbuilds
  have hiff := @takeOrder_ok_iff text params data.assets { details with assetAmount := units }
    data.allBalances data.indexPrices sign _ _ _ _ hlists hindex hfee rfl
  rw [hiff]
  dsimp only
  rw [hsend]
  constructor
  · rintro ⟨-, -, hgt, -, hpays, hbalance⟩
    have hlt := actualAmount_lt_of_gt hchecked.floor hchecked.i64 hunits hgt
    rw [actualPrice_eq hpos hlt] at hpays hbalance
    exact ⟨hlt, hpays, hbalance⟩
  · rintro ⟨hlt, hpays, hbalance⟩
    rw [actualPrice_eq hpos hlt]
    refine ⟨hchecked.min, hchecked.max, decide_eq_true ?_, ⟨hchecked.sign_gt.le, hchecked.sign_le⟩,
      hpays, hbalance⟩
    have hunits' : (0 : ℚ) < units := by exact_mod_cast hunits
    exact div_pos hunits' hpos'

/-! ### Sending bitcoins -/

/-- **THE CONDITION**, for an order that sends bitcoins and asks for a number of
    units.  The units needed are within one of those asked for, and the limit of the
    asset has room for them. -/
structure SendCovered (sign ask : ℚ) (limit : Double) (amount units : Int) : Prop where
  fits : amount + getServerFee amount < 2 ^ 63
  nonneg : 0 ≤ units
  margin : sign * ask * (amount + getServerFee amount : Int) ≤ (min (units + 1) (2 ^ 63 - 1) : Int)
  room : LimitCovers limit amount (amount + getServerFee amount)
    (max (max 1 (units - 1)) (sign * ask * (amount + getServerFee amount : Int)).ceil)

theorem paysInterest_send {actual : Int} (hactual : 0 < actual) :
    PaysInterest true ⟨.fin bid, .fin ask⟩ sign (.fin (units / actual)) ↔
      sign * ask * actual ≤ units := by
  have hactual' : (0 : ℚ) < actual := by exact_mod_cast hactual
  show decide (ask * sign ≤ units / actual) = true ↔ _
  rw [decide_eq_true_eq, le_div_iff₀ hactual', mul_comm ask]

theorem signs_send_iff (hchecked : Checked params sign amount)
    (hindex : data.indexPrices key.ticker = some ⟨⟨.fin bid, .fin ask⟩, time⟩)
    (hlists : Lists data.assets assetId key.ticker asset)
    (hbuilds : Builds key assetId amount price details) (hsend : key.sendBitcoins = true)
    (hoffer : amount ≤ getBitcoinAmount data.allBalances key.ticker (.fin price) true false)
    (hunits : details.assetAmount < 2 ^ 63) :
    Signs text params data sign details ↔
      SendCovered sign ask ((data.allBalances.maxRecv key.ticker).getD maxDouble) amount
        details.assetAmount := by
  have hpos := actualAmount_pos hchecked.floor hchecked.i64 true
  have hamount : 0 < amount := by
    have hfloor := hchecked.floor
    omega
  -- what is left of the check, at any number of units
  have hcheck : ∀ {units : Int}, 0 < units →
      (takeOrder text params data.assets { details with assetAmount := units } data.allBalances
          data.indexPrices sign = .ok () ↔
        amount + getServerFee amount < 2 ^ 63 ∧
        sign * ask * (amount + getServerFee amount : Int) ≤ units ∧
        LimitCovers ((data.allBalances.maxRecv key.ticker).getD maxDouble) amount
          (amount + getServerFee amount) units) := by
    intro units hunits
    rw [takeOrder_units_iff hchecked hindex hlists hbuilds hunits, hsend, paysInterest_send hpos,
      send_balance_iff hamount hchecked.i64 hpos hunits hoffer]
    rfl
  constructor
  · rintro ⟨units, hunits0, hunits1, hnear, hok⟩
    obtain ⟨hfits, hmargin, hroom⟩ := (hcheck hunits0).mp hok
    obtain ⟨hlow, hhigh⟩ := abs_le.mp hnear
    have hceil := Rat.ceil_le_iff.mpr hmargin
    refine ⟨hfits, by omega, hmargin.trans ?_, hroom.mono hamount (by omega)⟩
    exact_mod_cast (show units ≤ min (details.assetAmount + 1) (2 ^ 63 - 1) by omega)
  · rintro ⟨hfits, hnonneg, hmargin, hroom⟩
    have hceil := Rat.ceil_le_iff.mpr hmargin
    refine ⟨_, ?_, ?_, abs_le.mpr ⟨?_, ?_⟩, (hcheck ?_).mpr ⟨hfits, ?_, hroom⟩⟩
    · omega
    · omega
    · omega
    · omega
    · omega
    · refine Rat.le_ceil.trans ?_
      exact_mod_cast le_max_right _ _

/-! ### Receiving bitcoins -/

/-- **THE CONDITION**, for an order that receives bitcoins and pays a number of
    units.  At one unit less the margin covers the fee, and the wallet and the limit
    of the asset have the units. -/
structure RecvCovered (sign bid wallet : ℚ) (limit : Double) (amount units : Int) : Prop where
  margin : sign * (max 1 (units - 1) : Int) ≤ bid * (amount - getServerFee amount : Int)
  wallet : LimitCovers (.fin wallet) amount (amount - getServerFee amount) (max 1 (units - 1))
  room : LimitCovers limit amount (amount - getServerFee amount) (max 1 (units - 1))

theorem paysInterest_recv {actual : Int} (hactual : 0 < actual) (hsign : 0 < sign) :
    PaysInterest false ⟨.fin bid, .fin ask⟩ sign (.fin (units / actual)) ↔
      sign * units ≤ bid * actual := by
  have hactual' : (0 : ℚ) < actual := by exact_mod_cast hactual
  show decide ((units : ℚ) / actual ≤ bid * (1 / sign)) = true ↔ _
  rw [decide_eq_true_eq, mul_one_div, div_le_div_iff₀ hactual' hsign, mul_comm sign]

theorem signs_recv_iff (hchecked : Checked params sign amount)
    (hindex : data.indexPrices key.ticker = some ⟨⟨.fin bid, .fin ask⟩, time⟩)
    (hlists : Lists data.assets assetId key.ticker asset)
    (hbuilds : Builds key assetId amount price details) (hsend : key.sendBitcoins = false)
    (hoffer : amount ≤ getBitcoinAmount data.allBalances key.ticker (.fin price) false false)
    (hunits : details.assetAmount < 2 ^ 63) (hnonneg : 0 < bid → 0 ≤ details.assetAmount) :
    Signs text params data sign details ↔
      RecvCovered sign bid ((data.allBalances.wallet key.ticker).getD 0)
        ((data.allBalances.maxSend key.ticker).getD maxDouble) amount details.assetAmount := by
  have hpos := actualAmount_pos hchecked.floor hchecked.i64 false
  have hsign : 0 < sign := by linarith [hchecked.sign_gt]
  have hamount : 0 < amount := by
    have hfloor := hchecked.floor
    omega
  have hfits : actualAmount false amount < 2 ^ 63 := by
    have hmin := minServerFee_le amount
    have hi64 := hchecked.i64
    show amount - getServerFee amount < 2 ^ 63
    omega
  -- every condition bounds the units from above, so the fewest units decide
  have hcheck : ∀ {units : Int}, 0 < units →
      (takeOrder text params data.assets { details with assetAmount := units } data.allBalances
          data.indexPrices sign = .ok () ↔
        sign * units ≤ bid * (amount - getServerFee amount : Int) ∧
        LimitCovers (.fin ((data.allBalances.wallet key.ticker).getD 0)) amount
          (amount - getServerFee amount) units ∧
        LimitCovers ((data.allBalances.maxSend key.ticker).getD maxDouble) amount
          (amount - getServerFee amount) units) := by
    intro units hunits
    rw [takeOrder_units_iff hchecked hindex hlists hbuilds hunits, hsend,
      paysInterest_recv hpos hsign, recv_balance_iff hamount hchecked.i64 hpos hunits hoffer,
      and_iff_right hfits]
    rfl
  constructor
  · rintro ⟨units, hunits0, -, hnear, hok⟩
    obtain ⟨hmargin, hwallet, hroom⟩ := (hcheck hunits0).mp hok
    obtain ⟨hlow, hhigh⟩ := abs_le.mp hnear
    have hle : max 1 (details.assetAmount - 1) ≤ units := by omega
    refine ⟨le_trans ?_ hmargin, hwallet.mono hamount hle, hroom.mono hamount hle⟩
    exact mul_le_mul_of_nonneg_left (by exact_mod_cast hle) hsign.le
  · rintro ⟨hmargin, hwallet, hroom⟩
    -- a positive number of units is paid for by a positive price only
    have hbid : 0 < bid := by
      have hone : (1 : ℚ) ≤ (max 1 (details.assetAmount - 1) : Int) := by
        exact_mod_cast le_max_left _ _
      have hpos' : (0 : ℚ) < (amount - getServerFee amount : Int) := by exact_mod_cast hpos
      have hleft : 0 < sign * (max 1 (details.assetAmount - 1) : Int) :=
        mul_pos hsign (by linarith)
      exact pos_of_mul_pos_left (hleft.trans_le hmargin) hpos'.le
    have hnonneg := hnonneg hbid
    refine ⟨_, ?_, ?_, abs_le.mpr ⟨?_, ?_⟩, (hcheck ?_).mpr ⟨hmargin, hwallet, hroom⟩⟩
    · omega
    · omega
    · omega
    · omega
    · omega

end Check

/-! ## What is submitted -/

/-- The log grows by an event. -/
def Grows (P : Event → Prop) (log log' : List Event) : Prop := ∃ e, P e ∧ log' = log ++ [e]

/-- **RUN**: what one request keeps, all requests of a run keep. -/
theorem grows_run {P : Event → Prop} {log log' : List Event}
    (h : ReflTransGen (Grows P) log log') : ∃ added, log' = log ++ added ∧ ∀ e ∈ added, P e := by
  induction h with
  | refl => exact ⟨[], (List.append_nil log).symm, fun e he => absurd he List.not_mem_nil⟩
  | tail _ hstep ih =>
      obtain ⟨added, rfl, hadded⟩ := ih
      obtain ⟨e, he, rfl⟩ := hstep
      refine ⟨added ++ [e], List.append_assoc _ _ _, fun e' he' => ?_⟩
      rcases List.mem_append.mp he' with hold | hnew
      · exact hadded e' hold
      · rw [List.mem_singleton.mp hnew]
        exact he

section Requests

variable {world : World} {params : Params} {key : OwnOrderKey} {P : Event → Prop}

theorem sendRequest_grows {α β : Type} {req : Request} {value : Response → Option α}
    {f : Except String α → Handler β} (hreq : ∀ res, P (.request key req res))
    (hf : ∀ x, Follows Data.log (Grows P) (f x)) :
    Follows Data.log (Grows P) (sendRequest world key req value >>= f) := by
  intro data
  have hstep : ∀ res, ReflTransGen (Grows P) data.log (data.emit (.request key req res)).log :=
    fun res => .single ⟨_, hreq res, rfl⟩
  refine sendRequest_leads ?_ ?_ ?_
  · exact fun res _ => hstep res
  · exact fun e => Leads.commit (hstep _) (hf _ _)
  · exact fun resp a _ => Leads.commit (hstep _) (hf _ _)

/-- The first thing a request does is to be sent. -/
theorem sendRequest_logs {α β : Type} {req : Request} {value : Response → Option α}
    {f : Except String α → Handler β} (hf : ∀ x, Follows Data.log (Grows fun _ => True) (f x))
    (data : Data) :
    ∃ rest, (exec (sendRequest world key req value >>= f) data).2.log =
      data.log ++ .request key req (world.reply data.log req) :: rest := by
  have hafter : ∀ x res, ∃ rest, (exec (f x) (data.emit (.request key req res))).2.log =
      data.log ++ .request key req res :: rest := by
    intro x res
    obtain ⟨rest, hrest, -⟩ := grows_run (hf x (data.emit (.request key req res)))
    refine ⟨rest, hrest.trans ?_⟩
    show data.log ++ [_] ++ rest = _
    rw [List.append_assoc, List.singleton_append]
  rw [exec_bind]
  unfold sendRequest emit
  rw [exec_get_bind, exec_modify_bind]
  cases world.reply data.log req with
  | none => exact ⟨[], rfl⟩
  | some res =>
      cases res with
      | error e => exact hafter _ _
      | ok resp =>
          dsimp only
          cases value resp with
          | none => exact ⟨[], rfl⟩
          | some a => exact hafter _ _

theorem setOwn_grows (own : Option OwnOrder) : Follows Data.log (Grows P) (setOwn key own) :=
  fun _ => .refl

theorem pure_grows {α : Type} (a : α) : Follows Data.log (Grows P) (pure a : Handler α) :=
  fun _ => .refl

/-- An order is submitted first; what follows is at most about its pset. -/
theorem submitOrder_eq (world : World) (params : Params) (key : OwnOrderKey) (asset : AssetId)
    (price : Double) (amount : Int) :
    ∃ f, submitOrder world params key asset price amount =
        sendRequest world key (.submit asset
          (if key.sendBitcoins then -toBitcoin amount else toBitcoin amount) price)
          Response.submit? >>= f ∧
      ∀ P : Event → Prop, (∀ req res, P (.request key (.psetMaker req) res)) →
        ∀ x, Follows Data.log (Grows P) (f x) := by
  refine ⟨_, rfl, fun P hpset x data => ?_⟩
  cases x with
  | error e => exact .refl
  | ok submitResp =>
      refine Leads.get ?_
      refine Leads.call (Follows.attempt fun _ => Leads.keeps (keeps_ofStop _) .refl) .refl ?_
      intro x data' _ hreach
      refine Leads.commit hreach ?_
      cases x with
      | error e => exact .refl
      | ok psetMakerReq =>
          refine sendRequest_grows (hpset _) (fun x => ?_) data'
          cases x with
          | error e => exact pure_grows ()
          | ok _ => exact setOwn_grows _

theorem cancelOrder_grows (hcancel : ∀ orderId res, P (.request key (.cancel orderId) res))
    (own : OwnOrder) : Follows Data.log (Grows P) (cancelOrder world key own) :=
  sendRequest_grows (hcancel _) fun _ => pure_grows ()

theorem editOrder_grows (hcancel : ∀ orderId res, P (.request key (.cancel orderId) res))
    (hedit : ∀ orderId price res, P (.request key (.edit orderId price) res)) (own : OwnOrder)
    (price : Double) : Follows Data.log (Grows P) (editOrder world key own price) := by
  refine sendRequest_grows (hedit _ _) fun x => ?_
  cases x with
  | ok _ => exact setOwn_grows _
  | error e => exact sendRequest_grows (hcancel _) fun _ => setOwn_grows _

end Requests

/-- The order that `update_price` submits. -/
structure Offered (params : Params) (data : Data) (key : OwnOrderKey) (submit : ℚ)
    (assetId : AssetId) (amount : Int) (price : Double) : Prop where
  own : data.ownOrders key = none
  asset : ∃ asset, data.assets.find? (fun asset => asset.ticker == key.ticker.text) = some asset ∧
    asset.assetId = assetId
  interest : params.interestSubmit key.ticker = .ok submit
  price_eq : (data.indexPrices key.ticker).map (fun index => getPrice index.price key.sendBitcoins
    (params.interestTakeAjusted submit)) = some price
  amount_eq : amount = min (getBitcoinAmount data.allBalances key.ticker price key.sendBitcoins false)
    params.bitcoinAmountSubmit
  min_le : params.bitcoinAmountMin ≤ amount

/-- An event is not a submission, or it is that of the offered order. -/
def OffersOnly (params : Params) (data : Data) (key : OwnOrderKey) (e : Event) : Prop :=
  ∀ assetId signed price res, e = .request key (.submit assetId signed price) res →
    ∃ submit amount, signed = (if key.sendBitcoins then -toBitcoin amount else toBitcoin amount) ∧
      Offered params data key submit assetId amount price

theorem updatePrice_grows (world : World) (params : Params) (key : OwnOrderKey) (data : Data) :
    Leads Data.log (Grows (OffersOnly params data key)) data.log (updatePrice world params key)
      data := by
  have hpset : ∀ req res, OffersOnly params data key (.request key (.psetMaker req) res) := by
    rintro req res assetId signed price res' ⟨⟩
  have hcancel : ∀ orderId res, OffersOnly params data key (.request key (.cancel orderId) res) := by
    rintro orderId res assetId signed price res' ⟨⟩
  have hedit : ∀ orderId price res,
      OffersOnly params data key (.request key (.edit orderId price) res) := by
    rintro orderId price res assetId signed price' res' ⟨⟩
  refine Leads.get (Leads.ofPanic .refl fun asset hasset => Leads.ofPanic .refl fun submit hsubmit => ?_)
  dsimp only
  generalize hprice : (data.indexPrices key.ticker).map _ = price
  -- of the cases of `update_price` only the first one submits
  cases hown : data.ownOrders key with
  | none =>
      cases price with
      | none => exact .refl
      | some price =>
          dsimp only
          split
          · next hmin =>
              obtain ⟨f, heq, hf⟩ := submitOrder_eq world params key asset.assetId price
                (min (getBitcoinAmount data.allBalances key.ticker price key.sendBitcoins false)
                  params.bitcoinAmountSubmit)
              show Leads _ _ _ (submitOrder world params key asset.assetId price
                (min (getBitcoinAmount data.allBalances key.ticker price key.sendBitcoins false)
                  params.bitcoinAmountSubmit)) data
              rw [heq]
              refine sendRequest_grows ?_ (hf _ hpset) data
              rintro res assetId signed price' res' ⟨⟩
              exact ⟨submit, _, rfl, hown, ⟨asset, expect_ok hasset, rfl⟩, hsubmit, hprice, rfl, hmin⟩
          · exact .refl
  | some own =>
      cases price with
      | none => exact cancelOrder_grows hcancel own data
      | some price =>
          dsimp only
          split
          · exact cancelOrder_grows hcancel own data
          · split
            · exact editOrder_grows hcancel hedit own price data
            · exact .refl

/-- **THE OFFER**: `update_price` submits the offered order and no other. -/
theorem submits_iff {world : World} {params : Params} {data : Data} {key : OwnOrderKey}
    {assetId : AssetId} {amount : Int} {price : Double} :
    Submits world params data key assetId amount price ↔
      ∃ submit, Offered params data key submit assetId amount price := by
  constructor
  · rintro ⟨added, res, hlog, hmem⟩
    obtain ⟨added', hlog', hadded⟩ := grows_run (updatePrice_grows world params key data)
    -- the amount is found again in the bitcoins that were submitted
    have hsame : added = added' := List.append_cancel_left (hlog.symm.trans hlog')
    obtain ⟨submit, amount', hsigned, hoffered⟩ := hadded _ (hsame ▸ hmem) _ _ _ _ rfl
    have heq : amount = amount' := by
      refine toBitcoin_injective ?_
      split at hsigned
      · exact neg_injective hsigned
      · exact hsigned
    exact ⟨submit, heq ▸ hoffered⟩
  · rintro ⟨submit, hown, ⟨asset, hasset, rfl⟩, hsubmit, hprice, rfl, hmin⟩
    obtain ⟨f, heq, hf⟩ := submitOrder_eq world params key asset.assetId price
      (min (getBitcoinAmount data.allBalances key.ticker price key.sendBitcoins false)
        params.bitcoinAmountSubmit)
    have hrun : exec (updatePrice world params key) data =
        exec (submitOrder world params key asset.assetId price
          (min (getBitcoinAmount data.allBalances key.ticker price key.sendBitcoins false)
            params.bitcoinAmountSubmit)) data := by
      unfold updatePrice
      rw [exec_get_bind, hasset, expect_some, hsubmit]
      simp only [ofPanic, pure_bind, hown, hprice, Option.elim, if_pos hmin]
    obtain ⟨rest, hlog⟩ := sendRequest_logs (hf (fun _ => True) fun _ _ => trivial) data
    rw [← heq, ← hrun] at hlog
    exact ⟨_, _, hlog, List.mem_cons_self⟩

/-! ## The dealer signs what it offers, where the margin covers the fee -/

/-- The price of an order, at the fee of `bitcoin_amount_submit`. -/
def Params.offerPrice (params : Params) (submit : ℚ) (sendBitcoins : Bool) (bid ask : ℚ) : ℚ :=
  if sendBitcoins then ask * params.interestTakeAjusted submit
  else bid * (1 / params.interestTakeAjusted submit)

/-- The amount of an order: what the balances allow, up to `bitcoin_amount_submit`. -/
def Params.offerAmount (params : Params) (all : AllBalances) (key : OwnOrderKey) (price : ℚ) : Int :=
  min (getBitcoinAmount all key.ticker (.fin price) key.sendBitcoins false)
    params.bitcoinAmountSubmit

/-- The order at this index price and these balances pays the interest at which the
    dealer signs. -/
def CoversOffer (params : Params) (submit sign : ℚ) (key : OwnOrderKey) (bid ask : ℚ)
    (all : AllBalances) : Prop :=
  let price := params.offerPrice submit key.sendBitcoins bid ask
  let amount := params.offerAmount all key price
  let units := Pricing.assetAmount amount price 8 .stablecoin
  if key.sendBitcoins then
    SendCovered sign ask ((all.maxRecv key.ticker).getD maxDouble) amount units
  else
    RecvCovered sign bid ((all.wallet key.ticker).getD 0)
      ((all.maxSend key.ticker).getD maxDouble) amount units

theorem getPrice_fin (bid ask interest : ℚ) (sendBitcoins : Bool) :
    getPrice ⟨.fin bid, .fin ask⟩ sendBitcoins interest =
      .fin (if sendBitcoins then ask * interest else bid * (1 / interest)) := by
  cases sendBitcoins <;> rfl

theorem getBitcoinAmount_lt (all : AllBalances) (ticker : DealerTicker) (price : Double)
    (sendBitcoins maxAmount : Bool) :
    getBitcoinAmount all ticker price sendBitcoins maxAmount < 2 ^ 63 := by
  cases sendBitcoins with
  | false => exact Double.roundI64_lt _
  | true => exact Double.roundI64_lt _

section Admitted

variable {params : SignParams} {data : Data} {key : OwnOrderKey} {assetId : AssetId}
  {amount : Int} {price : Double} {submit sign : ℚ}

theorem SignParams.Admitted.floor (h : params.Admitted) : 10000 ≤ params.bitcoinAmountMin := by
  have hvalue : toBitcoin 10000 = 1 / 10000 := by
    unfold toBitcoin coin
    norm_num
  have hmin := h.min_ge
  rw [← hvalue, toBitcoin_le_iff] at hmin
  exact hmin

/-- The interests of a ticker are in order. -/
theorem SignParams.Admitted.interests (h : params.Admitted)
    (hsubmit : params.interestSubmit key.ticker = .ok submit)
    (hsign : params.interestSign key.ticker = .ok sign) :
    1 < sign ∧ sign < submit ∧ submit < 11 / 10 := by
  cases hticker : key.ticker with
  | usdt =>
      rw [hticker] at hsubmit hsign
      cases hsubmit
      cases hsign
      exact ⟨h.sign_usdt, h.sign_lt_submit_usdt, h.submit_usdt⟩
  | eurx =>
      rw [hticker] at hsubmit hsign
      cases hsubmit
      cases hsign
      exact ⟨h.sign_eurx, h.sign_lt_submit_eurx, h.submit_eurx⟩
  | _ =>
      rw [hticker] at hsign
      cases hsign

/-- An order that was submitted passes the checks that do not look at the price. -/
theorem Offered.checked (h : Offered params.toParams data key submit assetId amount price)
    (hadmitted : params.Admitted) (hsign : params.interestSign key.ticker = .ok sign) :
    Checked params sign amount := by
  have hfloor := hadmitted.floor
  have hmax := hadmitted.submit_le_max
  have hmin := h.min_le
  have hlt := getBitcoinAmount_lt data.allBalances key.ticker price key.sendBitcoins false
  have hamount := h.amount_eq
  obtain ⟨hgt, hlt_submit, hle⟩ := hadmitted.interests h.interest hsign
  exact ⟨by omega, by omega, hmin, by omega, hgt, (hlt_submit.trans hle).le⟩

theorem SignParams.Admitted.ajusted_pos (h : params.Admitted) (hsubmit : 0 < submit) :
    0 < params.interestTakeAjusted submit := by
  have hfloor := h.floor
  have hle := h.min_le_submit
  have hfee : 0 ≤ fromBitcoin (.fin (max (serverFeeRate * toBitcoin params.bitcoinAmountSubmit)
      (toBitcoin minServerFee))) := by
    refine Double.roundI64_nonneg (mul_nonneg (le_max_of_le_right ?_) coin_pos.le)
    exact toBitcoin_nonneg.mpr (by decide)
  refine mul_pos hsubmit (add_pos_of_pos_of_nonneg one_pos ?_)
  exact div_nonneg (toBitcoin_nonneg.mpr hfee) (toBitcoin_nonneg.mpr (by omega))

end Admitted

/-- **SIGNED**: an order that `update_price` submits is signed, at the same index
    price and balances, exactly when its price covers the interest of signing with
    the fee of its own amount. -/
theorem offer_signed_iff (text : Double → String) {world : World} {params : SignParams}
    (hadmitted : params.Admitted) {data : Data} {key : OwnOrderKey} {bid ask : ℚ} {time : Nat}
    (hindex : data.indexPrices key.ticker = some ⟨⟨.fin bid, .fin ask⟩, time⟩) {submit sign : ℚ}
    (hsubmit : params.interestSubmit key.ticker = .ok submit)
    (hsign : params.interestSign key.ticker = .ok sign) {assetId : AssetId} {amount : Int}
    {price : ℚ} (hsubmits : Submits world params.toParams data key assetId amount (.fin price))
    {asset : Asset} (hlists : Lists data.assets assetId key.ticker asset) {details : Details}
    (hbuilds : Builds key assetId amount price details) :
    Signs text params data sign details ↔
      CoversOffer params.toParams submit sign key bid ask data.allBalances := by
  obtain ⟨submit', hoffered⟩ := submits_iff.mp hsubmits
  obtain rfl : submit = submit' := Except.ok.inj (hsubmit.symm.trans hoffered.interest)
  have hchecked := hoffered.checked hadmitted hsign
  -- the terms are those of the offer
  have hprice : price = params.offerPrice submit key.sendBitcoins bid ask := by
    have heq := hoffered.price_eq
    rw [hindex, Option.map_some, getPrice_fin] at heq
    cases heq
    rfl
  have hamount : amount = params.offerAmount data.allBalances key price := hoffered.amount_eq
  have hoffer : amount ≤
      getBitcoinAmount data.allBalances key.ticker (.fin price) key.sendBitcoins false := by
    rw [hamount]
    exact min_le_left _ _
  have hmarket : details.market = .stablecoin := by
    simpa [MarketType.pricedInBitcoins] using hbuilds.market
  have hunits := hbuilds.assetAmount
  rw [hmarket] at hunits
  have hlt : details.assetAmount < 2 ^ 63 := by
    rw [hunits, Pricing.assetAmount]
    exact Double.roundI64_lt _
  unfold CoversOffer
  dsimp only
  rw [← hprice, ← hamount, ← hunits]
  cases hsend : key.sendBitcoins with
  | true =>
      rw [hsend] at hoffer
      rw [if_pos rfl]
      exact signs_send_iff hchecked hindex hlists hbuilds hsend hoffer hlt
  | false =>
      rw [hsend] at hoffer
      rw [if_neg Bool.false_ne_true]
      refine signs_recv_iff hchecked hindex hlists hbuilds hsend hoffer hlt fun hbid => ?_
      -- a positive price asks for no negative number of units
      have hpos : 0 < price := by
        obtain ⟨hgt, hlt_submit, -⟩ := hadmitted.interests hsubmit hsign
        have hsubmit_pos : 0 < submit := by linarith
        rw [hprice, Params.offerPrice, hsend, if_neg Bool.false_ne_true]
        exact mul_pos hbid (one_div_pos.mpr (hadmitted.ajusted_pos hsubmit_pos))
      have hfloor := hchecked.floor
      have hscale : 0 ≤ assetScale 8 := by
        unfold assetScale
        positivity
      rw [hunits]
      refine Double.roundI64_nonneg (mul_nonneg (mul_nonneg ?_ hpos.le) hscale)
      exact toBitcoin_nonneg.mpr (by omega)

/-! ### Two orders of one dealer -/

def sampleAsset : Asset where
  assetId := 7
  name := "Tether USD"
  ticker := "USDt"
  icon := none
  precision := 8
  iconUrl := none
  instantSwaps := none
  domain := none
  domainAgent := none
  alwaysShow := none

/-- The interests of the dealer on an exchange; orders of half a bitcoin. -/
def sampleParams : SignParams where
  policyAsset := 1
  interestSubmitUsdt := 10075 / 10000
  interestSubmitEurx := 10040 / 10000
  tickers := [.usdt]
  bitcoinAmountSubmit := 50000000
  bitcoinAmountMin := 10000
  interestSignUsdt := 10050 / 10000
  interestSignEurx := 10025 / 10000
  bitcoinAmountMax := 100000000

/-- A dealer with this many bitcoins, and no order yet. -/
def sampleData (bitcoins : ℚ) : Data where
  assets := [sampleAsset]
  serverConnected := true
  utxos := ∅
  allBalances := ⟨fun ticker => if ticker = .lbtc then some bitcoins else none,
    fun _ => none, fun _ => none⟩
  indexPrices := fun ticker => if ticker = .usdt then some ⟨⟨.fin 29990, .fin 30000⟩, 0⟩ else none
  ownOrders := fun _ => none
  lastPriceEdit := 0
  log := []

def sampleWorld : World where
  reply := fun _ _ => none
  newAddress := fun _ _ => .error "no address"
  now := fun _ => 0

def sampleKey : OwnOrderKey := ⟨.usdt, true⟩

theorem sampleData_indexPrices (bitcoins : ℚ) :
    (sampleData bitcoins).indexPrices sampleKey.ticker = some ⟨⟨.fin 29990, .fin 30000⟩, 0⟩ := rfl

/-- The price of `sampleParams` for orders that send bitcoins. -/
def samplePrice : ℚ := 30000 * (10075 / 10000 * (1001 / 1000))

def sampleDetails (amount : Int) : Details where
  asset := 7
  bitcoinAmount := amount
  assetAmount := Pricing.assetAmount amount samplePrice 8 .stablecoin
  price := samplePrice
  serverFee := getServerFee amount
  side := .maker
  sendBitcoins := true
  orderType := .bitcoin
  market := .stablecoin
  twoStep := none

theorem sampleParams_admitted : sampleParams.Admitted := by
  constructor <;> decide +kernel

theorem sampleDetails_builds (amount : Int) :
    Builds sampleKey 7 amount samplePrice (sampleDetails amount) :=
  ⟨rfl, rfl, rfl, rfl, rfl, rfl⟩

theorem sampleData_lists (bitcoins : ℚ) :
    Lists (sampleData bitcoins).assets 7 sampleKey.ticker sampleAsset :=
  ⟨rfl, rfl, rfl⟩

theorem sampleData_offered {bitcoins : ℚ} {amount : Int}
    (hamount : sampleParams.offerAmount (sampleData bitcoins).allBalances sampleKey samplePrice =
      amount) (hmin : 10000 ≤ amount) :
    Offered sampleParams.toParams (sampleData bitcoins) sampleKey (10075 / 10000) 7 amount
      (.fin samplePrice) where
  own := rfl
  asset := ⟨sampleAsset, rfl, rfl⟩
  interest := rfl
  price_eq := by
    show some (Double.fin (30000 * sampleParams.interestTakeAjusted (10075 / 10000))) = _
    have hprice : 30000 * sampleParams.interestTakeAjusted (10075 / 10000) = samplePrice := by
      decide +kernel
    rw [hprice]
  amount_eq := hamount.symm
  min_le := hmin

/-- An order of half a bitcoin is submitted and signed. -/
theorem large_order_signed :
    Submits sampleWorld sampleParams.toParams (sampleData 1) sampleKey 7 50000000
      (.fin samplePrice) ∧
    Signs (fun _ => "") sampleParams (sampleData 1) (10050 / 10000) (sampleDetails 50000000) := by
  have hamount : sampleParams.offerAmount (sampleData 1).allBalances sampleKey samplePrice =
      50000000 := by decide +kernel
  have hsubmits : Submits sampleWorld sampleParams.toParams (sampleData 1) sampleKey 7 50000000
      (.fin samplePrice) := submits_iff.mpr ⟨_, sampleData_offered hamount (by decide)⟩
  refine ⟨hsubmits, (offer_signed_iff (fun _ => "") sampleParams_admitted
    (sampleData_indexPrices 1) rfl rfl hsubmits (sampleData_lists 1)
    (sampleDetails_builds 50000000)).mpr ?_⟩
  refine ⟨?_, ?_, ?_, ?_⟩
  · decide +kernel
  · decide +kernel
  · decide +kernel
  · show ((_ : ℚ) - 1 / 2) * _ ≤ _
    decide +kernel

/-- An order of 20000 satoshis is submitted and not signed: its fee is the minimum of
    500 satoshis, which is more than the interests differ by. -/
theorem small_order_not_signed :
    sampleParams.Admitted ∧
    Submits sampleWorld sampleParams.toParams (sampleData (2002 / 10000000)) sampleKey 7 20000
      (.fin samplePrice) ∧
    Lists (sampleData (2002 / 10000000)).assets 7 .usdt sampleAsset ∧
    Builds sampleKey 7 20000 samplePrice (sampleDetails 20000) ∧
    ¬ Signs (fun _ => "") sampleParams (sampleData (2002 / 10000000)) (10050 / 10000)
      (sampleDetails 20000) := by
  have hamount : sampleParams.offerAmount (sampleData (2002 / 10000000)).allBalances sampleKey
      samplePrice = 20000 := by decide +kernel
  have hoffered := sampleData_offered hamount (by decide)
  have hchecked : Checked sampleParams (10050 / 10000) 20000 :=
    hoffered.checked sampleParams_admitted rfl
  refine ⟨sampleParams_admitted, submits_iff.mpr ⟨_, hoffered⟩, sampleData_lists _,
    sampleDetails_builds _, fun hsigns => ?_⟩
  have hoffer : 20000 ≤ getBitcoinAmount (sampleData (2002 / 10000000)).allBalances .usdt
      (.fin samplePrice) true false := by
    rw [← hamount]
    exact min_le_left _ _
  have hcovered := (signs_send_iff hchecked (sampleData_indexPrices _) (sampleData_lists _)
    (sampleDetails_builds _) rfl hoffer (by decide +kernel)).mp hsigns
  exact absurd hcovered.margin (by decide +kernel)

end OrderDealer
