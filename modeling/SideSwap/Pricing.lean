import SideSwap.Api
import SideSwap.Handler
import SideSwap.MachineInt

/-! # Prices, amounts and fees

    The conversions of `sideswap_common/src/types.rs`.  A double is read as the
    exact value of its expression: there is no rounding error, but a division
    by zero is an infinity or not a number, and the final `round() as i64`
    rounds half away from zero and saturates. -/

namespace Pricing

open Api Program MachineInt

/-- What a quotient of two doubles can be. -/
inductive Double where
  | fin (q : ℚ)
  | inf (negative : Bool)
  | nan
deriving DecidableEq, Repr

namespace Double

/-- `a / b`. -/
def div (a b : ℚ) : Double :=
  if b ≠ 0 then .fin (a / b)
  else if 0 < a then .inf false
  else if a < 0 then .inf true
  else .nan

/-- `x * scale` for a positive scale. -/
def scale (x : Double) (scale : ℚ) : Double :=
  match x with
  | .fin q => .fin (q * scale)
  | .inf negative => .inf negative
  | .nan => .nan

/-- `x == 0.0`. -/
def isZero (x : Double) : Bool :=
  match x with
  | .fin q => q == 0
  | .inf _ => false
  | .nan => false

/-- `x <= q`: a comparison with NaN fails. -/
def le (x : Double) (q : ℚ) : Bool :=
  match x with
  | .fin r => decide (r ≤ q)
  | .inf negative => negative
  | .nan => false

/-- `x >= q`. -/
def ge (x : Double) (q : ℚ) : Bool :=
  match x with
  | .fin r => decide (q ≤ r)
  | .inf negative => !negative
  | .nan => false

/-- `x > q`. -/
def gt (x : Double) (q : ℚ) : Bool :=
  match x with
  | .fin r => decide (q < r)
  | .inf negative => !negative
  | .nan => false

/-- `x == q`. -/
def eq (x : Double) (q : ℚ) : Bool :=
  match x with
  | .fin r => r == q
  | .inf _ => false
  | .nan => false

/-- `x / y`. -/
def quot (x y : Double) : Double :=
  match x, y with
  | .fin a, .fin b => div a b
  | .fin _, .inf _ => .fin 0
  | .inf negative, .fin b => .inf (negative != decide (b < 0))
  | _, _ => .nan

/-- `f64::min`: a number, if one of the two is. -/
def minOf (x y : Double) : Double :=
  match x, y with
  | .nan, _ => y
  | _, .nan => x
  | .inf negative, _ => if negative then x else y
  | _, .inf negative => if negative then y else x
  | .fin a, .fin b => .fin (min a b)

/-- `x != y`: NaN is different from everything. -/
def ne (x y : Double) : Bool :=
  match x with
  | .nan => true
  | _ => x != y

end Double

/-- `f64::round`: to the nearest integer, halves away from zero. -/
def round (q : ℚ) : Int := if 0 ≤ q then (q + 1 / 2).floor else (q - 1 / 2).ceil

/-- `f64::round(x) as i64`. -/
def Double.roundI64 (x : Double) : Int :=
  match x with
  | .fin q => max (-2 ^ 63) (min (round q) (2 ^ 63 - 1))
  | .inf false => 2 ^ 63 - 1
  | .inf true => -2 ^ 63
  | .nan => 0

/-- `COIN`: satoshis in a bitcoin. -/
def coin : Int := 100000000

def minBitcoinAmount : Int := 2000

def minServerFee : Int := 500

def serverFeeRate : ℚ := 1 / 1000

/-- `Amount::to_bitcoin`. -/
def toBitcoin (amount : Int) : ℚ := amount / coin

/-- `Amount::from_bitcoin`. -/
def fromBitcoin (value : Double) : Int := (value.scale coin).roundI64

/-- How a number of satoshis is written in bitcoins. -/
def bitcoinText (amount : Int) : String :=
  let fraction := (toString (100000000 + amount.natAbs % 100000000)).toList.drop 1
  let digits := (fraction.reverse.dropWhile (· == '0')).reverse
  (if amount < 0 then "-" else "") ++ toString (amount.natAbs / 100000000) ++
    if digits.isEmpty then "" else "." ++ String.ofList digits

/-- `get_server_fee`. -/
def getServerFee (bitcoinAmount : Int) : Int :=
  max (fromBitcoin (.fin (toBitcoin bitcoinAmount * serverFeeRate))) minServerFee

/-- `get_max_bitcoin_amount`: what a balance can pay for together with its fee. -/
def getMaxBitcoinAmount (bitcoinBalance : Int) : Except Stop Int :=
  if ¬ 0 ≤ bitcoinBalance then
    .error (.panic ⟨"assertion failed: bitcoin_balance.to_sat() >= 0"⟩)
  else if ¬ minBitcoinAmount + minServerFee ≤ bitcoinBalance then
    .error (.error "balance is too low")
  else
    let networkFeeScaled :=
      fromBitcoin (.fin (toBitcoin bitcoinBalance * (1 - 1 / (1 + serverFeeRate))))
    let networkFee := max networkFeeScaled minServerFee
    let bitcoinAmount := bitcoinBalance - networkFee
    let actualServerFee := getServerFee bitcoinAmount
    if bitcoinBalance < bitcoinAmount + actualServerFee then .ok (bitcoinAmount - 1)
    else .ok bitcoinAmount

/-- `asset_scale`: units in one asset. -/
def assetScale (precision : Nat) : ℚ := 10 ^ precision

/-- `asset_amount`: the asset worth a number of satoshis. -/
def assetAmount (bitcoinAmount : Int) (price : ℚ) (precision : Nat) (market : MarketType) : Int :=
  let amount :=
    if market.pricedInBitcoins then Double.div (toBitcoin bitcoinAmount) price
    else .fin (toBitcoin bitcoinAmount * price)
  (amount.scale (assetScale precision)).roundI64

/-- `asset_float_amount`. -/
def assetFloatAmount (assetAmount : Int) (precision : Nat) : ℚ := assetAmount / assetScale precision

/-- `bitcoin_amount`: the satoshis worth an amount of the asset. -/
def bitcoinAmount (assetAmount : Int) (price : ℚ) (precision : Nat) (market : MarketType) : Int :=
  let amount :=
    if market.pricedInBitcoins then .fin (assetFloatAmount assetAmount precision * price)
    else Double.div (assetFloatAmount assetAmount precision) price
  fromBitcoin amount

/-- `peg_out_amount`: what is sent and what is received. -/
def pegOutAmount (amount : Int) (isSendEntered : Bool) (feeRate : ℚ) (minPegOutAmount : Int)
    (serverFeePercentPegOut : ℚ) (pegOutBitcoinTxVsize : Int) : Except String (Int × Int) := do
  check (decide (0 < amount)) "Condition failed: `req.amount > 0`"
  let pegOutRate := 1 - serverFeePercentPegOut / 100
  let fixedFee := (Double.fin (pegOutBitcoinTxVsize * feeRate)).roundI64
  let (sendAmount, recvAmount) :=
    if isSendEntered then (amount, i64 ((Double.fin (amount * pegOutRate)).roundI64 - fixedFee))
    else ((Double.div (i64 (amount + fixedFee)) pegOutRate).roundI64, amount)
  check (decide (minPegOutAmount ≤ sendAmount)) ("Min " ++ bitcoinText minPegOutAmount)
  check (decide (0 < recvAmount)) "Amount to receive is negative"
  pure (sendAmount, recvAmount)

/-- The relative price change `|new - old| / old`. -/
def priceChange (new old : ℚ) : Double := Double.div |new - old| old

/-- A price has not changed when the relative change is zero. -/
theorem isZero_priceChange {new old : ℚ} (h : (priceChange new old).isZero = true) :
    new = old := by
  unfold priceChange Double.div at h
  split at h
  · next hold =>
      have hq : |new - old| / old = 0 := of_decide_eq_true h
      rcases div_eq_zero_iff.mp hq with habs | hzero
      · exact sub_eq_zero.mp (abs_eq_zero.mp habs)
      · exact absurd hzero hold
  · split at h
    · exact nomatch h
    · split at h <;> exact nomatch h

/-- Nor has it when the change is at most zero and the old price was positive. -/
theorem priceChange_le_zero {new old : ℚ} (hold : 0 < old)
    (h : (priceChange new old).le 0 = true) : new = old := by
  unfold priceChange Double.div at h
  rw [if_pos (ne_of_gt hold)] at h
  have hq : |new - old| / old ≤ 0 := of_decide_eq_true h
  have habs : |new - old| ≤ 0 := by
    by_contra hpos
    exact absurd hq (not_le.mpr (div_pos (not_le.mp hpos) hold))
  exact sub_eq_zero.mp (abs_nonpos_iff.mp habs)

end Pricing
