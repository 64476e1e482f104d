import SideSwap.Rounding

/-! # Which transfer the dealer proposes

    `get_balancing` of `sideswap_dealer_bitfinex/src/balancing.rs`.  Both assets
    are held in the wallet and on the exchange.  The asset of smaller total
    value is kept roughly in half; the other one is moved so that either side
    can be traded against the whole of the first asset's other side.

    The two rules are symmetric in the assets, so they are read here with the
    smaller asset as a parameter.  What carries both results is that a transfer
    changes no total: which asset is smaller stays as it is. -/

namespace Dealer

open MachineInt Pricing

/-! ## The source -/

/-- `Ratio`, with what the assertions of `get_balancing_smaller` ask for. -/
structure Ratio where
  min : ℚ
  norm : ℚ
  max : ℚ
  min_pos : 0 < min
  min_lt_norm : min < norm
  norm_lt_max : norm < max
  max_lt_one : max < 1

def ratioBtc : Ratio where
  min := 1 / 4
  norm := 1 / 2
  max := 3 / 4
  min_pos := by norm_num
  min_lt_norm := by norm_num
  norm_lt_max := by norm_num
  max_lt_one := by norm_num

def ratioUsdt : Ratio where
  min := 1 / 4
  norm := 1 / 2
  max := 3 / 4
  min_pos := by norm_num
  min_lt_norm := by norm_num
  norm_lt_max := by norm_num
  max_lt_one := by norm_num

def minBalancingAmountUsdt : ℚ := 1000

/-- `Balancing`. -/
inductive Balancing where
  | none
  | recv (amount : ℚ)
  | send (amount : ℚ)
deriving DecidableEq, Repr

/-- `AssetBalancing`. -/
inductive AssetBalancing where
  | none
  | recvBtc (amount : ℚ)
  | sendBtc (amount : ℚ)
  | recvUsdt (amount : ℚ)
  | sendUsdt (amount : ℚ)
deriving DecidableEq, Repr

/-- `get_balancing_smaller`. -/
def getBalancingSmaller (walletBalance exchangeBalance : ℚ) (expected : Ratio) : Balancing :=
  if walletBalance = 0 ∨ exchangeBalance = 0 then .none
  else
    let total := walletBalance + exchangeBalance
    let ratio := walletBalance / total
    let diff := toBitcoin (fromBitcoin (.fin |(expected.norm - ratio) * total|))
    if ratio < expected.min then .recv diff
    else if expected.max < ratio then .send diff
    else .none

/-- `get_balancing_bigger`. -/
def getBalancingBigger (assetWalletBalance assetExchangeBalance otherWalletBalance
    otherExchangeBalance fromOtherToAssetScale : ℚ) : Balancing :=
  let recvAmount := otherExchangeBalance * fromOtherToAssetScale - assetWalletBalance
  let sendAmount := otherWalletBalance * fromOtherToAssetScale - assetExchangeBalance
  if 0 < recvAmount then .recv recvAmount
  else if 0 < sendAmount then .send sendAmount
  else .none

/-- What the dealer holds. -/
structure Holdings where
  walletBitcoin : ℚ
  exchangeBitcoin : ℚ
  walletUsdt : ℚ
  exchangeUsdt : ℚ
deriving DecidableEq, Repr

/-- What a transfer is worth. -/
def balancingAmountUsdt (bitcoinUsdtPrice : ℚ) : AssetBalancing → ℚ
  | .none => 0
  | .recvBtc v => v * bitcoinUsdtPrice
  | .sendBtc v => v * bitcoinUsdtPrice
  | .recvUsdt v => v
  | .sendUsdt v => v

/-- `get_balancing`. -/
def getBalancing (b : Holdings) (bitcoinUsdtPrice : ℚ) : AssetBalancing :=
  if bitcoinUsdtPrice = 0 ∨ b.walletBitcoin = 0 ∨ b.exchangeBitcoin = 0 ∨ b.walletUsdt = 0 ∨
      b.exchangeUsdt = 0 then .none
  else
    let bitcoinTotal := b.walletBitcoin + b.exchangeBitcoin
    let usdtTotal := b.walletUsdt + b.exchangeUsdt
    let bitcoinSmaller := decide (bitcoinTotal * bitcoinUsdtPrice < usdtTotal)
    -- the smaller asset is balanced first
    let smallerBalancing :=
      if bitcoinSmaller then getBalancingSmaller b.walletBitcoin b.exchangeBitcoin ratioBtc
      else getBalancingSmaller b.walletUsdt b.exchangeUsdt ratioUsdt
    let balancing : AssetBalancing :=
      match smallerBalancing with
      | .recv amount => if bitcoinSmaller then .recvBtc amount else .recvUsdt amount
      | .send amount => if bitcoinSmaller then .sendBtc amount else .sendUsdt amount
      | .none =>
          let biggerBalancing :=
            if bitcoinSmaller then
              getBalancingBigger b.walletUsdt b.exchangeUsdt b.walletBitcoin b.exchangeBitcoin
                bitcoinUsdtPrice
            else
              getBalancingBigger b.walletBitcoin b.exchangeBitcoin b.walletUsdt b.exchangeUsdt
                (1 / bitcoinUsdtPrice)
          match biggerBalancing with
          | .recv amount => if bitcoinSmaller then .recvUsdt amount else .recvBtc amount
          | .send amount => if bitcoinSmaller then .sendUsdt amount else .sendBtc amount
          | .none => .none
    if balancingAmountUsdt bitcoinUsdtPrice balancing < minBalancingAmountUsdt then .none
    else balancing

/-! ## One rule for both assets -/

inductive HeldAsset where
  | bitcoin
  | usdt
deriving DecidableEq, Repr

def HeldAsset.other : HeldAsset → HeldAsset
  | .bitcoin => .usdt
  | .usdt => .bitcoin

def Holdings.wallet (b : Holdings) : HeldAsset → ℚ
  | .bitcoin => b.walletBitcoin
  | .usdt => b.walletUsdt

def Holdings.exchange (b : Holdings) : HeldAsset → ℚ
  | .bitcoin => b.exchangeBitcoin
  | .usdt => b.exchangeUsdt

def Holdings.total (b : Holdings) (asset : HeldAsset) : ℚ := b.wallet asset + b.exchange asset

/-- What a unit of an asset is worth in the other one. -/
def worth (bitcoinUsdtPrice : ℚ) : HeldAsset → ℚ
  | .bitcoin => bitcoinUsdtPrice
  | .usdt => 1 / bitcoinUsdtPrice

/-- The asset of smaller total value. -/
def Holdings.smaller (b : Holdings) (bitcoinUsdtPrice : ℚ) : HeldAsset :=
  if b.total .bitcoin * bitcoinUsdtPrice < b.total .usdt then .bitcoin else .usdt

/-- A transfer of a given asset. -/
def AssetBalancing.ofAsset : HeldAsset → Balancing → AssetBalancing
  | _, .none => .none
  | .bitcoin, .recv amount => .recvBtc amount
  | .bitcoin, .send amount => .sendBtc amount
  | .usdt, .recv amount => .recvUsdt amount
  | .usdt, .send amount => .sendUsdt amount

/-- What the first rule says of an asset. -/
def Holdings.balance (b : Holdings) (asset : HeldAsset) : Balancing :=
  getBalancingSmaller (b.wallet asset) (b.exchange asset) ratioBtc

/-- What the second rule says of an asset, when the other one is the smaller. -/
def Holdings.cover (b : Holdings) (bitcoinUsdtPrice : ℚ) (asset : HeldAsset) : Balancing :=
  getBalancingBigger (b.wallet asset) (b.exchange asset) (b.wallet asset.other)
    (b.exchange asset.other) (worth bitcoinUsdtPrice asset.other)

/-- What is proposed, whatever it is worth. -/
def Holdings.proposed (b : Holdings) (bitcoinUsdtPrice : ℚ) : AssetBalancing :=
  let asset := b.smaller bitcoinUsdtPrice
  match b.balance asset with
  | .none => .ofAsset asset.other (b.cover bitcoinUsdtPrice asset.other)
  | balancing => .ofAsset asset balancing

@[simp] theorem HeldAsset.other_other (asset : HeldAsset) : asset.other.other = asset := by
  cases asset with
  | bitcoin => rfl
  | usdt => rfl

/-- The second rule is asked when the first one is content. -/
theorem proposed_cases (b : Holdings) (price : ℚ) :
    b.balance (b.smaller price) = .none ∧
        b.proposed price = .ofAsset (b.smaller price).other (b.cover price (b.smaller price).other) ∨
      b.balance (b.smaller price) ≠ .none ∧
        b.proposed price = .ofAsset (b.smaller price) (b.balance (b.smaller price)) := by
  unfold Holdings.proposed
  cases hbalance : b.balance (b.smaller price) with
  | none =>
      simp only [hbalance]
      exact .inl ⟨trivial, trivial⟩
  | recv amount =>
      simp only [hbalance]
      exact .inr ⟨nofun, trivial⟩
  | send amount =>
      simp only [hbalance]
      exact .inr ⟨nofun, trivial⟩

/-- Nothing is proposed unless all four balances are held. -/
def Holdings.Held (b : Holdings) : Prop := ∀ asset, b.wallet asset ≠ 0 ∧ b.exchange asset ≠ 0

theorem getBalancing_of_held {b : Holdings} {price : ℚ} (hprice : price ≠ 0) (h : b.Held) :
    getBalancing b price =
      if balancingAmountUsdt price (b.proposed price) < minBalancingAmountUsdt then .none
      else b.proposed price := by
  have hbitcoin := h .bitcoin
  have husdt := h .usdt
  unfold getBalancing
  rw [if_neg (by
    rintro (h | h | h | h | h)
    · exact hprice h
    · exact hbitcoin.1 h
    · exact hbitcoin.2 h
    · exact husdt.1 h
    · exact husdt.2 h)]
  unfold Holdings.proposed Holdings.smaller
  by_cases hless : b.total .bitcoin * price < b.total .usdt
  · have hless' : (b.walletBitcoin + b.exchangeBitcoin) * price < b.walletUsdt + b.exchangeUsdt :=
      hless
    have hbalance : b.balance .bitcoin =
        getBalancingSmaller b.walletBitcoin b.exchangeBitcoin ratioBtc := rfl
    have hcover : b.cover price .usdt = getBalancingBigger b.walletUsdt b.exchangeUsdt
        b.walletBitcoin b.exchangeBitcoin price := rfl
    simp only [hless, hless', decide_true, if_true, HeldAsset.other, ← hbalance, ← hcover]
    cases b.balance .bitcoin with
    | none => cases b.cover price .usdt <;> rfl
    | recv amount => rfl
    | send amount => rfl
  · have hless' : ¬ (b.walletBitcoin + b.exchangeBitcoin) * price < b.walletUsdt + b.exchangeUsdt :=
      hless
    have hbalance : b.balance .usdt =
        getBalancingSmaller b.walletUsdt b.exchangeUsdt ratioUsdt := rfl
    have hcover : b.cover price .bitcoin = getBalancingBigger b.walletBitcoin b.exchangeBitcoin
        b.walletUsdt b.exchangeUsdt (1 / price) := rfl
    simp only [hless, hless', decide_false, Bool.false_eq_true, if_false, HeldAsset.other,
      ← hbalance, ← hcover]
    cases b.balance .usdt with
    | none => cases b.cover price .bitcoin <;> rfl
    | recv amount => rfl
    | send amount => rfl

/-- Nothing is proposed, or what the two rules propose, if it is worth it. -/
theorem getBalancing_cases (b : Holdings) (price : ℚ) :
    getBalancing b price = .none ∨
      b.Held ∧ getBalancing b price = b.proposed price ∧
        minBalancingAmountUsdt ≤ balancingAmountUsdt price (b.proposed price) := by
  by_cases hheld : price ≠ 0 ∧ b.Held
  · rw [getBalancing_of_held hheld.1 hheld.2]
    split
    · exact .inl rfl
    · next hworth => exact .inr ⟨hheld.2, rfl, not_lt.mp hworth⟩
  · refine .inl (if_pos ?_)
    by_contra hnot
    rw [not_or, not_or, not_or, not_or] at hnot
    obtain ⟨hprice, hwb, heb, hwu, heu⟩ := hnot
    refine hheld ⟨hprice, fun asset => ?_⟩
    cases asset with
    | bitcoin => exact ⟨hwb, heb⟩
    | usdt => exact ⟨hwu, heu⟩

theorem getBalancing_eq_none {b : Holdings} {price : ℚ} (h : b.proposed price = .none) :
    getBalancing b price = .none := by
  rcases getBalancing_cases b price with hnone | ⟨_, heq, _⟩
  · exact hnone
  · rw [heq, h]

/-! ## The first rule, in whole units -/

/-- Half the difference of two whole balances, as `diff` computes it. -/
theorem diff_eq {w e : Int} (hw : 0 < w) (he : 0 < e) :
    fromBitcoin (.fin |(ratioBtc.norm - toBitcoin w / (toBitcoin w + toBitcoin e)) *
      (toBitcoin w + toBitcoin e)|) = clamp ((|e - w| + 1) / 2) := by
  have hw' : (0 : ℚ) < w := by exact_mod_cast hw
  have he' : (0 : ℚ) < e := by exact_mod_cast he
  have hcoin : (0 : ℚ) < (coin : Int) := by
    unfold coin
    norm_num
  have hvalue : |(ratioBtc.norm - toBitcoin w / (toBitcoin w + toBitcoin e)) *
      (toBitcoin w + toBitcoin e)| * (coin : Int) = (|e - w| : Int) / (2 : Int) := by
    have hnorm : (ratioBtc.norm - toBitcoin w / (toBitcoin w + toBitcoin e)) *
        (toBitcoin w + toBitcoin e) = (e - w) / (2 * (coin : Int)) := by
      have hsum : toBitcoin w + toBitcoin e ≠ 0 := by
        unfold toBitcoin
        positivity
      have hhalf : ratioBtc.norm = 1 / 2 := rfl
      rw [hhalf, sub_mul, div_mul_cancel₀ _ hsum]
      unfold toBitcoin
      field_simp
      ring
    rw [hnorm, abs_div, abs_of_pos (mul_pos two_pos hcoin)]
    push_cast
    field_simp
  show (Double.fin (|(ratioBtc.norm - toBitcoin w / (toBitcoin w + toBitcoin e)) *
      (toBitcoin w + toBitcoin e)| * (coin : Int))).roundI64 = _
  rw [hvalue, roundI64_fin, round_half (abs_nonneg _)]

/-- The first rule on whole balances. -/
theorem getBalancingSmaller_whole {w e : Int} (hw : 0 < w) (he : 0 < e) :
    getBalancingSmaller (toBitcoin w) (toBitcoin e) ratioBtc =
      if 3 * w < e then .recv (toBitcoin (clamp ((e - w + 1) / 2)))
      else if 3 * e < w then .send (toBitcoin (clamp ((w - e + 1) / 2)))
      else .none := by
  have hw' : (0 : ℚ) < w := by exact_mod_cast hw
  have he' : (0 : ℚ) < e := by exact_mod_cast he
  have hsum : (0 : ℚ) < w + e := by linarith
  have hcoin : (0 : ℚ) < (coin : Int) := by
    unfold coin
    norm_num
  have hratio : toBitcoin w / (toBitcoin w + toBitcoin e) = w / (w + e) := by
    unfold toBitcoin
    field_simp
  have hlow : toBitcoin w / (toBitcoin w + toBitcoin e) < ratioBtc.min ↔ 3 * w < e := by
    rw [hratio, div_lt_iff₀ hsum, ← Int.cast_lt (R := ℚ)]
    show (w : ℚ) < 1 / 4 * (w + e) ↔ _
    push_cast
    constructor <;> intro h <;> linarith
  have hhigh : ratioBtc.max < toBitcoin w / (toBitcoin w + toBitcoin e) ↔ 3 * e < w := by
    rw [hratio, lt_div_iff₀ hsum, ← Int.cast_lt (R := ℚ)]
    show 3 / 4 * ((w : ℚ) + e) < w ↔ _
    push_cast
    constructor <;> intro h <;> linarith
  have hnonzero : ¬ (toBitcoin w = 0 ∨ toBitcoin e = 0) := by
    rintro (h | h)
    · exact (toBitcoin_pos.mpr hw).ne' h
    · exact (toBitcoin_pos.mpr he).ne' h
  unfold getBalancingSmaller
  rw [if_neg hnonzero]
  simp only [diff_eq hw he, hlow, hhigh]
  split
  · next hless => rw [abs_of_pos (by omega)]
  · split
    · next hmore => rw [abs_of_neg (by omega), neg_sub]
    · rfl

/-! ## Affordable -/

/-- A number of satoshis. -/
def Whole (amount : ℚ) : Prop := ∃ n : Int, amount = toBitcoin n

/-- What a transfer takes is positive, and there. -/
def AssetBalancing.Affordable (b : Holdings) : AssetBalancing → Prop
  | .none => True
  | .recvBtc amount => 0 < amount ∧ amount ≤ b.exchangeBitcoin
  | .sendBtc amount => 0 < amount ∧ amount ≤ b.walletBitcoin
  | .recvUsdt amount => 0 < amount ∧ amount ≤ b.exchangeUsdt
  | .sendUsdt amount => 0 < amount ∧ amount ≤ b.walletUsdt

/-- The same by the asset. -/
def Balancing.CoveredBy (wallet exchange : ℚ) : Balancing → Prop
  | .none => True
  | .recv amount => amount ≤ exchange
  | .send amount => amount ≤ wallet

theorem affordable_ofAsset {b : Holdings} {price : ℚ} {asset : HeldAsset} {bal : Balancing}
    (hprice : 0 < price) (hcovered : bal.CoveredBy (b.wallet asset) (b.exchange asset))
    (hworth : minBalancingAmountUsdt ≤ balancingAmountUsdt price (.ofAsset asset bal)) :
    (AssetBalancing.ofAsset asset bal).Affordable b := by
  have hpos : 0 < balancingAmountUsdt price (.ofAsset asset bal) :=
    lt_of_lt_of_le (by unfold minBalancingAmountUsdt; norm_num) hworth
  cases asset with
  | bitcoin =>
      cases bal with
      | none => trivial
      | recv amount => exact ⟨(mul_pos_iff_of_pos_right hprice).mp hpos, hcovered⟩
      | send amount => exact ⟨(mul_pos_iff_of_pos_right hprice).mp hpos, hcovered⟩
  | usdt =>
      cases bal with
      | none => trivial
      | recv amount => exact ⟨hpos, hcovered⟩
      | send amount => exact ⟨hpos, hcovered⟩

/-- The first rule moves half the difference, which the richer side has. -/
theorem balance_coveredBy {b : Holdings} {asset : HeldAsset} {w e : Int}
    (hwallet : b.wallet asset = toBitcoin w) (hexchange : b.exchange asset = toBitcoin e)
    (hw : 0 ≤ w) (he : 0 ≤ e) :
    (b.balance asset).CoveredBy (b.wallet asset) (b.exchange asset) := by
  unfold Holdings.balance
  rw [hwallet, hexchange]
  rcases hw.eq_or_lt with rfl | hw
  · have hnone : getBalancingSmaller (toBitcoin 0) (toBitcoin e) ratioBtc = .none :=
      if_pos (.inl toBitcoin_zero)
    rw [hnone]
    trivial
  · rcases he.eq_or_lt with rfl | he
    · have hnone : getBalancingSmaller (toBitcoin w) (toBitcoin 0) ratioBtc = .none :=
        if_pos (.inr toBitcoin_zero)
      rw [hnone]
      trivial
    · rw [getBalancingSmaller_whole hw he]
      split
      · refine toBitcoin_le_iff.mpr ?_
        unfold clamp
        omega
      · split
        · refine toBitcoin_le_iff.mpr ?_
          unfold clamp
          omega
        · trivial

/-- The smaller asset is worth no more than the other one. -/
theorem smaller_le {b : Holdings} {price : ℚ} (hprice : 0 < price) :
    b.total (b.smaller price) * worth price (b.smaller price) ≤
      b.total (b.smaller price).other := by
  unfold Holdings.smaller
  split
  · next hless => exact hless.le
  · next hmore =>
      show b.total .usdt * (1 / price) ≤ b.total .bitcoin
      rw [mul_one_div, div_le_iff₀ hprice]
      exact not_lt.mp hmore

theorem worth_pos {price : ℚ} (hprice : 0 < price) (asset : HeldAsset) : 0 < worth price asset := by
  cases asset with
  | bitcoin => exact hprice
  | usdt => exact one_div_pos.mpr hprice

/-- The second rule asks one side for what the two sides together can pay. -/
theorem cover_coveredBy {b : Holdings} {price : ℚ} {asset : HeldAsset} (hprice : 0 < price)
    (hwallet : 0 ≤ b.wallet asset.other) (hexchange : 0 ≤ b.exchange asset.other)
    (htotal : b.total asset.other * worth price asset.other ≤ b.total asset) :
    (b.cover price asset).CoveredBy (b.wallet asset) (b.exchange asset) := by
  have hworth := worth_pos hprice asset.other
  have hw := mul_nonneg hwallet hworth.le
  have he := mul_nonneg hexchange hworth.le
  unfold Holdings.total at htotal
  rw [add_mul] at htotal
  unfold Holdings.cover getBalancingBigger
  dsimp only
  split
  · show _ ≤ b.exchange asset
    linarith
  · split
    · show _ ≤ b.wallet asset
      linarith
    · trivial

/-- **AFFORDABLE**: a proposed transfer takes a positive amount from a balance
    that has it. -/
theorem proposed_transfer_affordable {b : Holdings} {price : ℚ} (hprice : 0 < price)
    (hwallet : ∀ asset, 0 ≤ b.wallet asset ∧ Whole (b.wallet asset))
    (hexchange : ∀ asset, 0 ≤ b.exchange asset ∧ Whole (b.exchange asset)) :
    (getBalancing b price).Affordable b := by
  rcases getBalancing_cases b price with hnone | ⟨_, heq, hworth⟩
  · rw [hnone]
    trivial
  · rw [heq]
    rcases proposed_cases b price with ⟨_, hproposed⟩ | ⟨_, hproposed⟩
    · rw [hproposed] at hworth ⊢
      have htotal := smaller_le (b := b) hprice
      refine affordable_ofAsset hprice (cover_coveredBy hprice ?_ ?_ ?_) hworth
      · exact (hwallet _).1
      · exact (hexchange _).1
      · rw [HeldAsset.other_other]
        exact htotal
    · rw [hproposed] at hworth ⊢
      obtain ⟨w, hw⟩ := (hwallet (b.smaller price)).2
      obtain ⟨e, he⟩ := (hexchange (b.smaller price)).2
      refine affordable_ofAsset hprice (balance_coveredBy hw he ?_ ?_) hworth
      · exact toBitcoin_nonneg.mp (hw ▸ (hwallet _).1)
      · exact toBitcoin_nonneg.mp (he ▸ (hexchange _).1)

/-- Three tenths of a bitcoin are brought back from the exchange. -/
theorem bitcoin_transfer_affordable :
    getBalancing ⟨1 / 5, 4 / 5, 27500, 27500⟩ 50000 = .recvBtc (3 / 10) ∧
      (getBalancing ⟨1 / 5, 4 / 5, 27500, 27500⟩ 50000).Affordable ⟨1 / 5, 4 / 5, 27500, 27500⟩ := by
  refine ⟨by decide +kernel, proposed_transfer_affordable (by norm_num) ?_ ?_⟩
  · intro asset
    cases asset with
    | bitcoin => exact ⟨by decide +kernel, 20000000, by decide +kernel⟩
    | usdt => exact ⟨by decide +kernel, 2750000000000, by decide +kernel⟩
  · intro asset
    cases asset with
    | bitcoin => exact ⟨by decide +kernel, 80000000, by decide +kernel⟩
    | usdt => exact ⟨by decide +kernel, 2750000000000, by decide +kernel⟩

/-! ## Transfers one after another -/

/-- The holdings after a transfer. -/
def Holdings.move (b : Holdings) : AssetBalancing → Holdings
  | .none => b
  | .recvBtc v =>
      { b with walletBitcoin := b.walletBitcoin + v, exchangeBitcoin := b.exchangeBitcoin - v }
  | .sendBtc v =>
      { b with walletBitcoin := b.walletBitcoin - v, exchangeBitcoin := b.exchangeBitcoin + v }
  | .recvUsdt v => { b with walletUsdt := b.walletUsdt + v, exchangeUsdt := b.exchangeUsdt - v }
  | .sendUsdt v => { b with walletUsdt := b.walletUsdt - v, exchangeUsdt := b.exchangeUsdt + v }

/-- The proposed transfer is made. -/
def rebalance (price : ℚ) (b : Holdings) : Holdings := b.move (getBalancing b price)

/-- What a transfer adds to the wallet. -/
def Balancing.gain : Balancing → ℚ
  | .none => 0
  | .recv amount => amount
  | .send amount => -amount

section Move

variable (b : Holdings) (asset : HeldAsset) (bal : Balancing)

@[simp] theorem move_wallet :
    (b.move (.ofAsset asset bal)).wallet asset = b.wallet asset + bal.gain := by
  cases asset <;> cases bal <;> simp [AssetBalancing.ofAsset, Holdings.move, Holdings.wallet,
    Balancing.gain, sub_eq_add_neg]

@[simp] theorem move_exchange :
    (b.move (.ofAsset asset bal)).exchange asset = b.exchange asset - bal.gain := by
  cases asset <;> cases bal <;> simp [AssetBalancing.ofAsset, Holdings.move, Holdings.exchange,
    Balancing.gain]

@[simp] theorem move_wallet_other :
    (b.move (.ofAsset asset bal)).wallet asset.other = b.wallet asset.other := by
  cases asset <;> cases bal <;> rfl

@[simp] theorem move_exchange_other :
    (b.move (.ofAsset asset bal)).exchange asset.other = b.exchange asset.other := by
  cases asset <;> cases bal <;> rfl

theorem move_total (a : HeldAsset) : (b.move (.ofAsset asset bal)).total a = b.total a := by
  unfold Holdings.total
  rcases eq_or_ne a asset with rfl | hne
  · rw [move_wallet, move_exchange]
    ring
  · obtain rfl : a = asset.other := by
      cases a <;> cases asset <;> first | rfl | exact absurd rfl hne
    rw [move_wallet_other, move_exchange_other]

theorem move_smaller (price : ℚ) :
    (b.move (.ofAsset asset bal)).smaller price = b.smaller price := by
  unfold Holdings.smaller
  rw [move_total, move_total]

theorem move_balance_other :
    (b.move (.ofAsset asset bal)).balance asset.other = b.balance asset.other := by
  rw [Holdings.balance, Holdings.balance, move_wallet_other, move_exchange_other]

end Move

/-! ## What a transfer leaves to do -/

/-- The second rule is content with what it has proposed. -/
theorem getBalancingBigger_again {w e ow oe scale : ℚ} (h : (ow + oe) * scale ≤ w + e) :
    getBalancingBigger (w + (getBalancingBigger w e ow oe scale).gain)
      (e - (getBalancingBigger w e ow oe scale).gain) ow oe scale = .none := by
  have hnone : ∀ {w e : ℚ}, oe * scale ≤ w → ow * scale ≤ e →
      getBalancingBigger w e ow oe scale = .none := by
    intro w e hw he
    unfold getBalancingBigger
    dsimp only
    rw [if_neg (by linarith), if_neg (by linarith)]
  rw [add_mul] at h
  by_cases hrecv : 0 < oe * scale - w
  · have hbal : getBalancingBigger w e ow oe scale = .recv (oe * scale - w) := if_pos hrecv
    rw [hbal]
    -- the other side had more than enough for both
    exact hnone (by rw [Balancing.gain]; linarith) (by rw [Balancing.gain]; linarith)
  · by_cases hsend : 0 < ow * scale - e
    · have hbal : getBalancingBigger w e ow oe scale = .send (ow * scale - e) :=
        (if_neg hrecv).trans (if_pos hsend)
      rw [hbal]
      exact hnone (by rw [Balancing.gain]; linarith) (by rw [Balancing.gain]; linarith)
    · have hbal : getBalancingBigger w e ow oe scale = .none :=
        (if_neg hrecv).trans (if_neg hsend)
      rw [hbal]
      exact hnone (by rw [Balancing.gain]; linarith) (by rw [Balancing.gain]; linarith)

theorem cover_move {b : Holdings} {price : ℚ} {asset : HeldAsset}
    (htotal : b.total asset.other * worth price asset.other ≤ b.total asset) :
    (b.move (.ofAsset asset (b.cover price asset))).cover price asset = .none := by
  rw [Holdings.cover, move_wallet, move_exchange, move_wallet_other, move_exchange_other]
  exact getBalancingBigger_again htotal

/-- The largest number of satoshis an `Amount` can hold. -/
def maxAmount : Int := 2 ^ 63 - 1

/-- How many satoshis the first rule moves into the wallet. -/
theorem balance_gain {b : Holdings} {asset : HeldAsset} {w e : Int} (hw : 0 < w) (he : 0 < e)
    (hwallet : b.wallet asset = toBitcoin w) (hexchange : b.exchange asset = toBitcoin e)
    (hbal : b.balance asset ≠ .none) :
    3 * w < e ∧ (b.balance asset).gain = toBitcoin (min ((e - w + 1) / 2) maxAmount) ∨
      3 * e < w ∧ (b.balance asset).gain = toBitcoin (-min ((w - e + 1) / 2) maxAmount) := by
  have hrule : b.balance asset = getBalancingSmaller (toBitcoin w) (toBitcoin e) ratioBtc := by
    rw [Holdings.balance, hwallet, hexchange]
  rw [getBalancingSmaller_whole hw he] at hrule
  have hclamp : ∀ x : Int, 0 ≤ x → clamp x = min x maxAmount := by
    intro x hx
    unfold clamp maxAmount
    omega
  split at hrule
  · next hless =>
      refine .inl ⟨hless, ?_⟩
      rw [hrule, Balancing.gain, hclamp _ (by omega)]
  · split at hrule
    · next hmore =>
        refine .inr ⟨hmore, ?_⟩
        rw [hrule, Balancing.gain, hclamp _ (by omega), ← zero_sub (toBitcoin _), ← toBitcoin_zero,
          toBitcoin_sub, zero_sub]
    · exact absurd hrule hbal

/-- What a transfer of the smaller asset does to whole balances: it leaves the
    first rule nothing to do, or it is as large as a transfer can be and the
    same side is still short. -/
theorem balance_move {b : Holdings} {asset : HeldAsset} {w e : Int} (hw : 0 < w) (he : 0 < e)
    (hwallet : b.wallet asset = toBitcoin w) (hexchange : b.exchange asset = toBitcoin e)
    (hbal : b.balance asset ≠ .none) :
    ∃ w' e' : Int, 0 < w' ∧ 0 < e' ∧
      (b.move (.ofAsset asset (b.balance asset))).wallet asset = toBitcoin w' ∧
      (b.move (.ofAsset asset (b.balance asset))).exchange asset = toBitcoin e' ∧
      ((b.move (.ofAsset asset (b.balance asset))).balance asset = .none ∨
        |e' - w'| = |e - w| - 2 * maxAmount ∧ (w' ≤ e' ↔ w ≤ e)) := by
  obtain ⟨c, hgain, hmoved⟩ : ∃ c, (b.balance asset).gain = toBitcoin c ∧
      (3 * w < e ∧ c = min ((e - w + 1) / 2) maxAmount ∨
        3 * e < w ∧ c = -min ((w - e + 1) / 2) maxAmount) := by
    rcases balance_gain hw he hwallet hexchange hbal with ⟨hless, hgain⟩ | ⟨hmore, hgain⟩
    · exact ⟨_, hgain, .inl ⟨hless, rfl⟩⟩
    · exact ⟨_, hgain, .inr ⟨hmore, rfl⟩⟩
  have hw' : 0 < w + c := by
    unfold maxAmount at hmoved
    omega
  have he' : 0 < e - c := by
    unfold maxAmount at hmoved
    omega
  have hwallet' : (b.move (.ofAsset asset (b.balance asset))).wallet asset = toBitcoin (w + c) := by
    rw [move_wallet, hwallet, hgain, toBitcoin_add]
  have hexchange' : (b.move (.ofAsset asset (b.balance asset))).exchange asset =
      toBitcoin (e - c) := by
    rw [move_exchange, hexchange, hgain, toBitcoin_sub]
  refine ⟨w + c, e - c, hw', he', hwallet', hexchange', ?_⟩
  by_cases hhalf : |e - (w + c) - c| ≤ 1
  · -- half of the difference was moved
    left
    rw [Holdings.balance, hwallet', hexchange', getBalancingSmaller_whole hw' he']
    rw [abs_le] at hhalf
    rw [if_neg (by omega), if_neg (by omega)]
  · right
    rw [abs_le] at hhalf
    unfold maxAmount at hmoved ⊢
    rcases hmoved with ⟨hless, hc⟩ | ⟨hmore, hc⟩
    · rw [abs_of_pos (by omega), abs_of_pos (by omega)]
      omega
    · rw [abs_of_neg (by omega), abs_of_neg (by omega)]
      omega

/-! ## Convergence -/

/-- Every transfer of an asset goes the way that is given for it. -/
def AssetBalancing.Along (toWallet : HeldAsset → Bool) : AssetBalancing → Prop
  | .none => True
  | .recvBtc _ => toWallet .bitcoin = true
  | .sendBtc _ => toWallet .bitcoin = false
  | .recvUsdt _ => toWallet .usdt = true
  | .sendUsdt _ => toWallet .usdt = false

/-- Nothing is proposed after `n` transfers at most, and no asset is moved to
    and fro. -/
structure Converges (price : ℚ) (n : Nat) (toWallet : HeldAsset → Bool) (b : Holdings) : Prop where
  ends : ∃ k ≤ n, getBalancing ((rebalance price)^[k] b) price = .none
  along : ∀ k, (getBalancing ((rebalance price)^[k] b) price).Along toWallet

theorem Converges.of_none {price : ℚ} {n : Nat} {toWallet : HeldAsset → Bool} {b : Holdings}
    (h : getBalancing b price = .none) : Converges price n toWallet b := by
  have hsame : ∀ k, (rebalance price)^[k] b = b := by
    intro k
    refine Function.iterate_fixed ?_ k
    rw [rebalance, h]
    rfl
  refine ⟨⟨0, Nat.zero_le n, h⟩, fun k => ?_⟩
  rw [hsame, h]
  trivial

theorem Converges.step {price : ℚ} {n : Nat} {toWallet : HeldAsset → Bool} {b : Holdings}
    (hfirst : (getBalancing b price).Along toWallet)
    (h : Converges price n toWallet (rebalance price b)) : Converges price (n + 1) toWallet b := by
  obtain ⟨k, hk, hnone⟩ := h.ends
  refine ⟨⟨k + 1, Nat.succ_le_succ hk, hnone⟩, fun k => ?_⟩
  cases k with
  | zero => exact hfirst
  | succ k => exact h.along k

theorem Converges.mono {price : ℚ} {m n : Nat} {toWallet : HeldAsset → Bool} {b : Holdings}
    (h : Converges price m toWallet b) (hle : m ≤ n) : Converges price n toWallet b := by
  obtain ⟨k, hk, hnone⟩ := h.ends
  exact ⟨⟨k, hk.trans hle, hnone⟩, h.along⟩

/-- The way a transfer goes. -/
def Balancing.toWallet : Balancing → Bool
  | .none => true
  | .recv _ => true
  | .send _ => false

/-- The ways of the smaller asset and of the other one. -/
def ways (smaller : HeldAsset) (way otherWay : Bool) (asset : HeldAsset) : Bool :=
  if asset = smaller then way else otherWay

theorem along_ofAsset {asset : HeldAsset} {bal : Balancing} {toWallet : HeldAsset → Bool}
    (h : bal ≠ .none → toWallet asset = bal.toWallet) :
    (AssetBalancing.ofAsset asset bal).Along toWallet := by
  cases asset <;> cases bal <;> first | trivial | exact h nofun

/-- After a transfer of the bigger asset nothing is proposed. -/
theorem proposed_move_bigger {b : Holdings} {price : ℚ} (hprice : 0 < price)
    (hbal : b.balance (b.smaller price) = .none) :
    (b.move (.ofAsset (b.smaller price).other
      (b.cover price (b.smaller price).other))).proposed price = .none := by
  have htotal := smaller_le (b := b) hprice
  generalize hmoved : b.move (.ofAsset (b.smaller price).other
    (b.cover price (b.smaller price).other)) = b'
  have hsmaller : b'.smaller price = b.smaller price := by
    rw [← hmoved]
    exact move_smaller _ _ _ _
  have hbal' : b'.balance (b'.smaller price) = .none := by
    have hother := move_balance_other b (b.smaller price).other
      (b.cover price (b.smaller price).other)
    rw [HeldAsset.other_other, hmoved, hbal] at hother
    rw [hsmaller, hother]
  have hcover : b'.cover price (b.smaller price).other = .none := by
    rw [← hmoved]
    refine cover_move ?_
    rw [HeldAsset.other_other]
    exact htotal
  rcases proposed_cases b' price with ⟨_, hproposed⟩ | ⟨hne, _⟩
  · rw [hproposed, hsmaller, hcover]
    cases (b.smaller price).other with
    | bitcoin => rfl
    | usdt => rfl
  · exact absurd hbal' hne

/-- When the first rule is content, one transfer of the other asset is left. -/
theorem converges_of_balanced {b : Holdings} {price : ℚ} (hprice : 0 < price)
    (hbal : b.balance (b.smaller price) = .none) (way : Bool) :
    ∃ otherWay, Converges price 1 (ways (b.smaller price) way otherWay) b := by
  refine ⟨(b.cover price (b.smaller price).other).toWallet, ?_⟩
  rcases getBalancing_cases b price with hnone | ⟨_, heq, _⟩
  · exact .of_none hnone
  · rcases proposed_cases b price with ⟨_, hproposed⟩ | ⟨hne, _⟩
    · rw [hproposed] at heq
      refine .step ?_ (.of_none (getBalancing_eq_none ?_))
      · rw [heq]
        refine along_ofAsset fun _ => if_neg ?_
        cases b.smaller price <;> decide
      · rw [rebalance, heq]
        exact proposed_move_bigger hprice hbal
    · exact absurd hbal hne

/-- The first rule moves an asset to the side that has less. -/
theorem balance_toWallet {b : Holdings} {asset : HeldAsset} {w e : Int} (hw : 0 < w) (he : 0 < e)
    (hwallet : b.wallet asset = toBitcoin w) (hexchange : b.exchange asset = toBitcoin e)
    (hbal : b.balance asset ≠ .none) : decide (w ≤ e) = (b.balance asset).toWallet := by
  have hrule : b.balance asset = getBalancingSmaller (toBitcoin w) (toBitcoin e) ratioBtc := by
    rw [Holdings.balance, hwallet, hexchange]
  rw [getBalancingSmaller_whole hw he] at hrule
  split at hrule
  · rw [hrule]
    exact decide_eq_true (by omega)
  · split at hrule
    · rw [hrule]
      exact decide_eq_false (by omega)
    · exact absurd hrule hbal

/-- **CONVERGENCE** of whole balances: by induction on the number of transfers
    of full size that the smaller asset needs. -/
theorem converges_of_whole {price : ℚ} (hprice : 0 < price) :
    ∀ (n : Nat) {b : Holdings} {w e : Int}, 0 < w → 0 < e →
      b.wallet (b.smaller price) = toBitcoin w → b.exchange (b.smaller price) = toBitcoin e →
      |e - w| ≤ 2 * (n * maxAmount) →
      ∃ otherWay, Converges price (1 + n) (ways (b.smaller price) (decide (w ≤ e)) otherWay) b := by
  intro n
  induction n with
  | zero =>
      intro b w e hw he hwallet hexchange hgap
      have hsame : e = w := by
        rw [Nat.cast_zero, zero_mul, mul_zero, abs_nonpos_iff] at hgap
        omega
      refine converges_of_balanced hprice ?_ _
      rw [Holdings.balance, hwallet, hexchange, getBalancingSmaller_whole hw he,
        if_neg (by omega), if_neg (by omega)]
  | succ n ih =>
      intro b w e hw he hwallet hexchange hgap
      by_cases hbal : b.balance (b.smaller price) = .none
      · obtain ⟨otherWay, h⟩ := converges_of_balanced hprice hbal (decide (w ≤ e))
        exact ⟨otherWay, h.mono (by omega)⟩
      · rcases getBalancing_cases b price with hnone | ⟨_, heq, _⟩
        · exact ⟨true, .of_none hnone⟩
        · rcases proposed_cases b price with ⟨hnone, _⟩ | ⟨_, hproposed⟩
          · exact absurd hnone hbal
          · rw [hproposed] at heq
            obtain ⟨w', e', hw', he', hwallet', hexchange', hleft⟩ :=
              balance_move hw he hwallet hexchange hbal
            have hnext : rebalance price b =
                b.move (.ofAsset (b.smaller price) (b.balance (b.smaller price))) := by
              rw [rebalance, heq]
            rw [← hnext] at hwallet' hexchange' hleft
            have hsmaller : (rebalance price b).smaller price = b.smaller price := by
              rw [hnext]
              exact move_smaller _ _ _ _
            have hfirst : ∀ otherWay, (getBalancing b price).Along
                (ways (b.smaller price) (decide (w ≤ e)) otherWay) := by
              intro otherWay
              rw [heq]
              refine along_ofAsset fun _ => (if_pos rfl).trans ?_
              exact balance_toWallet hw he hwallet hexchange hbal
            rcases hleft with hdone | ⟨hgap', hway⟩
            · rw [← hsmaller] at hdone
              obtain ⟨otherWay, h⟩ := converges_of_balanced hprice hdone (decide (w ≤ e))
              rw [hsmaller] at h
              exact ⟨otherWay, (Converges.step (hfirst otherWay) h).mono (by omega)⟩
            · -- a transfer of full size, and the same side is still short
              rw [← hsmaller] at hwallet' hexchange'
              obtain ⟨otherWay, h⟩ := ih hw' he' hwallet' hexchange' (by
                rw [hgap']
                push_cast at hgap
                linarith)
              rw [hsmaller, decide_eq_decide.mpr hway] at h
              exact ⟨otherWay, Converges.step (hfirst otherWay) h⟩

/-- Half the difference between the two balances of the smaller asset, in
    transfers of full size. -/
def Holdings.fullTransfers (b : Holdings) (price : ℚ) : Nat :=
  ⌈|b.exchange (b.smaller price) - b.wallet (b.smaller price)| / 2 / toBitcoin maxAmount⌉₊

theorem fullTransfers_le_iff {b : Holdings} {price : ℚ} {w e : Int} {n : Nat}
    (hwallet : b.wallet (b.smaller price) = toBitcoin w)
    (hexchange : b.exchange (b.smaller price) = toBitcoin e) :
    b.fullTransfers price ≤ n ↔ |e - w| ≤ 2 * (n * maxAmount) := by
  have hmax : (0 : ℚ) < maxAmount := by
    unfold maxAmount
    norm_num
  have hcoin : (0 : ℚ) < (coin : Int) := by
    unfold coin
    norm_num
  have hvalue : |toBitcoin e - toBitcoin w| / 2 / toBitcoin maxAmount =
      (|e - w| : Int) / (2 * (maxAmount : Int)) := by
    rw [toBitcoin_sub]
    unfold toBitcoin
    rw [abs_div, abs_of_pos hcoin]
    push_cast
    field_simp
  unfold Holdings.fullTransfers
  rw [hwallet, hexchange, hvalue, Nat.ceil_le, div_le_iff₀ (by linarith),
    ← Int.cast_le (R := ℚ)]
  push_cast
  constructor <;> intro h <;> linarith

/-- **BALANCING CONVERGES**: from positive whole balances, after the transfers
    the smaller asset needs and one more nothing is proposed any more, and
    neither asset is moved to and fro.  One transfer of the smaller asset is
    enough when half the difference of its balances is an `Amount`. -/
theorem balancing_converges {b : Holdings} {price : ℚ} (hprice : 0 < price)
    (hwallet : ∀ asset, 0 < b.wallet asset ∧ Whole (b.wallet asset))
    (hexchange : ∀ asset, 0 < b.exchange asset ∧ Whole (b.exchange asset)) :
    (∃ toWallet, Converges price (1 + b.fullTransfers price) toWallet b) ∧
      (|b.exchange (b.smaller price) - b.wallet (b.smaller price)| / 2 ≤ toBitcoin maxAmount →
        1 + b.fullTransfers price ≤ 2) := by
  obtain ⟨hwpos, w, hw⟩ := hwallet (b.smaller price)
  obtain ⟨hepos, e, he⟩ := hexchange (b.smaller price)
  rw [hw, toBitcoin_pos] at hwpos
  rw [he, toBitcoin_pos] at hepos
  constructor
  · obtain ⟨otherWay, h⟩ := converges_of_whole hprice (b.fullTransfers price) hwpos hepos hw he
      ((fullTransfers_le_iff hw he).mp le_rfl)
    exact ⟨_, h⟩
  · intro hhalf
    have hmax : 0 < toBitcoin maxAmount := toBitcoin_pos.mpr (by decide)
    have hone : b.fullTransfers price ≤ 1 := by
      unfold Holdings.fullTransfers
      rw [Nat.ceil_le, Nat.cast_one]
      exact (div_le_one hmax).mpr hhalf
    omega

/-- Two transfers: bitcoins to the wallet, then USDt to the exchange. -/
theorem two_transfers_converge :
    ∃ toWallet, Converges 50000 2 toWallet ⟨1 / 5, 4 / 5, 45000, 15000⟩ := by
  obtain ⟨⟨toWallet, h⟩, htwo⟩ := @balancing_converges ⟨1 / 5, 4 / 5, 45000, 15000⟩ 50000
    (by norm_num)
    (fun asset => by
      cases asset with
      | bitcoin => exact ⟨by decide +kernel, 20000000, by decide +kernel⟩
      | usdt => exact ⟨by decide +kernel, 4500000000000, by decide +kernel⟩)
    (fun asset => by
      cases asset with
      | bitcoin => exact ⟨by decide +kernel, 80000000, by decide +kernel⟩
      | usdt => exact ⟨by decide +kernel, 1500000000000, by decide +kernel⟩)
  exact ⟨toWallet, h.mono (htwo (by decide +kernel))⟩

/-- A million million USDt on the exchange need three transfers. -/
theorem three_transfers_needed :
    ¬ ∃ k, k ≤ 2 ∧ getBalancing ((rebalance 10000)^[k]
      ⟨100000000, 100000000, 1, 1000000000000⟩) 10000 = .none := by
  decide +kernel

end Dealer
