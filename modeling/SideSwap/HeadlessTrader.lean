import SideSwap.ClientMessages
import SideSwap.History
import SideSwap.Transition

/-! # The headless trader

    `sideswap_headless_trader` runs the wallet client without a user.  It offers
    the assets of its settings, each at a price in bitcoins or at a price in
    dollars that follows the index, and signs for whoever takes an order.

    The client reports in any order and at any time.  After each report every
    asset is attended to: it may be offered once more, and the prices of its
    orders may be edited. -/

namespace HeadlessTrader

open Api Pricing Transition History
open Std (TreeMap)
open Client (Text AccountId toText fromStr fromStr_toText)

/-! ## Settings -/

/-- `SellAsset`. -/
structure SellAsset where
  assetId : AssetId
  priceUsdt : Option Double
  priceLbtc : Option Double
  ampAsset : Option Bool
  assetPrecision : Nat
  offerAmount : Option Double
  isPrivate : Option Bool
  count : Option Nat
  ttl : Option Nat
deriving DecidableEq

/-- `Args`, with the asset of the dollar index and the time of the start. -/
structure Args where
  usdtAssetId : AssetId
  mnemonic : String
  sellAssets : List SellAsset
  startedAt : Nat

/-- Settings that `main` does not reject. -/
structure Settings extends Args where
  /-- `price_usdt or price_lbtc must be set` -/
  onePrice : ∀ asset ∈ sellAssets, asset.priceUsdt.isSome ≠ asset.priceLbtc.isSome
  /-- `Duplicated asset_id are not allowed` -/
  distinct : (sellAssets.map (·.assetId)).Nodup

/-- The two checks of `main`. -/
def Args.check (args : Args) : Option Settings :=
  if h : (∀ asset ∈ args.sellAssets, asset.priceUsdt.isSome ≠ asset.priceLbtc.isSome) ∧
      (args.sellAssets.map (·.assetId)).Nodup then
    some ⟨args, h.1, h.2⟩
  else none

/-- `account_id`. -/
def SellAsset.accountId (asset : SellAsset) : AccountId :=
  if asset.ampAsset.getD false then Client.accountIdAmp else Client.accountIdReg

/-- `order_amount`. -/
def SellAsset.orderAmount (asset : SellAsset) : Double := asset.offerAmount.getD (.fin 1)

/-- `expected_count`. -/
def SellAsset.expectedCount (asset : SellAsset) : Nat := asset.count.getD 1

/-- The price of an asset in bitcoins, if it is known. -/
def SellAsset.price (asset : SellAsset) (usdtIndexPrice : Option Double) : Option Double :=
  match asset.priceLbtc, asset.priceUsdt, usdtIndexPrice with
  | some priceLbtc, _, _ => some priceLbtc
  | _, some priceUsdt, some usdtIndexPrice => some (priceUsdt.quot usdtIndexPrice)
  | _, _, _ => none

/-! ## Messages -/

/-- `proto::Balance`. -/
structure Balance where
  assetId : Text
  amount : Int
deriving DecidableEq

/-- `proto::Order`, with the fields that the trader reads. -/
structure Order where
  orderId : Text
  assetId : Text
  price : Double
  autoSign : Bool
deriving DecidableEq

/-- `to::SubmitOrder`. -/
structure SubmitOrder where
  account : AccountId
  assetId : Text
  bitcoinAmount : Option Double
  assetAmount : Option Double
  price : Double
  indexPrice : Option Double
deriving DecidableEq

/-- What the client reports; the trader only logs that an order is complete, as `other`. -/
inductive FromMsg where
  | serverConnected
  | serverDisconnected
  | balanceUpdate (account : AccountId) (balances : List Balance)
  | newAsset (assetId : Text) (precision : Nat)
  | indexPrice (assetId : Text) (ind : Option Double)
  | submitReview (orderId : Text) (asset : Text)
  | orderCreated (order : Order)
  | orderRemoved (orderId : Text)
  | other
deriving DecidableEq

/-- What the trader tells the client. -/
inductive ToMsg where
  | login (req : Client.Login)
  | subscribePrice (assetId : Text)
  | submitDecision (req : Client.SubmitDecision)
  | cancelOrder (orderId : Text)
  | submitOrder (req : SubmitOrder)
  | editOrder (orderId : Text) (price : Double)
deriving DecidableEq

/-- `-x`. -/
def negated : Double → Double
  | .fin q => .fin (-q)
  | .inf negative => .inf !negative
  | .nan => .nan

/-! ## The trader -/

/-- `SellAssetData`; times are nanoseconds, and the account is that of the settings. -/
structure SellAssetData where
  sellAsset : SellAsset
  lastSubmit : Nat
  lastPriceEdit : Nat
  orders : TreeMap Text Order
  assetBalance : Option Int

inductive Event where
  | received (now : Nat) (msg : FromMsg)
  | sent (now : Nat) (msg : ToMsg)
deriving DecidableEq

structure Trader where
  usdtIndexPrice : Option Double
  assetData : List SellAssetData
  log : List Event
  /-- the program has panicked -/
  stopped : Bool

/-- `Duration::from_secs(10)`. -/
def pause : Nat := 10000000000

def Trader.send (s : Trader) (now : Nat) (msg : ToMsg) : Trader :=
  { s with log := s.log ++ [.sent now msg] }

def SellAssetData.updateBalance (account : AccountId) (data : SellAssetData) (balance : Balance) :
    SellAssetData :=
  if balance.assetId = toText data.sellAsset.assetId ∧ account = data.sellAsset.accountId then
    { data with assetBalance := some balance.amount }
  else data

/-- `OrderCreated`: the order goes to the first asset that it sells. -/
def insertOrder (order : Order) : List SellAssetData → List SellAssetData
  | [] => []
  | data :: rest =>
      if toText data.sellAsset.assetId = order.assetId then
        { data with orders := data.orders.insert order.orderId order } :: rest
      else data :: insertOrder order rest

/-- `OrderRemoved`: the order is taken from the first asset that has it. -/
def removeOrder (orderId : Text) : List SellAssetData → List SellAssetData
  | [] => []
  | data :: rest =>
      if data.orders[orderId]?.isSome then
        { data with orders := data.orders.erase orderId } :: rest
      else data :: removeOrder orderId rest

/-- The answer to a review of an order of the asset. -/
def SellAsset.decision (asset : SellAsset) (orderId : Text) : Client.SubmitDecision where
  orderId
  accept := true
  autoSign := some true
  isPrivate := asset.isPrivate
  twoStep := some false
  ttlSeconds := asset.ttl
  txChainingAllowed := some false
  onlyUnusedUtxos := some true

/-- A message is handled; `none` is a panic. -/
def receive (settings : Settings) (s : Trader) (now : Nat) : FromMsg → Option Trader
  | .serverConnected => some (s.send now (.subscribePrice (toText settings.usdtAssetId)))
  | .serverDisconnected => some { s with usdtIndexPrice := none }
  | .balanceUpdate account balances =>
      some { s with
        assetData := balances.foldl
          (fun assetData balance => assetData.map (·.updateBalance account balance)) s.assetData }
  | .newAsset assetId precision =>
      if ∀ data ∈ s.assetData, assetId = toText data.sellAsset.assetId →
          precision = data.sellAsset.assetPrecision then some s
      else none
  | .indexPrice assetId ind =>
      (fromStr assetId).map fun assetId =>
        if assetId = settings.usdtAssetId then { s with usdtIndexPrice := ind } else s
  | .submitReview orderId asset => do
      let assetId ← fromStr asset
      let data ← s.assetData.find? (·.sellAsset.assetId == assetId)
      some (s.send now (.submitDecision (data.sellAsset.decision orderId)))
  | .orderCreated order =>
      -- an order from the previous app start is not signed automatically
      if order.autoSign then some { s with assetData := insertOrder order s.assetData }
      else some (s.send now (.cancelOrder order.orderId))
  | .orderRemoved orderId => some { s with assetData := removeOrder orderId s.assetData }
  | .other => some s

/-- A new order, if it is time for one; `none` is a panic. -/
def SellAssetData.submit (data : SellAssetData) (now : Nat) (price : Double) :
    Option (SellAssetData × List ToMsg) :=
  match data.assetBalance with
  | none => some (data, [])
  | some balance =>
      if data.orders.size < data.sellAsset.expectedCount ∧ pause < now - data.lastSubmit then
        if data.sellAsset.orderAmount.gt 0 then
          some ({ data with lastSubmit := now },
            if data.sellAsset.orderAmount.le
                (assetFloatAmount balance data.sellAsset.assetPrecision) then
              [.submitOrder
                { account := data.sellAsset.accountId
                  assetId := toText data.sellAsset.assetId
                  bitcoinAmount := none
                  assetAmount := some (negated data.sellAsset.orderAmount)
                  price
                  indexPrice := none }]
            else [])
        else none
      else some (data, [])

/-- The orders whose price is another one. -/
def SellAssetData.edits (data : SellAssetData) (price : Double) : List ToMsg :=
  ((Table.values data.orders).filter fun order =>
    order.price.ne price && order.assetId == toText data.sellAsset.assetId).map fun order =>
      .editOrder order.orderId price

def SellAssetData.editPrices (data : SellAssetData) (now : Nat) (price : Double) :
    SellAssetData × List ToMsg :=
  if pause < now - data.lastPriceEdit then
    ({ data with lastPriceEdit := now }, data.edits price)
  else (data, [])

/-- An asset is attended to. -/
def SellAssetData.attend (now : Nat) (usdtIndexPrice : Option Double) (data : SellAssetData) :
    Option (SellAssetData × List ToMsg) :=
  match data.sellAsset.price usdtIndexPrice with
  | none => some (data, [])
  | some price => do
      let (data, submitted) ← data.submit now price
      let (data, edited) := data.editPrices now price
      some (data, submitted ++ edited)

/-- One asset after the other, until one panics. -/
def attendAll (now : Nat) (usdtIndexPrice : Option Double) :
    List SellAssetData → List SellAssetData × List ToMsg × Bool
  | [] => ([], [], false)
  | data :: rest =>
      match data.attend now usdtIndexPrice with
      | none => (data :: rest, [], true)
      | some (data, sent) =>
          let (rest, later, stopped) := attendAll now usdtIndexPrice rest
          (data :: rest, sent ++ later, stopped)

def Trader.attend (s : Trader) (now : Nat) : Trader :=
  let (assetData, sent, stopped) := attendAll now s.usdtIndexPrice s.assetData
  { s with assetData, log := s.log ++ sent.map (.sent now), stopped }

structure Input where
  now : Nat
  msg : FromMsg

def Trader.hear (s : Trader) (i : Input) : Trader :=
  { s with log := s.log ++ [.received i.now i.msg] }

/-- One turn of the loop. -/
def step (settings : Settings) (s : Trader) (i : Input) : Trader :=
  if s.stopped then s
  else match receive settings (s.hear i) i.now i.msg with
    | none => { s.hear i with stopped := true }
    | some s => s.attend i.now

def first (settings : Settings) : Trader where
  usdtIndexPrice := none
  assetData := settings.sellAssets.map fun sellAsset =>
    ⟨sellAsset, settings.startedAt, settings.startedAt, ∅, none⟩
  log := [.sent settings.startedAt (.login ⟨some (.mnemonic settings.mnemonic), none⟩)]
  stopped := false

/-- The client does not report one order for two assets. -/
def Steady (s : Trader) (i : Input) : Prop :=
  ∀ order, i.msg = .orderCreated order → ∀ now earlier,
    .received now (.orderCreated earlier) ∈ s.log → earlier.orderId = order.orderId →
    earlier.assetId = order.assetId

/-- The order that is reported. -/
def FromMsg.created? : FromMsg → Option Order
  | .orderCreated order => some order
  | _ => none

def Event.created? : Event → Option Order
  | .received _ msg => msg.created?
  | .sent _ _ => none

theorem created?_eq_some {msg : FromMsg} {order : Order} :
    msg.created? = some order ↔ msg = .orderCreated order := by
  cases msg <;> simp [FromMsg.created?]

theorem mem_created {log : List Event} {order : Order} :
    order ∈ log.filterMap Event.created? ↔ ∃ now, .received now (.orderCreated order) ∈ log := by
  rw [List.mem_filterMap]
  constructor
  · rintro ⟨e, hmem, he⟩
    cases e with
    | received now msg =>
        rw [created?_eq_some.mp he] at hmem
        exact ⟨now, hmem⟩
    | sent => cases he
  · rintro ⟨now, hmem⟩
    exact ⟨_, hmem, rfl⟩

instance decidableSteady (s : Trader) (i : Input) : Decidable (Steady s i) :=
  decidable_of_iff (∀ order ∈ i.msg.created?, ∀ earlier ∈ s.log.filterMap Event.created?,
      earlier.orderId = order.orderId → earlier.assetId = order.assetId) (by
    constructor
    · intro h order hmsg now earlier hmem
      exact h order (created?_eq_some.mpr hmsg) earlier (mem_created.mpr ⟨now, hmem⟩)
    · intro h order hmsg earlier hmem
      obtain ⟨now, hmem⟩ := mem_created.mp hmem
      exact h order (created?_eq_some.mp hmsg) now earlier hmem)

/-- The states of the trader's runs. -/
abbrev Runs (settings : Settings) : Trader → Prop :=
  Reach (· = first settings) (step settings) Steady

/-! ## What the history says -/

/-- What the event says about the index price. -/
def Event.index? (usdtAssetId : AssetId) : Event → Option (Option Double)
  | .received _ .serverDisconnected => some none
  | .received _ (.indexPrice assetId ind) =>
      if fromStr assetId = some usdtAssetId then some ind else none
  | _ => none

/-- The price of the dollar, unless the server has been lost since. -/
def indexPrice (usdtAssetId : AssetId) (log : List Event) : Option Double :=
  (latest (Event.index? usdtAssetId) log).join

/-- What the balances say about an asset. -/
def SellAsset.amount? (asset : SellAsset) (account : AccountId) (balances : List Balance) :
    Option Int :=
  (balances.filter fun balance =>
    balance.assetId = toText asset.assetId ∧ account = asset.accountId).getLast?.map (·.amount)

def Event.balance? (asset : SellAsset) : Event → Option Int
  | .received _ (.balanceUpdate account balances) => asset.amount? account balances
  | _ => none

/-- What the event says about an order of an asset. -/
def Event.listing? (asset : AssetId) (orderId : Text) : Event → Option (Option Order)
  | .received _ (.orderCreated order) =>
      if order.autoSign ∧ order.assetId = toText asset ∧ order.orderId = orderId then
        some (some order)
      else none
  | .received _ (.orderRemoved removed) => if removed = orderId then some none else none
  | _ => none

/-- The order, if it is one of the asset and has not been removed. -/
def listed (asset : AssetId) (log : List Event) (orderId : Text) : Option Order :=
  (latest (Event.listing? asset orderId) log).join

/-- The asset and the time of a new order. -/
def Event.submission? : Event → Option (Text × Nat)
  | .sent now (.submitOrder req) => some (req.assetId, now)
  | _ => none

/-- The price of the settings, at an index price. -/
def SellAsset.PricedAt (asset : SellAsset) (index : Option Double) (price : Double) : Prop :=
  asset.priceLbtc = some price ∨
    ∃ usdt ind, asset.priceUsdt = some usdt ∧ index = some ind ∧ price = usdt.quot ind

/-- An offer of the settings, for which the wallet has enough, and with too few orders listed. -/
structure Sells (settings : Settings) (before : List Event) (asset : SellAsset)
    (req : SubmitOrder) : Prop where
  sold : req.assetId = toText asset.assetId
  account : req.account = asset.accountId
  priced : asset.PricedAt (indexPrice settings.usdtAssetId before) req.price
  bounds : req.bitcoinAmount = none ∧ req.indexPrice = none
  amount : req.assetAmount = some (negated asset.orderAmount) ∧ asset.orderAmount.gt 0 = true
  owned : ∃ balance, latest (Event.balance? asset) before = some balance ∧
    asset.orderAmount.le (assetFloatAmount balance asset.assetPrecision) = true
  few : ∀ ids : List Text, ids.Nodup → (∀ id ∈ ids, (listed asset.assetId before id).isSome) →
    ids.length < asset.expectedCount

/-- A listed order with another price gets the one of the settings. -/
structure Edits (settings : Settings) (before : List Event) (asset : SellAsset) (orderId : Text)
    (price : Double) : Prop where
  priced : asset.PricedAt (indexPrice settings.usdtAssetId before) price
  wrong : ∃ order, listed asset.assetId before orderId = some order ∧ order.price.ne price = true

/-- The trader does only what its settings and the reports of the client call for. -/
def Configured (settings : Settings) (before : List Event) : Event → Prop
  | .sent now (.login req) =>
      before = [] ∧ now = settings.startedAt ∧ req = ⟨some (.mnemonic settings.mnemonic), none⟩
  | .sent now (.subscribePrice assetId) =>
      before.getLast? = some (.received now .serverConnected) ∧
        assetId = toText settings.usdtAssetId
  | .sent now (.submitDecision req) =>
      ∃ asset ∈ settings.sellAssets, ∃ orderId text,
        before.getLast? = some (.received now (.submitReview orderId text)) ∧
          fromStr text = some asset.assetId ∧ req = asset.decision orderId
  | .sent now (.cancelOrder orderId) =>
      ∃ order, before.getLast? = some (.received now (.orderCreated order)) ∧
        order.autoSign = false ∧ order.orderId = orderId
  | .sent _ (.submitOrder req) => ∃ asset ∈ settings.sellAssets, Sells settings before asset req
  | .sent _ (.editOrder orderId price) =>
      ∃ asset ∈ settings.sellAssets, Edits settings before asset orderId price
  | .received _ _ => True

/-! ## What the trader holds -/

/-- What the trader holds about an asset is what the history says. -/
structure SellAssetData.Agrees (log : List Event) (data : SellAssetData) : Prop where
  balance : data.assetBalance = latest (Event.balance? data.sellAsset) log
  orders : ∀ orderId : Text, data.orders[orderId]? = listed data.sellAsset.assetId log orderId

/-- An asset that is attended to changes no more than its times, and it is not offered again
    before the pause is over. -/
structure SellAssetData.Attended (now : Nat) (usdtIndexPrice : Option Double)
    (data data' : SellAssetData) (sent : List ToMsg) : Prop where
  sellAsset : data'.sellAsset = data.sellAsset
  balance : data'.assetBalance = data.assetBalance
  orders : data'.orders = data.orders
  submits : ∀ req, .submitOrder req ∈ sent → ∃ price balance,
    data.sellAsset.price usdtIndexPrice = some price ∧ data.assetBalance = some balance ∧
      data.orders.size < data.sellAsset.expectedCount ∧
      data.sellAsset.orderAmount.gt 0 = true ∧
      data.sellAsset.orderAmount.le
        (assetFloatAmount balance data.sellAsset.assetPrecision) = true ∧
      req = ⟨data.sellAsset.accountId, toText data.sellAsset.assetId, none,
        some (negated data.sellAsset.orderAmount), price, none⟩
  edits : ∀ orderId price, .editOrder orderId price ∈ sent →
    data.sellAsset.price usdtIndexPrice = some price ∧
      ∃ order ∈ Table.values data.orders, order.orderId = orderId ∧ order.price.ne price = true
  others : ∀ msg ∈ sent, (∃ req, msg = .submitOrder req) ∨
    ∃ orderId price, msg = .editOrder orderId price
  paced : (data'.lastSubmit = data.lastSubmit ∧
      sent.filterMap (Event.submission? ∘ .sent now) = []) ∨
    (data'.lastSubmit = now ∧ data.lastSubmit + pause < now ∧
      (sent.filterMap (Event.submission? ∘ .sent now) = [] ∨
        sent.filterMap (Event.submission? ∘ .sent now) = [(toText data.sellAsset.assetId, now)]))

section Attend

variable {now : Nat} {usdtIndexPrice : Option Double} {data data' : SellAssetData}
  {price : Double} {sent : List ToMsg}

theorem mem_edits {msg : ToMsg} (h : msg ∈ data.edits price) :
    ∃ order ∈ Table.values data.orders, order.price.ne price = true ∧
      msg = .editOrder order.orderId price := by
  obtain ⟨order, hmem, rfl⟩ := List.mem_map.mp h
  obtain ⟨hmem, hwrong⟩ := List.mem_filter.mp hmem
  rw [Bool.and_eq_true] at hwrong
  exact ⟨order, hmem, hwrong.1, rfl⟩

theorem submissions_edits (now : Nat) (data : SellAssetData) (price : Double) :
    (data.edits price).filterMap (Event.submission? ∘ .sent now) = [] := by
  refine List.filterMap_eq_nil_iff.mpr ?_
  intro msg hmem
  obtain ⟨order, -, -, rfl⟩ := mem_edits hmem
  rfl

/-- Prices are edited after the offer, and nothing else changes. -/
theorem SellAssetData.Attended.edit (h : data.Attended now usdtIndexPrice data' sent)
    (hprice : data.sellAsset.price usdtIndexPrice = some price) :
    data.Attended now usdtIndexPrice (data'.editPrices now price).1
      (sent ++ (data'.editPrices now price).2) := by
  unfold SellAssetData.editPrices
  split
  · constructor
    · exact h.sellAsset
    · exact h.balance
    · exact h.orders
    · intro req hmem
      rcases List.mem_append.mp hmem with hmem | hmem
      · exact h.submits req hmem
      · obtain ⟨order, -, -, heq⟩ := mem_edits hmem
        cases heq
    · intro orderId price' hmem
      rcases List.mem_append.mp hmem with hmem | hmem
      · exact h.edits orderId price' hmem
      · obtain ⟨order, horder, hwrong, heq⟩ := mem_edits hmem
        cases heq
        exact ⟨hprice, order, h.orders ▸ horder, rfl, hwrong⟩
    · intro msg hmem
      rcases List.mem_append.mp hmem with hmem | hmem
      · exact h.others msg hmem
      · obtain ⟨order, -, -, rfl⟩ := mem_edits hmem
        exact .inr ⟨_, _, rfl⟩
    · rw [List.filterMap_append, submissions_edits, List.append_nil]
      exact h.paced
  · rw [List.append_nil]
    exact h

theorem attended_self (now : Nat) (usdtIndexPrice : Option Double) (data : SellAssetData) :
    data.Attended now usdtIndexPrice data [] := by
  constructor
  · rfl
  · rfl
  · rfl
  · intro req hmem
    cases hmem
  · intro orderId price hmem
    cases hmem
  · intro msg hmem
    cases hmem
  · exact .inl ⟨rfl, rfl⟩

/-- What offering an asset once more can do. -/
theorem submit_attended (h : data.submit now price = some (data', sent))
    (hprice : data.sellAsset.price usdtIndexPrice = some price) :
    data.Attended now usdtIndexPrice data' sent := by
  revert h
  fun_cases SellAssetData.submit data now price with
  | case1 hbalance =>
      rintro ⟨⟩
      exact attended_self now usdtIndexPrice _
  | case2 balance hbalance htime hamount =>
      rintro ⟨⟩
      have hpaced : data.lastSubmit + pause < now := by omega
      constructor
      · rfl
      · rfl
      · rfl
      · intro req hmem
        split at hmem
        · next howned =>
            obtain rfl := ToMsg.submitOrder.inj (List.mem_singleton.mp hmem)
            exact ⟨price, balance, hprice, hbalance, htime.1, hamount, howned, rfl⟩
        · cases hmem
      · intro orderId price' hmem
        split at hmem
        · cases List.mem_singleton.mp hmem
        · cases hmem
      · intro msg hmem
        split at hmem
        · exact .inl ⟨_, List.mem_singleton.mp hmem⟩
        · cases hmem
      · refine .inr ⟨rfl, hpaced, ?_⟩
        split
        · exact .inr rfl
        · exact .inl rfl
  | case3 =>
      intro h
      cases h
  | case4 =>
      rintro ⟨⟩
      exact attended_self now usdtIndexPrice _

theorem attend_attended (h : data.attend now usdtIndexPrice = some (data', sent)) :
    data.Attended now usdtIndexPrice data' sent := by
  unfold SellAssetData.attend at h
  cases hprice : data.sellAsset.price usdtIndexPrice with
  | none =>
      rw [hprice] at h
      cases h
      exact attended_self now usdtIndexPrice _
  | some price =>
      rw [hprice] at h
      obtain ⟨⟨data₁, submitted⟩, hsubmit, hedit⟩ := Option.bind_eq_some_iff.mp h
      cases hedit
      exact (submit_attended hsubmit hprice).edit hprice

end Attend

end HeadlessTrader
