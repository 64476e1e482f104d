import SideSwap.ClientSystem

/-! # The signing protocol of the wallet worker

    Of the worker's state only a part decides what is signed: the records of
    the orders, the `Sign` messages waiting for the user, the orders whose
    `Sign` message has been taken, the approved instant swap, and the log.
    `Book` is that part and `Move` lists everything that can happen to it.
    The routes by which a record or a prompt can arise are the constructors,
    so a property of all runs is proved by one case for each route. -/

namespace Client

open Api Program MachineInt Pricing Relation

/-- What decides what is signed. -/
structure Book where
  liquidAssetId : AssetId
  forceAutoSignMaker : Bool
  submitData : Std.TreeMap OrderId SubmitData
  activeSign : Option SignNotification
  processedSigns : Std.TreeSet OrderId
  pendingSignPrompts : List SignNotification
  activeSwap : Option ActiveSwap
  log : List Event

/-- The book of a worker. -/
def Data.book (data : Data) : Book where
  liquidAssetId := data.liquidAssetId
  forceAutoSignMaker := data.forceAutoSignMaker
  submitData := data.submitData
  activeSign := data.activeSign
  processedSigns := data.processedSigns
  pendingSignPrompts := data.pendingSignPrompts
  activeSwap := data.activeSwap
  log := data.log

/-- Record an event. -/
def Book.emit (b : Book) (e : Event) : Book := { b with log := b.log ++ [e] }

/-- Put a record in the place of an order's. -/
def Book.record (b : Book) (orderId : OrderId) (entry : SubmitData) : Book :=
  { b with submitData := b.submitData.insert orderId entry }

/-! ## The events that matter -/

/-- The requests by which orders are signed or edited and swaps are started. -/
def Request.isQuiet : Request → Bool
  | .sign _ => false
  | .edit req => req.price.isNone
  | .startSwapClient _ => false
  | .signedSwapClient _ _ => false
  | _ => true

/-- The events that accompany no move of their own. -/
def Event.isQuiet : Event → Bool
  | .received _ => false
  | .request (.sign _) _ => false
  | .request (.edit req) (.ok .edit) => req.price.isNone
  | .request (.startSwapClient _) (.ok (.startSwapClient _)) => false
  | .request (.signedSwapClient _ _) _ => false
  | .request _ _ => true
  | .asyncRequest _ _ _ => true
  | .called _ _ _ => true
  | .socket _ => true
  | .toUi (.submitReview review) => review.step != .sign
  | .toUi _ => true
  | .backgroundDone _ => true
  | .accepted _ _ _ => false
  | .restored _ => true
  | .checked _ _ _ => false
  | .verified _ _ _ _ _ => false
  | .createdTx _ => true
  | .sentTx _ _ _ => true

/-- The user accepts an order: `SubmitDecision` with `accept`. -/
def Event.accepts (orderId : OrderId) : Event → Bool
  | .received (.ui (.submitDecision req)) => req.accept && fromStr req.orderId == some orderId
  | _ => false

/-- The user turns auto-sign on for an order. -/
def Event.enablesAutoSign (orderId : OrderId) : Event → Bool
  | .received (.ui (.editOrder req)) =>
      fromStr req.orderId == some orderId && req.data == some (.autoSign true)
  | _ => false

/-- An order of the user's own that was submitted for a two-step swap. -/
def ownTwoStep (orderId : OrderId) (order : OrderCreatedNotification) : Bool :=
  order.orderId == orderId && order.own.isSome && order.twoStep

/-- The server lists an order as the user's own two-step order. -/
def Event.listsTwoStep (orderId : OrderId) : Event → Bool
  | .received (.serverNotification (.orderCreated order)) => ownTwoStep orderId order
  | .received (.subscribe orders) => orders.any (ownTwoStep orderId)
  | .request (.login _) (.ok (.login resp)) => resp.orders.any (ownTwoStep orderId)
  | _ => false

/-- Some event of the log says so. -/
def Logged (p : Event → Bool) (log : List Event) : Prop := ∃ e ∈ log, p e = true

instance (p : Event → Bool) (log : List Event) : Decidable (Logged p log) :=
  inferInstanceAs (Decidable (∃ e ∈ log, p e = true))

/-! ## The checks of an order's details -/

/-- The amount that is not fixed, at a price, with a precision and in a market. -/
def SubmitData.quote (entry : SubmitData) (price : ℚ) (precision : Nat) (market : MarketType) :
    Int :=
  match entry.orderType with
  | .bitcoin => Pricing.assetAmount entry.bitcoinAmount price precision market
  | .asset => Pricing.bitcoinAmount entry.assetAmount price precision market

/-- What `verify_amounts` establishes: the amounts and the fee fit the price. -/
structure Quoted (details : Details) (precision : Nat) : Prop where
  positive : 0 < details.price
  priced : match details.orderType with
    | .bitcoin => Pricing.assetAmount details.bitcoinAmount details.price precision details.market =
        details.assetAmount
    | .asset => Pricing.bitcoinAmount details.assetAmount details.price precision details.market =
        details.bitcoinAmount
  fee : details.serverFee = getServerFee details.bitcoinAmount

/-- What the checks of `try_process_sign` establish about a message. -/
structure Checked (entry : SubmitData) (details : Details) (precision : Nat) : Prop where
  quoted : Quoted details precision
  side : entry.side = details.side
  sells : entry.sellBitcoin = details.sendBitcoins
  asset : entry.asset = details.asset
  orderType : entry.orderType = details.orderType
  /-- the fixed amount is the order's -/
  fixed : match entry.orderType with
    | .bitcoin => entry.serverFee = details.serverFee ∧ entry.bitcoinAmount = details.bitcoinAmount
    | .asset => entry.assetAmount = details.assetAmount
  /-- a taker's price has not changed -/
  taker : entry.side = .taker → (priceChange details.price entry.price).isZero = true

/-- The book after a `Sign` message has been taken and its amounts taken over. -/
def Book.take (b : Book) (msg : SignNotification) (entry : SubmitData) (precision : Nat) : Book :=
  { b with
    processedSigns := b.processedSigns.insert msg.orderId
    submitData := b.submitData.insert msg.orderId (entry.select msg.details)
    log := b.log ++ [.checked msg entry precision] }

/-- What `try_sign` can do to the book. -/
inductive Attempt (msg : SignNotification) : Book → Book → Prop where
  /-- it fails before the PSET is looked at -/
  | none {b} : Attempt msg b b
  /-- the PSET is not as agreed, or the wallet does not sign -/
  | refused {b entry e} : b.submitData[msg.orderId]? = some entry →
      Attempt msg b (b.emit (.verified .trySign msg.orderId (signAmounts b.liquidAssetId entry)
        msg.pset (.error e)))
  /-- the PSET is signed and sent -/
  | sent {b entry signedPset res} : b.submitData[msg.orderId]? = some entry →
      Attempt msg b ((b.emit (.verified .trySign msg.orderId (signAmounts b.liquidAssetId entry)
        msg.pset (.ok signedPset))).emit
          (.request (.sign ⟨msg.orderId, signedPset, entry.side⟩) res))

/-- The amounts and the assets an approved swap request stands for. -/
def SwapRequest.swap (req : SwapRequest) (liquidAssetId asset : AssetId) (orderId : OrderId) :
    ActiveSwap where
  orderId := orderId
  sendAsset := (swapAssets liquidAssetId asset req.sendBitcoins).1
  recvAsset := (swapAssets liquidAssetId asset req.sendBitcoins).2
  sendAmount := u64 req.sendAmount
  recvAmount := u64 req.recvAmount

/-- The request `try_process_swap_request` sends for an approved swap. -/
def SwapRequest.request (req : SwapRequest) (asset : AssetId) (inputs : List PsetInput)
    (recvAddr changeAddr : Address) : StartSwapClientRequest where
  price := req.price
  asset := asset
  sendBitcoins := req.sendBitcoins
  sendAmount := req.sendAmount
  recvAmount := req.recvAmount
  inputs := inputs
  recvAddr := recvAddr
  changeAddr := changeAddr

/-- The event of an answered swap request. -/
def SwapRequest.answered (req : SwapRequest) (asset : AssetId) (inputs : List PsetInput)
    (recvAddr changeAddr : Address) (orderId : OrderId) : Event :=
  .request (.startSwapClient (req.request asset inputs recvAddr changeAddr))
    (.ok (.startSwapClient orderId))

/-- One thing that happens to the book while a message is handled. -/
inductive Move : Book → Book → Prop where
  | note {b e} : Event.isQuiet e = true → Move b (b.emit e)
  | login {b req} : Event.received (.ui (.login req)) ∈ b.log →
      Move b { b with forceAutoSignMaker := req.forceAutoSignMaker.getD false }
  | logout {b} : Move b { b with activeSign := Option.none, activeSwap := Option.none }
  /-- an accepted decision is carried out -/
  | accept {b orderId resp precision txouts autoSign} : Logged (Event.accepts orderId) b.log →
      Quoted resp.details precision →
      Move b ((b.record orderId (acceptedEntry orderId resp precision txouts autoSign)).emit
        (.accepted orderId resp precision))
  /-- a record is made up for an order the server knows of -/
  | addMissing {b orderId entry} : b.submitData[orderId]? = Option.none → entry.side = .maker →
      (entry.autoSign = true → Logged (Event.listsTwoStep orderId) b.log) →
      Move b (b.record orderId entry)
  /-- a `Sign` message is taken, and fails its checks -/
  | refuse {b orderId} : b.processedSigns.contains orderId = false →
      Move b { b with processedSigns := b.processedSigns.insert orderId }
  /-- it passes, and the user is to be asked -/
  | queue {b msg entry precision} : b.processedSigns.contains msg.orderId = false →
      b.submitData[msg.orderId]? = some entry → Checked entry msg.details precision →
      autoSignAllowed b.forceAutoSignMaker entry msg.details.price = false →
      Move b { b.take msg entry precision with
        pendingSignPrompts := b.pendingSignPrompts ++ [msg] }
  /-- it passes, and is signed at once -/
  | autoSign {b msg entry precision b'} : b.processedSigns.contains msg.orderId = false →
      b.submitData[msg.orderId]? = some entry → Checked entry msg.details precision →
      autoSignAllowed b.forceAutoSignMaker entry msg.details.price = true →
      Attempt msg (b.take msg entry precision) b' → Move b b'
  /-- the user is asked -/
  | prompt {b msg rest entry} : b.pendingSignPrompts = msg :: rest →
      b.submitData[msg.orderId]? = some entry →
      Move b { b.emit (.toUi (.submitReview (signReview msg entry))) with
        pendingSignPrompts := rest, activeSign := some msg }
  /-- or not, because the order is gone -/
  | dropPrompt {b msg rest} : b.pendingSignPrompts = msg :: rest →
      Move b { b with pendingSignPrompts := rest }
  /-- the user agrees to sign -/
  | decide {b msg b'} : b.activeSign = some msg → Logged (Event.accepts msg.orderId) b.log →
      Attempt msg { b with activeSign := Option.none } b' → Move b b'
  /-- the server takes over an edited price -/
  | edit {b orderId price} : b.submitData[orderId]? = Option.none →
      Move b (b.emit (.request (.edit ⟨orderId, some price, Option.none⟩) (.ok .edit)))
  | editEntry {b orderId price entry} : b.submitData[orderId]? = some entry →
      Move b ((b.record orderId (entry.reprice price)).emit
        (.request (.edit ⟨orderId, some price, Option.none⟩) (.ok .edit)))
  | editAutoSign {b orderId autoSign entry} :
      (autoSign = true → Logged (Event.enablesAutoSign orderId) b.log) →
      b.submitData[orderId]? = some entry →
      Move b (b.record orderId { entry with autoSign := autoSign })
  /-- a record learns of its transaction or its signature -/
  | mark {b orderId entry txid signed} : b.submitData[orderId]? = some entry →
      Move b (b.record orderId { entry with txid := txid, signed := signed })
  /-- an order is gone without a transaction -/
  | complete {b orderId log} :
      b.log = log ++ [.received (.serverNotification (.complete ⟨orderId, Option.none⟩)),
        .toUi (.orderComplete orderId Option.none)] →
      Move b { b with submitData := b.submitData.erase orderId }
  /-- the server answers a swap request of the user -/
  | startSwap {b req asset inputs recvAddr changeAddr orderId} :
      Event.received (.ui (.swapRequest req)) ∈ b.log → fromStr req.asset = some asset →
      Move b { b.emit (req.answered asset inputs recvAddr changeAddr orderId) with
        activeSwap := some (req.swap b.liquidAssetId asset orderId) }
  /-- the PSET of the approved swap arrives and is not as agreed -/
  | refuseSwap {b swap msg e} : b.activeSwap = some swap → swap.orderId = msg.orderId →
      b.log.getLast? = some (.received (.serverNotification (.blindedSwapClient msg))) →
      Move b (b.emit (.verified .blindedSwapClient msg.orderId swap.amounts msg.pset (.error e)))
  /-- or is signed and sent -/
  | signSwap {b swap msg signedPset res} : b.activeSwap = some swap →
      swap.orderId = msg.orderId →
      b.log.getLast? = some (.received (.serverNotification (.blindedSwapClient msg))) →
      Move b ((b.emit (.verified .blindedSwapClient msg.orderId swap.amounts msg.pset
        (.ok signedPset))).emit (.request (.signedSwapClient msg.orderId signedPset) res))
  | swapDone {b} : Move b { b with activeSwap := Option.none }

/-- Several moves. -/
abbrev Moves : Book → Book → Prop := ReflTransGen Move

/-! ## What every move keeps -/

theorem Attempt.log_grows {msg : SignNotification} {b b' : Book} (h : Attempt msg b b') :
    ∃ es, b'.log = b.log ++ es := by
  cases h with
  | none => exact ⟨[], (List.append_nil _).symm⟩
  | refused _ => exact ⟨_, rfl⟩
  | sent _ => exact ⟨_, List.append_assoc _ _ _⟩

/-- The log only grows. -/
theorem Move.log_grows {b b' : Book} (h : Move b b') : ∃ es, b'.log = b.log ++ es := by
  cases h with
  | note _ => exact ⟨_, rfl⟩
  | login _ => exact ⟨[], (List.append_nil _).symm⟩
  | logout => exact ⟨[], (List.append_nil _).symm⟩
  | accept _ _ => exact ⟨_, rfl⟩
  | addMissing _ _ _ => exact ⟨[], (List.append_nil _).symm⟩
  | refuse _ => exact ⟨[], (List.append_nil _).symm⟩
  | queue _ _ _ _ => exact ⟨_, rfl⟩
  | autoSign _ _ _ _ hattempt =>
      obtain ⟨es, hes⟩ := hattempt.log_grows
      exact ⟨_, hes.trans (List.append_assoc _ _ _)⟩
  | prompt _ _ => exact ⟨_, rfl⟩
  | dropPrompt _ => exact ⟨[], (List.append_nil _).symm⟩
  | decide _ _ hattempt => exact hattempt.log_grows
  | edit _ => exact ⟨_, rfl⟩
  | editEntry _ => exact ⟨_, rfl⟩
  | editAutoSign _ _ => exact ⟨[], (List.append_nil _).symm⟩
  | mark _ => exact ⟨[], (List.append_nil _).symm⟩
  | complete _ => exact ⟨[], (List.append_nil _).symm⟩
  | startSwap _ _ => exact ⟨_, rfl⟩
  | refuseSwap _ _ _ => exact ⟨_, rfl⟩
  | signSwap _ _ _ => exact ⟨_, List.append_assoc _ _ _⟩
  | swapDone => exact ⟨[], (List.append_nil _).symm⟩

/-- What has been logged stays logged. -/
theorem Logged.grow {p : Event → Bool} {log log' es : List Event} (h : Logged p log)
    (hgrow : log' = log ++ es) : Logged p log' := by
  obtain ⟨e, he, hp⟩ := h
  exact ⟨e, hgrow ▸ List.mem_append_left es he, hp⟩

theorem Moves.log_grows {b b' : Book} (h : Moves b b') : ∃ es, b'.log = b.log ++ es := by
  induction h with
  | refl => exact ⟨[], (List.append_nil _).symm⟩
  | tail _ hlast ih =>
      obtain ⟨es, hes⟩ := ih
      obtain ⟨es', hes'⟩ := hlast.log_grows
      exact ⟨es ++ es', by rw [hes', hes, List.append_assoc]⟩

theorem Moves.logged {p : Event → Bool} {b b' : Book} (h : Moves b b') (hl : Logged p b.log) :
    Logged p b'.log := by
  obtain ⟨es, hes⟩ := h.log_grows
  exact hl.grow hes

end Client
