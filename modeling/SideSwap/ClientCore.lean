import SideSwap.ClientBook
import SideSwap.History

/-! # What the wallet worker can do

    `Core` is the part of the worker's state that its protocols speak of: the
    book, what is on the user's screen, the order list, the requests under way
    and the registered wallet.  `Act world cause` lists everything that can
    happen to it while the message `cause` is handled, with the conditions
    under which the code does it.  An `Act` may also be a move of the book; the
    order list, which several handlers rebuild before they show it, has a
    relation of its own, `Listing`.

    Each guarantee of the later files is an invariant of `Act` and `Listing`,
    proved by one case for each thing that can happen. -/

namespace Client

open Api Program MachineInt Pricing Relation

/-- What the protocols of the worker speak of. -/
structure Core extends Book where
  visibleSubmit : Option OrderId
  waitingSubmit : Option OrderId
  pendingSignRequests : List SignNotification
  unsignedTx : Option String
  ordersLast : Std.TreeMap OrderId Order
  ordersSent : Std.TreeMap OrderId Order
  connected : Bool
  asyncRequests : Std.TreeMap String AsyncRequest
  nextRequestId : Nat
  wallets : Std.TreeMap AccountId XPubInfo
  regInfo : Option RegInfo
  deviceKey : Option String
  registered : Chain → Nat

/-- The core of a worker. -/
def Data.core (data : Data) : Core where
  toBook := data.book
  visibleSubmit := data.visibleSubmit
  waitingSubmit := data.waitingSubmit
  pendingSignRequests := data.pendingSignRequests
  unsignedTx := data.unsignedTx
  ordersLast := data.ordersLast
  ordersSent := data.ordersSent
  connected := data.connected
  asyncRequests := data.asyncRequests
  nextRequestId := data.nextRequestId
  wallets := data.wallets
  regInfo := data.regInfo
  deviceKey := data.deviceKey
  registered := data.registered

/-- Record an event; a request uses up a number. -/
def Core.tell (c : Core) (e : Event) (nextRequestId : Nat) : Core :=
  { c with log := c.log ++ [e], nextRequestId }

/-! ## Turns -/

/-- The message an event stands for. -/
def Event.message? : Event → Option Message
  | .received msg => some msg
  | _ => none

/-- What has happened since the last message arrived. -/
def turn (log : List Event) : List Event := History.since Event.message? log

/-- The server's `Sign` message has arrived in this turn. -/
def Arrives (cause : Message) (msg : SignNotification) (log : List Event) : Prop :=
  cause = .serverNotification (.sign msg) ∨
    ∃ orderId, Event.request (.getSign orderId) (.ok (.getSign msg)) ∈ turn log

/-- The user is shown an order, to submit it or to sign for it. -/
def Event.isReview : Event → Bool
  | .toUi (.submitReview _) => true
  | _ => false

/-- No order has been shown in this turn. -/
def NoReview (log : List Event) : Prop := ∀ e ∈ turn log, Event.isReview e = false

/-! ## Events that accompany nothing else -/

/-- The events that change nothing any protocol speaks of. -/
def Event.isNote (e : Event) : Bool :=
  e.isQuiet && match e with
    | .request (.psetMaker _) (.ok .psetMaker) => false
    | .request (.psetTaker _) (.ok .psetTaker) => false
    | .asyncRequest _ _ _ => false
    | .called _ _ _ => false
    | .toUi (.orderCreated _ _) => false
    | .toUi (.orderRemoved _) => false
    | .toUi (.submitReview _) => false
    | .restored _ => false
    | .createdTx _ => false
    | .sentTx _ _ _ => false
    | _ => true

/-- Such an event is recorded. -/
inductive Note : Core → Core → Prop where
  | note {c e n} : Event.isNote e = true → c.nextRequestId ≤ n → Note c (c.tell e n)

/-! ## Signing -/

/-- What `try_process_sign` can do with a `Sign` message. -/
inductive Take (msg : SignNotification) : Core → Core → Prop where
  /-- the message is taken, and fails its checks -/
  | refuse {c} : c.processedSigns.contains msg.orderId = false →
      Take msg c { c with processedSigns := c.processedSigns.insert msg.orderId }
  /-- it passes, and the user is to be asked -/
  | queue {c entry precision} : c.processedSigns.contains msg.orderId = false →
      c.submitData[msg.orderId]? = some entry → Checked entry msg.details precision →
      autoSignAllowed c.forceAutoSignMaker entry msg.details.price = false →
      Take msg c { c with
        toBook := { c.toBook.take msg entry precision with
          pendingSignPrompts := c.pendingSignPrompts ++ [msg] } }
  /-- it passes, and is signed at once -/
  | autoSign {c entry precision b n} : c.processedSigns.contains msg.orderId = false →
      c.submitData[msg.orderId]? = some entry → Checked entry msg.details precision →
      autoSignAllowed c.forceAutoSignMaker entry msg.details.price = true →
      Attempt msg (c.toBook.take msg entry precision) b → c.nextRequestId ≤ n →
      Take msg c { c with toBook := b, nextRequestId := n }

/-! ## Offers -/

/-- The inputs that a request offers for an order. -/
def Request.offer? : Request → Option (OrderId × List PsetInput)
  | .psetMaker req => some (req.orderId, req.inputs)
  | .psetTaker req => some (req.orderId, req.inputs)
  | _ => none

/-- The server has taken the offer. -/
def Request.takenBy : Request → Response → Bool
  | .psetMaker _, .psetMaker => true
  | .psetTaker _, .psetTaker => true
  | _, _ => false

/-- The order is a maker's half of a two-step swap. -/
def SubmitDecision.isTwoStep (req : SubmitDecision) (details : Details) : Bool :=
  req.twoStep.getD false && details.side == .maker

/-- What `try_process_submit_decision` has chosen, and what it has offered: the
    same, unless a two-step swap lets the wallet choose the input. -/
structure Offers (c : Core) (req : SubmitDecision) (orderId : OrderId) (details : Details)
    (offer : Request) (resp : Response) (inputs : List PsetInput) : Prop where
  taken : offer.takenBy resp = true
  offered : ∃ offered, offer.offer? = some (orderId, offered) ∧
    (req.isTwoStep details = false → offered = inputs)
  unused : req.onlyUnusedUtxos.getD false = true → ∀ input ∈ inputs,
    input.outPoint ∉ (Table.values c.submitData).flatMap (·.txouts)

/-! ## Restored records -/

/-- The record's amounts and fee fit its own price, precision and market. -/
structure SubmitData.Priced (entry : SubmitData) : Prop where
  fee : entry.serverFee = getServerFee entry.bitcoinAmount
  amounts : match entry.orderType with
    | .bitcoin => entry.assetAmount =
        Pricing.assetAmount entry.bitcoinAmount entry.price entry.assetPrecision entry.market
    | .asset => entry.bitcoinAmount =
        Pricing.bitcoinAmount entry.assetAmount entry.price entry.assetPrecision entry.market

/-! ## Asynchronous requests -/

/-- What a callback that counts registered addresses has captured: its request
    has the addresses from the counter on. -/
def Asks (world : World) (c : Core) (req : Request) (callback : AsyncRequest) : Prop :=
  ∀ chain last, callback = .registerAddresses chain last → ∃ deviceKey xpubs addresses,
    req = .registerAddresses deviceKey addresses ∧ c.deviceKey = some deviceKey ∧
    c.wallets[chain.accountId]? = some xpubs ∧
    deriveAddresses world xpubs chain (c.registered chain) last = .ok addresses

/-- The events of a callback that is called. -/
def callEvents (requestId : Option String) (callback : AsyncRequest)
    (res : Except Error Response) : List Event :=
  .called requestId callback res :: (callbackMsgs res callback).map .toUi

/-! ## Everything that can happen -/

/-- One thing the worker does while it handles the message `cause`. -/
inductive Act (world : World) (cause : Message) : Core → Core → Prop where
  | note {c c'} : Note c c' → Act world cause c c'
  /-- the socket is given up -/
  | hangUp {c} : Act world cause c { c with connected := false }
  | connect {c} : cause = .serverConnected → Act world cause c { c with connected := true }
  /-- the device key is checked first, before any other request is made -/
  | dropKey {c} : cause = .serverConnected → (∀ e ∈ turn c.log, Event.isNote e = true) →
      Act world cause c { c with deviceKey := none }
  | newKey {c deviceKey} : cause = .serverConnected →
      (∀ e ∈ turn c.log, Event.isNote e = true) → c.deviceKey = none →
      Act world cause c { c with deviceKey := some deviceKey, registered := fun _ => 0 }
  | login {c req} : cause = .ui (.login req) →
      Act world cause c { c with forceAutoSignMaker := req.forceAutoSignMaker.getD false }
  | register {c req regInfo} : cause = .ui (.login req) → c.regInfo = none →
      Act world cause c { c with regInfo := some regInfo }
  | openWallet {c req wallet regInfo xpubs accountId} : cause = .ui (.login req) →
      req.wallet = some wallet → c.regInfo = some regInfo →
      xpubInfo world regInfo wallet = .ok xpubs →
      Act world cause c { c with wallets := c.wallets.insert accountId xpubs }
  | closeWallet {c accountId} :
      Act world cause c { c with wallets := c.wallets.erase accountId }
  | reopenWallet {c accountId xpubs} : c.wallets[accountId]? = some xpubs →
      Act world cause c
        { c with wallets := (c.wallets.erase accountId).insert accountId xpubs }
  | logout {c} : cause = .ui .logout → NoReview c.log →
      Act world cause c
        { c with
          wallets := ∅, activeSwap := none, activeSign := none, deviceKey := none
          registered := fun _ => 0, regInfo := none }
  /-- an accepted decision is carried out -/
  | accept {c req orderId resp precision inputs autoSign offer res n} :
      cause = .ui (.submitDecision req) → req.accept = true →
      fromStr req.orderId = some orderId → Quoted resp.details precision →
      Offers c req orderId resp.details offer res inputs → c.nextRequestId ≤ n →
      Act world cause c
        { c with
          submitData := c.submitData.insert orderId
            (acceptedEntry orderId resp precision (inputs.map (·.outPoint)) autoSign)
          log := c.log ++ [.request offer (.ok res)] ++ [.accepted orderId resp precision]
          nextRequestId := n }
  /-- a record is made up for an order the server knows of -/
  | restore {c orderId entry} : c.submitData[orderId]? = none → entry.side = .maker →
      (entry.autoSign = true → Logged (Event.listsTwoStep orderId) c.log) →
      entry.txouts = [] → entry.Priced →
      Act world cause c
        { c with
          submitData := c.submitData.insert orderId entry
          log := c.log ++ [.restored orderId] }
  /-- a `Sign` message has to wait -/
  | enqueue {c msg} : Arrives cause msg c.log →
      Act world cause c { c with pendingSignRequests := c.pendingSignRequests ++ [msg] }
  | dequeue {c msg rest} : c.pendingSignRequests = msg :: rest →
      Act world cause c { c with pendingSignRequests := rest }
  | takeQueued {c c' msg rest} : c.pendingSignRequests = msg :: rest →
      Take msg { c with pendingSignRequests := rest } c' → Act world cause c c'
  | takeArrived {c c' msg} : Arrives cause msg c.log → Take msg c c' → Act world cause c c'
  /-- the user is asked -/
  | prompt {c msg rest entry} : c.visibleSubmit = none → c.pendingSignPrompts = msg :: rest →
      c.submitData[msg.orderId]? = some entry →
      Act world cause c
        { c with
          pendingSignPrompts := rest, activeSign := some msg, visibleSubmit := some msg.orderId
          log := c.log ++ [.toUi (.submitReview (signReview msg entry))] }
  /-- or not, because the order is gone -/
  | dropPrompt {c msg rest} : c.pendingSignPrompts = msg :: rest →
      Act world cause c { c with pendingSignPrompts := rest }
  /-- an order is up for review -/
  | review {c review orderId} : review.step ≠ .sign →
      Act world cause c
        { c with
          visibleSubmit := some orderId
          log := c.log ++ [.toUi (.submitReview review)] }
  /-- the user agrees to sign -/
  | decide {c req msg b n} : cause = .ui (.submitDecision req) → req.accept = true →
      NoReview c.log → c.activeSign = some msg → toText msg.orderId = req.orderId →
      Attempt msg { c.toBook with activeSign := none } b → c.nextRequestId ≤ n →
      Act world cause c { c with toBook := b, nextRequestId := n }
  /-- the user has decided -/
  | closeReview {c req waiting} : cause = .ui (.submitDecision req) → NoReview c.log →
      (req.accept = true → ∀ msg, c.activeSign = some msg → toText msg.orderId ≠ req.orderId) →
      Act world cause c { c with visibleSubmit := none, waitingSubmit := waiting }
  /-- the order the user is looking at or waiting for is gone -/
  | closeGone {c orderId} : cause = .serverNotification (.complete ⟨orderId, none⟩) →
      NoReview c.log →
      (c.visibleSubmit = some orderId ∨
        (c.visibleSubmit = none ∧ c.waitingSubmit = some orderId)) →
      Act world cause c { c with visibleSubmit := none }
  /-- the server takes over an edited price -/
  | edit {c orderId price n} : c.submitData[orderId]? = none → c.nextRequestId ≤ n →
      Act world cause c (c.tell (.request (.edit ⟨orderId, some price, none⟩) (.ok .edit)) n)
  | editEntry {c orderId price entry n} : c.submitData[orderId]? = some entry →
      c.nextRequestId ≤ n →
      Act world cause c
        { c with
          submitData := c.submitData.insert orderId (entry.reprice price)
          log := c.log ++ [.request (.edit ⟨orderId, some price, none⟩) (.ok .edit)]
          nextRequestId := n }
  | editAutoSign {c orderId autoSign entry} :
      (autoSign = true → Logged (Event.enablesAutoSign orderId) c.log) →
      c.submitData[orderId]? = some entry →
      Act world cause c
        { c with submitData := c.submitData.insert orderId { entry with autoSign := autoSign } }
  /-- a record learns of its transaction or its signature -/
  | mark {c orderId entry txid signed} : c.submitData[orderId]? = some entry →
      Act world cause c
        { c with
          submitData := c.submitData.insert orderId { entry with txid := txid, signed := signed } }
  /-- an order is gone without a transaction -/
  | complete {c orderId log} :
      c.log = log ++ [.received (.serverNotification (.complete ⟨orderId, none⟩)),
        .toUi (.orderComplete orderId none)] →
      Act world cause c { c with submitData := c.submitData.erase orderId }
  /-- the server answers a swap request of the user -/
  | startSwap {c req asset inputs recvAddr changeAddr orderId n} :
      cause = .ui (.swapRequest req) → fromStr req.asset = some asset → c.nextRequestId ≤ n →
      Act world cause c
        { c with
          activeSwap := some (req.swap c.liquidAssetId asset orderId)
          log := c.log ++ [req.answered asset inputs recvAddr changeAddr orderId]
          nextRequestId := n }
  /-- the PSET of the approved swap arrives and is not as agreed -/
  | refuseSwap {c swap msg e} : c.activeSwap = some swap → swap.orderId = msg.orderId →
      c.log.getLast? = some (.received (.serverNotification (.blindedSwapClient msg))) →
      Act world cause c
        { c with
          log := c.log ++
            [.verified .blindedSwapClient msg.orderId swap.amounts msg.pset (.error e)] }
  /-- or is signed and sent -/
  | signSwap {c swap msg signedPset res n} : c.activeSwap = some swap →
      swap.orderId = msg.orderId →
      c.log.getLast? = some (.received (.serverNotification (.blindedSwapClient msg))) →
      c.nextRequestId ≤ n →
      Act world cause c
        { c with
          log := c.log ++
            [.verified .blindedSwapClient msg.orderId swap.amounts msg.pset (.ok signedPset)] ++
            [.request (.signedSwapClient msg.orderId signedPset) res]
          nextRequestId := n }
  | swapDone {c} : Act world cause c { c with activeSwap := none }
  /-- a payment is created -/
  | createTx {c tx} :
      Act world cause c { c with unsignedTx := some tx, log := c.log ++ [.createdTx tx] }
  /-- it is signed and broadcast, and kept if that fails -/
  | sendTx {c accountId tx res} : c.unsignedTx = some tx →
      Act world cause c
        { c with
          unsignedTx := if res.toBool then none else some tx
          log := c.log ++ [.sentTx accountId tx res] }
  | dropTx {c} : Act world cause c { c with unsignedTx := none }
  /-- an asynchronous request is sent -/
  | ask {c req callback} : c.connected = true → Asks world c req callback →
      Act world cause c
        { c with
          nextRequestId := c.nextRequestId + 1
          asyncRequests := c.asyncRequests.insert (toString c.nextRequestId) callback
          log := c.log ++ [.asyncRequest (toString c.nextRequestId) req callback] }
  /-- or cannot be sent -/
  | askOffline {c callback} : c.connected = false →
      Act world cause c
        { c with log := c.log ++ callEvents none callback (.error notConnected) }
  | answer {c requestId res callback} : cause = .asyncResp requestId res →
      c.asyncRequests[requestId]? = some callback →
      Act world cause c
        { c with
          asyncRequests := c.asyncRequests.erase requestId
          registered := callbackRegistered res callback c.registered
          log := c.log ++ callEvents (some requestId) callback res }
  /-- all pending requests fail when the socket is closed -/
  | drain {c} : cause = .serverDisconnected →
      Act world cause c
        { c with
          asyncRequests := ∅
          log := c.log ++ c.asyncRequests.toList.flatMap fun line =>
            callEvents (some line.1) line.2 (.error serverDisconnected) }

/-- How the list that is shown is brought up to date. -/
inductive Showing : Core → Core → Prop where
  /-- a line that is gone is taken off the list that is shown -/
  | remove {c orderId} : c.ordersLast[orderId]? = none →
      Showing c { c with
        ordersSent := c.ordersSent.erase orderId
        log := c.log ++ [.toUi (.orderRemoved orderId)] }
  /-- a new or changed line is shown -/
  | put {c orderId order} : c.ordersLast[orderId]? = some order →
      c.ordersSent[orderId]? ≠ some order →
      Showing c { c with
        ordersSent := c.ordersSent.insert orderId order
        log := c.log ++ [.toUi (.orderCreated order
          ((c.ordersSent[orderId]?).isNone && order.fromNotification))] }

/-- What happens to the order list. -/
inductive Listing : Core → Core → Prop where
  /-- the worker's list changes; its lines are kept under their order ids -/
  | change {c ordersLast} :
      (∀ (orderId : OrderId) (order : Order), ordersLast[orderId]? = some order →
        order.orderId = orderId ∨
        ∃ old, c.ordersLast[orderId]? = some old ∧ old.orderId = order.orderId) →
      Listing c { c with ordersLast }
  | shows {c c'} : Showing c c' → Listing c c'

/-- One thing that happens while a message is handled. -/
inductive Play (world : World) (cause : Message) : Core → Core → Prop where
  | act {c c'} : Act world cause c c' → Play world cause c c'
  | list {c c'} : Listing c c' → Play world cause c c'

abbrev Notes : Core → Core → Prop := ReflTransGen Note

abbrev Acts (world : World) (cause : Message) : Core → Core → Prop :=
  ReflTransGen (Act world cause)

abbrev Plays (world : World) (cause : Message) : Core → Core → Prop :=
  ReflTransGen (Play world cause)

end Client
