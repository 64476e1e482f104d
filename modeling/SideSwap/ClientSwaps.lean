import SideSwap.ClientMoves
import SideSwap.History

/-! # Instant swaps

    The user's `SwapRequest` that the server has answered is the approval of
    one swap.  It is kept in `active_swap`, and every `BlindedSwapClient`
    message for its order is verified against it and signed.  Signing does not
    use the approval up: only `SwapDone`, a logout or another swap does.  So
    the amounts are always the approved ones, but one approval can be signed
    as often as the server asks.

    The events after the last answered request are the ones that rest on it,
    so the property is read off the history by `latest` and `since`. -/

namespace Client

open Api Program MachineInt Relation Transition History

/-! ## What the history says about swaps -/

/-- A swap request that the server answers with an order. -/
def Event.answersSwap : Event → Option (StartSwapClientRequest × OrderId)
  | .request (.startSwapClient req) (.ok (.startSwapClient orderId)) => some (req, orderId)
  | _ => none

/-- A PSET of an instant swap that `verify_and_sign_pset` signs, with its order
    and the amounts it was verified against. -/
def Event.signsSwap : Event → Option (OrderId × Amounts)
  | .verified .blindedSwapClient orderId amounts _ (.ok _) => some (orderId, amounts)
  | _ => none

/-- A signed PSET of an instant swap is sent to the server. -/
def Event.sendsSwap : Event → Bool
  | .request (.signedSwapClient _ _) _ => true
  | _ => false

theorem answersSwap_answered (user : SwapRequest) (asset : AssetId) (inputs : List PsetInput)
    (recvAddr changeAddr : Address) (orderId : OrderId) :
    (user.answered asset inputs recvAddr changeAddr orderId).answersSwap =
      some (user.request asset inputs recvAddr changeAddr, orderId) := rfl

/-- The amounts of a request. -/
def StartSwapClientRequest.amounts (req : StartSwapClientRequest) (liquidAssetId : AssetId) :
    Amounts where
  sendAsset := (swapAssets liquidAssetId req.asset req.sendBitcoins).1
  recvAsset := (swapAssets liquidAssetId req.asset req.sendBitcoins).2
  sendAmount := u64 req.sendAmount
  recvAmount := u64 req.recvAmount

/-- The request asks the server for what the user asks for. -/
structure SwapRequest.States (user : SwapRequest) (req : StartSwapClientRequest) : Prop where
  asset : fromStr user.asset = some req.asset
  sendBitcoins : user.sendBitcoins = req.sendBitcoins
  sendAmount : user.sendAmount = req.sendAmount
  recvAmount : user.recvAmount = req.recvAmount

/-- The last answered request is for this order and these amounts, and the user
    has asked for it. -/
def Approves (liquidAssetId : AssetId) (log : List Event) (orderId : OrderId)
    (amounts : Amounts) : Prop :=
  ∃ req user, latest Event.answersSwap log = some (req, orderId) ∧
    .received (.ui (.swapRequest user)) ∈ log ∧ SwapRequest.States user req ∧
    amounts = req.amounts liquidAssetId

/-- The PSETs signed for the last answered request. -/
def swapSignatures (log : List Event) : Nat :=
  (since Event.answersSwap log).countP fun e => e.signsSwap.isSome

/-- The signed PSETs sent for the last answered request. -/
def swapRequests (log : List Event) : Nat :=
  (since Event.answersSwap log).countP Event.sendsSwap

/-- A PSET of an instant swap arrives. -/
def Event.asksSwap : Event → Option BlindedSwapClientNotification
  | .received (.serverNotification (.blindedSwapClient msg)) => some msg
  | _ => none

/-! ## The swaps of the signing protocol -/

/-- The part of the book that instant swaps depend on. -/
structure Swaps where
  liquidAssetId : AssetId
  active : Option ActiveSwap
  log : List Event

def Book.swaps (b : Book) : Swaps where
  liquidAssetId := b.liquidAssetId
  active := b.activeSwap
  log := b.log

def Swaps.emit (v : Swaps) (e : Event) : Swaps := { v with log := v.log ++ [e] }

/-- An event that is no step of a swap. -/
structure SwapFree (e : Event) : Prop where
  answers : e.answersSwap = none
  signs : e.signsSwap = none
  sends : e.sendsSwap = false

/-- What happens to swaps while a message is handled. -/
inductive SwapMove : Swaps → Swaps → Prop where
  | note {v e} : SwapFree e → e.asksSwap = none → SwapMove v (v.emit e)
  /-- the approval is withdrawn -/
  | drop {v} : SwapMove v { v with active := none }
  /-- a request of the user is approved -/
  | start {v user asset inputs recvAddr changeAddr orderId} :
      Event.received (.ui (.swapRequest user)) ∈ v.log → fromStr user.asset = some asset →
      SwapMove v { v.emit (user.answered asset inputs recvAddr changeAddr orderId) with
        active := some (user.swap v.liquidAssetId asset orderId) }
  /-- a PSET has arrived for the approved swap and is signed and sent -/
  | sign {v swap msg signedPset res} : v.active = some swap → swap.orderId = msg.orderId →
      v.log.getLast?.bind Event.asksSwap = some msg →
      SwapMove v ((v.emit (.verified .blindedSwapClient msg.orderId swap.amounts msg.pset
        (.ok signedPset))).emit (.request (.signedSwapClient msg.orderId signedPset) res))

theorem swapFree_of_isQuiet {e : Event} (h : e.isQuiet = true) :
    SwapFree e ∧ e.asksSwap = none := by
  cases e with
  | received msg => exact nomatch h
  | verified signer id amounts pset res => exact nomatch h
  | request req res =>
      cases req with
      | signedSwapClient orderId pset => exact nomatch h
      | startSwapClient req =>
          match res with
          | .error _ => exact ⟨⟨rfl, rfl, rfl⟩, rfl⟩
          | .ok resp =>
              cases resp with
              | startSwapClient orderId => exact nomatch h
              | _ => exact ⟨⟨rfl, rfl, rfl⟩, rfl⟩
      | _ => exact ⟨⟨rfl, rfl, rfl⟩, rfl⟩
  | _ => exact ⟨⟨rfl, rfl, rfl⟩, rfl⟩

theorem Attempt.swapMoves {msg : SignNotification} {b b' : Book} (h : Attempt msg b b') :
    ReflTransGen SwapMove b.swaps b'.swaps := by
  cases h with
  | none => exact .refl
  | refused _ => exact .single (.note ⟨rfl, rfl, rfl⟩ rfl)
  | sent _ =>
      exact .tail (.single (.note ⟨rfl, rfl, rfl⟩ rfl)) (.note ⟨rfl, rfl, rfl⟩ rfl)

/-- **SWAPS**: what the protocol does to swaps. -/
theorem Move.swapMoves {b b' : Book} (h : Move b b') : ReflTransGen SwapMove b.swaps b'.swaps := by
  cases h with
  | note hquiet =>
      obtain ⟨hfree, hasks⟩ := swapFree_of_isQuiet hquiet
      exact .single (.note hfree hasks)
  | login _ => exact .refl
  | logout => exact .single .drop
  | accept _ _ => exact .single (.note ⟨rfl, rfl, rfl⟩ rfl)
  | addMissing _ _ _ => exact .refl
  | refuse _ => exact .refl
  | queue _ _ _ _ => exact .single (.note ⟨rfl, rfl, rfl⟩ rfl)
  | @autoSign msg entry precision _ _ _ _ _ hattempt =>
      have htake : SwapMove b.swaps (b.take msg entry precision).swaps :=
        .note ⟨rfl, rfl, rfl⟩ rfl
      exact .head htake hattempt.swapMoves
  | prompt _ _ => exact .single (.note ⟨rfl, rfl, rfl⟩ rfl)
  | dropPrompt _ => exact .refl
  | decide _ _ hattempt => exact hattempt.swapMoves
  | edit _ => exact .single (.note ⟨rfl, rfl, rfl⟩ rfl)
  | editEntry _ => exact .single (.note ⟨rfl, rfl, rfl⟩ rfl)
  | editAutoSign _ _ => exact .refl
  | mark _ => exact .refl
  | complete _ => exact .refl
  | startSwap hasked hasset => exact .single (.start hasked hasset)
  | refuseSwap _ _ _ => exact .single (.note ⟨rfl, rfl, rfl⟩ rfl)
  | signSwap hactive horder hlast =>
      refine .single (.sign hactive horder ?_)
      show b.log.getLast?.bind Event.asksSwap = _
      rw [hlast]
      rfl
  | swapDone => exact .single .drop

/-- **INVARIANT RULE**: a property of swaps in every run. -/
theorem reaches_swaps {world : World} {ok : System → Message → Prop} {I : Swaps → Prop}
    (h0 : ∀ liquidAssetId, I ⟨liquidAssetId, none, []⟩)
    (hreceive : ∀ s msg, ok s msg → I s.data.book.swaps →
      I (s.data.book.swaps.emit (.received msg)))
    (hmove : ∀ v v', SwapMove v v' → I v → I v') {s : System} (h : Reaches world ok s) :
    I s.data.book.swaps := by
  refine reaches_invariant (I := fun b => I b.swaps) h0 hreceive (fun b b' hm hI => ?_) h
  have hmoves := hm.swapMoves
  generalize b'.swaps = v' at hmoves
  induction hmoves with
  | refl => exact hI
  | tail _ hlast ih => exact hmove _ _ hlast ih

/-! ## The approved amounts -/

theorem Approves.grow {liquidAssetId : AssetId} {log : List Event} {orderId : OrderId}
    {amounts : Amounts} (h : Approves liquidAssetId log orderId amounts) {e : Event}
    (he : e.answersSwap = none) : Approves liquidAssetId (log ++ [e]) orderId amounts := by
  obtain ⟨req, user, hlatest, hasked, hstates, hamounts⟩ := h
  refine ⟨req, user, ?_, List.mem_append_left _ hasked, hstates, hamounts⟩
  rw [latest_concat_none he]
  exact hlatest

/-- A PSET is signed for the order and the amounts approved last. -/
def SignsApproved (liquidAssetId : AssetId) (log : List Event) (e : Event) : Prop :=
  ∀ orderId amounts, e.signsSwap = some (orderId, amounts) →
    Approves liquidAssetId log orderId amounts

/-- The approval in `active_swap`, and the signatures that rested on it. -/
structure ApprovalInv (v : Swaps) : Prop where
  approved : ∀ swap, v.active = some swap →
    Approves v.liquidAssetId v.log swap.orderId swap.amounts
  signatures : Justified (SignsApproved v.liquidAssetId) v.log

theorem ApprovalInv.emit {v : Swaps} (h : ApprovalInv v) {e : Event}
    (hanswers : e.answersSwap = none) (hsigns : SignsApproved v.liquidAssetId v.log e) :
    ApprovalInv (v.emit e) where
  approved := fun swap hswap => (h.approved swap hswap).grow hanswers
  signatures := h.signatures.concat hsigns

theorem signsApproved_of_none {liquidAssetId : AssetId} {log : List Event} {e : Event}
    (h : e.signsSwap = none) : SignsApproved liquidAssetId log e := by
  intro orderId amounts hsigns
  rw [h] at hsigns
  exact nomatch hsigns

theorem SwapMove.approvalInv {v v' : Swaps} (h : SwapMove v v') (hI : ApprovalInv v) :
    ApprovalInv v' := by
  cases h with
  | note hfree _ => exact hI.emit hfree.answers (signsApproved_of_none hfree.signs)
  | drop => exact { hI with approved := fun _ hnone => nomatch hnone }
  | @start user asset inputs recvAddr changeAddr orderId hasked hasset =>
      refine
        { approved := fun swap hswap => ?_
          signatures := hI.signatures.concat (signsApproved_of_none rfl) }
      cases hswap
      have hlatest : latest Event.answersSwap
          (v.log ++ [user.answered asset inputs recvAddr changeAddr orderId]) =
            some (user.request asset inputs recvAddr changeAddr, orderId) :=
        latest_concat_some (answersSwap_answered user asset inputs recvAddr changeAddr orderId) _
      exact ⟨_, user, hlatest, List.mem_append_left _ hasked, ⟨hasset, rfl, rfl, rfl⟩, rfl⟩
  | @sign swap msg signedPset res hactive horder _ =>
      have happroved : Approves v.liquidAssetId v.log msg.orderId swap.amounts :=
        horder ▸ hI.approved swap hactive
      have hsigned : ApprovalInv (v.emit (.verified .blindedSwapClient msg.orderId swap.amounts
          msg.pset (.ok signedPset))) := by
        refine hI.emit rfl fun orderId amounts hsigns => ?_
        cases hsigns
        exact happroved
      exact hsigned.emit rfl (signsApproved_of_none rfl)

theorem reaches_approvalInv {world : World} {ok : System → Message → Prop} {s : System}
    (h : Reaches world ok s) : ApprovalInv s.data.book.swaps := by
  refine reaches_swaps (fun _ => ?_) (fun _ _ _ hI => hI.emit rfl (signsApproved_of_none rfl))
    (fun _ _ hm hI => hm.approvalInv hI) h
  exact
    { approved := fun _ hnone => nomatch hnone
      signatures := justified_nil _ }

/-! ## One signature -/

theorem swapSignatures_concat {e : Event} (h : e.answersSwap = none) (log : List Event) :
    swapSignatures (log ++ [e]) = swapSignatures log + if e.signsSwap.isSome then 1 else 0 := by
  unfold swapSignatures
  rw [since_concat_none h, List.countP_append, List.countP_singleton]

theorem swapRequests_concat {e : Event} (h : e.answersSwap = none) (log : List Event) :
    swapRequests (log ++ [e]) = swapRequests log + if e.sendsSwap then 1 else 0 := by
  unfold swapRequests
  rw [since_concat_none h, List.countP_append, List.countP_singleton]

/-- One PSET is signed for a request, and what is sent is what is signed. -/
def SignsOnce (log : List Event) : Prop :=
  swapSignatures log ≤ 1 ∧ swapRequests log ≤ swapSignatures log

/-- Nothing has been signed yet for a PSET that has just arrived. -/
structure OnceInv (v : Swaps) : Prop where
  fresh : ∀ msg swap, v.log.getLast?.bind Event.asksSwap = some msg → v.active = some swap →
    swap.orderId = msg.orderId → swapSignatures v.log = 0
  once : Always SignsOnce v.log

/-- An event that is no step of a swap; a PSET must arrive at the right time. -/
theorem OnceInv.emit {v : Swaps} (h : OnceInv v) {e : Event} (he : SwapFree e)
    (hfresh : ∀ msg swap, e.asksSwap = some msg → v.active = some swap →
      swap.orderId = msg.orderId → swapSignatures v.log = 0) : OnceInv (v.emit e) := by
  have hsignatures : swapSignatures (v.log ++ [e]) = swapSignatures v.log := by
    rw [swapSignatures_concat he.answers, he.signs]
    rfl
  have hrequests : swapRequests (v.log ++ [e]) = swapRequests v.log := by
    rw [swapRequests_concat he.answers, he.sends]
    rfl
  refine { fresh := fun msg swap hlast hactive horder => ?_, once := h.once.concat ?_ }
  · change (v.log ++ [e]).getLast?.bind Event.asksSwap = some msg at hlast
    rw [List.getLast?_concat] at hlast
    exact hsignatures.trans (hfresh msg swap hlast hactive horder)
  · show swapSignatures (v.log ++ [e]) ≤ 1 ∧ swapRequests (v.log ++ [e]) ≤ _
    rw [hsignatures, hrequests]
    exact h.once.now

theorem SwapMove.onceInv {v v' : Swaps} (h : SwapMove v v') (hI : OnceInv v) : OnceInv v' := by
  cases h with
  | note hfree hasks =>
      refine hI.emit hfree fun msg swap hasked => ?_
      rw [hasks] at hasked
      exact nomatch hasked
  | drop => exact { hI with fresh := fun _ _ _ hnone => nomatch hnone }
  | @start user asset inputs recvAddr changeAddr orderId _ _ =>
      -- a new approval starts the count again
      have hsince : since Event.answersSwap
          (v.log ++ [user.answered asset inputs recvAddr changeAddr orderId]) = [] :=
        since_concat_some (answersSwap_answered user asset inputs recvAddr changeAddr orderId) _
      have hsignatures : swapSignatures
          (v.log ++ [user.answered asset inputs recvAddr changeAddr orderId]) = 0 := by
        unfold swapSignatures
        rw [hsince]
        rfl
      have hrequests : swapRequests
          (v.log ++ [user.answered asset inputs recvAddr changeAddr orderId]) = 0 := by
        unfold swapRequests
        rw [hsince]
        rfl
      refine
        { fresh := fun _ _ _ _ _ => hsignatures
          once := hI.once.concat ⟨?_, ?_⟩ }
      · rw [hsignatures]
        exact Nat.zero_le _
      · rw [hrequests]
        exact Nat.zero_le _
  | @sign swap msg signedPset res hactive horder hlast =>
      have hzero := hI.fresh msg swap hlast hactive horder
      have hrequests : swapRequests v.log = 0 := Nat.le_zero.mp (hzero ▸ hI.once.now.2)
      let signed : Event := .verified .blindedSwapClient msg.orderId swap.amounts msg.pset
        (.ok signedPset)
      let sent : Event := .request (.signedSwapClient msg.orderId signedPset) res
      have hsigned : swapSignatures (v.log ++ [signed]) = 1 ∧
          swapRequests (v.log ++ [signed]) = 0 := by
        rw [swapSignatures_concat rfl, swapRequests_concat rfl, hzero, hrequests]
        exact ⟨rfl, rfl⟩
      have hsent : swapSignatures (v.log ++ [signed] ++ [sent]) = 1 ∧
          swapRequests (v.log ++ [signed] ++ [sent]) = 1 := by
        rw [swapSignatures_concat rfl, swapRequests_concat rfl, hsigned.1, hsigned.2]
        exact ⟨rfl, rfl⟩
      refine
        { fresh := fun other _ hother => ?_
          once := (hI.once.concat ⟨hsigned.1.le, ?_⟩).concat ⟨hsent.1.le, ?_⟩ }
      · change (v.log ++ [signed] ++ [sent]).getLast?.bind Event.asksSwap = some other at hother
        rw [List.getLast?_concat] at hother
        exact nomatch hother
      · rw [hsigned.2]
        exact Nat.zero_le _
      · rw [hsent.1, hsent.2]

/-- A PSET arrives for the approved swap when one has been signed for it. -/
def asksAgain (s : System) : Message → Bool
  | .serverNotification (.blindedSwapClient msg) =>
      s.data.activeSwap.any (fun swap => swap.orderId == msg.orderId) &&
        swapSignatures s.data.log != 0
  | _ => false

theorem swapFree_received (msg : Message) : SwapFree (.received msg) := ⟨rfl, rfl, rfl⟩

theorem OnceInv.received {s : System} (h : OnceInv s.data.book.swaps) {msg : Message}
    (hok : asksAgain s msg = false) : OnceInv (s.data.book.swaps.emit (.received msg)) := by
  refine h.emit (swapFree_received msg) fun asked swap hasked hactive horder => ?_
  unfold Event.asksSwap at hasked
  split at hasked
  · next msg' hmsg =>
      cases hmsg
      cases hasked
      by_contra hsigned
      change (s.data.activeSwap.any (fun swap => swap.orderId == asked.orderId) &&
        swapSignatures s.data.log != 0) = false at hok
      change s.data.activeSwap = some swap at hactive
      rw [hactive, Option.any_some, horder, beq_self_eq_true, Bool.true_and] at hok
      have hnone : swapSignatures s.data.log = 0 := by simpa using hok
      exact hsigned hnone
  · exact nomatch hasked

theorem reaches_onceInv {world : World} {s : System}
    (h : Reaches world (fun s msg => asksAgain s msg = false) s) :
    OnceInv s.data.book.swaps := by
  refine reaches_swaps (fun _ => ?_) (fun _ _ hok hI => hI.received hok)
    (fun _ _ hm hI => hm.onceInv hI) h
  exact
    { fresh := fun _ _ hlast => nomatch hlast
      once := always_nil ⟨Nat.zero_le _, Nat.zero_le _⟩ }

/-- **ONE SWAP, ONE SIGNATURE**: in every run in which no PSET arrives for a
    swap that has been signed, at most one PSET is signed and sent for an
    answered request at any time, and each one is verified against the amounts
    of the request that was answered last. -/
theorem signs_swap_once {world : World} {s : System}
    (h : Reaches world (fun s msg => asksAgain s msg = false) s) (n : Nat) :
    swapSignatures (s.data.log.take n) ≤ 1 ∧ swapRequests (s.data.log.take n) ≤ 1 ∧
      ∀ e orderId amounts, s.data.log[n]? = some e → e.signsSwap = some (orderId, amounts) →
        Approves s.data.liquidAssetId (s.data.log.take n) orderId amounts := by
  have honce := (reaches_onceInv h).once n
  refine ⟨honce.1, honce.2.trans honce.1, fun e orderId amounts he hsigns => ?_⟩
  exact (reaches_approvalInv h).signatures n e he orderId amounts hsigns

/-- The user swaps one unit of the token for two bitcoins. -/
def Sample.swapping : List Message :=
  connecting ++ [.ui (.swapRequest
    { sendBitcoins := false, asset := toText token, sendAmount := 100000000
      recvAmount := 200000000, price := 2 })]

/-- A PSET for the swap arrives. -/
def Sample.blinded (pset : String) : Message :=
  .serverNotification (.blindedSwapClient ⟨swapOrder, pset⟩)

/-- A swap is signed once, when its PSET arrives. -/
theorem answered_swap_signed :
    let s := run (Sample.world .taker) Sample.bitcoin [Sample.asset]
      (Sample.swapping ++ [Sample.blinded "swap pset"])
    swapSignatures s.data.log = 1 ∧ swapSignatures (s.data.log.take s.data.log.length) ≤ 1 ∧
      swapRequests (s.data.log.take s.data.log.length) ≤ 1 := by
  intro s
  have hreach : Reaches (Sample.world .taker) (fun s msg => asksAgain s msg = false) s :=
    reaches_run (by decide +kernel)
  obtain ⟨hsigned, hsent, _⟩ := signs_swap_once hreach s.data.log.length
  exact ⟨by decide +kernel, hsigned, hsent⟩

/-- **TWO SIGNATURES**: a second PSET for the swap is signed and sent like the
    first one. -/
theorem signs_swap_twice :
    let s := run (Sample.world .taker) Sample.bitcoin [Sample.asset]
      (Sample.swapping ++ [Sample.blinded "swap pset", Sample.blinded "another pset"])
    swapSignatures s.data.log = 2 ∧ swapRequests s.data.log = 2 := by
  decide +kernel

end Client
