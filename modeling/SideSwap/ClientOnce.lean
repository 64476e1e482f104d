import SideSwap.ClientMoves

/-! # One signature for one order

    A `Sign` message that is to be signed is a token: it sits in the queue of
    prompts, or is the prompt on the screen, or has become a `Sign` request.
    A token is made only when its order enters `processed_signs`, which never
    shrinks, and every later move hands it on or drops it.  So no order ever
    has more tokens than its place in `processed_signs` allows, whatever is
    delivered again and whatever the user does in between. -/

namespace Client

open Api Program Relation Transition

/-- A `Sign` request for an order is sent to the server. -/
def Event.sendsSign (orderId : OrderId) : Event → Bool
  | .request (.sign req) _ => req.orderId == orderId
  | _ => false

/-- The `Sign` messages of an order that wait, and its `Sign` requests. -/
def tokenCount (orderId : OrderId) (prompts : List SignNotification)
    (active : Option SignNotification) (log : List Event) : Nat :=
  prompts.countP (fun msg => msg.orderId == orderId) +
  active.toList.countP (fun msg => msg.orderId == orderId) +
  log.countP (Event.sendsSign orderId)

/-- The `Sign` messages and requests of an order, wherever they are. -/
def Book.tokens (b : Book) (orderId : OrderId) : Nat :=
  tokenCount orderId b.pendingSignPrompts b.activeSign b.log

/-- How many an order may have. -/
def Book.allowance (b : Book) (orderId : OrderId) : Nat :=
  if b.processedSigns.contains orderId then 1 else 0

/-- No order has more than it may. -/
def OneToken (b : Book) : Prop := ∀ orderId, b.tokens orderId ≤ b.allowance orderId

theorem sendsSign_of_isQuiet {e : Event} (h : e.isQuiet = true) (orderId : OrderId) :
    e.sendsSign orderId = false := by
  cases e with
  | request req res =>
      cases req with
      | sign req => exact nomatch h
      | _ => rfl
  | _ => rfl

/-- A `Sign` request is a token, any other event is none. -/
theorem tokenCount_concat (orderId : OrderId) (prompts : List SignNotification)
    (active : Option SignNotification) (log : List Event) (e : Event) :
    tokenCount orderId prompts active (log ++ [e]) =
      tokenCount orderId prompts active log + if e.sendsSign orderId then 1 else 0 := by
  unfold tokenCount
  rw [List.countP_append, List.countP_singleton]
  omega

theorem tokens_emit {b : Book} {e : Event} {orderId : OrderId}
    (h : e.sendsSign orderId = false) : (b.emit e).tokens orderId = b.tokens orderId := by
  show tokenCount orderId b.pendingSignPrompts b.activeSign (b.log ++ [e]) = _
  rw [tokenCount_concat, h]
  rfl

/-- An attempt to sign makes at most one request, for its own order. -/
theorem Attempt.tokens_le {msg : SignNotification} {b b' : Book} (h : Attempt msg b b')
    (orderId : OrderId) :
    b'.tokens orderId ≤ b.tokens orderId + if msg.orderId == orderId then 1 else 0 := by
  cases h with
  | none => exact Nat.le_add_right _ _
  | refused _ =>
      rw [tokens_emit rfl]
      exact Nat.le_add_right _ _
  | @sent entry signedPset res _ =>
      show tokenCount orderId b.pendingSignPrompts b.activeSign ((b.log ++ [_]) ++ [_]) ≤ _
      rw [tokenCount_concat, tokenCount_concat]
      exact Nat.le_refl _

theorem Attempt.processedSigns_eq {msg : SignNotification} {b b' : Book} (h : Attempt msg b b') :
    b'.processedSigns = b.processedSigns := by
  cases h <;> rfl

/-- Taking an order's message gives it one place. -/
theorem allowance_insert {b : Book} {b' : Book} {orderId : OrderId}
    (h : b'.processedSigns = b.processedSigns.insert orderId) (id : OrderId) :
    b'.allowance id = if orderId == id then 1 else b.allowance id := by
  unfold Book.allowance
  rw [h, Std.TreeSet.contains_insert]
  by_cases heq : orderId = id
  · subst heq
    simp
  · have hne : (compare orderId id == .eq) = false := by
      simpa using heq
    rw [hne, Bool.false_or, beq_false_of_ne heq]
    rfl

/-- A move that makes no token and takes no place keeps the balance. -/
theorem OneToken.same {b b' : Book} (h : OneToken b)
    (htokens : ∀ id, b'.tokens id ≤ b.tokens id)
    (hplaces : b'.processedSigns = b.processedSigns) : OneToken b' := by
  intro id
  have hallow : b'.allowance id = b.allowance id := by
    unfold Book.allowance
    rw [hplaces]
  rw [hallow]
  exact (htokens id).trans (h id)

/-- The first message of an order makes its token. -/
theorem OneToken.take {b b' : Book} {orderId : OrderId} (h : OneToken b)
    (hfresh : b.processedSigns.contains orderId = false)
    (htokens : ∀ id, b'.tokens id ≤ b.tokens id + if orderId == id then 1 else 0)
    (hplaces : b'.processedSigns = b.processedSigns.insert orderId) : OneToken b' := by
  intro id
  rw [allowance_insert hplaces id]
  have hid := h id
  have hle := htokens id
  by_cases heq : orderId = id
  · subst heq
    have hzero : b.allowance orderId = 0 := by
      unfold Book.allowance
      rw [hfresh]
      rfl
    rw [beq_self_eq_true, if_pos rfl] at hle ⊢
    omega
  · rw [beq_false_of_ne heq] at hle ⊢
    exact hle.trans hid

/-- **TOKENS**: every move keeps the balance of every order. -/
theorem Move.oneToken {b b' : Book} (h : Move b b') (hI : OneToken b) : OneToken b' := by
  cases h with
  | note hquiet =>
      refine hI.same (fun id => ?_) rfl
      rw [tokens_emit (sendsSign_of_isQuiet hquiet id)]
  | login _ => exact hI.same (fun _ => Nat.le_refl _) rfl
  | logout =>
      refine hI.same (fun id => ?_) rfl
      show tokenCount id b.pendingSignPrompts Option.none b.log ≤ _
      unfold Book.tokens tokenCount
      simp only [Option.toList_none, List.countP_nil]
      omega
  | accept _ _ => exact hI.same (fun id => (tokens_emit rfl).le) rfl
  | addMissing _ _ _ => exact hI.same (fun _ => Nat.le_refl _) rfl
  | refuse hfresh => exact hI.take hfresh (fun _ => Nat.le_add_right _ _) rfl
  | @queue msg entry precision hfresh _ _ _ =>
      refine hI.take hfresh (fun id => ?_) rfl
      show tokenCount id (b.pendingSignPrompts ++ [msg]) b.activeSign (b.log ++ [_]) ≤ _
      rw [tokenCount_concat]
      unfold Book.tokens tokenCount
      rw [List.countP_append, List.countP_singleton]
      show _ + 0 ≤ _
      omega
  | @autoSign msg entry precision _ hfresh _ _ _ hattempt =>
      refine hI.take hfresh (fun id => (hattempt.tokens_le id).trans ?_)
        hattempt.processedSigns_eq
      have htake : (b.take msg entry precision).tokens id = b.tokens id :=
        tokens_emit (e := .checked msg entry precision) (b := b) rfl
      rw [htake]
  | @prompt msg rest entry hqueue _ =>
      refine hI.same (fun id => ?_) rfl
      show tokenCount id rest (some msg) (b.log ++ [_]) ≤ _
      rw [tokenCount_concat]
      unfold Book.tokens tokenCount
      rw [hqueue, List.countP_cons, Option.toList_some, List.countP_singleton]
      show _ + 0 ≤ _
      omega
  | @dropPrompt msg rest hqueue =>
      refine hI.same (fun id => ?_) rfl
      show tokenCount id rest b.activeSign b.log ≤ _
      unfold Book.tokens tokenCount
      rw [hqueue, List.countP_cons]
      omega
  | @decide msg _ hactive _ hattempt =>
      refine hI.same (fun id => (hattempt.tokens_le id).trans ?_) hattempt.processedSigns_eq
      show tokenCount id b.pendingSignPrompts Option.none b.log + _ ≤ _
      unfold Book.tokens tokenCount
      rw [hactive, Option.toList_none, Option.toList_some, List.countP_nil, List.countP_singleton]
      omega
  | edit _ => exact hI.same (fun id => (tokens_emit rfl).le) rfl
  | editEntry _ => exact hI.same (fun id => (tokens_emit rfl).le) rfl
  | editAutoSign _ _ => exact hI.same (fun _ => Nat.le_refl _) rfl
  | mark _ => exact hI.same (fun _ => Nat.le_refl _) rfl
  | complete _ => exact hI.same (fun _ => Nat.le_refl _) rfl
  | startSwap _ _ =>
      refine hI.same (fun id => ?_) rfl
      show tokenCount id b.pendingSignPrompts b.activeSign (b.log ++ [_]) ≤ _
      rw [tokenCount_concat]
      exact Nat.le_refl _
  | refuseSwap _ _ _ => exact hI.same (fun id => (tokens_emit rfl).le) rfl
  | signSwap _ _ _ =>
      exact hI.same (fun id => ((tokens_emit rfl).trans (tokens_emit rfl)).le) rfl
  | swapDone => exact hI.same (fun _ => Nat.le_refl _) rfl

theorem reaches_oneToken {world : World} {ok : System → Message → Prop} {s : System}
    (h : Reaches world ok s) : OneToken s.data.book := by
  refine reaches_invariant (fun _ _ => Nat.zero_le _) (fun s msg _ hI => ?_)
    (fun _ _ hm hI => hm.oneToken hI) h
  refine hI.same (fun id => ?_) rfl
  exact (tokens_emit (b := s.data.book) (e := .received msg) rfl).le

/-- **ONE SIGNATURE PER ORDER**: in every run, whatever is delivered, repeated,
    decided, edited, dropped or logged out, at most one `Sign` request is sent
    for an order. -/
theorem signs_order_at_most_once {world : World} {s : System}
    (h : Reaches world (fun _ _ => True) s) (orderId : OrderId) :
    s.data.log.countP (Event.sendsSign orderId) ≤ 1 := by
  have htokens := reaches_oneToken h orderId
  have hplaces : s.data.book.allowance orderId ≤ 1 := by
    unfold Book.allowance
    split <;> omega
  have hcount : s.data.log.countP (Event.sendsSign orderId) ≤ s.data.book.tokens orderId :=
    Nat.le_add_left _ _
  omega

/-- The `Sign` message of an accepted order is delivered twice, announced by a
    push message and downloaded, and leads to one request. -/
theorem repeated_sign_sent_once :
    let s := run (Sample.world .taker) Sample.bitcoin [Sample.asset]
      (Sample.accepting ++
        [.serverNotification (.sign (Sample.sign .taker)),
          .serverNotification (.sign (Sample.sign .taker)),
          .ui (.pushMessage (some (.sign Sample.order))),
          .serverDisconnected, .ui .logout])
    s.data.log.countP (Event.sendsSign Sample.order) = 1 ∧
      s.data.log.countP (Event.sendsSign Sample.order) ≤ 1 := by
  intro s
  have hreach : Reaches (Sample.world .taker) (fun _ _ => True) s :=
    reaches_run (by decide +kernel)
  exact ⟨by decide +kernel, signs_order_at_most_once hreach Sample.order⟩

end Client
