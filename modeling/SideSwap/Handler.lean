import Mathlib.Logic.Relation
import SideSwap.Program

/-! # Handlers over a state

    A handler that changes a state, passes errors up with `?` and may panic is
    a `Prog`.  What it did to the state before it stopped stays done, so an
    early end leaves a state too.

    The second half is the rule book for simulations.  A `view` forgets the
    part of the state that a protocol does not speak of, and `Moves` are the
    protocol's transitions.  `Leads v p s` says that running `p` on `s` ends,
    however it ends, in a state whose view is reached from `v` by moves.  The
    view `v` is the last one accounted for: changes pile up in `s` until they
    make a move, and `Leads.commit` books them. -/

namespace Program

variable {σ τ α β : Type}

/-- How a handler stops early. -/
inductive Stop where
  /-- an error value that `?` passes up -/
  | error (msg : String)
  | panic (p : Panic)
deriving DecidableEq, Repr

/-- A handler over the state `σ`. -/
abbrev Prog (σ α : Type) := ExceptT Stop (StateM σ) α

/-- How the handler ends on a state, and the state it leaves. -/
def exec (p : Prog σ α) (s : σ) : Except Stop α × σ := p.run s

/-- `bail!` and the error half of `?`. -/
def bail (msg : String) : Prog σ α := throw (.error msg)

/-- `ensure!`. -/
def ensure (b : Bool) (msg : String) : Prog σ Unit := if b then pure () else bail msg

/-- `ok_or`, followed by `?`. -/
def okOr (o : Option α) (msg : String) : Prog σ α :=
  match o with
  | some a => pure a
  | none => bail msg

/-- A result with `?` applied to it. -/
def ofResult (r : Except String α) : Prog σ α :=
  match r with
  | .ok a => pure a
  | .error msg => bail msg

/-- A computation that may panic. -/
def ofPanic (r : Except Panic α) : Prog σ α :=
  match r with
  | .ok a => pure a
  | .error p => throw (.panic p)

/-- A computation that may do either. -/
def ofStop (r : Except Stop α) : Prog σ α :=
  match r with
  | .ok a => pure a
  | .error e => throw e

/-- Look at the result of a fallible handler; a panic goes through. -/
def attempt (p : Prog σ α) : Prog σ (Except String α) :=
  fun s => match exec p s with
    | (.ok a, s') => (.ok (.ok a), s')
    | (.error (.error msg), s') => (.ok (.error msg), s')
    | (.error (.panic e), s') => (.error (.panic e), s')

/-! ## Running a handler step by step -/

@[simp] theorem exec_pure (a : α) (s : σ) : exec (pure a : Prog σ α) s = (.ok a, s) := rfl

@[simp] theorem exec_get (s : σ) : exec (get : Prog σ σ) s = (.ok s, s) := rfl

@[simp] theorem exec_modify (f : σ → σ) (s : σ) :
    exec (modify f : Prog σ Unit) s = (.ok (), f s) := rfl

/-- A sequence stops where its first part stops. -/
theorem exec_bind (p : Prog σ α) (f : α → Prog σ β) (s : σ) :
    exec (p >>= f) s = match exec p s with
      | (.ok a, s') => exec (f a) s'
      | (.error e, s') => (.error e, s') := by
  show (ExceptT.bind p f : Prog σ β) s = _
  show (match (p s : Except Stop α × σ) with
      | (r, s') => (ExceptT.bindCont f r : StateM σ (Except Stop β)) s') = _
  show _ = match (p s : Except Stop α × σ) with
      | (.ok a, s') => exec (f a) s'
      | (.error e, s') => (.error e, s')
  rcases (p s : Except Stop α × σ) with ⟨_ | _, s'⟩ <;> rfl

@[simp] theorem exec_get_bind (f : σ → Prog σ β) (s : σ) :
    exec (get >>= f) s = exec (f s) s := by
  rw [exec_bind, exec_get]

@[simp] theorem exec_modify_bind (g : σ → σ) (f : Unit → Prog σ β) (s : σ) :
    exec (modify g >>= f) s = exec (f ()) (g s) := by
  rw [exec_bind, exec_modify]

@[simp] theorem exec_okOr_some_bind (a : α) (msg : String) (f : α → Prog σ β) (s : σ) :
    exec (okOr (some a) msg >>= f) s = exec (f a) s := rfl

@[simp] theorem exec_okOr_none_bind (msg : String) (f : α → Prog σ β) (s : σ) :
    exec (okOr none msg >>= f) s = (.error (.error msg), s) := rfl

@[simp] theorem exec_ofResult_ok_bind (a : α) (f : α → Prog σ β) (s : σ) :
    exec (ofResult (.ok a) >>= f) s = exec (f a) s := rfl

@[simp] theorem exec_ofResult_error_bind (msg : String) (f : α → Prog σ β) (s : σ) :
    exec (ofResult (.error msg) >>= f) s = (.error (.error msg), s) := rfl

/-- A computation that returns is passed through. -/
theorem exec_ofPanic_ok_bind {r : Except Panic α} {a : α} (h : r = .ok a) (f : α → Prog σ β)
    (s : σ) : exec (ofPanic r >>= f) s = exec (f a) s := by
  rw [h]
  rfl

@[simp] theorem exec_ensure_true_bind (msg : String) (f : Unit → Prog σ β) (s : σ) :
    exec (ensure true msg >>= f) s = exec (f ()) s := rfl

@[simp] theorem exec_ensure_false_bind (msg : String) (f : Unit → Prog σ β) (s : σ) :
    exec (ensure false msg >>= f) s = (.error (.error msg), s) := rfl

/-- Looking at a result changes nothing. -/
theorem exec_attempt (p : Prog σ α) (s : σ) : (exec (attempt p) s).2 = (exec p s).2 := by
  show (attempt p s).2 = _
  unfold attempt
  rcases exec p s with ⟨(_ | _) | _, s'⟩ <;> rfl

/-- What follows a look at a result, by the result. -/
theorem exec_attempt_bind (p : Prog σ α) (f : Except String α → Prog σ β) (s : σ) :
    exec (attempt p >>= f) s = match exec p s with
      | (.ok a, s') => exec (f (.ok a)) s'
      | (.error (.error msg), s') => exec (f (.error msg)) s'
      | (.error (.panic e), s') => (.error (.panic e), s') := by
  have hattempt : exec (attempt p) s = match exec p s with
      | (.ok a, s') => (.ok (.ok a), s')
      | (.error (.error msg), s') => (.ok (.error msg), s')
      | (.error (.panic e), s') => (.error (.panic e), s') := rfl
  rw [exec_bind, hattempt]
  rcases exec p s with ⟨(_ | _) | _, s'⟩ <;> rfl

/-- A handler that leaves the state as it is. -/
def Keeps (p : Prog σ α) : Prop := ∀ s, (exec p s).2 = s

theorem keeps_okOr (o : Option α) (msg : String) : Keeps (okOr o msg : Prog σ α) := by
  intro s
  cases o <;> rfl

theorem keeps_ofResult (r : Except String α) : Keeps (ofResult r : Prog σ α) := by
  intro s
  cases r <;> rfl

theorem keeps_ensure (b : Bool) (msg : String) : Keeps (ensure b msg : Prog σ Unit) := by
  intro s
  cases b <;> rfl

theorem keeps_ofStop (r : Except Stop α) : Keeps (ofStop r : Prog σ α) := by
  intro s
  cases r <;> rfl

theorem Keeps.bind {p : Prog σ α} {f : α → Prog σ β} (hp : Keeps p) (hf : ∀ a, Keeps (f a)) :
    Keeps (p >>= f) := by
  intro s
  have hs := hp s
  rw [exec_bind]
  rcases h : exec p s with ⟨_ | a, s'⟩
  · rw [h] at hs
    exact hs
  · rw [h] at hs
    exact (hf a s').trans hs

/-! ## Simulation -/

section Simulation

variable {view : σ → τ} {Move : τ → τ → Prop}

/-- Running `p` on `s` ends in a view reached from `v`. -/
def Leads (view : σ → τ) (Move : τ → τ → Prop) (v : τ) (p : Prog σ α) (s : σ) : Prop :=
  Relation.ReflTransGen Move v (view (exec p s).2)

/-- The handler's runs are runs of the protocol, from every state. -/
def Follows (view : σ → τ) (Move : τ → τ → Prop) (p : Prog σ α) : Prop :=
  ∀ s, Leads view Move (view s) p s

variable {v : τ} {s : σ}

/-- **COMMIT**: what has piled up is accounted for. -/
theorem Leads.commit {p : Prog σ α} (h : Relation.ReflTransGen Move v (view s))
    (hp : Leads view Move (view s) p s) : Leads view Move v p s :=
  h.trans hp

theorem Leads.get {f : σ → Prog σ β} (h : Leads view Move v (f s) s) :
    Leads view Move v (MonadState.get >>= f) s := by
  unfold Leads
  rw [exec_get_bind]
  exact h

theorem Leads.modify {g : σ → σ} {f : Unit → Prog σ β} (h : Leads view Move v (f ()) (g s)) :
    Leads view Move v (MonadState.modifyGet (fun s => ((), g s)) >>= f) s := by
  unfold Leads
  rw [show exec (MonadState.modifyGet (fun s => ((), g s)) >>= f) s = exec (f ()) (g s) from
    exec_modify_bind g f s]
  exact h

theorem Leads.keeps {p : Prog σ α} (hp : Keeps p) (h : Relation.ReflTransGen Move v (view s)) :
    Leads view Move v p s := by
  unfold Leads
  rw [hp s]
  exact h

/-- **SEQUENCE**: first one handler, then another from wherever it returned. -/
theorem Leads.bind {p : Prog σ α} {f : α → Prog σ β} (hp : Leads view Move v p s)
    (hf : ∀ a s', exec p s = (.ok a, s') → Relation.ReflTransGen Move v (view s') →
      Leads view Move v (f a) s') : Leads view Move v (p >>= f) s := by
  unfold Leads at hp ⊢
  rw [exec_bind]
  rcases h : exec p s with ⟨_ | a, s'⟩
  · rw [h] at hp
    exact hp
  · rw [h] at hp
    exact hf a s' h hp

/-- The same, where what the first part does is accounted for only if it fails,
    and else together with the rest. -/
theorem Leads.bindEnds {p : Prog σ α} {f : α → Prog σ β}
    (herror : ∀ e s', exec p s = (.error e, s') → Relation.ReflTransGen Move v (view s'))
    (hf : ∀ a s', exec p s = (.ok a, s') → Leads view Move v (f a) s') :
    Leads view Move v (p >>= f) s := by
  unfold Leads
  rw [exec_bind]
  rcases h : exec p s with ⟨e | a, s'⟩
  · exact herror e s' h
  · exact hf a s' h

theorem Leads.bindKeeps {p : Prog σ α} {f : α → Prog σ β} (hp : Keeps p)
    (h : Relation.ReflTransGen Move v (view s))
    (hf : ∀ a, Leads view Move v (f a) s) : Leads view Move v (p >>= f) s := by
  refine Leads.bind (Leads.keeps hp h) fun a s' hexec _ => ?_
  have hs : s = s' := by
    rw [← hp s, hexec]
  exact hs ▸ hf a

/-- The rest of a sequence starts from what the first part's protocol run left. -/
theorem Leads.call {p : Prog σ α} {f : α → Prog σ β} (hp : Follows view Move p)
    (h : Relation.ReflTransGen Move v (view s))
    (hf : ∀ a s', exec p s = (.ok a, s') → Relation.ReflTransGen Move v (view s') →
      Leads view Move v (f a) s') : Leads view Move v (p >>= f) s :=
  Leads.bind (Leads.commit h (hp s)) hf

theorem Leads.ensure {b : Bool} {msg : String} {f : Unit → Prog σ β}
    (h : Relation.ReflTransGen Move v (view s)) (hf : b = true → Leads view Move v (f ()) s) :
    Leads view Move v (Program.ensure b msg >>= f) s := by
  cases b with
  | false => exact h
  | true => exact hf rfl

theorem Leads.okOr {o : Option α} {msg : String} {f : α → Prog σ β}
    (h : Relation.ReflTransGen Move v (view s))
    (hf : ∀ a, o = some a → Leads view Move v (f a) s) :
    Leads view Move v (Program.okOr o msg >>= f) s := by
  cases o with
  | none => exact h
  | some a => exact hf a rfl

theorem Leads.okSome {a : α} {msg : String} {f : α → Prog σ β}
    (h : Leads view Move v (f a) s) :
    Leads view Move v (Program.okOr (some a) msg >>= f) s := h

theorem Leads.ofResult {r : Except String α} {f : α → Prog σ β}
    (h : Relation.ReflTransGen Move v (view s))
    (hf : ∀ a, r = .ok a → Leads view Move v (f a) s) :
    Leads view Move v (Program.ofResult r >>= f) s := by
  cases r with
  | error msg => exact h
  | ok a => exact hf a rfl

theorem Leads.ofOk {a : α} {f : α → Prog σ β} (h : Leads view Move v (f a) s) :
    Leads view Move v (Program.ofResult (.ok a) >>= f) s := h

theorem Leads.ofPanic {r : Except Panic α} {f : α → Prog σ β}
    (h : Relation.ReflTransGen Move v (view s))
    (hf : ∀ a, r = .ok a → Leads view Move v (f a) s) :
    Leads view Move v (Program.ofPanic r >>= f) s := by
  cases r with
  | error p => exact h
  | ok a => exact hf a rfl

theorem Leads.ofReturned {a : α} {f : α → Prog σ β} (h : Leads view Move v (f a) s) :
    Leads view Move v (Program.ofPanic (.ok a) >>= f) s := h

theorem Leads.ofStop {r : Except Stop α} {f : α → Prog σ β}
    (h : Relation.ReflTransGen Move v (view s))
    (hf : ∀ a, r = .ok a → Leads view Move v (f a) s) :
    Leads view Move v (Program.ofStop r >>= f) s := by
  cases r with
  | error e => exact h
  | ok a => exact hf a rfl

theorem Leads.attempt {p : Prog σ α} (h : Leads view Move v p s) :
    Leads view Move v (Program.attempt p) s := by
  unfold Leads
  rw [exec_attempt]
  exact h

/-- A look at the result of a check. -/
theorem Leads.attemptStop {r : Except Stop α} {f : Except String α → Prog σ β}
    (h : Relation.ReflTransGen Move v (view s))
    (herror : ∀ msg, r = .error (.error msg) → Leads view Move v (f (.error msg)) s)
    (hok : ∀ a, r = .ok a → Leads view Move v (f (.ok a)) s) :
    Leads view Move v (Program.attempt (Program.ofStop r) >>= f) s := by
  cases r with
  | ok a => exact hok a rfl
  | error stop =>
      cases stop with
      | error msg => exact herror msg rfl
      | panic p => exact h

theorem Follows.attempt {p : Prog σ α} (h : Follows view Move p) :
    Follows view Move (Program.attempt p) :=
  fun s => Leads.attempt (h s)

theorem Follows.bind {p : Prog σ α} {f : α → Prog σ β} (hp : Follows view Move p)
    (hf : ∀ a, Follows view Move (f a)) : Follows view Move (p >>= f) :=
  fun _ => Leads.call hp .refl fun a s' _ h => Leads.commit h (hf a s')

/-- A run of a part of the protocol is a run of the whole. -/
theorem Leads.mono {Move' : τ → τ → Prop} (hmono : ∀ a b, Move a b → Move' a b) {p : Prog σ α}
    (h : Leads view Move v p s) : Leads view Move' v p s :=
  Relation.ReflTransGen.mono hmono _ _ h

theorem Follows.mono {Move' : τ → τ → Prop} (hmono : ∀ a b, Move a b → Move' a b)
    {p : Prog σ α} (h : Follows view Move p) : Follows view Move' p :=
  fun s => (h s).mono hmono

/-- A run of a protocol is one of another that each of its moves is a run of. -/
theorem Follows.lift {ρ : Type} {Move' : ρ → ρ → Prop} (f : τ → ρ)
    (hf : ∀ a b, Move a b → Relation.ReflTransGen Move' (f a) (f b)) {p : Prog σ α}
    (h : Follows view Move p) : Follows (f ∘ view) Move' p :=
  fun s => Relation.ReflTransGen.lift' f hf _ _ (h s)

/-- **LOOP**: a loop follows the protocol when each round does. -/
theorem Follows.forM {f : α → Prog σ Unit} (hf : ∀ a, Follows view Move (f a)) :
    ∀ xs : List α, Follows view Move (xs.forM f)
  | [] => fun _ => .refl
  | x :: xs => Follows.bind (hf x) fun _ => Follows.forM hf xs

/-- The same for rounds that rely on something the protocol keeps. -/
theorem Leads.forM {P : σ → Prop} {f : α → Prog σ Unit}
    (hkeep : ∀ s s', Relation.ReflTransGen Move (view s) (view s') → P s → P s') :
    ∀ {xs : List α} {s : σ}, (∀ a ∈ xs, ∀ s, P s → Leads view Move (view s) (f a) s) → P s →
      Leads view Move (view s) (xs.forM f) s
  | [], _, _, _ => .refl
  | x :: xs, s, hf, hP => by
      refine Leads.bind (p := f x) (hf x List.mem_cons_self s hP) fun _ s' _ hreach => ?_
      exact Leads.commit hreach
        (Leads.forM hkeep (fun a ha => hf a (List.mem_cons_of_mem x ha)) (hkeep s s' hreach hP))

end Simulation

/-! ## Requests -/

/-- A request whose result is noted; without a usable result the handler panics. -/
def request {ρ : Type} (reply : σ → Option (Except String ρ))
    (note : Option (Except String ρ) → σ → σ) (value : ρ → Option α) :
    Prog σ (Except String α) := do
  let s ← get
  let res := reply s
  modify (note res)
  match res with
  | none => ofPanic (.error ⟨"request timeout"⟩)
  | some (.error e) => pure (.error e)
  | some (.ok resp) => do
      let value ← ofPanic (expect (value resp) "unexpected response type")
      pure (.ok value)

/-- A result at which a request panics. -/
def Unusable {ρ : Type} (value : ρ → Option α) (res : Option (Except String ρ)) : Prop :=
  (∀ e, res ≠ some (.error e)) ∧ ∀ resp a, res = some (.ok resp) → value resp ≠ some a

/-- A request, by its result. -/
theorem Leads.request {ρ : Type} {view : σ → τ} {Move : τ → τ → Prop} {v : τ} {s : σ}
    {reply : σ → Option (Except String ρ)} {note : Option (Except String ρ) → σ → σ}
    {value : ρ → Option α} {f : Except String α → Prog σ β}
    (hpanic : ∀ res, Unusable value res → Relation.ReflTransGen Move v (view (note res s)))
    (herror : ∀ e, Leads view Move v (f (.error e)) (note (some (.error e)) s))
    (hok : ∀ resp a, value resp = some a →
      Leads view Move v (f (.ok a)) (note (some (.ok resp)) s)) :
    Leads view Move v (Program.request reply note value >>= f) s := by
  show Relation.ReflTransGen Move v (view (exec (Program.request reply note value >>= f) s).2)
  rw [exec_bind]
  simp only [Program.request]
  rw [exec_get_bind, exec_modify_bind]
  cases reply s with
  | none => exact hpanic none ⟨nofun, nofun⟩
  | some res =>
      cases res with
      | error e => exact herror e
      | ok resp =>
          dsimp only
          cases hvalue : value resp with
          | none =>
              rw [expect_none]
              refine hpanic (some (.ok resp)) ⟨nofun, fun resp' a h => ?_⟩
              cases h
              rw [hvalue]
              exact nofun
          | some a =>
              rw [expect_some]
              exact hok resp a hvalue

/-! ## Frames -/

/-- The handler leaves the viewed part of the state alone. -/
abbrev Fixes (view : σ → τ) (p : Prog σ α) : Prop := Follows view emptyRelation p

theorem Fixes.eq {view : σ → τ} {p : Prog σ α} (h : Fixes view p) (s : σ) :
    view (exec p s).2 = view s :=
  (Relation.reflTransGen_iff_eq fun _ => id).mp (h s)

theorem Fixes.of_exec {view : σ → τ} {p : Prog σ α} (h : Fixes view p) {s s' : σ} {a : α}
    (hexec : exec p s = (.ok a, s')) : view s' = view s := by
  rw [← h.eq s, hexec]

/-! ## A part of a state -/

/-- A handler of a part of the state. -/
def zoom (part : σ → τ) (put : τ → σ → σ) (p : Prog τ α) : Prog σ α := fun s =>
  let (res, t) := exec p (part s)
  (res, put t s)

theorem exec_zoom (part : σ → τ) (put : τ → σ → σ) (p : Prog τ α) (s : σ) :
    exec (zoom part put p) s = ((exec p (part s)).1, put (exec p (part s)).2 s) := rfl

/-- What it leaves alone of the part decides what it leaves alone of the whole. -/
theorem Fixes.zoom {ρ υ : Type} {view : σ → ρ} {inner : τ → υ} {part : σ → τ} {put : τ → σ → σ}
    {p : Prog τ α} (hp : Fixes inner p)
    (h : ∀ t s, inner t = inner (part s) → view (put t s) = view s) :
    Fixes view (zoom part put p) := by
  intro s
  show Relation.ReflTransGen _ _ (view (put (exec p (part s)).2 s))
  rw [h _ s (hp.eq (part s))]

/-! ## Pre- and postconditions -/

section Upholding

variable {I E : σ → Prop}

/-- From a state with `I` the handler returns to such a state, and wherever it stops short
    the state satisfies `E`. -/
structure Upholds (I E : σ → Prop) (p : Prog σ α) : Prop where
  returns : ∀ s a s', I s → exec p s = (.ok a, s') → I s'
  stops : ∀ s e s', I s → exec p s = (.error e, s') → E s'

/-- What the condition is about is left alone. -/
theorem Upholds.of_fixes {view : σ → τ} {J K : τ → Prop} {p : Prog σ α} (h : Fixes view p)
    (hJK : ∀ t, J t → K t) : Upholds (fun s => J (view s)) (fun s => K (view s)) p where
  returns := by
    intro s a s' hJ hexec
    rw [h.of_exec hexec]
    exact hJ
  stops := by
    intro s e s' hJ hexec
    have heq := h.eq s
    rw [hexec] at heq
    rw [heq]
    exact hJK _ hJ

/-- **SEQUENCE** -/
theorem Upholds.bind {p : Prog σ α} {f : α → Prog σ β} (hp : Upholds I E p)
    (hf : ∀ a, Upholds I E (f a)) : Upholds I E (p >>= f) where
  returns := by
    intro s b s' hI hexec
    rw [exec_bind] at hexec
    rcases h : exec p s with ⟨_ | a, t⟩
    · rw [h] at hexec
      cases hexec
    · rw [h] at hexec
      exact (hf a).returns t b s' (hp.returns s a t hI h) hexec
  stops := by
    intro s e s' hI hexec
    rw [exec_bind] at hexec
    rcases h : exec p s with ⟨e' | a, t⟩
    · rw [h] at hexec
      cases hexec
      exact hp.stops s e s' hI h
    · rw [h] at hexec
      exact (hf a).stops t e s' (hp.returns s a t hI h) hexec

/-- The rest may depend on the state. -/
theorem Upholds.get {f : σ → Prog σ β} (h : ∀ s, Upholds I E (f s)) :
    Upholds I E (MonadState.get >>= f) where
  returns := fun s b s' hI hexec => (h s).returns s b s' hI hexec
  stops := fun s e s' hI hexec => (h s).stops s e s' hI hexec

end Upholding

/-! ## Handlers that pass no error up -/

/-- Whatever the handler returns satisfies `P`. -/
def Yields (P : α → Prop) (p : Prog σ α) : Prop := ∀ s a s', exec p s = (.ok a, s') → P a

theorem Yields.pure {P : α → Prop} {a : α} (h : P a) : Yields P (Pure.pure a : Prog σ α) := by
  intro s b s' hrun
  cases hrun
  exact h

theorem Yields.bind {Q : α → Prop} {P : β → Prop} {p : Prog σ α} {f : α → Prog σ β}
    (hp : Yields Q p) (hf : ∀ a, Q a → Yields P (f a)) : Yields P (p >>= f) := by
  intro s b s' hrun
  rw [exec_bind] at hrun
  rcases h : exec p s with ⟨_ | a, t⟩
  · rw [h] at hrun
    exact nomatch hrun
  · rw [h] at hrun
    exact hf a (hp s a t h) t b s' hrun

/-- A first part of which nothing is known. -/
theorem Yields.after {P : β → Prop} {p : Prog σ α} {f : α → Prog σ β}
    (hf : ∀ a, Yields P (f a)) : Yields P (p >>= f) :=
  Yields.bind (fun _ _ _ _ => trivial : Yields (fun _ => True) p) fun a _ => hf a

/-- Wherever the handler returns, the state satisfies `Q`. -/
def Leaves (Q : σ → Prop) (p : Prog σ α) : Prop := ∀ s a s', exec p s = (.ok a, s') → Q s'

/-- The last part of a sequence decides. -/
theorem Leaves.after {Q : σ → Prop} {p : Prog σ α} {f : α → Prog σ β}
    (hf : ∀ a, Leaves Q (f a)) : Leaves Q (p >>= f) := by
  intro s b s' hrun
  rw [exec_bind] at hrun
  rcases h : exec p s with ⟨_ | a, t⟩
  · rw [h] at hrun
    exact nomatch hrun
  · rw [h] at hrun
    exact hf a t b s' hrun

section Returning

variable {Q R : σ → Prop} {s : σ}

/-- The handler returns from `s` in a state with `Q`, or panics. -/
def Returns (Q : σ → Prop) (p : Prog σ α) (s : σ) : Prop :=
  match exec p s with
  | (.ok _, s') => Q s'
  | (.error (.panic _), _) => True
  | (.error (.error _), _) => False

theorem Returns.get {f : σ → Prog σ β} (h : Returns Q (f s) s) :
    Returns Q (MonadState.get >>= f) s := by
  unfold Returns
  rw [exec_get_bind]
  exact h

theorem Returns.modify {g : σ → σ} {f : Unit → Prog σ β} (h : Returns Q (f ()) (g s)) :
    Returns Q (MonadState.modifyGet (fun s => ((), g s)) >>= f) s := by
  unfold Returns
  rw [show exec (MonadState.modifyGet (fun s => ((), g s)) >>= f) s = exec (f ()) (g s) from
    exec_modify_bind g f s]
  exact h

/-- **SEQUENCE**: the second part starts where the first has returned. -/
theorem Returns.bind {p : Prog σ α} {f : α → Prog σ β} (hp : Returns Q p s)
    (hf : ∀ a s', Q s' → Returns R (f a) s') : Returns R (p >>= f) s := by
  unfold Returns at hp ⊢
  rw [exec_bind]
  rcases h : exec p s with ⟨(_ | _) | a, s'⟩
  · rw [h] at hp
    exact hp
  · trivial
  · rw [h] at hp
    exact hf a s' hp

theorem Returns.ofPanic {r : Except Panic α} {f : α → Prog σ β} (hf : ∀ a, Returns Q (f a) s) :
    Returns Q (Program.ofPanic r >>= f) s := by
  cases r with
  | error p => exact trivial
  | ok a => exact hf a

/-- A look at a result returns wherever the handler has ended. -/
theorem Returns.attempt {p : Prog σ α} (h : Q (exec p s).2) : Returns Q (Program.attempt p) s := by
  have hattempt : exec (Program.attempt p) s = match exec p s with
      | (.ok a, s') => (.ok (.ok a), s')
      | (.error (.error msg), s') => (.ok (.error msg), s')
      | (.error (.panic e), s') => (.error (.panic e), s') := rfl
  unfold Returns
  rw [hattempt]
  rcases hexec : exec p s with ⟨(_ | _) | a, s'⟩
  · rw [hexec] at h
    exact h
  · trivial
  · rw [hexec] at h
    exact h

/-- What a handler that returns leaves behind. -/
theorem Returns.leaves {p : Prog σ α} (h : Returns (fun _ => True) p s) (hQ : Q (exec p s).2) :
    Returns Q p s := by
  unfold Returns at h ⊢
  rcases hexec : exec p s with ⟨(_ | _) | a, s'⟩
  · rw [hexec] at h
    exact h
  · trivial
  · rw [hexec] at hQ
    exact hQ

/-- **LOOP**: a loop returns when each round does. -/
theorem Returns.forM {f : α → Prog σ Unit} (hf : ∀ a s, Q s → Returns Q (f a) s) :
    ∀ (xs : List α) (s : σ), Q s → Returns Q (xs.forM f) s
  | [], _, h => h
  | x :: xs, s, h => Returns.bind (hf x s h) fun _ s' h' => Returns.forM hf xs s' h'

end Returning

end Program
