import Mathlib.Tactic

/-! # Handlers that can stop early

    A Rust handler ends in one of three ways: it returns, it passes an error
    value up with `?`, or it panics.  An error is a value that a caller may
    look at and go on; a panic takes the process down. -/

namespace Program

/-- A panic, with its message. -/
structure Panic where
  msg : String
deriving DecidableEq, Repr

/-- `Option::expect` and `Option::unwrap`. -/
def expect {α : Type} (o : Option α) (msg : String) : Except Panic α :=
  match o with
  | some a => .ok a
  | none => .error ⟨msg⟩

@[simp] theorem expect_some {α : Type} (a : α) (msg : String) :
    expect (some a) msg = .ok a := rfl

@[simp] theorem expect_none {α : Type} (msg : String) :
    expect (none : Option α) msg = .error ⟨msg⟩ := rfl

theorem expect_ok {α : Type} {o : Option α} {msg : String} {a : α} (h : expect o msg = .ok a) :
    o = some a := by
  cases o with
  | none => exact nomatch h
  | some b =>
      cases h
      rfl

/-- A sequence that returns has passed through its first part. -/
theorem bind_returns {ε α β : Type} {first : Except ε α} {next : α → Except ε β} {b : β}
    (h : first.bind next = .ok b) : ∃ a, first = .ok a ∧ next a = .ok b := by
  cases first with
  | error p => exact nomatch h
  | ok a => exact ⟨a, rfl, h⟩

/-- A loop that returns has passed through each of its rounds. -/
theorem mapM_returns {ε α β : Type} {f : α → Except ε β} :
    ∀ {as : List α} {bs : List β}, as.mapM f = .ok bs → List.Forall₂ (fun a b => f a = .ok b) as bs
  | [], bs, h => by
      cases h
      exact .nil
  | a :: as, bs, h => by
      rw [List.mapM_cons] at h
      obtain ⟨b, hb, h⟩ := bind_returns h
      obtain ⟨bs', hbs, h⟩ := bind_returns h
      cases h
      exact .cons hb (mapM_returns hbs)

/-- A computation that panics does not return. -/
def Panics {α : Type} (x : Except Panic α) : Prop := ∃ p, x = .error p

/-- `ensure!` in a check that changes nothing. -/
def check (b : Bool) (msg : String) : Except String Unit := if b then .ok () else .error msg

/-- A passed check is followed by the rest of the checks. -/
theorem check_bind {α : Type} {b : Bool} {msg : String} {k : Unit → Except String α} {a : α} :
    (check b msg >>= k) = .ok a ↔ b = true ∧ k () = .ok a := by
  cases b with
  | false => exact ⟨(nomatch ·), fun h => nomatch h.1⟩
  | true => exact ⟨fun h => ⟨rfl, h⟩, fun h => h.2⟩

theorem check_ok {b : Bool} {msg : String} : check b msg = .ok () ↔ b = true := by
  cases b with
  | false => exact ⟨(nomatch ·), (nomatch ·)⟩
  | true => exact ⟨fun _ => rfl, fun _ => rfl⟩

end Program
