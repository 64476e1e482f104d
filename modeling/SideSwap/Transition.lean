import Mathlib.Logic.Relation

/-! # Guarded runs of a state machine

    A machine takes one input at a time: `step s i` is the state after input
    `i` arrives in state `s`.  What may arrive is a guard `ok s i` on the input
    and on the state it finds, so a claim about every run whose steps all meet
    a condition is a claim about `Reach init step ok`.

    The rules below are the ones an invariant proof needs: one for the states
    of a run, one for the part of a run after a given state, and the weakening
    of a guard.  A run given as a list of inputs can be evaluated. -/

namespace Transition

variable {σ ι : Type} {init : σ → Prop} {step : σ → ι → σ} {ok ok' : σ → ι → Prop}

/-- The states of the runs that start in `init` and whose inputs all meet `ok`. -/
inductive Reach (init : σ → Prop) (step : σ → ι → σ) (ok : σ → ι → Prop) : σ → Prop where
  | start {s : σ} : init s → Reach init step ok s
  | next {s : σ} {i : ι} : Reach init step ok s → ok s i → Reach init step ok (step s i)

/-- The states a run can go on to from `s` by inputs that all meet `ok`. -/
inductive Later (step : σ → ι → σ) (ok : σ → ι → Prop) (s : σ) : σ → Prop where
  | refl : Later step ok s s
  | next {t : σ} {i : ι} : Later step ok s t → ok t i → Later step ok s (step t i)

/-- **INVARIANT RULE**: what holds at the start and survives every allowed
    input holds in every reachable state. -/
theorem Reach.invariant {I : σ → Prop} (h0 : ∀ s, init s → I s)
    (hs : ∀ s i, Reach init step ok s → I s → ok s i → I (step s i)) {s : σ}
    (h : Reach init step ok s) : I s := by
  induction h with
  | start hi => exact h0 _ hi
  | next hr hok ih => exact hs _ _ hr ih hok

/-- The same rule for the rest of a run. -/
theorem Later.invariant {I : σ → Prop} {s t : σ} (h : Later step ok s t) (h0 : I s)
    (hs : ∀ t i, I t → ok t i → I (step t i)) : I t := by
  induction h with
  | refl => exact h0
  | next _ hok ih => exact hs _ _ ih hok

/-- A run under a stronger guard is a run under a weaker one. -/
theorem Reach.mono (hw : ∀ s i, ok s i → ok' s i) {s : σ} (h : Reach init step ok s) :
    Reach init step ok' s := by
  induction h with
  | start hi => exact .start hi
  | next _ hok ih => exact .next ih (hw _ _ hok)

/-- Going on from a reachable state stays reachable. -/
theorem Reach.later {s t : σ} (h : Reach init step ok s) (hl : Later step ok s t) :
    Reach init step ok t := by
  induction hl with
  | refl => exact h
  | next _ hok ih => exact .next ih hok

/-! ## Runs given by their inputs -/

/-- The state after a list of inputs. -/
def run (step : σ → ι → σ) (s : σ) (inputs : List ι) : σ := inputs.foldl step s

/-- Every input meets the guard in the state it finds. -/
def Allowed (step : σ → ι → σ) (ok : σ → ι → Prop) : σ → List ι → Prop
  | _, [] => True
  | s, i :: inputs => ok s i ∧ Allowed step ok (step s i) inputs

instance decidableAllowed [∀ s i, Decidable (ok s i)] :
    ∀ (inputs : List ι) (s : σ), Decidable (Allowed step ok s inputs)
  | [], _ => .isTrue trivial
  | i :: inputs, s =>
      haveI := decidableAllowed inputs (step s i)
      inferInstanceAs (Decidable (ok s i ∧ Allowed step ok (step s i) inputs))

/-- A run by allowed inputs goes on to its last state. -/
theorem Later.run {s t : σ} (h : Later step ok s t) (inputs : List ι)
    (hok : Allowed step ok t inputs) : Later step ok s (run step t inputs) := by
  induction inputs generalizing t with
  | nil => exact h
  | cons i inputs ih => exact ih (h.next hok.1) hok.2

/-- A run by allowed inputs from a reachable state ends in one. -/
theorem Reach.run {s : σ} (h : Reach init step ok s) (inputs : List ι)
    (hok : Allowed step ok s inputs) : Reach init step ok (run step s inputs) :=
  h.later (Later.refl.run inputs hok)

end Transition
