import Mathlib.Init

/-!
# Runs of a machine

A machine is a function that takes a state and an event to the next state, or is not defined where
the event cannot happen. `Reaches` is reachability by events that a condition allows, and
`Reaches.invariant` is its induction: what holds at the start, and is kept by every step that is
allowed, holds wherever the machine gets.
-/

universe u v w x

namespace Machine

variable {σ : Type u} {ε : Type v} {step : σ → ε → Option σ} {allowed : σ → ε → Prop}
  {start s s' : σ}

/-- The states that a machine reaches from a start by events that are allowed. -/
inductive Reaches (step : σ → ε → Option σ) (allowed : σ → ε → Prop) (start : σ) : σ → Prop where
  | refl : Reaches step allowed start start
  | tail {s s' : σ} {e : ε} (h : Reaches step allowed start s) (hallowed : allowed s e)
    (hstep : step s e = some s') : Reaches step allowed start s'

/-- The machine after some events, one after the other. -/
def run (step : σ → ε → Option σ) : σ → List ε → Option σ
  | s, [] => some s
  | s, e :: es => (step s e).bind fun s' => run step s' es

/-- A run over appended events is the one run and then the other. -/
theorem run_append (s : σ) (es es' : List ε) :
    run step s (es ++ es') = (run step s es).bind fun s' => run step s' es' := by
  induction es generalizing s with
  | nil => rfl
  | cons e es ih =>
    rw [List.cons_append, run, run, Option.bind_assoc]
    exact congrArg _ (funext ih)

namespace Reaches

/-- What holds at the start and is kept by the steps holds of every state that is reached. -/
theorem invariant {P : σ → Prop} (hstart : P start)
    (hkeep : ∀ s e s', P s → allowed s e → step s e = some s' → P s')
    (h : Reaches step allowed start s) : P s := by
  induction h with
  | refl => exact hstart
  | tail _ hallowed hstep ih => exact hkeep _ _ _ ih hallowed hstep

/-- What is reached from a state that is reached is reached. -/
theorem trans (h : Reaches step allowed start s) (h' : Reaches step allowed s s') :
    Reaches step allowed start s' := by
  induction h' with
  | refl => exact h
  | tail _ hallowed hstep ih => exact ih.tail hallowed hstep

/-- A machine that simulates another reaches the images of the states that the other reaches: where
every step of the other that is allowed is, in the image, none or several that are. -/
theorem map {σ' : Type w} {ε' : Type x} {step' : σ' → ε' → Option σ'} {allowed' : σ' → ε' → Prop}
    (image : σ → σ') (hsimulates : ∀ s e s', Reaches step allowed start s → allowed s e →
      step s e = some s' → Reaches step' allowed' (image s) (image s'))
    (h : Reaches step allowed start s) : Reaches step' allowed' (image start) (image s) := by
  induction h with
  | refl => exact .refl
  | tail hreach hallowed hstep ih => exact ih.trans (hsimulates _ _ _ hreach hallowed hstep)

/-- Where nothing is forbidden, a run ends in a state that is reached. -/
theorem of_run {es : List ε} (hall : ∀ s e, allowed s e) (h : run step s es = some s') :
    Reaches step allowed s s' := by
  induction es generalizing s with
  | nil =>
    obtain rfl := Option.some.inj h
    exact .refl
  | cons e es ih =>
    obtain ⟨s₁, hstep, hrest⟩ := Option.bind_eq_some_iff.1 h
    exact (tail .refl (hall s e) hstep).trans (ih hrest)

/-- A run over events that are allowed in every state ends in a state that is reached. -/
theorem of_run_mem {es : List ε} (hall : ∀ e ∈ es, ∀ s, allowed s e)
    (h : run step s es = some s') : Reaches step allowed s s' := by
  induction es generalizing s with
  | nil =>
    obtain rfl := Option.some.inj h
    exact .refl
  | cons e es ih =>
    obtain ⟨s₁, hstep, hrest⟩ := Option.bind_eq_some_iff.1 h
    have hrest := ih (fun e he => hall e (List.mem_cons_of_mem _ he)) hrest
    exact (tail .refl (hall e List.mem_cons_self s) hstep).trans hrest

end Reaches

end Machine
