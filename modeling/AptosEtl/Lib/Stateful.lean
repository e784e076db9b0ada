import AptosEtl.Lib.Outcome
import Mathlib.Data.Prod.Basic

/-!
# Computations on a state

A `Stateful` computation has an outcome and leaves a state. What it has done to the state stays,
also when it ends with an error.

The `_eq_ok` lemmas invert a computation that returned a value. `Keeps` says that, however it ends,
a computation leaves a state that is related to the one that it started in, and its rules follow the
structure of a definition.
-/

namespace Rust

universe u v w x

/-- A computation with an outcome and the state that it leaves. -/
def Stateful (σ : Type x) (ε : Type u) (α : Type v) := σ → Outcome ε α × σ

namespace Stateful

variable {σ : Type x} {ε ε' : Type u} {α β : Type v} {γ : Type w}

/-- A computation that leaves the state as it is. -/
def lift (x : Outcome ε α) : Stateful σ ε α := fun s => (x, s)

/-- The error conversion of the `?` operator. -/
def mapErr (x : Stateful σ ε α) (g : ε → ε') : Stateful σ ε' α :=
  fun s => ((x s).1.mapErr g, (x s).2)

/-- A caller that panics on an error. -/
def orPanic (x : Stateful σ ε α) (message : ε → String) : Stateful σ ε' α := fun s =>
  match (x s).1 with
  | .ok a => (.ok a, (x s).2)
  | .err e => (.panic (message e), (x s).2)
  | .panic m => (.panic m, (x s).2)

/-- Sequencing: what follows is done only after a value. -/
def bind (x : Stateful σ ε α) (f : α → Stateful σ ε β) : Stateful σ ε β := fun s =>
  match (x s).1 with
  | .ok a => f a (x s).2
  | .err e => (.err e, (x s).2)
  | .panic m => (.panic m, (x s).2)

/-- A loop over a list, with a value of its own besides the state. -/
def tryFold (f : β → γ → Stateful σ ε β) : β → List γ → Stateful σ ε β
  | b, [] => lift (.ok b)
  | b, y :: ys => (f b y).bind fun b => tryFold f b ys

/-! ## Inverting a value -/

variable {s s' : σ} {a : α}

/-- A value is lifted without a change of the state. -/
theorem lift_eq_ok {x : Outcome ε α} : (lift x : Stateful σ ε α) s = (.ok a, s') ↔
    x = .ok a ∧ s = s' := Prod.mk_inj

/-- An error conversion changes no value. -/
theorem mapErr_eq_ok {x : Stateful σ ε α} {g : ε → ε'} :
    x.mapErr g s = (.ok a, s') ↔ x s = (.ok a, s') := by
  rw [mapErr, Prod.ext_iff, Prod.ext_iff, Outcome.mapErr_eq_ok]

/-- A value does not panic. -/
theorem orPanic_eq_ok {x : Stateful σ ε α} {message : ε → String} :
    (x.orPanic message : Stateful σ ε' α) s = (.ok a, s') ↔ x s = (.ok a, s') := by
  unfold orPanic
  rcases x s with ⟨outcome, t⟩
  cases outcome <;> simp

/-- A sequence gives a value exactly when its first part does and the rest does from there. -/
theorem bind_eq_ok {x : Stateful σ ε α} {f : α → Stateful σ ε β} {b : β} :
    x.bind f s = (.ok b, s') ↔ ∃ a t, x s = (.ok a, t) ∧ f a t = (.ok b, s') := by
  unfold bind
  rcases x s with ⟨outcome, t⟩
  cases outcome <;> simp

/-- A property of what is done, of the value and of the state that every step with a value
preserves holds at the end of a loop with a value. -/
theorem tryFold_induct {f : β → γ → Stateful σ ε β} {P : List γ → β → σ → Prop} {done ys : List γ}
    {b b' : β} (hstart : P done b s)
    (hstep : ∀ done b s y b' s', P done b s → f b y s = (.ok b', s') → P (done ++ [y]) b' s')
    (h : tryFold f b ys s = (.ok b', s')) : P (done ++ ys) b' s' := by
  induction ys generalizing done b s with
  | nil =>
    obtain ⟨hb, rfl⟩ := lift_eq_ok.1 h
    obtain rfl := Outcome.ok.inj hb
    rwa [List.append_nil]
  | cons y ys ih =>
    obtain ⟨b₁, s₁, hy, hrest⟩ := bind_eq_ok.1 h
    have hnext := ih (hstep done b s y b₁ s₁ hstart hy) hrest
    rwa [List.append_assoc] at hnext

/-- A loop that ends with an error has done the steps before the one that failed. -/
theorem tryFold_eq_err {f : β → γ → Stateful σ ε β} {ys : List γ} {b : β} {e : ε}
    (h : tryFold f b ys s = (.err e, s')) :
    ∃ done y rest b₁ s₁, ys = done ++ y :: rest ∧ tryFold f b done s = (.ok b₁, s₁) ∧
      f b₁ y s₁ = (.err e, s') := by
  induction ys generalizing b s with
  | nil => cases h
  | cons y ys ih =>
    rw [tryFold, bind] at h
    cases hy : f b y s with
    | mk outcome t =>
      rw [hy] at h
      cases outcome with
      | ok b₁ =>
        obtain ⟨done, z, rest, b₂, s₂, rfl, hdone, hz⟩ := ih h
        exact ⟨y :: done, z, rest, b₂, s₂, rfl, bind_eq_ok.2 ⟨b₁, t, hy, hdone⟩, hz⟩
      | err e' =>
        obtain ⟨he, rfl⟩ := Prod.mk_inj.1 h
        obtain rfl := Outcome.err.inj he
        exact ⟨[], y, ys, b, s, rfl, rfl, hy⟩
      | panic m => cases h

/-! ## What a computation keeps -/

/-- However it ends, the computation leaves a state related to the one it started in. -/
def Keeps (R : σ → σ → Prop) (x : Stateful σ ε α) : Prop := ∀ s, R s (x s).2

variable {R : σ → σ → Prop} {x : Stateful σ ε α}

/-- The state that a computation leaves. -/
theorem Keeps.of_eq (h : Keeps R x) {outcome : Outcome ε α} (hx : x s = (outcome, s')) :
    R s s' := by
  have hs := h s
  rwa [hx] at hs

/-- A computation that leaves the state as it is. -/
theorem keeps_lift (hrefl : ∀ s, R s s) (x : Outcome ε α) : Keeps R (lift x : Stateful σ ε α) :=
  hrefl

/-- An error conversion does nothing to the state. -/
theorem Keeps.mapErr (h : Keeps R x) (g : ε → ε') : Keeps R (x.mapErr g) := h

/-- A panic does nothing to the state. -/
theorem Keeps.orPanic (h : Keeps R x) (message : ε → String) :
    Keeps R (x.orPanic message : Stateful σ ε' α) := by
  intro s
  have hs := h s
  unfold Stateful.orPanic
  cases (x s).1 <;> exact hs

/-- A sequence keeps what both of its parts keep. -/
theorem Keeps.bind (htrans : ∀ s t u, R s t → R t u → R s u) (h : Keeps R x)
    {f : α → Stateful σ ε β} (hf : ∀ a, Keeps R (f a)) : Keeps R (x.bind f) := by
  intro s
  have hs := h s
  unfold Stateful.bind
  cases (x s).1 with
  | ok a => exact htrans s _ _ hs (hf a _)
  | err e => exact hs
  | panic m => exact hs

/-- A loop keeps what its steps keep. -/
theorem keeps_tryFold (hrefl : ∀ s, R s s) (htrans : ∀ s t u, R s t → R t u → R s u)
    {f : β → γ → Stateful σ ε β} {ys : List γ} (hf : ∀ b, ∀ y ∈ ys, Keeps R (f b y)) (b : β) :
    Keeps R (tryFold f b ys) := by
  induction ys generalizing b with
  | nil => exact keeps_lift hrefl _
  | cons y ys ih =>
    refine Keeps.bind htrans (hf b y List.mem_cons_self) fun b => ?_
    exact ih (fun b y hy => hf b y (List.mem_cons_of_mem _ hy)) b

end Stateful

end Rust
