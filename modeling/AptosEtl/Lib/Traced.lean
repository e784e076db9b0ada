import AptosEtl.Lib.Outcome

/-!
# Computations and what they did

A `Traced` computation has an outcome, and before it the actions that were done on the way, in
order. What comes after an error is not done. Of a loop whose steps do one action each, what is
done before an error is therefore known: the steps through the one that failed
(`exists_of_tryFold_eq_err`).
-/

namespace Rust

universe u v w x

/-- A computation with the actions that it did before it ended. -/
structure Traced (ω : Type x) (ε : Type u) (α : Type v) where
  actions : List ω
  outcome : Outcome ε α

namespace Traced

variable {ω : Type x} {ε : Type u} {α β : Type v} {σ : Type v} {γ : Type w}

/-- A computation without actions. -/
def lift (x : Outcome ε α) : Traced ω ε α := ⟨[], x⟩

/-- Actions, and then a computation without actions. -/
def after (actions : List ω) (x : Outcome ε α) : Traced ω ε α := ⟨actions, x⟩

/-- Sequencing: what follows is done only after a value. -/
def bind (x : Traced ω ε α) (f : α → Traced ω ε β) : Traced ω ε β :=
  match x.outcome with
  | .ok a => ⟨x.actions ++ (f a).actions, (f a).outcome⟩
  | .err e => ⟨x.actions, .err e⟩
  | .panic m => ⟨x.actions, .panic m⟩

/-- Conversion of the error. -/
def mapErr {ε' : Type u} (x : Traced ω ε α) (g : ε → ε') : Traced ω ε' α :=
  ⟨x.actions, x.outcome.mapErr g⟩

/-- A loop with a state over a list. -/
def tryFold (f : σ → γ → Traced ω ε σ) : σ → List γ → Traced ω ε σ
  | s, [] => lift (.ok s)
  | s, y :: ys => (f s y).bind fun s => tryFold f s ys

/-- Without actions before and after, a sequence has none. -/
theorem actions_bind_eq_nil {x : Traced ω ε α} {f : α → Traced ω ε β} (hx : x.actions = [])
    (hf : ∀ a, (f a).actions = []) : (x.bind f).actions = [] := by
  unfold bind
  split <;> simp [hx, hf]

/-- The outcome of a sequence is that of its outcomes. -/
@[simp] theorem outcome_bind (x : Traced ω ε α) (f : α → Traced ω ε β) :
    (x.bind f).outcome = x.outcome.bind fun a => (f a).outcome := by
  unfold bind
  cases x.outcome <;> rfl

/-- What a sequence does, its first part does, or what follows a value of it. -/
theorem mem_actions_bind {x : Traced ω ε α} {f : α → Traced ω ε β} {a : ω} :
    a ∈ (x.bind f).actions ↔
      a ∈ x.actions ∨ ∃ b, x.outcome = .ok b ∧ a ∈ (f b).actions := by
  unfold bind
  cases x.outcome <;> simp

/-- After a value, the actions of what follows are done. -/
theorem actions_bind_of_ok {x : Traced ω ε α} {a : α} (h : x.outcome = .ok a)
    (f : α → Traced ω ε β) : (x.bind f).actions = x.actions ++ (f a).actions := by
  rw [bind, h]

/-- After an error, nothing is done. -/
theorem actions_bind_of_err {x : Traced ω ε α} {e : ε} (h : x.outcome = .err e)
    (f : α → Traced ω ε β) : (x.bind f).actions = x.actions := by
  rw [bind, h]

/-- The outcome of a loop is that of a loop over the outcomes. -/
@[simp] theorem outcome_tryFold (f : σ → γ → Traced ω ε σ) (s : σ) (ys : List γ) :
    (tryFold f s ys).outcome = Outcome.tryFold (fun s y => (f s y).outcome) s ys := by
  induction ys generalizing s with
  | nil => rfl
  | cons y ys ih =>
    rw [tryFold, Outcome.tryFold, outcome_bind]
    exact congrArg _ (funext ih)

/-- Sequences are equal when what follows each value of the first part is. -/
theorem bind_congr {x : Traced ω ε α} {f g : α → Traced ω ε β}
    (h : ∀ a, x.outcome = .ok a → f a = g a) : x.bind f = x.bind g := by
  unfold bind
  cases hx : x.outcome with
  | ok a => simp only [h a hx]
  | err e => rfl
  | panic m => rfl

/-- Sequencing is associative. -/
theorem bind_assoc {δ : Type v} (x : Traced ω ε α) (f : α → Traced ω ε β)
    (g : β → Traced ω ε δ) : (x.bind f).bind g = x.bind fun a => (f a).bind g := by
  unfold bind
  cases x.outcome with
  | ok a => cases h : (f a).outcome <;> simp [h, List.append_assoc]
  | err e => rfl
  | panic m => rfl

/-- A value without actions is passed on. -/
@[simp] theorem lift_ok_bind (a : α) (f : α → Traced ω ε β) :
    (lift (.ok a) : Traced ω ε α).bind f = f a := rfl

/-- A loop over two lists is one loop after the other. -/
theorem tryFold_append (f : σ → γ → Traced ω ε σ) (s : σ) (ys zs : List γ) :
    tryFold f s (ys ++ zs) = (tryFold f s ys).bind fun t => tryFold f t zs := by
  induction ys generalizing s with
  | nil => rfl
  | cons y ys ih =>
    rw [List.cons_append, tryFold, tryFold, bind_assoc]
    exact congrArg _ (funext ih)

/-- A loop whose steps do nothing does nothing. -/
theorem actions_tryFold_eq_nil {f : σ → γ → Traced ω ε σ} (h : ∀ s y, (f s y).actions = []) (s : σ)
    (ys : List γ) : (tryFold f s ys).actions = [] := by
  induction ys generalizing s with
  | nil => rfl
  | cons y ys ih =>
    rw [tryFold]
    exact actions_bind_eq_nil (h s y) ih

/-- A loop whose steps all return does the actions of all of them. -/
theorem tryFold_of_ok {f : γ → Traced ω ε PUnit} {act : γ → List ω} {ys : List γ}
    (h : ∀ y ∈ ys, f y = ⟨act y, .ok ()⟩) :
    tryFold (fun _ y => f y) () ys = ⟨ys.flatMap act, .ok ()⟩ := by
  induction ys with
  | nil => rfl
  | cons y ys ih =>
    have hrest := ih fun z hz => h z (List.mem_cons_of_mem y hz)
    rw [tryFold, h y List.mem_cons_self, bind]
    simp only [hrest, List.flatMap_cons]

section Steps

variable {f : σ → γ → Traced ω ε σ} {act : γ → ω} (hact : ∀ s y, (f s y).actions = [act y])
include hact

/-- A loop does actions of its elements only. -/
theorem exists_of_mem_tryFold {s : σ} {ys : List γ} {a : ω} (h : a ∈ (tryFold f s ys).actions) :
    ∃ y ∈ ys, a = act y := by
  induction ys generalizing s with
  | nil => cases h
  | cons y ys ih =>
    rw [tryFold, mem_actions_bind, hact, List.mem_singleton] at h
    rcases h with rfl | ⟨t, -, hrest⟩
    · exact ⟨y, List.mem_cons_self, rfl⟩
    · obtain ⟨z, hz, heq⟩ := ih hrest
      exact ⟨z, List.mem_cons_of_mem y hz, heq⟩

/-- A loop that ends with a value has done the action of every element. -/
theorem actions_tryFold_of_ok {s s' : σ} {ys : List γ} (h : (tryFold f s ys).outcome = .ok s') :
    (tryFold f s ys).actions = ys.map act := by
  induction ys generalizing s with
  | nil => rfl
  | cons y ys ih =>
    rw [tryFold, outcome_bind] at h
    obtain ⟨t, ht, hrest⟩ := Outcome.bind_eq_ok.1 h
    rw [tryFold, actions_bind_of_ok ht, hact, ih hrest, List.map_cons, List.singleton_append]

/-- A loop that ends with an error has done the actions of the elements through the one whose step
failed. -/
theorem exists_of_tryFold_eq_err {s : σ} {ys : List γ} {e : ε}
    (h : (tryFold f s ys).outcome = .err e) :
    ∃ done y rest t, ys = done ++ y :: rest ∧ (tryFold f s done).outcome = .ok t ∧
      (f t y).outcome = .err e ∧ (tryFold f s ys).actions = (done ++ [y]).map act := by
  induction ys generalizing s with
  | nil => cases h
  | cons y ys ih =>
    rw [tryFold, outcome_bind] at h
    rcases Outcome.bind_eq_err.1 h with herr | ⟨t, ht, hrest⟩
    · exact ⟨[], y, ys, s, rfl, rfl, herr, by rw [tryFold, actions_bind_of_err herr, hact]; rfl⟩
    · obtain ⟨done, z, rest, t', rfl, hdone, hz, hactions⟩ := ih hrest
      refine ⟨y :: done, z, rest, t', rfl, ?_, hz, ?_⟩
      · rw [tryFold, outcome_bind, ht, Outcome.ok_bind, hdone]
      · rw [tryFold, actions_bind_of_ok ht, hact, hactions]
        rfl

end Steps

end Traced

end Rust
