import Mathlib.Data.List.Forall2

/-!
# Results that may unwind

A call of a fallible function has three ends: a value, an error that the caller can handle, and a
panic that unwinds past it. `Outcome` is that result, and its bind is the `?` operator; `mapErr` is
the error conversion that `?` applies on the way. `tryMap` and `tryFold` are the loops that stop at
the first element that does not give a value.

The rules come in four families. The `_eq_ok` lemmas invert a computation that returned a value.
`Settles` says that a computation does not panic, and its rules follow the structure of a
definition, so that a function is shown to settle from the functions it calls. `RaisesOnly` says in
the same way which errors a computation can end with, and `Agree` compares two computations.
-/

namespace Rust

universe u v w

/-- How a call ends: with a value, with an error, or by a panic that carries its message. -/
inductive Outcome (ε : Type u) (α : Type v) where
  | ok (value : α)
  | err (error : ε)
  | panic (message : String)
  deriving DecidableEq, Repr

namespace Outcome

variable {ε ε' : Type u} {α β γ : Type v} {σ : Type v}

/-- Sequencing: the first end that is not a value is the end of the whole. -/
def bind (x : Outcome ε α) (f : α → Outcome ε β) : Outcome ε β :=
  match x with
  | ok a => f a
  | err e => err e
  | panic m => panic m

/-- The error conversion of the `?` operator. -/
def mapErr (x : Outcome ε α) (g : ε → ε') : Outcome ε' α :=
  match x with
  | ok a => ok a
  | err e => err (g e)
  | panic m => panic m

/-- The value of an outcome, if it is one. -/
def toOption : Outcome ε α → Option α
  | ok a => some a
  | _ => none

/-- What a value is mapped to, and nothing for an outcome without a value. -/
def elems (x : Outcome ε α) (f : α → List β) : List β :=
  match x with
  | ok a => f a
  | _ => []

/-- `Option::ok_or`. -/
def ofOption (x : Option α) (e : ε) : Outcome ε α :=
  match x with
  | some a => ok a
  | none => err e

/-- `Option::expect`, and `Option::unwrap` with its standard message. -/
def expect (x : Option α) (message : String) : Outcome ε α :=
  match x with
  | some a => ok a
  | none => panic message

/-- Collect `f x` over a list, stopping at the first element without a value. -/
def tryMap {α : Type w} (f : α → Outcome ε β) : List α → Outcome ε (List β)
  | [] => ok []
  | x :: xs => bind (f x) fun y => bind (tryMap f xs) fun ys => ok (y :: ys)

/-- Thread a state through a list, stopping at the first step without a value. -/
def tryFold {α : Type w} (f : σ → α → Outcome ε σ) : σ → List α → Outcome ε σ
  | s, [] => ok s
  | s, x :: xs => bind (f s x) fun s' => tryFold f s' xs

@[simp] theorem ok_bind (a : α) (f : α → Outcome ε β) : (ok a : Outcome ε α).bind f = f a := rfl

@[simp] theorem err_bind (e : ε) (f : α → Outcome ε β) : (err e : Outcome ε α).bind f = err e := rfl

@[simp] theorem panic_bind (m : String) (f : α → Outcome ε β) :
    (panic m : Outcome ε α).bind f = panic m := rfl

/-- Sequencing is associative. -/
theorem bind_assoc (x : Outcome ε α) (f : α → Outcome ε β) (g : β → Outcome ε γ) :
    (x.bind f).bind g = x.bind fun a => (f a).bind g := by
  cases x <;> rfl

@[simp] theorem mapErr_ok (a : α) (g : ε → ε') : (ok a : Outcome ε α).mapErr g = ok a := rfl

@[simp] theorem mapErr_err (e : ε) (g : ε → ε') : (err e : Outcome ε α).mapErr g = err (g e) := rfl

@[simp] theorem mapErr_panic (m : String) (g : ε → ε') :
    (panic m : Outcome ε α).mapErr g = panic m := rfl

@[simp] theorem elems_ok (a : α) (f : α → List β) : (ok a : Outcome ε α).elems f = f a := rfl

/-! ## Inverting a value -/

/-- The elements of an outcome are those of its value. -/
@[simp] theorem mem_elems {x : Outcome ε α} {f : α → List β} {b : β} :
    b ∈ x.elems f ↔ ∃ a, x = ok a ∧ b ∈ f a := by
  cases x <;> simp [elems]

/-- A sequence gives a value exactly when its first part does and the rest does from there. -/
@[simp] theorem bind_eq_ok {x : Outcome ε α} {f : α → Outcome ε β} {b : β} :
    x.bind f = ok b ↔ ∃ a, x = ok a ∧ f a = ok b := by
  cases x <;> simp

/-- An error conversion changes no value. -/
@[simp] theorem mapErr_eq_ok {x : Outcome ε α} {g : ε → ε'} {a : α} :
    x.mapErr g = ok a ↔ x = ok a := by
  cases x <;> simp

@[simp] theorem ofOption_eq_ok {x : Option α} {e : ε} {a : α} :
    ofOption x e = ok a ↔ x = some a := by
  cases x <;> simp [ofOption]

@[simp] theorem expect_eq_ok {x : Option α} {m : String} {a : α} :
    (expect x m : Outcome ε α) = ok a ↔ x = some a := by
  cases x <;> simp [expect]

/-- The value of an outcome is the value that it ends with. -/
theorem toOption_eq_some {x : Outcome ε α} {a : α} : x.toOption = some a ↔ x = ok a := by
  cases x <;> simp [toOption]

/-- The value of an outcome is there when it is one. -/
theorem isSome_toOption {x : Outcome ε α} : x.toOption.isSome = true ↔ ∃ a, x = ok a := by
  cases x <;> simp [toOption]

/-- Evaluating something of the value of an outcome shows that it has one. -/
theorem map_toOption_eq_some {γ : Type w} {x : Outcome ε α} {f : α → γ} {c : γ} :
    x.toOption.map f = some c ↔ ∃ a, x = ok a ∧ f a = c := by
  cases x <;> simp [toOption]

/-- A collected list holds the value of each element, in order. -/
theorem tryMap_eq_ok {α : Type w} {f : α → Outcome ε β} {xs : List α} {ys : List β} :
    tryMap f xs = ok ys ↔ List.Forall₂ (fun x y => f x = ok y) xs ys := by
  induction xs generalizing ys with
  | nil => simp [tryMap, eq_comm]
  | cons x xs ih =>
    simp only [tryMap, bind_eq_ok, ih, ok.injEq, List.forall₂_cons_left_iff]
    constructor
    · rintro ⟨y, hy, ys', hys, rfl⟩
      exact ⟨y, ys', hy, hys, rfl⟩
    · rintro ⟨y, ys', hy, hys, rfl⟩
      exact ⟨y, hy, ys', hys, rfl⟩

/-- A collected list has the length of its source. -/
theorem length_of_tryMap_eq_ok {α : Type w} {f : α → Outcome ε β} {xs : List α} {ys : List β}
    (h : tryMap f xs = ok ys) : ys.length = xs.length :=
  (tryMap_eq_ok.1 h).length_eq.symm

/-- Every element of a collected list is the value of an element of the source. -/
theorem exists_of_mem_tryMap {α : Type w} {f : α → Outcome ε β} {xs : List α} {ys : List β} {y : β}
    (h : tryMap f xs = ok ys) (hy : y ∈ ys) : ∃ x ∈ xs, f x = ok y := by
  induction tryMap_eq_ok.1 h with
  | nil => simp at hy
  | cons hx _ ih =>
    rcases List.mem_cons.1 hy with rfl | hy
    · exact ⟨_, List.mem_cons_self, hx⟩
    · obtain ⟨x, hmem, hx⟩ := ih (tryMap_eq_ok.2 ‹_›) hy
      exact ⟨x, List.mem_cons_of_mem _ hmem, hx⟩

/-- Every element of the source has a value. -/
theorem exists_of_tryMap_mem {α : Type w} {f : α → Outcome ε β} {xs : List α} {ys : List β} {x : α}
    (h : tryMap f xs = ok ys) (hx : x ∈ xs) : ∃ y, f x = ok y := by
  induction tryMap_eq_ok.1 h with
  | nil => simp at hx
  | cons hy _ ih =>
    rcases List.mem_cons.1 hx with rfl | hx
    · exact ⟨_, hy⟩
    · exact ih (tryMap_eq_ok.2 ‹_›) hx

/-- A list is collected exactly when every element has a value. -/
theorem exists_tryMap_iff {α : Type w} {f : α → Outcome ε β} {xs : List α} :
    (∃ ys, tryMap f xs = ok ys) ↔ ∀ x ∈ xs, ∃ y, f x = ok y := by
  refine ⟨fun ⟨ys, h⟩ x hx => exists_of_tryMap_mem h hx, fun h => ?_⟩
  induction xs with
  | nil => exact ⟨[], rfl⟩
  | cons x xs ih =>
    obtain ⟨y, hy⟩ := h x List.mem_cons_self
    obtain ⟨ys, hys⟩ := ih fun z hz => h z (List.mem_cons_of_mem x hz)
    exact ⟨y :: ys, by simp only [tryMap, hy, hys, ok_bind]⟩

/-- Lists that agree between each element and its value agree when they are joined. -/
theorem flatMap_eq_of_tryMap {α : Type w} {f : α → Outcome ε β} {xs : List α} {ys : List β}
    {a : α → List γ} {b : β → List γ} (h : tryMap f xs = ok ys)
    (heq : ∀ x y, f x = ok y → a x = b y) : xs.flatMap a = ys.flatMap b := by
  induction tryMap_eq_ok.1 h with
  | nil => rfl
  | cons hy _ ih => rw [List.flatMap_cons, List.flatMap_cons, heq _ _ hy, ih (tryMap_eq_ok.2 ‹_›)]

/-! ## Inverting an error -/

/-- A sequence ends with an error exactly when its first part does, or the rest does from its
value. -/
theorem bind_eq_err {x : Outcome ε α} {f : α → Outcome ε β} {e : ε} :
    x.bind f = err e ↔ x = err e ∨ ∃ a, x = ok a ∧ f a = err e := by
  cases x <;> simp

/-- A converted error is the conversion of an error. -/
theorem mapErr_eq_err {x : Outcome ε α} {g : ε → ε'} {e : ε'} :
    x.mapErr g = err e ↔ ∃ e', x = err e' ∧ g e' = e := by
  cases x <;> simp

/-! ## Loops that thread a state -/

/-- Over an appended list, a fold is the fold of the first part and then of the second. -/
theorem tryFold_append {α : Type w} (f : σ → α → Outcome ε σ) (s : σ) (xs ys : List α) :
    tryFold f s (xs ++ ys) = (tryFold f s xs).bind fun s' => tryFold f s' ys := by
  induction xs generalizing s with
  | nil => rfl
  | cons x xs ih =>
    simp only [List.cons_append, tryFold]
    cases f s x <;> simp [ih]

/-- A loop whose steps fail or not regardless of the state collects first and threads the state
after. -/
theorem tryFold_of_step {α : Type w} {f : α → Outcome ε β} {g : σ → β → σ} (s : σ) (xs : List α) :
    tryFold (fun s x => (f x).bind fun y => ok (g s y)) s xs =
      (tryMap f xs).bind fun ys => ok (ys.foldl g s) := by
  induction xs generalizing s with
  | nil => rfl
  | cons x xs ih =>
    rw [tryFold, tryMap, bind_assoc, bind_assoc]
    cases f x with
    | ok y => simp only [ok_bind, bind_assoc, ih, List.foldl_cons]
    | err e => rfl
    | panic m => rfl

/-- The rule of a loop: what holds at the start and is kept by every step that succeeds holds, at
the end, of the whole list. -/
theorem tryFold_induct {α : Type w} {f : σ → α → Outcome ε σ} {P : List α → σ → Prop} {s s' : σ}
    {xs : List α} (h : tryFold f s xs = ok s') (h₀ : P [] s)
    (hstep : ∀ done x t t', P done t → f t x = ok t' → P (done ++ [x]) t') : P xs s' := by
  -- by induction on what is left, with the part that is done carried along
  have key : ∀ ys done t, P done t → tryFold f t ys = ok s' → P (done ++ ys) s' := by
    intro ys
    induction ys with
    | nil =>
      intro done t ht h
      simp only [tryFold, ok.injEq] at h
      subst h
      simpa using ht
    | cons y ys ih =>
      intro done t ht h
      obtain ⟨t', hy, hrest⟩ := bind_eq_ok.1 h
      simpa using ih (done ++ [y]) t' (hstep done y t t' ht hy) hrest
  simpa using key xs [] s h₀ h

/-! ## Settling -/

/-- The computation returns to its caller: it does not panic. -/
def Settles (x : Outcome ε α) : Prop := ∀ m, x ≠ panic m

@[simp] theorem settles_ok (a : α) : (ok a : Outcome ε α).Settles := fun _ => nofun

@[simp] theorem settles_err (e : ε) : (err e : Outcome ε α).Settles := fun _ => nofun

@[simp] theorem not_settles_panic (m : String) : ¬ (panic m : Outcome ε α).Settles :=
  fun h => h m rfl

/-- A computation that settles without a value ends with an error. -/
theorem Settles.exists_err {x : Outcome ε α} (hx : x.Settles) (h : ¬ ∃ a, x = ok a) :
    ∃ e, x = err e := by
  cases x with
  | ok a => exact absurd ⟨a, rfl⟩ h
  | err e => exact ⟨e, rfl⟩
  | panic m => exact absurd hx (not_settles_panic m)

/-- A sequence settles when its first part does, and the rest does from every value of it. -/
theorem Settles.bind {x : Outcome ε α} {f : α → Outcome ε β} (hx : x.Settles)
    (hf : ∀ a, x = ok a → (f a).Settles) : (x.bind f).Settles := by
  cases x with
  | ok a => exact hf a rfl
  | err e => exact settles_err e
  | panic m => exact absurd hx (not_settles_panic m)

/-- The first part of a sequence that settles does. -/
theorem Settles.of_bind {x : Outcome ε α} {f : α → Outcome ε β} (h : (x.bind f).Settles) :
    x.Settles := by
  rintro m rfl
  exact h m rfl

/-- After a first part that settles, a sequence settles exactly when the rest does from its
value. -/
theorem settles_bind_iff {x : Outcome ε α} {f : α → Outcome ε β} (hx : x.Settles) :
    (x.bind f).Settles ↔ ∀ a, x = ok a → (f a).Settles := by
  refine ⟨fun h a ha => ?_, hx.bind⟩
  rw [ha] at h
  exact h

/-- A sequence settles exactly when its first part does, and the rest from the value of it. -/
theorem settles_bind_iff_and {x : Outcome ε α} {f : α → Outcome ε β} :
    (x.bind f).Settles ↔ x.Settles ∧ ∀ a, x = ok a → (f a).Settles :=
  ⟨fun h => ⟨h.of_bind, (settles_bind_iff h.of_bind).1 h⟩, fun ⟨hx, hf⟩ => hx.bind hf⟩

@[simp] theorem settles_mapErr {x : Outcome ε α} {g : ε → ε'} :
    (x.mapErr g).Settles ↔ x.Settles := by
  cases x <;> simp

/-- What is made of a value at the end does not matter. -/
@[simp] theorem settles_bind_ok {x : Outcome ε α} {f : α → β} :
    (x.bind fun a => ok (f a)).Settles ↔ x.Settles :=
  ⟨Settles.of_bind, fun h => h.bind fun _ _ => settles_ok _⟩

/-- Without errors, a computation that settles has a value. -/
theorem settles_iff_exists_ok [IsEmpty ε] {x : Outcome ε α} : x.Settles ↔ ∃ a, x = ok a := by
  cases x with
  | ok a => exact ⟨fun _ => ⟨a, rfl⟩, fun _ => settles_ok a⟩
  | err e => exact isEmptyElim e
  | panic m => exact ⟨fun h => absurd h (not_settles_panic m), nofun⟩

/-- Converting the error keeps that a computation settles. -/
theorem Settles.mapErr {x : Outcome ε α} (h : x.Settles) {g : ε → ε'} : (x.mapErr g).Settles :=
  settles_mapErr.2 h

@[simp] theorem settles_ofOption (x : Option α) (e : ε) : (ofOption x e).Settles := by
  cases x <;> simp [ofOption]

/-- A loop over a list settles when every element does. -/
theorem settles_tryMap {α : Type w} {f : α → Outcome ε β} {xs : List α}
    (h : ∀ x ∈ xs, (f x).Settles) : (tryMap f xs).Settles := by
  induction xs with
  | nil => exact settles_ok _
  | cons x xs ih =>
    refine (h x List.mem_cons_self).bind fun y _ => ?_
    exact (ih fun z hz => h z (List.mem_cons_of_mem x hz)).bind fun ys _ => settles_ok _

/-- A loop over a list settles exactly when every element that is reached does, which are those
after values only. -/
theorem settles_tryMap_iff {α : Type w} {f : α → Outcome ε β} {xs : List α} :
    (tryMap f xs).Settles ↔
      ∀ done x rest, xs = done ++ x :: rest → (∀ y ∈ done, ∃ b, f y = ok b) → (f x).Settles := by
  induction xs with
  | nil => simp [tryMap]
  | cons x xs ih =>
    constructor
    · intro h done y rest hsplit hdone
      cases done with
      | nil =>
        obtain ⟨rfl, rfl⟩ := List.cons.inj hsplit
        exact h.of_bind
      | cons z done =>
        obtain ⟨rfl, rfl⟩ := List.cons.inj hsplit
        obtain ⟨b, hb⟩ := hdone x List.mem_cons_self
        have hrest := (settles_bind_iff h.of_bind).1 h b hb
        exact ih.1 hrest.of_bind done y rest rfl fun w hw => hdone w (List.mem_cons_of_mem x hw)
    · intro h
      refine (h [] x xs rfl (by simp)).bind fun b hb => ?_
      refine (ih.2 fun done y rest hsplit hdone => ?_).bind fun _ _ => settles_ok _
      refine h (x :: done) y rest (by rw [hsplit]; rfl) fun w hw => ?_
      rcases List.mem_cons.1 hw with rfl | hw
      · exact ⟨b, hb⟩
      · exact hdone w hw

/-- A loop over a list without errors settles exactly when every element does. -/
theorem settles_tryMap_iff_forall [IsEmpty ε] {α : Type w} {f : α → Outcome ε β} {xs : List α} :
    (tryMap f xs).Settles ↔ ∀ x ∈ xs, (f x).Settles := by
  simp only [settles_iff_exists_ok]
  exact exists_tryMap_iff

/-- A fold settles exactly when every step that is reached does, where neither this nor that a step
returns depends on what was accumulated. -/
theorem settles_tryFold_iff {α : Type w} {f : σ → α → Outcome ε σ} {P Q : α → Prop}
    (hsettles : ∀ s x, (f s x).Settles ↔ P x) (hok : ∀ s x, (∃ t, f s x = ok t) ↔ Q x)
    (s : σ) {xs : List α} :
    (tryFold f s xs).Settles ↔
      ∀ done x rest, xs = done ++ x :: rest → (∀ y ∈ done, Q y) → P x := by
  induction xs generalizing s with
  | nil => simp [tryFold]
  | cons x xs ih =>
    constructor
    · intro h done y rest hsplit hdone
      cases done with
      | nil =>
        obtain ⟨rfl, rfl⟩ := List.cons.inj hsplit
        exact (hsettles s x).1 h.of_bind
      | cons z done =>
        obtain ⟨rfl, rfl⟩ := List.cons.inj hsplit
        obtain ⟨t, ht⟩ := (hok s x).2 (hdone x List.mem_cons_self)
        have hrest := (settles_bind_iff h.of_bind).1 h t ht
        exact (ih t).1 hrest done y rest rfl fun w hw => hdone w (List.mem_cons_of_mem x hw)
    · intro h
      refine ((hsettles s x).2 (h [] x xs rfl (by simp))).bind fun t ht => ?_
      refine (ih t).2 fun done y rest hsplit hdone => ?_
      refine h (x :: done) y rest (by rw [hsplit]; rfl) fun w hw => ?_
      rcases List.mem_cons.1 hw with rfl | hw
      · exact (hok s w).1 ⟨t, ht⟩
      · exact hdone w hw

/-- A fold settles when every step does. -/
theorem settles_tryFold {α : Type w} {f : σ → α → Outcome ε σ} {xs : List α}
    (h : ∀ s, ∀ x ∈ xs, (f s x).Settles) (s : σ) : (tryFold f s xs).Settles := by
  induction xs generalizing s with
  | nil => exact settles_ok _
  | cons x xs ih =>
    refine (h s x List.mem_cons_self).bind fun s' _ => ?_
    exact ih (fun t z hz => h t z (List.mem_cons_of_mem x hz)) s'

/-! ## The errors that are raised -/

/-- Every error of the computation is one of `P`. -/
def RaisesOnly (x : Outcome ε α) (P : ε → Prop) : Prop := ∀ e, x = err e → P e

theorem raisesOnly_ok (a : α) (P : ε → Prop) : (ok a : Outcome ε α).RaisesOnly P := fun _ => nofun

/-- A sequence raises errors of `P` only when its first part does, and the rest does from every
value of it. -/
theorem RaisesOnly.bind {P : ε → Prop} {x : Outcome ε α} {f : α → Outcome ε β}
    (hx : x.RaisesOnly P) (hf : ∀ a, x = ok a → (f a).RaisesOnly P) : (x.bind f).RaisesOnly P := by
  intro e h
  rcases bind_eq_err.1 h with h | ⟨a, ha, h⟩
  · exact hx e h
  · exact hf a ha e h

/-- An error conversion into `P` leaves errors of `P` only. -/
theorem raisesOnly_mapErr {P : ε' → Prop} {g : ε → ε'} (hg : ∀ e, P (g e)) (x : Outcome ε α) :
    (x.mapErr g).RaisesOnly P := by
  intro e h
  obtain ⟨e', -, rfl⟩ := mapErr_eq_err.1 h
  exact hg e'

/-- What is expected to be there is a value or a panic. -/
theorem raisesOnly_expect (x : Option α) (m : String) (P : ε → Prop) :
    (expect x m : Outcome ε α).RaisesOnly P := by
  cases x <;> exact fun _ => nofun

/-- A loop over a list raises errors of `P` only when every element does. -/
theorem raisesOnly_tryMap {α : Type w} {P : ε → Prop} {f : α → Outcome ε β} {xs : List α}
    (h : ∀ x ∈ xs, (f x).RaisesOnly P) : (tryMap f xs).RaisesOnly P := by
  induction xs with
  | nil => exact raisesOnly_ok _ P
  | cons x xs ih =>
    refine (h x List.mem_cons_self).bind fun y _ => ?_
    exact (ih fun z hz => h z (List.mem_cons_of_mem x hz)).bind fun ys _ => raisesOnly_ok _ P

/-- A fold raises errors of `P` only when every step does. -/
theorem raisesOnly_tryFold {α : Type w} {P : ε → Prop} {f : σ → α → Outcome ε σ} {xs : List α}
    (h : ∀ s, ∀ x ∈ xs, (f s x).RaisesOnly P) (s : σ) : (tryFold f s xs).RaisesOnly P := by
  induction xs generalizing s with
  | nil => exact raisesOnly_ok _ P
  | cons x xs ih =>
    refine (h s x List.mem_cons_self).bind fun s' _ => ?_
    exact ih (fun t z hz => h t z (List.mem_cons_of_mem x hz)) s'

/-! ## Agreement -/

/-- Two computations end alike: with related values, with the same error or with the same panic. -/
def Agree (R : α → β → Prop) : Outcome ε α → Outcome ε β → Prop
  | ok a, ok b => R a b
  | err e, err e' => e = e'
  | panic m, panic m' => m = m'
  | _, _ => False

/-- Sequences agree when their first parts do, and the rest does from related values. -/
theorem Agree.bind {R : α → β → Prop} {S : γ → σ → Prop} {x : Outcome ε α} {y : Outcome ε β}
    {f : α → Outcome ε γ} {g : β → Outcome ε σ} (h : Agree R x y)
    (hrest : ∀ a b, R a b → Agree S (f a) (g b)) : Agree S (x.bind f) (y.bind g) := by
  cases x <;> cases y <;> first | exact h.elim | skip
  case ok.ok a b => exact hrest a b h
  case err.err e e' => exact h
  case panic.panic m m' => exact h

/-- A computation agrees with itself. -/
theorem agree_self (x : Outcome ε α) : Agree (· = ·) x x := by
  cases x <;> rfl

/-- What agrees with a computation that ends with an error ends with it too. -/
theorem Agree.err_right {R : α → β → Prop} {x : Outcome ε α} {y : Outcome ε β} {e : ε}
    (h : Agree R x y) (hx : x = err e) : y = err e := by
  subst hx
  cases y with
  | ok b => exact h.elim
  | err e' => exact congrArg err (Eq.symm h)
  | panic m => exact h.elim

end Outcome

end Rust
