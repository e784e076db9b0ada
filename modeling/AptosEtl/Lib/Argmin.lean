import Mathlib.Data.List.MinMax
import Mathlib.Data.Prod.Lex

/-!
# The first of the least

The first element of a list with the least `f`, which a running minimum ends with
(`foldl_eq_map_first`). Where a second key `g` tells apart elements with the same `f`, it need not
be the least by both keys, and which element it is depends on the order of the list. Neither shows
exactly when the elements with the least `f` agree on `g` (`tiesAgree_iff_perm`).
-/

namespace Argmin

variable {α β γ : Type*} [LinearOrder β] {f : α → β} {g : α → γ} {xs : List α}

/-- The first element of a list with the least `f`. -/
abbrev first (f : α → β) (xs : List α) : Option α := xs.argmin f

/-- The elements of a list with the least `f` have the same `g`. -/
def TiesAgree (f : α → β) (g : α → γ) (xs : List α) : Prop :=
  ∀ a ∈ xs, ∀ b ∈ xs, (∀ x ∈ xs, f a ≤ f x) → (∀ x ∈ xs, f b ≤ f x) → g a = g b

/-- A list that is not empty has a first element with the least `f`. -/
theorem exists_mem_first (f : α → β) (h : xs ≠ []) : ∃ m, m ∈ first f xs :=
  Option.ne_none_iff_exists'.1 fun hnone => h (List.argmin_eq_none.1 hnone)

/-- An element with the least `f` is found where it comes first. -/
theorem first_cons_of_le {a : α} (h : ∀ x ∈ xs, f a ≤ f x) : first f (a :: xs) = some a := by
  rw [first, List.argmin_cons]
  cases hrest : xs.argmin f with
  | none => rfl
  | some c => exact if_neg (not_lt_of_ge (h c (List.argmin_mem hrest)))

/-- A running minimum keeps the value of the element with the least `f` so far, and ends with that
of the first element with the least `f`. -/
theorem foldl_eq_map_first {δ : Type*} {value : α → δ} {step : Option δ → α → Option δ}
    (hnone : ∀ a, step none a = some (value a))
    (hlt : ∀ c a, f a < f c → step (some (value c)) a = some (value a))
    (hle : ∀ c a, ¬ f a < f c → step (some (value c)) a = some (value c)) (xs : List α) :
    xs.foldl step none = (first f xs).map value := by
  have hstep : ∀ found a,
      step (found.map value) a = (List.argAux (fun b c => f b < f c) found a).map value := by
    intro found a
    cases found with
    | none => exact hnone a
    | some c =>
      have haux : List.argAux (fun b c => f b < f c) (some c) a =
          if f a < f c then some a else some c := rfl
      rw [haux, Option.map_some]
      split_ifs with hless
      · exact hlt c a hless
      · exact hle c a hless
  exact @List.foldl_hom _ _ _ (Option.map value) _ _ xs none hstep

/-- Where the ties agree, the element that is found is the least by both keys. -/
theorem lex_le_of_tiesAgree [LinearOrder γ] (h : TiesAgree f g xs) {m : α}
    (hm : m ∈ first f xs) : ∀ x ∈ xs, toLex (f m, g m) ≤ toLex (f x, g x) := by
  intro x hx
  have hleast : ∀ y ∈ xs, f m ≤ f y := fun y hy => List.le_of_mem_argmin hy hm
  rw [Prod.Lex.toLex_le_toLex']
  refine ⟨hleast x hx, fun heq : f m = f x => ?_⟩
  -- an element with the same first key is tied with the one found
  exact (h m (List.argmin_mem hm) x hx hleast fun y hy => heq ▸ hleast y hy).le

/-- The ties agree exactly when the keys of the element that is found do not depend on the order. -/
theorem tiesAgree_iff_perm : TiesAgree f g xs ↔ ∀ ys : List α, ys.Perm xs →
    (first f ys).map (fun a => (f a, g a)) = (first f xs).map fun a => (f a, g a) := by
  constructor
  · intro h ys hperm
    cases hxs : first f xs with
    | none =>
      rw [List.argmin_eq_none] at hxs
      subst hxs
      rw [hperm.eq_nil]
      rfl
    | some m =>
      have hne : ys ≠ [] := by
        rintro rfl
        rw [hperm.symm.eq_nil] at hxs
        cases hxs
      obtain ⟨m', hm'⟩ := exists_mem_first f hne
      -- both are least, in the one list and in the other
      have hmem' : m' ∈ xs := hperm.mem_iff.1 (List.argmin_mem hm')
      have hleast : ∀ x ∈ xs, f m ≤ f x := fun x hx => List.le_of_mem_argmin hx hxs
      have hleast' : ∀ x ∈ xs, f m' ≤ f x :=
        fun x hx => List.le_of_mem_argmin (hperm.mem_iff.2 hx) hm'
      have hf : f m' = f m := le_antisymm (hleast' m (List.argmin_mem hxs)) (hleast m' hmem')
      have hg : g m' = g m := h m' hmem' m (List.argmin_mem hxs) hleast' hleast
      rw [Option.mem_def.1 hm', Option.map_some, Option.map_some, hf, hg]
  · intro h a ha b hb hleast hleast'
    -- either one is found when it is moved to the front
    have hfront : ∀ c ∈ xs, (∀ x ∈ xs, f c ≤ f x) →
        (first f xs).map (fun a => (f a, g a)) = some (f c, g c) := by
      intro c hc hleast
      obtain ⟨before, after, rfl⟩ := List.append_of_mem hc
      have hperm : (c :: (before ++ after)).Perm (before ++ c :: after) :=
        List.perm_middle.symm
      have hfirst : first f (c :: (before ++ after)) = some c :=
        first_cons_of_le fun x hx => hleast x (hperm.mem_iff.1 (List.mem_cons_of_mem c hx))
      rw [← h _ hperm, hfirst, Option.map_some]
    have hkeys := (hfront a ha hleast).symm.trans (hfront b hb hleast')
    exact (Prod.mk.inj (Option.some.inj hkeys)).2

end Argmin
