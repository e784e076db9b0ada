import Mathlib.Data.List.Forall2
import Mathlib.Data.List.Nodup

/-!
# Lists that go together

Two lists whose elements are related one by one, at the same places. What is said of one of them is
said of the other through the relation: of a part of the list, of every element, of every two of
them, and of what the elements are read as.
-/

namespace Aligned

universe u v w

variable {α : Type u} {β : Type v} {γ : Type w} {R : α → β → Prop} {xs xs' : List α} {ys : List β}

/-- A list that goes with an appended one is appended itself. -/
theorem exists_append (h : List.Forall₂ R (xs ++ xs') ys) :
    ∃ zs zs', ys = zs ++ zs' ∧ List.Forall₂ R xs zs ∧ List.Forall₂ R xs' zs' := by
  have hfirst := List.forall₂_take_append _ _ _ h.flip
  have hrest := List.forall₂_drop_append _ _ _ h.flip
  exact ⟨_, _, (List.take_append_drop xs.length ys).symm, hfirst.flip, hrest.flip⟩

/-- Every element of the second list goes with one of the first. -/
theorem exists_of_mem_right (h : List.Forall₂ R xs ys) {y : β} (hy : y ∈ ys) :
    ∃ x ∈ xs, R x y := by
  obtain ⟨i, hi, rfl⟩ := List.mem_iff_getElem.1 hy
  have hi' : i < xs.length := h.length_eq ▸ hi
  exact ⟨xs[i], List.getElem_mem hi', h.get hi' hi⟩

/-- Elements that each have a partner have a list of partners. -/
theorem exists_of_forall (h : ∀ x ∈ xs, ∃ y, R x y) : ∃ ys, List.Forall₂ R xs ys := by
  induction xs with
  | nil => exact ⟨[], .nil⟩
  | cons x xs ih =>
    obtain ⟨⟨y, hy⟩, hrest⟩ := List.forall_mem_cons.1 h
    obtain ⟨ys, hys⟩ := ih hrest
    exact ⟨y :: ys, .cons hy hys⟩

/-- Lists whose elements are read alike are read as the same list. -/
theorem map_eq_map {f : α → γ} {g : β → γ} (h : List.Forall₂ (fun x y => f x = g y) xs ys) :
    xs.map f = ys.map g := by
  rw [← List.forall₂_eq_eq_eq, List.forall₂_map_left_iff, List.forall₂_map_right_iff]
  exact h

/-- What holds of related elements alike holds of all elements of both lists alike. -/
theorem forall_mem_iff (h : List.Forall₂ R xs ys) {p : α → Prop} {q : β → Prop}
    (hiff : ∀ x y, R x y → (p x ↔ q y)) : (∀ x ∈ xs, p x) ↔ ∀ y ∈ ys, q y := by
  induction h with
  | nil => simp
  | cons hxy _ ih => rw [List.forall_mem_cons, List.forall_mem_cons, hiff _ _ hxy, ih]

/-- What holds of two pairs of related elements alike holds of every two elements of both lists
alike. -/
theorem pairwise_iff (h : List.Forall₂ R xs ys) {p : α → α → Prop} {q : β → β → Prop}
    (hiff : ∀ x y x' y', R x y → R x' y' → (p x x' ↔ q y y')) :
    xs.Pairwise p ↔ ys.Pairwise q := by
  induction h with
  | nil => simp
  | cons hxy hrest ih =>
    rw [List.pairwise_cons, List.pairwise_cons, ih,
      forall_mem_iff hrest fun x' y' => hiff _ _ x' y' hxy]

/-- Lists that go with a common third one go together. -/
theorem trans {S : α → γ → Prop} {zs : List γ} (h : List.Forall₂ R xs ys)
    (h' : List.Forall₂ S xs zs) : List.Forall₂ (fun y z => ∃ x, R x y ∧ S x z) ys zs := by
  induction h generalizing zs with
  | nil => cases h'; exact .nil
  | cons hxy _ ih =>
    cases h' with
    | cons hxz hrest => exact .cons ⟨_, hxy, hxz⟩ (ih hrest)

/-- Lists that go with a list between them go together. -/
theorem comp {S : β → γ → Prop} {zs : List γ} (h : List.Forall₂ R xs ys)
    (h' : List.Forall₂ S ys zs) : List.Forall₂ (fun x z => ∃ y, R x y ∧ S y z) xs zs := by
  induction h generalizing zs with
  | nil => cases h'; exact .nil
  | cons hxy _ ih =>
    cases h' with
    | cons hyz hrest => exact .cons ⟨_, hxy, hyz⟩ (ih hrest)

/-- Where another relation of two elements that go together is decided by the first of them, it is
decided for the lists by the elements of the first list. -/
theorem forall₂_iff {P : α → β → Prop} {p : α → Prop} (h : List.Forall₂ R xs ys)
    (hiff : ∀ x y, R x y → (P x y ↔ p x)) : List.Forall₂ P xs ys ↔ ∀ x ∈ xs, p x := by
  induction h with
  | nil => simp
  | cons hxy _ ih => rw [List.forall₂_cons, List.forall_mem_cons, hiff _ _ hxy, ih]

/-- What holds of all elements holds of them at their places. -/
theorem forall_mem_zipIdx_iff {p : α → Prop} :
    (∀ item ∈ xs.zipIdx, p item.1) ↔ ∀ x ∈ xs, p x := by
  rw [← List.forall_mem_map, List.zipIdx_map_fst]

section Indexed

variable {S : α × ℕ → β → Prop} {f : β → List γ} {index : γ → ℕ}

/-- Elements that are made one by one, at most one at each place and with the place as its index,
have indices that follow the places. -/
theorem index_sublist {items : List (α × ℕ)} (h : List.Forall₂ S items ys)
    (hf : ∀ item y, S item y → ((f y).map index).Sublist [item.2]) :
    ((ys.flatMap f).map index).Sublist (items.map Prod.snd) := by
  induction h with
  | nil => exact .slnil
  | cons hxy _ ih =>
    rw [List.flatMap_cons, List.map_append, List.map_cons]
    exact (hf _ _ hxy).append ih

/-- So they have different indices. -/
theorem nodup_index (h : List.Forall₂ S xs.zipIdx ys)
    (hf : ∀ item y, S item y → ((f y).map index).Sublist [item.2]) :
    ((ys.flatMap f).map index).Nodup := by
  have hplaces := index_sublist h hf
  rw [List.zipIdx_map_snd] at hplaces
  exact (List.nodup_range' 1).sublist hplaces

/-- And their indices go up. -/
theorem pairwise_index (h : List.Forall₂ S xs.zipIdx ys)
    (hf : ∀ item y, S item y → ((f y).map index).Sublist [item.2]) :
    ((ys.flatMap f).map index).Pairwise (· < ·) := by
  have hplaces := index_sublist h hf
  rw [List.zipIdx_map_snd, ← List.range_eq_range'] at hplaces
  exact List.pairwise_lt_range.sublist hplaces

/-- When there is one at each of certain places, their indices are these places. -/
theorem map_index_eq {p : α × ℕ → Bool} {items : List (α × ℕ)} (h : List.Forall₂ S items ys)
    (hf : ∀ item y, S item y → (f y).map index = if p item then [item.2] else []) :
    (ys.flatMap f).map index = (items.filter p).map Prod.snd := by
  induction h with
  | nil => rfl
  | cons hxy _ ih =>
    rw [List.flatMap_cons, List.map_append, hf _ _ hxy, ih, List.filter_cons]
    split <;> rfl

/-- The element at a place was made there. -/
theorem exists_of_getElem?_zipIdx (h : List.Forall₂ S xs.zipIdx ys) {i : ℕ} {y : β}
    (hy : ys[i]? = some y) : ∃ x, xs[i]? = some x ∧ S (x, i) y := by
  obtain ⟨hi, rfl⟩ := List.getElem?_eq_some_iff.1 hy
  have hplace : i < xs.zipIdx.length := h.length_eq ▸ hi
  have hi' : i < xs.length := List.length_zipIdx ▸ hplace
  have hmade := h.get hplace hi
  rw [List.get_eq_getElem, List.get_eq_getElem, List.getElem_zipIdx, Nat.zero_add] at hmade
  exact ⟨xs[i], List.getElem?_eq_getElem hi', hmade⟩

/-- The elements with an index are those that were made at that place. -/
theorem filter_index {k : ℕ} (h : List.Forall₂ S (xs.zipIdx k) ys)
    (hf : ∀ item y, S item y → ∀ c ∈ f y, index c = item.2) (i : ℕ) :
    (ys.flatMap f).filter (index · = k + i) = (ys[i]?).elim [] f := by
  induction xs generalizing ys k i with
  | nil =>
    cases h
    rfl
  | cons x xs ih =>
    rw [List.zipIdx_cons] at h
    obtain ⟨y, ys, hxy, hrest, rfl⟩ := List.forall₂_cons_left_iff.1 h
    have hall : ∀ c ∈ f y, index c = k := hf _ _ hxy
    -- what is made later has a larger index
    have hlater : ∀ c ∈ ys.flatMap f, k < index c := by
      intro c hc
      obtain ⟨z, hz, hc⟩ := List.mem_flatMap.1 hc
      obtain ⟨item, hitem, hxz⟩ := exists_of_mem_right hrest hz
      have hge := List.le_snd_of_mem_zipIdx hitem
      have hindex := hf item z hxz c hc
      omega
    rw [List.flatMap_cons, List.filter_append]
    cases i with
    | zero =>
      have hfirst : (f y).filter (index · = k + 0) = f y :=
        List.filter_eq_self.2 fun c hc => decide_eq_true (hall c hc)
      have hnone : (ys.flatMap f).filter (index · = k + 0) = [] := by
        rw [List.filter_eq_nil_iff]
        intro c hc
        have hgt := hlater c hc
        rw [decide_eq_true_eq]
        omega
      rw [hfirst, hnone, List.append_nil]
      rfl
    | succ i =>
      have hnone : (f y).filter (index · = k + (i + 1)) = [] := by
        rw [List.filter_eq_nil_iff]
        intro c hc
        have hindex := hall c hc
        rw [decide_eq_true_eq]
        omega
      have hplace : k + (i + 1) = k + 1 + i := by omega
      rw [hnone, List.nil_append, hplace, ih hrest i, List.getElem?_cons_succ]

end Indexed

end Aligned
