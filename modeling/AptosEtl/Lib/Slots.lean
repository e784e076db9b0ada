import Mathlib.Data.List.Nodup

/-!
# Filling numbered slots from a map

A map has entries under distinct indices, and the slots `0`, …, `n - 1` each take the entry of their
own number. An entry whose index is `n` or more stays in the map: the filled slots are as many as
the entries with an index in range (`filled_fill`).
-/

namespace Slots

universe u

variable {β : Type u} {entries : List (ℕ × β)} {k n : ℕ} {value : β}

/-! ## Entries with distinct indices -/

/-- With distinct indices, looking one up gives the entry of that index. -/
theorem lookup_eq_some_iff_mem (h : (entries.map Prod.fst).Nodup) :
    entries.lookup k = some value ↔ (k, value) ∈ entries := by
  constructor
  · intro hlookup
    obtain ⟨before, after, rfl, -⟩ := List.lookup_eq_some_iff.1 hlookup
    exact List.mem_append_right _ List.mem_cons_self
  · intro hmem
    induction entries with
    | nil => exact absurd hmem List.not_mem_nil
    | cons entry entries ih =>
      rw [List.map_cons, List.nodup_cons] at h
      rcases List.mem_cons.1 hmem with rfl | hmem
      · exact List.lookup_cons_self
      · have hne : (k == entry.1) = false := by
          rw [beq_eq_false_iff_ne]
          intro heq
          rw [← heq] at h
          exact h.1 (List.mem_map.2 ⟨(k, value), hmem, rfl⟩)
        rw [List.lookup_cons, hne]
        exact ih h.2 hmem

/-- With distinct indices, the order of the entries does not matter for looking up. -/
theorem lookup_reverse (h : (entries.map Prod.fst).Nodup) :
    entries.reverse.lookup k = entries.lookup k := by
  have hreverse : (entries.reverse.map Prod.fst).Nodup := by
    rw [List.map_reverse]
    exact List.nodup_reverse.2 h
  apply Option.ext
  intro value
  rw [lookup_eq_some_iff_mem hreverse, lookup_eq_some_iff_mem h, List.mem_reverse]

/-- An index that no entry has is not found. -/
theorem lookup_eq_none_iff_notMem : entries.lookup k = none ↔ k ∉ entries.map Prod.fst := by
  rw [List.lookup_eq_none_iff]
  constructor
  · intro hnone hmem
    obtain ⟨entry, hentry, rfl⟩ := List.mem_map.1 hmem
    simpa using hnone entry hentry
  · intro hnot entry hentry
    rw [bne_iff_ne]
    rintro rfl
    exact hnot (List.mem_map.2 ⟨entry, hentry, rfl⟩)

/-! ## Slots -/

/-- What the first `n` slots hold. -/
def fill (entries : List (ℕ × β)) (n : ℕ) : List (Option β) :=
  (List.range n).map fun k => entries.lookup k

/-- A slot holds an entry of its own number. -/
theorem getElem?_fill (h : (entries.map Prod.fst).Nodup) (hk : k < n) :
    (fill entries n)[k]? = some (some value) ↔ (k, value) ∈ entries := by
  rw [fill, List.getElem?_map, List.getElem?_range hk, Option.map_some, Option.some.injEq,
    lookup_eq_some_iff_mem h]

/-- There are as many filled slots as entries with an index in range. -/
theorem filled_fill (h : (entries.map Prod.fst).Nodup) :
    ((fill entries n).filter Option.isSome).length = (entries.filter (·.1 < n)).length := by
  -- the numbers of the filled slots are the indices in range, in another order
  have hperm : List.Perm ((List.range n).filter (Option.isSome ∘ fun k => entries.lookup k))
      ((entries.filter (·.1 < n)).map Prod.fst) := by
    refine (List.perm_ext_iff_of_nodup (List.nodup_range.filter _) ?_).2 fun i => ?_
    · exact h.sublist (List.filter_sublist.map Prod.fst)
    · rw [List.mem_filter, List.mem_range, List.mem_map, Function.comp, List.lookup_isSome_iff]
      constructor
      · rintro ⟨hlt, entry, hentry, hbeq⟩
        obtain rfl := eq_of_beq hbeq
        exact ⟨entry, List.mem_filter.2 ⟨hentry, decide_eq_true hlt⟩, rfl⟩
      · rintro ⟨entry, hentry, rfl⟩
        obtain ⟨hentry, hlt⟩ := List.mem_filter.1 hentry
        exact ⟨of_decide_eq_true hlt, entry, hentry, beq_self_eq_true _⟩
  rw [fill, List.filter_map, List.length_map, hperm.length_eq, List.length_map]

/-- Every entry has its slot exactly when its index is in range. -/
theorem filled_fill_eq_length_iff (h : (entries.map Prod.fst).Nodup) :
    ((fill entries n).filter Option.isSome).length = entries.length ↔
      ∀ entry ∈ entries, entry.1 < n := by
  rw [filled_fill h, List.length_filter_eq_length_iff]
  simp only [decide_eq_true_eq]

end Slots
