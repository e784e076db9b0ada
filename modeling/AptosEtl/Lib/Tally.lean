import Mathlib.Data.List.AList

/-!
# Counting into a map

A tally is a finite map from keys to the number of times each was seen, built one key at a time.
Looking a key up gives its count, and a key is in the map exactly when it was seen, so that taking
the expected keys out of a tally empties it exactly when no other key was seen.
-/

namespace Rust

universe u

/-- A map from keys to counts. -/
abbrev Tally (κ : Type u) := AList fun _ : κ => ℕ

namespace Tally

variable {κ : Type u} [DecidableEq κ]

/-- Count one more of a key: `*entry(k).or_insert(0) += 1`. -/
def bump (counts : Tally κ) (k : κ) : Tally κ := counts.insert k ((counts.lookup k).getD 0 + 1)

/-- The tally of a list of keys. -/
def ofList (ks : List κ) : Tally κ := ks.foldl bump ∅

/-- The count of a key, zero when it is not in the map. -/
def get (counts : Tally κ) (k : κ) : ℕ := (counts.lookup k).getD 0

theorem get_bump (counts : Tally κ) (k k' : κ) :
    (counts.bump k).get k' = counts.get k' + if k' = k then 1 else 0 := by
  unfold bump get
  split_ifs with h
  · rw [h, AList.lookup_insert, Option.getD_some]
  · rw [AList.lookup_insert_ne h, Nat.add_zero]

/-- The tally of a list counts each key as often as the list holds it. -/
theorem get_ofList (ks : List κ) (k : κ) : (ofList ks).get k = ks.count k := by
  -- the fold for any map to start from, by induction on the keys
  have key : ∀ (ks : List κ) (counts : Tally κ),
      (ks.foldl bump counts).get k = counts.get k + ks.count k := by
    intro ks
    induction ks with
    | nil => intro counts; rfl
    | cons k' ks ih =>
      intro counts
      rw [List.foldl_cons, ih, get_bump, List.count_cons]
      by_cases h : k = k'
      · simp only [h, if_true, beq_self_eq_true]
        omega
      · simp [h, Ne.symm h]
  rw [ofList, key]
  exact Nat.zero_add _

/-- The tally of a list holds the keys of the list. -/
theorem mem_ofList (ks : List κ) (k : κ) : k ∈ ofList ks ↔ k ∈ ks := by
  have key : ∀ (ks : List κ) (counts : Tally κ),
      k ∈ ks.foldl bump counts ↔ k ∈ counts ∨ k ∈ ks := by
    intro ks
    induction ks with
    | nil => intro counts; simp
    | cons k' ks ih =>
      intro counts
      rw [List.foldl_cons, ih, bump, AList.mem_insert, List.mem_cons]
      tauto
  rw [ofList, key]
  simp

omit [DecidableEq κ] in
/-- A map is empty exactly when no key is in it. -/
theorem entries_eq_nil_iff (counts : Tally κ) : counts.entries = [] ↔ ∀ k, k ∉ counts := by
  constructor
  · intro h k hk
    rw [AList.mem_keys, AList.keys, h] at hk
    simp at hk
  · intro h
    rw [List.eq_nil_iff_forall_not_mem]
    rintro ⟨k, n⟩ hmem
    exact h k (AList.mem_keys.2 (List.mem_map.2 ⟨⟨k, n⟩, hmem, rfl⟩))

end Tally

end Rust
