import AptosEtl.Worker.Published
import Mathlib.Data.List.Destutter
import Mathlib.Data.List.Sort

/-!
# Extracting a list of versions

`extract`, which a worker without a coordinator calls with the versions that it is given. They are
sorted, each of them is kept once, and the range from the first of them is extracted. Both ends of
the range are taken with `first`, so it is that of the smallest version (`requestedRange_eq`).
-/

namespace AptosEtl.Worker

open Rust Input Reps Tables

/-- The sorted vector with only unique values: `sort_unstable` and `dedup`. -/
def versionList (indexing_iter : List UInt64) : List UInt64 :=
  (indexing_iter.insertionSort (· ≤ ·)).destutter (· ≠ ·)

/-- The message of both `unreachable!`s of `extract`. -/
def unreachableFirst : String :=
  "first_version can only be None if version_list is empty"

/-- The range that `extract` extracts, if there is a version. -/
def requestedRange (indexing_iter : List UInt64) :
    Outcome ExtractionInteruptionError (Option (UInt64 × UInt64)) :=
  let version_list := versionList indexing_iter
  if version_list.isEmpty then
    .ok none
  else
    (Outcome.expect version_list.head? unreachableFirst).bind fun first_version =>
      -- `first` once more, for the last version
      (Outcome.expect version_list.head? unreachableFirst).bind fun last_version =>
        .ok (some (first_version, last_version))

/-- `extract`, with the stream that `get_stream` creates for a range. -/
def extract (crates : Crates) (get_stream : UInt64 → UInt64 → Stream)
    (tables : Option TableOptions) (indexing_iter : List UInt64) :
    Outcome ExtractionInteruptionError (List PublishCall) :=
  (requestedRange indexing_iter).bind fun
    | none => .ok []
    | some (first_version, last_version) =>
      extractRange crates first_version last_version tables (get_stream first_version last_version)

/-! ## The ends of the range -/

/-- Leaving out repetitions leaves the first item. -/
theorem head?_destutter {α : Type} (R : α → α → Prop) [DecidableRel R] (xs : List α) :
    (xs.destutter R).head? = xs.head? := by
  cases xs with
  | nil => rfl
  | cons x xs =>
    rw [List.destutter_cons']
    induction xs with
    | nil => rfl
    | cons y xs ih =>
      rw [List.destutter'_cons]
      split_ifs
      · rfl
      · exact ih

/-- The first version of the list is the smallest of those given. -/
theorem head?_versionList {indexing_iter : List UInt64} (hne : indexing_iter ≠ []) :
    ∃ first_version ∈ indexing_iter, (versionList indexing_iter).head? = some first_version ∧
      ∀ v ∈ indexing_iter, first_version ≤ v := by
  have hsorted := List.pairwise_insertionSort (· ≤ ·) indexing_iter
  have hmem : ∀ v, v ∈ indexing_iter.insertionSort (· ≤ ·) ↔ v ∈ indexing_iter :=
    fun v => List.mem_insertionSort _
  rw [versionList, head?_destutter]
  cases hcase : indexing_iter.insertionSort (· ≤ ·) with
  | nil =>
    obtain ⟨v, hv⟩ := List.exists_mem_of_ne_nil _ hne
    rw [← hmem, hcase] at hv
    exact absurd hv List.not_mem_nil
  | cons first_version rest =>
    rw [hcase] at hsorted hmem
    refine ⟨first_version, (hmem _).1 List.mem_cons_self, rfl, fun v hv => ?_⟩
    rcases List.mem_cons.1 ((hmem v).2 hv) with rfl | hrest
    · exact UInt64.le_refl v
    · exact (List.pairwise_cons.1 hsorted).1 v hrest

/-- The range of a list is that of its smallest version alone. -/
theorem requestedRange_eq {indexing_iter : List UInt64} (hne : indexing_iter ≠ []) :
    ∃ first_version ∈ indexing_iter, (∀ v ∈ indexing_iter, first_version ≤ v) ∧
      requestedRange indexing_iter = .ok (some (first_version, first_version)) := by
  obtain ⟨first_version, hmem, hhead, hle⟩ := head?_versionList hne
  have hlist : (versionList indexing_iter).isEmpty = false := by
    obtain ⟨rest, hrest⟩ := List.head?_eq_some_iff.1 hhead
    rw [hrest]
    rfl
  refine ⟨first_version, hmem, hle, ?_⟩
  simp only [requestedRange, hlist, hhead, Bool.false_eq_true, if_false, Outcome.expect,
    Outcome.ok_bind]

/-- The range that is extracted for a list goes from its smallest to its largest version. -/
def CoversList (indexing_iter : List UInt64) : Prop :=
  ∃ first_version ∈ indexing_iter, ∃ last_version ∈ indexing_iter,
    (∀ v ∈ indexing_iter, first_version ≤ v ∧ v ≤ last_version) ∧
      ∀ crates get_stream tables, extract crates get_stream tables indexing_iter =
        extractRange crates first_version last_version tables
          (get_stream first_version last_version)

/-- The range goes from the smallest to the largest version exactly when all versions of the list
are one. -/
theorem coversList_iff {indexing_iter : List UInt64} (hne : indexing_iter ≠ []) :
    CoversList indexing_iter ↔ ∀ v ∈ indexing_iter, ∀ w ∈ indexing_iter, v = w := by
  obtain ⟨first, hfirst, hle, hrange⟩ := requestedRange_eq hne
  constructor
  · rintro ⟨first_version, -, last_version, -, hbounds, hextract⟩
    -- a stream that cannot be created shows the ends of the range in its error
    have herror := hextract sampleCrates (fun _ _ => .error .BadResponse) none
    rw [extract, hrange] at herror
    have hends := Outcome.err.inj herror
    obtain ⟨-, rfl, rfl, -⟩ := ExtractionInteruptionError.mk.inj hends
    have hsingle : ∀ v ∈ indexing_iter, v = first := fun v hv =>
      UInt64.le_antisymm (hbounds v hv).2 (hbounds v hv).1
    intro v hv w hw
    rw [hsingle v hv, hsingle w hw]
  · intro hsame
    refine ⟨first, hfirst, first, hfirst, fun v hv => ?_, fun crates get_stream tables => ?_⟩
    · rw [hsame v hv first hfirst]
      exact ⟨UInt64.le_refl _, UInt64.le_refl _⟩
    · rw [extract, hrange]
      rfl

/-- A list of one version, given twice. -/
theorem coversList_iff_repeated :
    CoversList [7, 7] ↔ ∀ v ∈ ([7, 7] : List UInt64), ∀ w ∈ ([7, 7] : List UInt64), v = w :=
  coversList_iff nofun

/-- Of the versions 5 and 9, only the first is extracted. -/
theorem not_coversList_of_two :
    ¬ ∀ indexing_iter : List UInt64, indexing_iter ≠ [] → CoversList indexing_iter := by
  intro h
  obtain ⟨first, -, last, -, hbounds, hextract⟩ := h [5, 9] nofun
  have herror := hextract sampleCrates (fun _ _ => .error .BadResponse) none
  have hrange : requestedRange [5, 9] = .ok (some (5, 5)) := rfl
  rw [extract, hrange] at herror
  obtain ⟨-, -, rfl, -⟩ := ExtractionInteruptionError.mk.inj (Outcome.err.inj herror)
  exact absurd (hbounds 9 (by simp)).2 (by decide)

end AptosEtl.Worker
