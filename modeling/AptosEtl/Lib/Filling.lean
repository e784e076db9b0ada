import AptosEtl.Lib.Machine
import Mathlib.Order.Interval.Set.OrdConnected
import Mathlib.Order.UpperLower.Closure

/-!
# Filling the gaps of windows

A set in a linear order is looked at through windows, each of which is an interval. `filled` closes
the gaps that the set has within each window, and `between_filled_subset` says that this is final:
the elements that close the gaps of one window open no gap in another, however the windows overlap.

The machine fills gaps in any order. A request asks for the gaps of a window as they were at some
earlier time, or for a part of them only, and what is asked for arrives in any order, or more than
once. Once all of it has arrived, the set is `filled` (`present_eq_filled`), whatever the order was,
if every window of which a part was asked for was also asked for as a whole.
-/

universe u v

namespace Filling

open Machine Set

variable {α : Type u} {ι : Type v} [LinearOrder α]

/-! ## Closing gaps -/

/-- The elements between two elements of a set, these included. -/
def between (s : Set α) : Set α := upperClosure s ∩ lowerClosure s

/-- A set with its gaps within some windows closed. -/
def filled (window : ι → Set α) (asked : Set ι) (s : Set α) : Set α :=
  s ∪ ⋃ i ∈ asked, between (s ∩ window i)

/-- An element is between two of a set if there is one at most and one at least as large. -/
theorem mem_between {s : Set α} {v : α} :
    v ∈ between s ↔ (∃ u ∈ s, u ≤ v) ∧ ∃ w ∈ s, v ≤ w := by
  rw [between, mem_inter_iff, SetLike.mem_coe, SetLike.mem_coe, mem_upperClosure, mem_lowerClosure]

/-- More elements have more between them. -/
theorem between_mono {s t : Set α} (h : s ⊆ t) : between s ⊆ between t :=
  inter_subset_inter (upperClosure_anti h) (lowerClosure_mono h)

variable {window : ι → Set α} {asked asked' : Set ι} {s t : Set α} {i : ι}

/-- An element of the filled set is one of the set or closes a gap in a window. -/
theorem mem_filled {v : α} :
    v ∈ filled window asked s ↔ v ∈ s ∨ ∃ i ∈ asked, v ∈ between (s ∩ window i) := by
  simp only [filled, mem_union, mem_iUnion, exists_prop]

/-- Closing gaps keeps the set. -/
theorem subset_filled : s ⊆ filled window asked s := subset_union_left

/-- More windows close more gaps. -/
theorem filled_mono (h : asked ⊆ asked') : filled window asked s ⊆ filled window asked' s :=
  union_subset_union_right s (biUnion_subset_biUnion_left h)

/-- The gaps that are closed in a window. -/
theorem between_subset_filled (hi : i ∈ asked) : between (s ∩ window i) ⊆ filled window asked s :=
  fun _ hv => mem_filled.2 (.inr ⟨i, hi, hv⟩)

/-- Closing gaps leaves none in any of the windows. -/
theorem between_filled_subset (hconnected : ∀ i, (window i).OrdConnected) (hi : i ∈ asked) :
    between (filled window asked s ∩ window i) ⊆ filled window asked s := by
  intro v hv
  obtain ⟨⟨a, ⟨ha, haw⟩, hav⟩, b, ⟨hb, hbw⟩, hvb⟩ := mem_between.1 hv
  -- below and above, either the gap of another window goes through `v`, or it ends in this window
  have hbelow : v ∈ filled window asked s ∨ ∃ u ∈ s ∩ window i, u ≤ v := by
    rcases mem_filled.1 ha with ha | ⟨j, hj, ha⟩
    · exact .inr ⟨a, ⟨ha, haw⟩, hav⟩
    · obtain ⟨⟨u, hu, hua⟩, u', hu', hau'⟩ := mem_between.1 ha
      rcases le_or_gt v u' with hvu' | hu'v
      · exact .inl (between_subset_filled hj
          (mem_between.2 ⟨⟨u, hu, hua.trans hav⟩, u', hu', hvu'⟩))
      · have hmem : u' ∈ window i := (hconnected i).out haw hbw ⟨hau', hu'v.le.trans hvb⟩
        exact .inr ⟨u', ⟨hu'.1, hmem⟩, hu'v.le⟩
  have habove : v ∈ filled window asked s ∨ ∃ w ∈ s ∩ window i, v ≤ w := by
    rcases mem_filled.1 hb with hb | ⟨j, hj, hb⟩
    · exact .inr ⟨b, ⟨hb, hbw⟩, hvb⟩
    · obtain ⟨⟨w, hw, hwb⟩, w', hw', hbw'⟩ := mem_between.1 hb
      rcases le_or_gt w v with hwv | hvw
      · exact .inl (between_subset_filled hj
          (mem_between.2 ⟨⟨w, hw, hwv⟩, w', hw', hvb.trans hbw'⟩))
      · have hmem : w ∈ window i := (hconnected i).out haw hbw ⟨hav.trans hvw.le, hwb⟩
        exact .inr ⟨w, ⟨hw.1, hmem⟩, hvw.le⟩
  rcases hbelow with hv | hbelow
  · exact hv
  · rcases habove with hv | habove
    · exact hv
    · exact between_subset_filled hi (mem_between.2 ⟨hbelow, habove⟩)

/-! ## The machine -/

/-- The elements that are present, those that were asked for, the windows of which all gaps were
asked for, and those of which at least a part was. -/
structure State (α : Type u) (ι : Type v) where
  present : Set α
  requested : Set α
  asked : Set ι
  tried : Set ι

/-- What happens next. -/
inductive Event (α : Type u) (ι : Type v) where
  /-- The gaps of a window are asked for, as they were when certain elements were present. -/
  | request (i : ι) (seen : Set α)
  /-- Only some of them are. -/
  | requestPart (i : ι) (seen part : Set α)
  /-- An element arrives. -/
  | arrive (v : α)

/-- A set whose gaps are not asked for yet. -/
def State.new (s : Set α) : State α ι := ⟨s, ∅, ∅, ∅⟩

/-- One step. -/
def step (window : ι → Set α) (s : State α ι) : Event α ι → Option (State α ι)
  | .request i seen =>
    some ⟨s.present, s.requested ∪ between (seen ∩ window i) \ seen, insert i s.asked,
      insert i s.tried⟩
  | .requestPart i _ part => some ⟨s.present, s.requested ∪ part, s.asked, insert i s.tried⟩
  | .arrive v => some ⟨insert v s.present, s.requested, s.asked, s.tried⟩

/-- What was seen was present at some time since the start, a part is one of the gaps, and what
arrives was asked for. -/
def Allowed (window : ι → Set α) (start : Set α) (s : State α ι) : Event α ι → Prop
  | .request _ seen => start ⊆ seen ∧ seen ⊆ s.present
  | .requestPart i seen part => seen ⊆ s.present ∧ part ⊆ between (seen ∩ window i)
  | .arrive v => v ∈ s.requested

/-- What holds in every state. -/
structure Invariant (window : ι → Set α) (start : Set α) (s : State α ι) : Prop where
  /-- Nothing is lost. -/
  kept : start ⊆ s.present
  /-- Nothing is present that does not close a gap of the start. -/
  within : s.present ⊆ filled window s.tried start
  /-- Nothing is asked for that does not. -/
  requested : s.requested ⊆ filled window s.tried start
  /-- What closes a gap of a window that was asked for is present or asked for. -/
  covered : filled window s.asked start ⊆ s.present ∪ s.requested

variable {start : Set α} {state : State α ι}

/-- What is between elements of the present set, in a window that is tried next, closes a gap of the
start. -/
theorem Invariant.between_subset (hs : Invariant window start state)
    (hconnected : ∀ i, (window i).OrdConnected) {seen : Set α} (hseen : seen ⊆ state.present) :
    between (seen ∩ window i) ⊆ filled window (insert i state.tried) start := by
  -- what was seen is within the filled set, in which there are no gaps
  have hwithin : seen ⊆ filled window (insert i state.tried) start :=
    hseen.trans (hs.within.trans (filled_mono (subset_insert i _)))
  exact (between_mono (inter_subset_inter_left _ hwithin)).trans
    (between_filled_subset hconnected (mem_insert i _))

/-- The invariant holds in every state that the machine reaches. -/
theorem invariant_of_reaches (hconnected : ∀ i, (window i).OrdConnected)
    (h : Reaches (step window) (Allowed window start) (.new start) state) :
    Invariant window start state := by
  refine h.invariant (P := Invariant window start) ?_ ?_
  · constructor
    case kept => exact subset_rfl
    case within => exact subset_filled
    case requested => exact empty_subset _
    case covered =>
      intro v hv
      rcases mem_filled.1 hv with hv | ⟨i, hi, -⟩
      · exact .inl hv
      · exact absurd hi (notMem_empty i)
  intro s e s' hs hallowed hstep
  cases e with
  | arrive v =>
    obtain rfl := Option.some.inj hstep
    constructor
    case kept => exact hs.kept.trans (subset_insert v _)
    case within => exact insert_subset (hs.requested hallowed) hs.within
    case requested => exact hs.requested
    case covered => exact hs.covered.trans (union_subset_union_left _ (subset_insert v _))
  | requestPart i seen part =>
    obtain ⟨hseen, hpart⟩ := hallowed
    obtain rfl := Option.some.inj hstep
    have hmono : filled window s.tried start ⊆ filled window (insert i s.tried) start :=
      filled_mono (subset_insert i _)
    constructor
    case kept => exact hs.kept
    case within => exact hs.within.trans hmono
    case requested =>
      exact union_subset (hs.requested.trans hmono)
        (hpart.trans (hs.between_subset hconnected hseen))
    case covered =>
      exact hs.covered.trans (union_subset_union_right _ subset_union_left)
  | request i seen =>
    obtain ⟨hstart, hseen⟩ := hallowed
    obtain rfl := Option.some.inj hstep
    have hmono : filled window s.tried start ⊆ filled window (insert i s.tried) start :=
      filled_mono (subset_insert i _)
    constructor
    case kept => exact hs.kept
    case within => exact hs.within.trans hmono
    case requested =>
      exact union_subset (hs.requested.trans hmono)
        (sdiff_subset.trans (hs.between_subset hconnected hseen))
    case covered =>
      intro v hv
      rcases mem_filled.1 hv with hv | ⟨j, hj, hgap⟩
      · exact .inl (hs.kept hv)
      · rcases mem_insert_iff.1 hj with rfl | hj
        · have hgap := between_mono (inter_subset_inter_left (window j) hstart) hgap
          by_cases hold : v ∈ seen
          · exact .inl (hseen hold)
          · exact .inr (.inr ⟨hgap, hold⟩)
        · rcases hs.covered (between_subset_filled hj hgap) with hv | hv
          · exact .inl hv
          · exact .inr (.inl hv)

/-- Once everything that was asked for has arrived, the gaps of the start are closed within the
windows that were asked for, nothing else is present, and these windows have no gap, if no window
was asked for in part only. -/
theorem present_eq_filled (hconnected : ∀ i, (window i).OrdConnected)
    (h : Reaches (step window) (Allowed window start) (.new start) state)
    (hwhole : state.tried ⊆ state.asked) (harrived : state.requested ⊆ state.present) :
    state.present = filled window state.asked start ∧
      ∀ i ∈ state.asked, between (state.present ∩ window i) ⊆ state.present := by
  have hs := invariant_of_reaches hconnected h
  have hpresent : state.present = filled window state.asked start :=
    (hs.within.trans (filled_mono hwhole)).antisymm
      (hs.covered.trans (union_subset subset_rfl harrived))
  refine ⟨hpresent, fun i hi => ?_⟩
  rw [hpresent]
  exact between_filled_subset hconnected hi

end Filling
