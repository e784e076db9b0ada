import Mathlib.Order.Lattice
import Mathlib.Data.List.Basic
import Mathlib.Data.List.Chain

/-!
# Tilings of an interval

A span has a start and a stop, and can be read as `[start, stop)` or as `[start, stop]`. `Tiles a c`
describes a list of non-empty spans that lie end to end from `a` to `c`.

Read with their stops, the spans of a tiling cover `[a, c]`, but each one meets the next.
-/

universe u

/-- A start and a stop. -/
structure Span (α : Type u) where
  start : α
  stop : α
  deriving DecidableEq, Repr

namespace Span

variable {α : Type u} [LinearOrder α]

/-- The span includes a point, when it is read with its stop. -/
def Includes (s : Span α) (v : α) : Prop := s.start ≤ v ∧ v ≤ s.stop

instance (s : Span α) (v : α) : Decidable (s.Includes v) := inferInstanceAs (Decidable (_ ∧ _))

/-- Two spans have no point in common, when they are read with their stops. -/
def Apart (s t : Span α) : Prop := ∀ v, ¬ (s.Includes v ∧ t.Includes v)

/-- Non-empty spans that lie end to end. -/
inductive Tiles : α → α → List (Span α) → Prop where
  | nil (a : α) : Tiles a a []
  | cons {a b c : α} {spans : List (Span α)} (hlt : a < b) (rest : Tiles b c spans) :
    Tiles a c (⟨a, b⟩ :: spans)

namespace Tiles

variable {a c v : α} {spans : List (Span α)}

/-- A tiling goes up. -/
theorem le (h : Tiles a c spans) : a ≤ c := by
  induction h with
  | nil a => exact le_refl a
  | cons hlt _ ih => exact hlt.le.trans ih

/-- The spans of a tiling are not empty and lie between its ends. -/
theorem bounds (h : Tiles a c spans) {s : Span α} (hs : s ∈ spans) :
    a ≤ s.start ∧ s.start < s.stop ∧ s.stop ≤ c := by
  induction h with
  | nil a => simp at hs
  | @cons a b c spans hlt rest ih =>
    rcases List.mem_cons.1 hs with rfl | hs
    · exact ⟨le_refl a, hlt, rest.le⟩
    · obtain ⟨hstart, hne, hstop⟩ := ih hs
      exact ⟨hlt.le.trans hstart, hne, hstop⟩

/-- A tiling is empty exactly when its ends are the same. -/
theorem eq_nil_iff (h : Tiles a c spans) : spans = [] ↔ a = c := by
  cases h with
  | nil a => simp
  | cons hlt rest => simpa using (hlt.trans_le rest.le).ne

/-- A tiling starts at its lower end. -/
theorem start_of_head? (h : Tiles a c spans) : ∀ s ∈ spans.head?, s.start = a := by
  cases h with
  | nil a => exact nofun
  | cons hlt rest =>
    rintro s ⟨⟩
    rfl

/-- A tiling stops at its upper end. -/
theorem stop_of_getLast? (h : Tiles a c spans) : ∀ s ∈ spans.getLast?, s.stop = c := by
  induction h with
  | nil a => exact nofun
  | @cons a b c spans hlt rest ih =>
    cases rest with
    | nil b =>
      rintro s ⟨⟩
      rfl
    | cons hlt' rest =>
      rw [List.getLast?_cons_cons]
      exact ih

/-- Each span of a tiling stops where the next one starts. -/
theorem isChain (h : Tiles a c spans) : spans.IsChain fun s t => s.stop = t.start := by
  induction h with
  | nil a => exact List.isChain_nil
  | @cons a b c spans hlt rest ih =>
    refine List.isChain_cons.2 ⟨fun t ht => ?_, ih⟩
    exact (rest.start_of_head? t ht).symm

/-- Parts that append from one point to the next make up, over the spans of a tiling, the part from
its lower to its upper end. -/
theorem flatMap_eq {β : Type*} {part : α → α → List β} (hnil : ∀ a, part a a = [])
    (happend : ∀ a b c, a ≤ b → b ≤ c → part a b ++ part b c = part a c)
    (h : Tiles a c spans) : spans.flatMap (fun s => part s.start s.stop) = part a c := by
  induction h with
  | nil a => exact (hnil a).symm
  | cons hlt rest ih => rw [List.flatMap_cons, ih, happend _ _ _ hlt.le rest.le]

/-- With their stops, the spans of a tiling cover what is between its ends, both included, unless
there are none. -/
theorem exists_includes_iff (h : Tiles a c spans) :
    (∃ s ∈ spans, s.Includes v) ↔ a < c ∧ a ≤ v ∧ v ≤ c := by
  constructor
  · rintro ⟨s, hs, hstart, hstop⟩
    obtain ⟨ha, hlt, hc⟩ := h.bounds hs
    exact ⟨(ha.trans_lt hlt).trans_le hc, ha.trans hstart, hstop.trans hc⟩
  · rintro ⟨hne, hstart, hstop⟩
    induction h with
    | nil a => exact absurd hne (lt_irrefl a)
    | @cons a b c spans hlt rest ih =>
      rcases le_or_gt v b with hv | hv
      · exact ⟨_, List.mem_cons_self, hstart, hv⟩
      · obtain ⟨s, hs, hsv⟩ := ih (hv.trans_le hstop) hv.le hstop
        exact ⟨s, List.mem_cons_of_mem _ hs, hsv⟩

/-- With their stops, no two spans of a tiling meet exactly when there is at most one. -/
theorem pairwise_apart_iff (h : Tiles a c spans) :
    spans.Pairwise Apart ↔ spans.length ≤ 1 := by
  constructor
  · intro hapart
    cases h with
    | nil a => simp
    | cons hlt rest =>
      cases rest with
      | nil b => simp
      | cons hlt' rest =>
        -- the second span starts where the first one stops
        exact absurd ⟨⟨hlt.le, le_refl _⟩, le_refl _, hlt'.le⟩
          ((List.pairwise_cons.1 hapart).1 _ List.mem_cons_self _)
  · intro hlength
    match spans with
    | [] => exact List.Pairwise.nil
    | [_] => exact List.pairwise_singleton _ _

end Tiles

end Span
