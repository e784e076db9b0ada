import AptosEtl.Lib.Spans
import AptosEtl.Tables.All
import Mathlib.Algebra.Order.Group.Int
import Mathlib.Data.Int.Order.Basic

/-!
# The ranges that the coordinator publishes

`publish_ranges.py`, from a resume point: `range_generator` divides what is new since the last poll,
and the main loop publishes one `IndexingRange` for each part. The generator counts without the stop
of a range and the workers count with it, so the ranges of one poll meet at their ends, and a poll
that finds one new version publishes nothing.

`covers_iff` says which polls leave no version out, and `workersDisjoint_iff` which give none to two
workers.
-/

namespace AptosEtl.Coordinator

open Span Tables

/-- `IndexingRange`, of `pubsub_range.proto`. -/
structure IndexingRange where
  start : UInt64
  «end» : UInt64
  table : Option TableOptions
  deriving DecidableEq, Repr

namespace IndexingRange

/-- `IndexingRange(start=r.start, end=r.stop)`, which raises a `ValueError` unless both are in the
range of `uint64`. -/
def new (r : Span ℤ) : Option IndexingRange :=
  if 0 ≤ r.start ∧ r.start < 2 ^ 64 ∧ 0 ≤ r.stop ∧ r.stop < 2 ^ 64 then
    some ⟨.ofNat r.start.toNat, .ofNat r.stop.toNat, none⟩
  else
    none

/-- The versions from the start of the message to its end. -/
def span (m : IndexingRange) : Span ℤ := ⟨m.start.toNat, m.end.toNat⟩

/-- Two values of `uint64` are accepted. -/
theorem exists_new {r : Span ℤ} (hstart : 0 ≤ r.start) (hle : r.start ≤ r.stop)
    (hstop : r.stop < 2 ^ 64) : ∃ m, new r = some m := by
  have hbounds : 0 ≤ r.start ∧ r.start < 2 ^ 64 ∧ 0 ≤ r.stop ∧ r.stop < 2 ^ 64 :=
    ⟨hstart, by omega, by omega, hstop⟩
  rw [new, if_pos hbounds]
  exact ⟨_, rfl⟩

/-- A message has the start and the end that it was built with. -/
theorem new_span {r : Span ℤ} {m : IndexingRange} (h : new r = some m) : m.span = r := by
  unfold new at h
  split_ifs at h with hbounds
  obtain ⟨hstart, hstart', hstop, hstop'⟩ := hbounds
  obtain rfl := Option.some.inj h
  obtain ⟨start, stop⟩ := r
  -- both values are in range, so none is reduced
  have hmod : start % 2 ^ 64 = start := Int.emod_eq_of_lt hstart hstart'
  have hmod' : stop % 2 ^ 64 = stop := Int.emod_eq_of_lt hstop hstop'
  simp only [span, Span.mk.injEq, UInt64.toNat_ofNat']
  omega

/-- A worker reads the message as the range from its start to its end, both included. -/
theorem includes_iff (m : IndexingRange) (v : UInt64) :
    m.span.Includes v.toNat ↔ m.start ≤ v ∧ v ≤ m.end := by
  simp [span, Span.Includes, UInt64.le_iff_toNat_le]

end IndexingRange

/-! ## The generator -/

/-- `range_generator`, whose loop runs at most once for each value of the range. -/
def rangeGenerator (start «end» step : ℤ) : List (Span ℤ) :=
  loop («end» - start).toNat start
where
  /-- The loop, from the current position. -/
  loop : ℕ → ℤ → List (Span ℤ)
    | 0, _ => []
    | fuel + 1, current =>
      if current < «end» then
        -- the last value of this part, and the range that is yielded stops one after it
        let next_position := min (current + step - 1) («end» - 1)
        ⟨current, next_position + 1⟩ :: loop fuel (next_position + 1)
      else
        []

/-- The loop has fuel for the whole range, which its ranges tile. -/
theorem loop_tiles {«end» step : ℤ} (hstep : 0 < step) {fuel : ℕ} {current : ℤ}
    (hle : current ≤ «end») (hfuel : («end» - current).toNat ≤ fuel) :
    Tiles current «end» (rangeGenerator.loop «end» step fuel current) := by
  induction fuel generalizing current with
  | zero =>
    obtain rfl : current = «end» := by omega
    exact .nil _
  | succ fuel ih =>
    unfold rangeGenerator.loop
    split_ifs with hlt
    · exact .cons (by omega) (ih (by omega) (by omega))
    · obtain rfl : current = «end» := by omega
      exact .nil _

/-- The ranges tile what the generator divides. -/
theorem rangeGenerator_tiles {start «end» step : ℤ} (hstep : 0 < step) (hle : start ≤ «end») :
    Tiles start «end» (rangeGenerator start «end» step) :=
  loop_tiles hstep hle (le_refl _)

/-- There are none when there is nothing to divide. -/
theorem rangeGenerator_of_le {start «end» step : ℤ} (h : «end» ≤ start) :
    rangeGenerator start «end» step = [] := by
  have hzero : («end» - start).toNat = 0 := by omega
  rw [rangeGenerator, hzero, rangeGenerator.loop]

/-- The first range takes a step, or what there is, and the others tile the rest. -/
theorem rangeGenerator_cons {start «end» step : ℤ} (hstep : 0 < step) (hlt : start < «end») :
    ∃ rest, rangeGenerator start «end» step = ⟨start, min (start + step) «end»⟩ :: rest ∧
      Tiles (min (start + step) «end») «end» rest := by
  obtain ⟨fuel, hfuel⟩ : ∃ fuel, («end» - start).toNat = fuel + 1 :=
    ⟨(«end» - start).toNat - 1, by omega⟩
  have hnext : min (start + step - 1) («end» - 1) + 1 = min (start + step) «end» := by omega
  rw [rangeGenerator, hfuel, rangeGenerator.loop, if_pos hlt]
  simp only [hnext]
  exact ⟨_, rfl, loop_tiles hstep (by omega) (by omega)⟩

/-- There is at most one range exactly when a step is enough. -/
theorem length_rangeGenerator_le_one {start «end» step : ℤ} (hstep : 0 < step) :
    (rangeGenerator start «end» step).length ≤ 1 ↔ «end» ≤ start + step := by
  rcases le_or_gt «end» start with hle | hlt
  · rw [rangeGenerator_of_le hle, List.length_nil]
    omega
  · obtain ⟨rest, hrange, hrest⟩ := rangeGenerator_cons hstep hlt
    have hnil : rest.length = 0 ↔ min (start + step) «end» = «end» := by
      rw [List.length_eq_zero_iff, hrest.eq_nil_iff]
    -- one range is left alone exactly when the first one stops at the end
    rw [hrange, List.length_cons]
    omega

/-! ## The main loop -/

/-- The step of `range_generator` that the main loop leaves at its default. -/
def defaultStep : ℤ := 999

/-- One turn of the main loop: the messages for what is new up to a ledger version, unless one of
them is refused. -/
def publishNew (last_indexed_end : ℤ) (ledger_version : UInt64) : Option (List IndexingRange) :=
  (rangeGenerator (last_indexed_end + 1) ledger_version.toNat defaultStep).mapM IndexingRange.new

/-- The messages that the main loop publishes for the ledger versions that it polls. -/
def mainLoop : ℤ → List UInt64 → Option (List IndexingRange)
  | _, [] => some []
  | last_indexed_end, ledger_version :: polls => do
    let published ← publishNew last_indexed_end ledger_version
    let later ← mainLoop ledger_version.toNat polls
    return published ++ later

/-- The increments that the main loop sees: for each poll, the version before and the version that
is polled. -/
def increments : ℤ → List UInt64 → List (ℤ × ℤ)
  | _, [] => []
  | last_indexed_end, ledger_version :: polls =>
    (last_indexed_end, ledger_version.toNat) :: increments ledger_version.toNat polls

/-- Messages can be built for some ranges when they can for each of them. -/
theorem exists_mapM_new {ranges : List (Span ℤ)}
    (h : ∀ r ∈ ranges, ∃ m, IndexingRange.new r = some m) :
    ∃ published, ranges.mapM IndexingRange.new = some published ∧
      published.map IndexingRange.span = ranges := by
  induction ranges with
  | nil => exact ⟨[], rfl, rfl⟩
  | cons r ranges ih =>
    obtain ⟨m, hm⟩ := h r List.mem_cons_self
    obtain ⟨published, hpublished, hspans⟩ := ih fun r' hr' => h r' (List.mem_cons_of_mem r hr')
    refine ⟨m :: published, ?_, ?_⟩
    · rw [List.mapM_cons, hm, hpublished]
      rfl
    · rw [List.map_cons, hspans, IndexingRange.new_span hm]

/-- The ranges of a turn are what is new, between versions that fit into a message. -/
theorem bounds_of_mem_rangeGenerator {last_indexed_end : ℤ} {ledger_version : UInt64} {r : Span ℤ}
    (hr : r ∈ rangeGenerator (last_indexed_end + 1) ledger_version.toNat defaultStep) :
    last_indexed_end + 1 ≤ r.start ∧ r.start < r.stop ∧ r.stop ≤ ledger_version.toNat := by
  rcases le_or_gt (last_indexed_end + 1) ledger_version.toNat with hle | hlt
  · exact (rangeGenerator_tiles (by decide) hle).bounds hr
  · rw [rangeGenerator_of_le hlt.le] at hr
    simp at hr

/-- No message of a turn is refused, and they are the ranges of the generator. -/
theorem publishNew_spec {last_indexed_end : ℤ} (hresume : -1 ≤ last_indexed_end)
    (ledger_version : UInt64) :
    ∃ published, publishNew last_indexed_end ledger_version = some published ∧
      published.map IndexingRange.span =
        rangeGenerator (last_indexed_end + 1) ledger_version.toNat defaultStep := by
  refine exists_mapM_new fun r hr => ?_
  obtain ⟨hstart, hlt, hstop⟩ := bounds_of_mem_rangeGenerator hr
  have hversion : (ledger_version.toNat : ℤ) < 2 ^ 64 := by
    exact_mod_cast ledger_version.toNat_lt
  exact IndexingRange.exists_new (by omega) hlt.le (by omega)

/-- The main loop publishes the ranges of its increments. -/
theorem mainLoop_spec {last_indexed_end : ℤ} (hresume : -1 ≤ last_indexed_end)
    (polls : List UInt64) :
    ∃ published, mainLoop last_indexed_end polls = some published ∧
      published.map IndexingRange.span =
        (increments last_indexed_end polls).flatMap fun i =>
          rangeGenerator (i.1 + 1) i.2 defaultStep := by
  induction polls generalizing last_indexed_end with
  | nil => exact ⟨[], rfl, rfl⟩
  | cons ledger_version polls ih =>
    obtain ⟨published, hpublished, hspans⟩ := publishNew_spec hresume ledger_version
    obtain ⟨later, hlater, hspans'⟩ := ih (show -1 ≤ (ledger_version.toNat : ℤ) by omega)
    refine ⟨published ++ later, ?_, ?_⟩
    · rw [mainLoop, hpublished, hlater]
      rfl
    · rw [List.map_append, hspans, hspans', increments, List.flatMap_cons]

/-! ## Coverage -/

/-- No version is left out: each one from the resume point to a polled ledger version is read by a
worker. -/
def Covers (last_indexed_end : ℤ) (polls : List UInt64) : Prop :=
  ∃ published, mainLoop last_indexed_end polls = some published ∧
    ∀ v, last_indexed_end < v → (∃ p ∈ polls, v ≤ p.toNat) → ∃ m ∈ published, m.span.Includes v

/-- An increment publishes all of its versions when there are two or more, and otherwise none. -/
theorem exists_includes_rangeGenerator {p q v : ℤ} :
    (∃ r ∈ rangeGenerator (p + 1) q defaultStep, r.Includes v) ↔ p + 2 ≤ q ∧ p < v ∧ v ≤ q := by
  rcases le_or_gt (p + 1) q with hle | hlt
  · rw [(rangeGenerator_tiles (by decide) hle).exists_includes_iff]
    omega
  · rw [rangeGenerator_of_le hlt.le]
    simp only [List.not_mem_nil, false_and, exists_false, false_iff]
    omega

/-- The versions that are read by a worker are those of the increments by two or more. -/
theorem exists_includes_iff {last_indexed_end v : ℤ} {polls : List UInt64}
    {published : List IndexingRange}
    (hspans : published.map IndexingRange.span = (increments last_indexed_end polls).flatMap
      fun i => rangeGenerator (i.1 + 1) i.2 defaultStep) :
    (∃ m ∈ published, m.span.Includes v) ↔
      ∃ i ∈ increments last_indexed_end polls, i.1 + 2 ≤ i.2 ∧ i.1 < v ∧ v ≤ i.2 := by
  have hmap : (∃ m ∈ published, m.span.Includes v) ↔
      ∃ r ∈ published.map IndexingRange.span, r.Includes v := by
    simp
  rw [hmap, hspans]
  constructor
  · rintro ⟨r, hr, hv⟩
    obtain ⟨i, hi, hr⟩ := List.mem_flatMap.1 hr
    exact ⟨i, hi, exists_includes_rangeGenerator.1 ⟨r, hr, hv⟩⟩
  · rintro ⟨i, hi, hv⟩
    obtain ⟨r, hr, hv⟩ := exists_includes_rangeGenerator.2 hv
    exact ⟨r, List.mem_flatMap.2 ⟨i, hi, hr⟩, hv⟩

/-- The polls cross every version between the resume point and one of them. -/
theorem exists_crossing {last_indexed_end v : ℤ} {polls : List UInt64} {p : UInt64}
    (hlast : last_indexed_end < v) (hp : p ∈ polls) (hv : v ≤ p.toNat) :
    ∃ i ∈ increments last_indexed_end polls, i.1 < v ∧ v ≤ i.2 := by
  induction polls generalizing last_indexed_end with
  | nil => simp at hp
  | cons ledger_version polls ih =>
    rw [increments]
    rcases le_or_gt v ledger_version.toNat with hle | hgt
    · exact ⟨_, List.mem_cons_self, hlast, hle⟩
    · -- the first poll is below the version, so a later one crosses it
      have hlater : p ∈ polls := by
        rcases List.mem_cons.1 hp with rfl | hlater
        · omega
        · exact hlater
      obtain ⟨i, hi, hcross⟩ := ih hgt hlater
      exact ⟨i, List.mem_cons_of_mem _ hi, hcross⟩

/-- What an increment reaches is polled. -/
theorem mem_polls_of_mem_increments {last_indexed_end : ℤ} {polls : List UInt64} {i : ℤ × ℤ}
    (hi : i ∈ increments last_indexed_end polls) : ∃ p ∈ polls, i.2 = p.toNat := by
  induction polls generalizing last_indexed_end with
  | nil => simp [increments] at hi
  | cons ledger_version polls ih =>
    rcases List.mem_cons.1 hi with rfl | hi
    · exact ⟨_, List.mem_cons_self, rfl⟩
    · obtain ⟨p, hp, heq⟩ := ih hi
      exact ⟨p, List.mem_cons_of_mem _ hp, heq⟩

/-- No version is left out exactly when each one that is reached by an increment of one, above the
resume point, is also crossed by a larger increment. -/
theorem covers_iff {last_indexed_end : ℤ} (hresume : -1 ≤ last_indexed_end)
    {polls : List UInt64} :
    Covers last_indexed_end polls ↔
      ∀ i ∈ increments last_indexed_end polls, i.2 = i.1 + 1 → last_indexed_end < i.2 →
        ∃ j ∈ increments last_indexed_end polls, j.1 + 2 ≤ j.2 ∧ j.1 < i.2 ∧ i.2 ≤ j.2 := by
  obtain ⟨published, hpublished, hspans⟩ := mainLoop_spec hresume polls
  constructor
  · rintro ⟨published', hpublished', hcovers⟩ i hi - hlast
    obtain rfl := Option.some.inj (hpublished.symm.trans hpublished')
    obtain ⟨p, hp, heq⟩ := mem_polls_of_mem_increments hi
    exact (exists_includes_iff hspans).1 (hcovers i.2 hlast ⟨p, hp, heq.le⟩)
  · intro hunit
    refine ⟨published, hpublished, fun v hlast hpolled => (exists_includes_iff hspans).2 ?_⟩
    obtain ⟨p, hp, hv⟩ := hpolled
    obtain ⟨i, hi, hlt, hle⟩ := exists_crossing hlast hp hv
    by_cases hlarge : i.1 + 2 ≤ i.2
    · exact ⟨i, hi, hlarge, hlt, hle⟩
    · -- an increment of one that crosses the version reaches it
      obtain rfl : v = i.2 := by omega
      exact hunit i hi (by omega) hlast

/-- From genesis, an increment of one inside a larger one. -/
theorem covers_iff_sample :
    Covers (-1) [5, 2, 3] ↔ ∀ i ∈ increments (-1) [5, 2, 3], i.2 = i.1 + 1 → -1 < i.2 →
      ∃ j ∈ increments (-1) [5, 2, 3], j.1 + 2 ≤ j.2 ∧ j.1 < i.2 ∧ i.2 ≤ j.2 :=
  covers_iff (by decide)

/-- A ledger that is polled at 10, at 11 and at 20 leaves out version 11. -/
theorem not_covers_of_single_version : ¬ Covers (-1) [10, 11, 20] := by
  rintro ⟨published, hpublished, hcovers⟩
  obtain rfl : published = [⟨0, 10, none⟩, ⟨12, 20, none⟩] :=
    Option.some.inj (hpublished.symm.trans rfl)
  obtain ⟨m, hm, hincludes⟩ := hcovers 11 (by decide) ⟨20, by decide, by decide⟩
  revert m
  decide

/-! ## Disjointness -/

/-- No version is given to two workers: the ranges of the messages are pairwise disjoint. -/
def WorkersDisjoint (last_indexed_end : ℤ) (polls : List UInt64) : Prop :=
  ∃ published, mainLoop last_indexed_end polls = some published ∧
    published.Pairwise fun m m' => m.span.Apart m'.span

/-- Along polls that do not decrease, an increment ends where or before a later one starts. -/
theorem increments_pairwise {last_indexed_end : ℤ} {polls : List UInt64}
    (hsorted : polls.Pairwise (· ≤ ·)) :
    (increments last_indexed_end polls).Pairwise fun i j => i.2 ≤ j.1 := by
  -- an increment starts at the resume point or at a version that was polled before
  have hstart : ∀ {last : ℤ} {polls : List UInt64} {i}, i ∈ increments last polls →
      i.1 = last ∨ ∃ p ∈ polls, i.1 = p.toNat := by
    intro last polls
    induction polls generalizing last with
    | nil => simp [increments]
    | cons p polls ih =>
      intro i hi
      rcases List.mem_cons.1 hi with rfl | hi
      · exact .inl rfl
      · rcases ih hi with heq | ⟨q, hq, heq⟩
        · exact .inr ⟨p, List.mem_cons_self, heq⟩
        · exact .inr ⟨q, List.mem_cons_of_mem p hq, heq⟩
  induction polls generalizing last_indexed_end with
  | nil => exact List.Pairwise.nil
  | cons p polls ih =>
    obtain ⟨hfirst, hsorted⟩ := List.pairwise_cons.1 hsorted
    refine List.pairwise_cons.2 ⟨fun j hj => ?_, ih hsorted⟩
    rcases hstart hj with heq | ⟨q, hq, heq⟩
    · exact heq.ge
    · have hle : p.toNat ≤ q.toNat := UInt64.le_iff_toNat_le.1 (hfirst q hq)
      show (p.toNat : ℤ) ≤ j.1
      rw [heq]
      exact_mod_cast hle

/-- The ranges of one increment are disjoint exactly when there is one at most, which is when they
fit into a step and the version before it. -/
theorem pairwise_apart_rangeGenerator {p q : ℤ} :
    (rangeGenerator (p + 1) q defaultStep).Pairwise Apart ↔ q ≤ p + 1000 := by
  have hlength : (rangeGenerator (p + 1) q defaultStep).length ≤ 1 ↔ q ≤ p + 1000 := by
    rw [length_rangeGenerator_le_one (by decide), defaultStep]
    omega
  rw [← hlength]
  rcases le_or_gt (p + 1) q with hle | hlt
  · exact (rangeGenerator_tiles (by decide) hle).pairwise_apart_iff
  · simp [rangeGenerator_of_le hlt.le]

/-- On polls that do not decrease, no version is given to two workers exactly when the ledger never
grows by more than a thousand versions between two polls. -/
theorem workersDisjoint_iff {last_indexed_end : ℤ} (hresume : -1 ≤ last_indexed_end)
    {polls : List UInt64} (hsorted : polls.Pairwise (· ≤ ·)) :
    WorkersDisjoint last_indexed_end polls ↔
      ∀ i ∈ increments last_indexed_end polls, i.2 ≤ i.1 + 1000 := by
  obtain ⟨published, hpublished, hspans⟩ := mainLoop_spec hresume polls
  have hdisjoint : WorkersDisjoint last_indexed_end polls ↔
      (published.map IndexingRange.span).Pairwise Apart := by
    simp [WorkersDisjoint, hpublished, List.pairwise_map]
  have hapart : (increments last_indexed_end polls).Pairwise fun i j =>
      ∀ r ∈ rangeGenerator (i.1 + 1) i.2 defaultStep,
        ∀ r' ∈ rangeGenerator (j.1 + 1) j.2 defaultStep, r.Apart r' := by
    refine (increments_pairwise hsorted).imp_of_mem ?_
    rintro i j hi hj hle r hr r' hr' v ⟨⟨-, hv⟩, ⟨hv', -⟩⟩
    obtain ⟨p, -, hp⟩ := mem_polls_of_mem_increments hi
    obtain ⟨p', -, hp'⟩ := mem_polls_of_mem_increments hj
    rw [hp] at hr
    rw [hp'] at hr'
    -- the first increment's ranges stop where the second one's have not started
    have hstop := (bounds_of_mem_rangeGenerator hr).2.2
    have hstart := (bounds_of_mem_rangeGenerator hr').1
    omega
  -- within an increment and between two of them
  rw [hdisjoint, hspans, List.pairwise_flatMap]
  simp only [pairwise_apart_rangeGenerator]
  exact ⟨fun h => h.1, fun h => ⟨h, hapart⟩⟩

/-- Two polls a thousand versions apart. -/
theorem workersDisjoint_iff_sample :
    WorkersDisjoint (-1) [999, 1999] ↔ ∀ i ∈ increments (-1) [999, 1999], i.2 ≤ i.1 + 1000 :=
  workersDisjoint_iff (by decide) (by decide)

/-- From genesis to version 1000, version 999 is given to two workers. -/
theorem not_workersDisjoint_of_two_steps : ¬ WorkersDisjoint (-1) [1000] := by
  rintro ⟨published, hpublished, hdisjoint⟩
  obtain rfl : published = [⟨0, 999, none⟩, ⟨999, 1000, none⟩] :=
    Option.some.inj (hpublished.symm.trans rfl)
  rw [List.pairwise_pair] at hdisjoint
  exact hdisjoint 999 (by decide)

end AptosEtl.Coordinator
