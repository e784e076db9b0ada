import AptosEtl.Lib.Machine
import AptosEtl.Coordinator.PublishRanges
import Mathlib.Order.Bounds.Basic

/-!
# Interrupting the coordinator

`publish_ranges.py`, from one incarnation to the next: the main thread as a machine whose steps are
the statements that a signal can come between, the topic for the workers, and the subscription from
which the next incarnation takes up the range that `signal_handler` saved.

What the handler saves is a global that is assigned before the range is published, and that is
`None` until an incarnation has built a range. `resumable_iff` says where a signal leaves the next
incarnation at the last version that was published.
-/

namespace AptosEtl.Coordinator

open Span Machine

/-! ## The machine -/

/-- Where the main thread is: it waits for a ledger version, is at the head of the inner loop with
ranges left, or has serialized a range that is not published yet. -/
inductive Position where
  | Polling
  | Dividing (ledger_version : UInt64) (ranges : List (Span ℤ))
  | Serialized (ledger_version : UInt64) (ranges : List (Span ℤ))
  deriving DecidableEq, Repr

/-- The main thread of an incarnation that has picked up from the previous one. -/
structure Process where
  indexing_range_serialized : Option IndexingRange
  last_indexed_end : ℤ
  position : Position
  deriving DecidableEq, Repr

/-- The messages on the topic of the workers, over all incarnations, the messages of the resumption
subscription that are not acknowledged, and the incarnation that is running. -/
structure System where
  transaction_indexing_ranges : List IndexingRange
  last_indexed_range : List IndexingRange
  process : Option Process
  deriving DecidableEq, Repr

/-- The signals that the handler distinguishes. -/
inductive Signal where
  | SIGINT
  | SIGTERM
  | Unexpected
  deriving DecidableEq, Repr

/-- What happens next. -/
inductive Event where
  | pickUp
  | poll (ledger_version : UInt64)
  | serialize
  | publish
  | advance
  | signal (sig : Signal)
  deriving DecidableEq, Repr

/-- Nothing is published, and no incarnation has run. -/
def System.new : System := ⟨[], [], none⟩

/-- `pick_up_from_previous_run`: a message that is pulled is acknowledged. -/
def pickUpFromPreviousRun (s : System) : System :=
  match s.last_indexed_range with
  | m :: rest => { s with
      last_indexed_range := rest
      process := some ⟨none, m.end.toNat, .Polling⟩ }
  -- nothing was saved, so the first version is the next one
  | [] => { s with process := some ⟨none, -1, .Polling⟩ }

/-- `signal_handler`: the assertion fails if no range was serialized, and the process ends without
a message. -/
def signalHandler (s : System) (p : Process) : Signal → System
  | .Unexpected => s
  | .SIGINT | .SIGTERM =>
    match p.indexing_range_serialized with
    | some m => { s with
        last_indexed_range := s.last_indexed_range ++ [m]
        process := none }
    -- no range was serialized: the assertion fails inside the handler
    | none => { s with process := none }

/-- The head of the main loop: the ranges that are new at a ledger version. -/
def poll (s : System) (p : Process) (ledger_version : UInt64) : Option System :=
  match p.position with
  | .Polling =>
    let ranges := rangeGenerator (p.last_indexed_end + 1) ledger_version.toNat defaultStep
    some { s with process := some { p with position := .Dividing ledger_version ranges } }
  | _ => none

/-- The head of the inner loop: the next range is serialized into the global. A `ValueError` ends
the process. -/
def serialize (s : System) (p : Process) : Option System :=
  match p.position with
  | .Dividing ledger_version (r :: ranges) =>
    match IndexingRange.new r with
    | some m => some { s with
        -- the global changes here, before its message is published
        process := some ⟨some m, p.last_indexed_end, .Serialized ledger_version ranges⟩ }
    | none => some { s with process := none }
  | _ => none

/-- The global is published to the workers. -/
def publish (s : System) (p : Process) : Option System :=
  match p.position, p.indexing_range_serialized with
  | .Serialized ledger_version ranges, some m => some { s with
      transaction_indexing_ranges := s.transaction_indexing_ranges ++ [m]
      process := some { p with position := .Dividing ledger_version ranges } }
  | _, _ => none

/-- The end of the main loop. -/
def advance (s : System) (p : Process) : Option System :=
  match p.position with
  | .Dividing ledger_version [] => some { s with
      process := some ⟨p.indexing_range_serialized, ledger_version.toNat, .Polling⟩ }
  | _ => none

/-- One step of the main thread, where it can be taken. -/
def processStep (s : System) (p : Process) : Event → Option System
  | .pickUp => none
  | .poll ledger_version => poll s p ledger_version
  | .serialize => serialize s p
  | .publish => publish s p
  | .advance => advance s p
  | .signal sig => some (signalHandler s p sig)

/-- One step of the system: an incarnation starts when none is running. -/
def step (s : System) (e : Event) : Option System :=
  match s.process, e with
  | none, .pickUp => some (pickUpFromPreviousRun s)
  | none, _ => none
  | some p, e => processStep s p e

/-- While an incarnation runs, the steps are its own. -/
theorem step_of_process {s : System} {p : Process} {e : Event} (h : s.process = some p) :
    step s e = processStep s p e := by
  unfold step
  rw [h]

/-- While none runs, one starts. -/
theorem step_of_none {s : System} {e : Event} (h : s.process = none) :
    step s e = if e = .pickUp then some (pickUpFromPreviousRun s) else none := by
  unfold step
  rw [h]
  cases e <;> rfl

/-! ## Resumption -/

/-- The versions that the published ranges cover. -/
def covered (s : System) : Set ℤ := {v | ∃ m ∈ s.transaction_indexing_ranges, m.span.Includes v}

/-- A signal is resumable: the handler saves a range whose end is the last version that is covered,
and the next incarnation starts from it. -/
def Resumable (s : System) (sig : Signal) : Prop :=
  ∃ m s', step s (.signal sig) = some s' ∧
    s'.last_indexed_range = s.last_indexed_range ++ [m] ∧
    IsGreatest (covered s) m.end.toNat ∧
    ∃ p s'', step s' .pickUp = some s'' ∧ s''.process = some p ∧ p.last_indexed_end = m.end.toNat

/-- A signal can be resumed from: the incarnation has serialized a range, and the last one that it
serialized is published. -/
def SafePoint (p : Process) : Prop :=
  p.indexing_range_serialized.isSome ∧ ∀ v ranges, p.position ≠ .Serialized v ranges

/-- The events of a careful run: the ledger does not go back behind the last poll, and the process
is interrupted at safe points only. -/
def Careful (s : System) (e : Event) : Prop :=
  ∀ p, s.process = some p →
    match e with
    | .poll ledger_version => p.last_indexed_end ≤ ledger_version.toNat
    | .signal .Unexpected => True
    | .signal _ => SafePoint p
    | _ => True

/-! ## The invariant of careful runs -/

/-- The published ranges end at or before a version. -/
def EndsBy (s : System) (b : ℤ) : Prop := ∀ m ∈ s.transaction_indexing_ranges, m.end.toNat ≤ b

/-- A message is published, is not empty, and no published range ends after it. -/
def Latest (s : System) (m : IndexingRange) : Prop :=
  m ∈ s.transaction_indexing_ranges ∧ m.start.toNat ≤ m.end.toNat ∧ EndsBy s m.end.toNat

/-- What holds of the running incarnation. Until a serialized range is published it starts where the
published ones have ended, and otherwise the last one serialized is the latest one published. -/
def ProcessInvariant (s : System) (p : Process) : Prop :=
  match p.position with
  | .Polling =>
    -1 ≤ p.last_indexed_end ∧ EndsBy s p.last_indexed_end ∧
      ∀ m ∈ p.indexing_range_serialized, Latest s m
  | .Dividing ledger_version ranges =>
    EndsBy s ledger_version.toNat ∧ (∀ m ∈ p.indexing_range_serialized, Latest s m) ∧
      (ranges = [] ∨ ∃ a, 0 ≤ a ∧ EndsBy s a ∧ Tiles a (ledger_version.toNat : ℤ) ranges)
  | .Serialized ledger_version ranges =>
    ∃ m, p.indexing_range_serialized = some m ∧ EndsBy s m.start.toNat ∧
      m.start.toNat < m.end.toNat ∧ Tiles (m.end.toNat : ℤ) ledger_version.toNat ranges

/-- What holds of the system: an incarnation has taken up the message that was saved for it, and
between two incarnations the latest published range is saved, if there is one. -/
def Invariant (s : System) : Prop :=
  match s.process with
  | some p => s.last_indexed_range = [] ∧ ProcessInvariant s p
  | none => (s.transaction_indexing_ranges = [] ∧ s.last_indexed_range = []) ∨
      ∃ m, s.last_indexed_range = [m] ∧ Latest s m

/-- The end of the latest published range is the last version that is covered. -/
theorem Latest.isGreatest {s : System} {m : IndexingRange} (h : Latest s m) :
    IsGreatest (covered s) m.end.toNat := by
  obtain ⟨hmem, hle, hends⟩ := h
  refine ⟨⟨m, hmem, Int.ofNat_le.2 hle, le_refl _⟩, ?_⟩
  rintro v ⟨m', hmem', -, hv⟩
  exact hv.trans (hends m' hmem')

/-- A range that starts where the published ones have ended is not covered at its end. -/
theorem not_isGreatest_of_endsBy {s : System} {m : IndexingRange} (hends : EndsBy s m.start.toNat)
    (hlt : m.start.toNat < m.end.toNat) : ¬ IsGreatest (covered s) m.end.toNat := by
  rintro ⟨⟨m', hmem', -, hv⟩, -⟩
  have hstart : (m.end.toNat : ℤ) ≤ m.start.toNat := hv.trans (hends m' hmem')
  omega

/-- At a safe point, the range that was serialized is the latest one published. -/
theorem SafePoint.latest {s : System} {p : Process} (h : SafePoint p) (hp : ProcessInvariant s p) :
    ∃ m, p.indexing_range_serialized = some m ∧ Latest s m := by
  obtain ⟨hsome, hposition⟩ := h
  obtain ⟨m, hm⟩ := Option.isSome_iff_exists.1 hsome
  refine ⟨m, hm, ?_⟩
  unfold ProcessInvariant at hp
  split at hp
  case h_1 => exact hp.2.2 m hm
  case h_2 => exact hp.2.1 m hm
  case h_3 v ranges hserialized => exact absurd hserialized (hposition v ranges)

/-- A message whose range is not empty and ends within `uint64` can be built. -/
theorem exists_new_of_tiles {a : ℤ} {ledger_version : UInt64} {r : Span ℤ}
    {ranges : List (Span ℤ)} (ha : 0 ≤ a)
    (h : Tiles a (ledger_version.toNat : ℤ) (r :: ranges)) :
    ∃ m, IndexingRange.new r = some m ∧ (m.start.toNat : ℤ) = a ∧
      (m.start.toNat : ℤ) < m.end.toNat ∧ Tiles (m.end.toNat : ℤ) ledger_version.toNat ranges := by
  cases h with
  | @cons _ b _ _ hlt rest =>
    have hversion : (ledger_version.toNat : ℤ) < 2 ^ 64 := by
      exact_mod_cast ledger_version.toNat_lt
    obtain ⟨m, hm⟩ := IndexingRange.exists_new (r := ⟨a, b⟩) ha hlt.le (rest.le.trans_lt hversion)
    have hspan := IndexingRange.new_span hm
    have hstart : (m.start.toNat : ℤ) = a := congrArg Span.start hspan
    have hend : (m.end.toNat : ℤ) = b := congrArg Span.stop hspan
    exact ⟨m, hm, hstart, by rw [hstart, hend]; exact hlt, hend ▸ rest⟩

/-- Polling a ledger that has not gone back keeps the invariant. -/
theorem poll_invariant {s s' : System} {p : Process} {ledger_version : UInt64}
    (hsaved : s.last_indexed_range = []) (hp : ProcessInvariant s p)
    (hle : p.last_indexed_end ≤ ledger_version.toNat)
    (hstep : poll s p ledger_version = some s') : Invariant s' := by
  unfold poll at hstep
  split at hstep
  case h_2 => exact nomatch hstep
  case h_1 hposition =>
    obtain rfl := Option.some.inj hstep
    rw [ProcessInvariant, hposition] at hp
    obtain ⟨hresume, hends, hlatest⟩ := hp
    refine ⟨hsaved, fun m hm => (hends m hm).trans hle, hlatest, ?_⟩
    rcases lt_or_ge (ledger_version.toNat : ℤ) (p.last_indexed_end + 1) with hnone | hnew
    · exact .inl (rangeGenerator_of_le hnone.le)
    · -- what is new starts after all that is published
      have hbefore : EndsBy s (p.last_indexed_end + 1) := fun m hm => by
        have hend := hends m hm
        omega
      exact .inr ⟨_, by omega, hbefore, rangeGenerator_tiles (by decide) hnew⟩

/-- Serializing a range keeps the invariant, and does not end the process. -/
theorem serialize_invariant {s s' : System} {p : Process} (hsaved : s.last_indexed_range = [])
    (hp : ProcessInvariant s p) (hstep : serialize s p = some s') : Invariant s' := by
  unfold serialize at hstep
  split at hstep
  case h_2 => exact nomatch hstep
  case h_1 ledger_version r ranges hposition =>
    rw [ProcessInvariant, hposition] at hp
    obtain ⟨-, -, hnil | ⟨a, ha, hbefore, htiles⟩⟩ := hp
    · exact nomatch hnil
    obtain ⟨m, hm, hstart, hlt, hrest⟩ := exists_new_of_tiles ha htiles
    rw [hm] at hstep
    obtain rfl := Option.some.inj hstep
    have hstarts : EndsBy s m.start.toNat := fun m' hm' => (hbefore m' hm').trans hstart.ge
    exact ⟨hsaved, m, rfl, hstarts, Int.ofNat_lt.1 hlt, hrest⟩

/-- Publishing keeps the invariant: what was serialized becomes the latest published range. -/
theorem publish_invariant {s s' : System} {p : Process} (hsaved : s.last_indexed_range = [])
    (hp : ProcessInvariant s p) (hstep : publish s p = some s') : Invariant s' := by
  unfold publish at hstep
  split at hstep
  case h_2 => exact nomatch hstep
  case h_1 ledger_version ranges m hposition hserialized =>
    obtain rfl := Option.some.inj hstep
    rw [ProcessInvariant, hposition] at hp
    obtain ⟨m', hm', hbefore, hlt, hrest⟩ := hp
    obtain rfl := Option.some.inj (hserialized.symm.trans hm')
    -- the ranges before end where this one starts
    have hends : ∀ m' ∈ s.transaction_indexing_ranges ++ [m],
        (m'.end.toNat : ℤ) ≤ m.end.toNat := by
      intro m' hm'
      rcases List.mem_append.1 hm' with hm' | hm'
      · have hend := hbefore m' hm'
        omega
      · rw [List.mem_singleton.1 hm']
    refine ⟨hsaved, fun m' hm' => (hends m' hm').trans hrest.le, ?_,
      .inr ⟨_, by omega, hends, hrest⟩⟩
    intro m' hm'
    obtain rfl := Option.some.inj (hserialized.symm.trans hm')
    exact ⟨by simp, hlt.le, hends⟩

/-- Advancing keeps the invariant. -/
theorem advance_invariant {s s' : System} {p : Process} (hsaved : s.last_indexed_range = [])
    (hp : ProcessInvariant s p) (hstep : advance s p = some s') : Invariant s' := by
  unfold advance at hstep
  split at hstep
  case h_2 => exact nomatch hstep
  case h_1 ledger_version hposition =>
    obtain rfl := Option.some.inj hstep
    rw [ProcessInvariant, hposition] at hp
    obtain ⟨hends, hlatest, -⟩ := hp
    have hresume : -1 ≤ (ledger_version.toNat : ℤ) := by omega
    exact ⟨hsaved, hresume, hends, hlatest⟩

/-- A signal that is not ignored, at a safe point, keeps the invariant: what is saved is the latest
published range. -/
theorem signalHandler_invariant {s : System} {p : Process} {sig : Signal}
    (hsaved : s.last_indexed_range = []) (hp : ProcessInvariant s p) (hsafe : SafePoint p)
    (hsig : sig ≠ .Unexpected) : Invariant (signalHandler s p sig) := by
  obtain ⟨m, hm, hlatest⟩ := hsafe.latest hp
  -- nothing was saved before, so what is saved now is all there is
  have hhandler : signalHandler s p sig = ⟨s.transaction_indexing_ranges, [m], none⟩ := by
    cases sig <;> simp [signalHandler, hm, hsaved] at hsig ⊢
  rw [hhandler]
  exact .inr ⟨m, rfl, hlatest⟩

/-- Picking up keeps the invariant: the saved message ends where the published ranges do. -/
theorem pickUp_invariant {s : System} (hprocess : s.process = none) (hs : Invariant s) :
    Invariant (pickUpFromPreviousRun s) := by
  rw [Invariant, hprocess] at hs
  rcases hs with ⟨hnothing, hsaved⟩ | ⟨m, hsaved, -, -, hends⟩
  -- nothing is published and nothing saved: the incarnation starts from the beginning
  · rw [pickUpFromPreviousRun, hsaved]
    refine ⟨rfl, le_refl _, fun m hm => ?_, fun m hm => nomatch hm⟩
    simp [hnothing] at hm
  · rw [pickUpFromPreviousRun, hsaved]
    have hresume : -1 ≤ (m.end.toNat : ℤ) := by omega
    exact ⟨rfl, hresume, hends, fun m hm => nomatch hm⟩

/-- A careful step keeps the invariant. -/
theorem step_invariant {s s' : System} {e : Event} (hs : Invariant s) (hcareful : Careful s e)
    (hstep : step s e = some s') : Invariant s' := by
  cases hprocess : s.process with
  | none =>
    rw [step_of_none hprocess] at hstep
    split_ifs at hstep
    obtain rfl := Option.some.inj hstep
    exact pickUp_invariant hprocess hs
  | some p =>
    have hcareful := hcareful p hprocess
    rw [step_of_process hprocess] at hstep
    obtain ⟨hsaved, hp⟩ : s.last_indexed_range = [] ∧ ProcessInvariant s p := by
      rwa [Invariant, hprocess] at hs
    cases e with
    | pickUp => exact nomatch hstep
    | poll ledger_version => exact poll_invariant hsaved hp hcareful hstep
    | serialize => exact serialize_invariant hsaved hp hstep
    | publish => exact publish_invariant hsaved hp hstep
    | advance => exact advance_invariant hsaved hp hstep
    | signal sig =>
      obtain rfl := Option.some.inj hstep
      cases sig with
      | Unexpected => exact hs
      | SIGINT => exact signalHandler_invariant hsaved hp hcareful (by simp)
      | SIGTERM => exact signalHandler_invariant hsaved hp hcareful (by simp)

/-- The invariant holds in every state of a careful run. -/
theorem invariant_of_reaches {s : System} (hreach : Reaches step Careful .new s) :
    Invariant s := by
  have hnew : Invariant .new := Or.inl ⟨rfl, rfl⟩
  exact hreach.invariant hnew fun _ _ _ hs hcareful hstep => step_invariant hs hcareful hstep

/-- In a careful run, a signal is resumable exactly at the safe points. -/
theorem resumable_iff {s : System} {p : Process} {sig : Signal}
    (hreach : Reaches step Careful .new s) (hprocess : s.process = some p)
    (hsig : sig ≠ .Unexpected) : Resumable s sig ↔ SafePoint p := by
  have hs := invariant_of_reaches hreach
  obtain ⟨hsaved, hp⟩ : s.last_indexed_range = [] ∧ ProcessInvariant s p := by
    rwa [Invariant, hprocess] at hs
  have hstep : step s (.signal sig) = some (signalHandler s p sig) := step_of_process hprocess
  have hhandler : ∀ m, p.indexing_range_serialized = some m →
      signalHandler s p sig = ⟨s.transaction_indexing_ranges, [m], none⟩ := by
    intro m hm
    cases sig <;> simp [signalHandler, hm, hsaved] at hsig ⊢
  constructor
  · rintro ⟨m, s', hstep', hsaves, hgreatest, -⟩
    obtain rfl := Option.some.inj (hstep.symm.trans hstep')
    cases hm : p.indexing_range_serialized with
    | none =>
      -- the assertion fails, and nothing is saved
      have hunsaved : (signalHandler s p sig).last_indexed_range = s.last_indexed_range := by
        cases sig <;> simp [signalHandler, hm]
      simp [hunsaved] at hsaves
    | some m' =>
      refine ⟨by rw [hm]; rfl, fun v ranges hposition => ?_⟩
      rw [hhandler m' hm, hsaved] at hsaves
      obtain rfl : m' = m := by simpa using hsaves
      -- the range that is saved has not been published
      rw [ProcessInvariant, hposition] at hp
      obtain ⟨m'', hm'', hbefore, hlt, -⟩ := hp
      obtain rfl := Option.some.inj (hm.symm.trans hm'')
      exact not_isGreatest_of_endsBy hbefore hlt hgreatest
  · intro hsafe
    obtain ⟨m, hm, hlatest⟩ := hsafe.latest hp
    exact ⟨m, _, hstep, by rw [hhandler m hm, hsaved]; rfl, hlatest.isGreatest, _, _,
      by rw [hhandler m hm]; rfl, rfl, rfl⟩

/-- An incarnation that has published its first range. -/
def samplePublished : System where
  transaction_indexing_ranges := [⟨0, 5, none⟩]
  last_indexed_range := []
  process := some ⟨some ⟨0, 5, none⟩, -1, .Dividing 5 []⟩

/-- It is reached by a careful run. -/
theorem reaches_samplePublished : Reaches step Careful .new samplePublished := by
  have hstart : Reaches step Careful .new ⟨[], [], some ⟨none, -1, .Polling⟩⟩ :=
    .tail (e := .pickUp) .refl (fun _ _ => trivial) rfl
  have hpoll : Reaches step Careful .new ⟨[], [], some ⟨none, -1, .Dividing 5 [⟨0, 5⟩]⟩⟩ := by
    refine hstart.tail (e := .poll 5) (fun p hp => ?_) rfl
    obtain rfl := Option.some.inj hp
    exact (by decide : (-1 : ℤ) ≤ 5)
  have hserialize : Reaches step Careful .new
      ⟨[], [], some ⟨some ⟨0, 5, none⟩, -1, .Serialized 5 []⟩⟩ :=
    hpoll.tail (e := .serialize) (fun _ _ => trivial) rfl
  exact hserialize.tail (e := .publish) (fun _ _ => trivial) rfl

/-- A termination after the first range is published. -/
theorem resumable_iff_samplePublished :
    Resumable samplePublished .SIGTERM ↔
      SafePoint ⟨some ⟨0, 5, none⟩, -1, .Dividing 5 []⟩ :=
  resumable_iff reaches_samplePublished rfl (by decide)

/-- A signal between the serialization and the publication of a range saves a range that is never
published: here the next incarnation starts after 9, and 5 is the last version published. -/
theorem not_resumable_of_unpublished :
    ¬ ∀ s p, Reaches step (fun _ _ => True) .new s → s.process = some p →
      ∀ sig, sig ≠ .Unexpected → Resumable s sig := by
  intro h
  have hrun : run step .new
      [.pickUp, .poll 5, .serialize, .publish, .advance, .poll 9, .serialize] =
        some ⟨[⟨0, 5, none⟩], [], some ⟨some ⟨6, 9, none⟩, 5, .Serialized 9 []⟩⟩ := by decide
  obtain ⟨m, s', hstep, hsaves, hgreatest, -⟩ :=
    h _ _ (Reaches.of_run (fun _ _ => trivial) hrun) rfl .SIGTERM (by decide)
  obtain rfl := Option.some.inj hstep
  obtain rfl : (⟨6, 9, none⟩ : IndexingRange) = m := by simpa [signalHandler] using hsaves
  obtain ⟨m, hm, hincludes⟩ := hgreatest.1
  rw [List.mem_singleton.1 hm] at hincludes
  exact absurd hincludes (by decide)

/-! ## Runs without interruption -/

/-- The inner loop publishes the messages of its ranges. -/
theorem run_ranges {ranges : List (Span ℤ)} {messages : List IndexingRange} {s : System}
    {p : Process} {ledger_version : UInt64}
    (hmessages : ranges.mapM IndexingRange.new = some messages) (hprocess : s.process = some p)
    (hposition : p.position = .Dividing ledger_version ranges) :
    ∃ p', p'.position = .Dividing ledger_version [] ∧
      run step s (ranges.flatMap fun _ => [.serialize, .publish]) =
        some ⟨s.transaction_indexing_ranges ++ messages, s.last_indexed_range, some p'⟩ := by
  induction ranges generalizing messages s p with
  | nil =>
    obtain rfl : [] = messages := Option.some.inj hmessages
    refine ⟨p, hposition, ?_⟩
    rw [List.append_nil, ← hprocess]
    rfl
  | cons r ranges ih =>
    rw [List.mapM_cons] at hmessages
    obtain ⟨m, hm, hmessages⟩ := Option.bind_eq_some_iff.1 hmessages
    obtain ⟨later, hlater, hmessages⟩ := Option.bind_eq_some_iff.1 hmessages
    obtain rfl := Option.some.inj hmessages
    have hserialize : step s .serialize = some { s with
        process := some ⟨some m, p.last_indexed_end, .Serialized ledger_version ranges⟩ } := by
      simp only [step_of_process hprocess, processStep, serialize, hposition, hm]
    obtain ⟨p', hp', hrun⟩ := ih (s := ⟨s.transaction_indexing_ranges ++ [m], s.last_indexed_range,
      some ⟨some m, p.last_indexed_end, .Dividing ledger_version ranges⟩⟩) hlater rfl rfl
    refine ⟨p', hp', ?_⟩
    rw [List.append_assoc, List.singleton_append] at hrun
    rw [List.flatMap_cons, run_append, run, hserialize]
    exact hrun

/-- The main loop of an incarnation that is not interrupted publishes what `mainLoop` does. -/
theorem run_mainLoop {polls : List UInt64} {published : List IndexingRange} {s : System}
    {p : Process} (hpublished : mainLoop p.last_indexed_end polls = some published)
    (hprocess : s.process = some p) (hposition : p.position = .Polling) :
    ∃ events s', run step s events = some s' ∧
      s'.transaction_indexing_ranges = s.transaction_indexing_ranges ++ published := by
  induction polls generalizing published s p with
  | nil =>
    obtain rfl := Option.some.inj hpublished
    exact ⟨[], s, rfl, by rw [List.append_nil]⟩
  | cons ledger_version polls ih =>
    obtain ⟨messages, hmessages, hpublished⟩ := Option.bind_eq_some_iff.1 hpublished
    obtain ⟨later, hlater, hpublished⟩ := Option.bind_eq_some_iff.1 hpublished
    obtain rfl := Option.some.inj hpublished
    -- one turn: the poll, the inner loop and the advance
    let ranges := rangeGenerator (p.last_indexed_end + 1) ledger_version.toNat defaultStep
    have hpoll : step s (.poll ledger_version) = some { s with
        process := some { p with position := .Dividing ledger_version ranges } } := by
      simp only [step_of_process hprocess, processStep, poll, hposition, ranges]
    obtain ⟨p₁, hp₁, hranges⟩ := run_ranges
      (s := { s with process := some { p with position := .Dividing ledger_version ranges } })
      hmessages rfl rfl
    have hadvance : step ⟨s.transaction_indexing_ranges ++ messages, s.last_indexed_range, some p₁⟩
        .advance = some ⟨s.transaction_indexing_ranges ++ messages, s.last_indexed_range,
          some ⟨p₁.indexing_range_serialized, ledger_version.toNat, .Polling⟩⟩ := by
      rw [step_of_process (p := p₁) rfl, processStep, advance, hp₁]
    -- and the turns of the later polls
    obtain ⟨events, s', hrun, hs'⟩ := ih (s := ⟨s.transaction_indexing_ranges ++ messages,
      s.last_indexed_range, some ⟨p₁.indexing_range_serialized, ledger_version.toNat, .Polling⟩⟩)
      hlater rfl rfl
    refine ⟨.poll ledger_version :: ((ranges.flatMap fun _ => [.serialize, .publish]) ++
      (.advance :: events)), s', ?_, ?_⟩
    · rw [run, hpoll, Option.bind_some, run_append, hranges, Option.bind_some, run, hadvance,
        Option.bind_some, hrun]
    · rw [hs', List.append_assoc]

end AptosEtl.Coordinator
