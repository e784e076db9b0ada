import AptosEtl.Lib.Consumers
import AptosEtl.Worker.Served
import AptosEtl.Worker.Subscribe
import Mathlib.Logic.Function.Basic

/-!
# The fleet of workers

Any number of workers that run `subscribe_and_extract` on one subscription. Each is at a statement
of its loop, and the steps of the workers come in any order: a message is delivered to any worker
that pulls, also while another one has it or after it was acknowledged, a call of `ack` or `nack`
may fail, and a worker may be killed at any point and started again. A panic of an allocation, or of
a publisher that gets no channel, is a kill. What the publishers are handed is kept in the order in
which it was handed over, by all workers. It may be the rows themselves (`handOver`), or what a
publisher makes of them.

The fleet simulates the consumers of `Lib/Consumers` (`fleet_simulates`), whose invariant says that
what is acknowledged was handed over. `acked_handed` draws this conclusion for the rows of a ledger.
-/

namespace AptosEtl.Pipeline

open Rust Input Reps Tables Worker Machine

/-! ## The workers -/

/-- A row that is handed to the publisher of its table. -/
abbrev Handed := (table : Table) × table.Row

/-- The rows of some calls of `publish_records`, in order. -/
def handedRows (calls : List PublishCall) : List Handed :=
  calls.flatMap fun call => call.records.map (Sigma.mk call.table)

/-- What the publishers do in a call of `publish_records`, and whether the call returns. -/
abbrev Sends (ε : Type) := PublishCall → List ε × Bool

/-- A publisher that is handed the rows one by one. -/
def handOver : Sends Handed := fun call => (call.records.map (Sigma.mk call.table), true)

/-- What the publishers do in some calls, until one of them panics. -/
def published {ε : Type} (send : Sends ε) : List PublishCall → List ε × Bool
  | [] => ([], true)
  | call :: calls =>
    if (send call).2 then
      ((send call).1 ++ (published send calls).1, (published send calls).2)
    else
      ((send call).1, false)

/-- How the work on a message ends: `extract_range` returns, or a publisher panics in it. -/
inductive Finish where
  | Returns (result : Except ExtractionInteruptionError Unit)
  | Panics

/-- Where a worker is in `subscribe_and_extract`: it checks whether it was terminated, waits for a
message, publishes what `extract_range` has extracted and settles the message, or does not run. -/
inductive Phase (ε : Type) where
  | Checking
  | Pulling
  | Extracting (data : List UInt8) (handed left : List ε) (finish : Finish)
  | Returned (result : Except ExtractionInteruptionError Unit)
  | Down

/-- A worker, with the flag that is shared with its signal handler. -/
structure Instance (ε : Type) where
  terminated : Bool
  phase : Phase ε

/-- The payloads on the topic, those that were acknowledged, what was handed over, and the
workers. -/
structure Fleet (ι ε : Type) where
  messages : List (List UInt8)
  acked : List (List UInt8)
  handed : List ε
  worker : ι → Instance ε

/-- What happens next. -/
inductive Event (ι ε : Type) where
  | send (data : List UInt8)
  | signal (i : ι)
  | check (i : ι)
  | pullNone (i : ι)
  | deliver (i : ι) (data : List UInt8) (stream : Stream) (send : Sends ε)
  | hand (i : ι)
  | settle (i : ι) (answered : Bool)
  | kill (i : ι)
  | start (i : ι)

variable {ι ε : Type}

/-- No message was sent, and no worker runs. -/
def Fleet.new : Fleet ι ε := ⟨[], [], [], fun _ => ⟨false, .Down⟩⟩

section Step

variable (decode : List UInt8 → Except String Worker.IndexingRange) (crates : Crates)

/-- What a worker does with a message: it decodes the payload and calls `extract_range`, which reads
the whole range before it publishes. -/
def received (data : List UInt8) (stream : Stream) (send : Sends ε) : Phase ε :=
  match decode data with
  | .error _ => .Down
  | .ok cur_range =>
    match extractRange crates cur_range.start cur_range.end cur_range.table stream with
    | .ok calls =>
      .Extracting data [] (published send calls).1
        (if (published send calls).2 then .Returns (.ok ()) else .Panics)
    | .err extract_error => .Extracting data [] [] (.Returns (.error extract_error))
    | .panic _ => .Down

variable [DecidableEq ι]

/-- A worker changes. -/
def Fleet.become (s : Fleet ι ε) (i : ι) (worker : Instance ε) : Fleet ι ε :=
  { s with worker := Function.update s.worker i worker }

/-- A worker enters a phase. -/
def Fleet.enter (s : Fleet ι ε) (i : ι) (phase : Phase ε) : Fleet ι ε :=
  s.become i ⟨(s.worker i).terminated, phase⟩

/-- One step of a worker, or of who sends the messages. -/
def step (s : Fleet ι ε) : Event ι ε → Option (Fleet ι ε)
  | .send data => some { s with messages := s.messages ++ [data] }
  | .signal i => some (s.become i ⟨true, (s.worker i).phase⟩)
  | .check i =>
    match (s.worker i).phase with
    | .Checking =>
      some (s.enter i (if (s.worker i).terminated then .Returned (.ok ()) else .Pulling))
    | _ => none
  | .pullNone i =>
    match (s.worker i).phase with
    | .Pulling => some (s.enter i .Checking)
    | _ => none
  | .deliver i data stream send =>
    match (s.worker i).phase with
    | .Pulling =>
      if data ∈ s.messages then
        some (s.enter i (received decode crates data stream send))
      else
        none
    | _ => none
  | .hand i =>
    match (s.worker i).phase with
    | .Extracting data handed (row :: left) finish =>
      some ({ s with handed := s.handed ++ [row] }.enter i
        (.Extracting data (handed ++ [row]) left finish))
    | _ => none
  | .settle i answered =>
    match (s.worker i).phase with
    -- a call of `ack` that fails is only logged
    | .Extracting data _ [] (.Returns (.ok ())) =>
      some ((if answered then { s with acked := s.acked ++ [data] } else s).enter i .Checking)
    -- the worker returns after `nack`, whether the call fails or not
    | .Extracting _ _ [] (.Returns (.error extract_error)) =>
      some (s.enter i (.Returned (.error extract_error)))
    | .Extracting _ _ [] .Panics => some (s.enter i .Down)
    | _ => none
  | .kill i => some (s.enter i .Down)
  | .start i =>
    match (s.worker i).phase with
    | .Returned _ | .Down => some (s.become i ⟨false, .Checking⟩)
    | _ => none

end Step

/-! ## Simulation by consumers of a queue -/

/-- The job of a consumer, for the phase of a worker. -/
def Phase.job : Phase ε → Option (Consumers.Job (List UInt8) ε)
  | .Extracting data handed left (.Returns (.ok ())) => some ⟨data, handed, left, true⟩
  | .Extracting data handed left (.Returns (.error _)) => some ⟨data, handed, left, false⟩
  | .Extracting data handed left .Panics => some ⟨data, handed, left, false⟩
  | _ => none

/-- The consumers of a fleet. -/
def Fleet.consumers (s : Fleet ι ε) : Consumers.State ι (List UInt8) ε :=
  ⟨s.messages, s.acked, s.handed, fun i => (s.worker i).phase.job⟩

/-- The work on a message whose range is served from a ledger, with publishers of a kind. -/
inductive Works (decode : List UInt8 → Except String Worker.IndexingRange) (crates : Crates)
    (ledger : Ledger) (kind : Sends ε → Prop) (data : List UInt8) : Consumers.Work ε → Prop where
  | ok {range : Worker.IndexingRange} {stream : Stream} {calls : List PublishCall} {send : Sends ε}
    (hdecode : decode data = .ok range)
    (hserves : ServesStream ledger range.start range.end stream)
    (hrun : extractRange crates range.start range.end range.table stream = .ok calls)
    (hkind : kind send) :
    Works decode crates ledger kind data ⟨(published send calls).1, (published send calls).2⟩
  | err {range : Worker.IndexingRange} {stream : Stream} {error : ExtractionInteruptionError}
    (hdecode : decode data = .ok range)
    (hserves : ServesStream ledger range.start range.end stream)
    (hrun : extractRange crates range.start range.end range.table stream = .err error) :
    Works decode crates ledger kind data ⟨[], false⟩

/-- The streams that workers get are served from a ledger, and their publishers are of a kind. -/
def Served (decode : List UInt8 → Except String Worker.IndexingRange) (ledger : Ledger)
    (kind : Sends ε → Prop) (_ : Fleet ι ε) : Event ι ε → Prop
  | .deliver _ data stream send => kind send ∧ ∀ range, decode data = .ok range →
    ServesStream ledger range.start range.end stream
  | _ => True

section Simulation

variable {decode : List UInt8 → Except String Worker.IndexingRange} {crates : Crates}
  {ledger : Ledger} {kind : Sends ε → Prop} [DecidableEq ι] {s s' : Fleet ι ε}

/-- When a worker changes, its consumer goes on to the job of the new phase. -/
theorem consumers_become (s : Fleet ι ε) (i : ι) (worker : Instance ε) :
    (s.become i worker).consumers = s.consumers.goto i worker.phase.job := by
  have hjobs : (fun j => (Function.update s.worker i worker j).phase.job) =
      Function.update (fun j => (s.worker j).phase.job) i worker.phase.job :=
    Function.comp_update (fun w : Instance ε => w.phase.job) s.worker i worker
  simp only [Fleet.consumers, Fleet.become, Consumers.State.goto, hjobs]

/-- One step of the consumers. -/
theorem reaches_step {t t' : Consumers.State ι (List UInt8) ε}
    {e : Consumers.Event ι (List UInt8) ε}
    (hallowed : Consumers.Allowed (Works decode crates ledger kind) t e)
    (hstep : Consumers.step t e = some t') :
    Reaches Consumers.step (Consumers.Allowed (Works decode crates ledger kind)) t t' :=
  Reaches.tail .refl hallowed hstep

/-- A worker that changes to a phase without a job abandons the one that it has. -/
theorem reaches_become {worker : Instance ε} (s : Fleet ι ε) (i : ι)
    (hworker : worker.phase.job = none) :
    Reaches Consumers.step (Consumers.Allowed (Works decode crates ledger kind)) s.consumers
      (s.become i worker).consumers := by
  refine reaches_step (e := .abandon i) trivial ?_
  rw [consumers_become, hworker, Consumers.step]

/-- What a worker does with a message whose range is served is work on the message, or a panic. -/
theorem received_cases {data : List UInt8} {stream : Stream} {send : Sends ε} (hkind : kind send)
    (hserves : ∀ range, decode data = .ok range →
      ServesStream ledger range.start range.end stream) :
    (received decode crates data stream send).job = none ∨
      ∃ work, Works decode crates ledger kind data work ∧
        (received decode crates data stream send).job =
          some ⟨data, [], work.effects, work.acks⟩ := by
  unfold received
  cases hdecode : decode data with
  | error message => exact .inl rfl
  | ok range =>
    cases hrun : extractRange crates range.start range.end range.table stream with
    | ok calls =>
      refine .inr ⟨_, .ok hdecode (hserves range hdecode) hrun hkind, ?_⟩
      cases hreturns : (published send calls).2 <;> simp [hrun, hreturns, Phase.job]
    | err error =>
      exact .inr ⟨_, .err hdecode (hserves range hdecode) hrun, by simp [hrun, Phase.job]⟩
    | panic message => exact .inl (by simp [hrun, Phase.job])

/-- Every step of the fleet is one of the consumers. -/
theorem step_simulates {e : Event ι ε} (hserved : Served decode ledger kind s e)
    (hstep : step decode crates s e = some s') :
    Reaches Consumers.step (Consumers.Allowed (Works decode crates ledger kind)) s.consumers
      s'.consumers := by
  cases e with
  | send data =>
    obtain rfl := Option.some.inj hstep
    exact reaches_step (e := .publish data) trivial rfl
  | signal i =>
    obtain rfl := Option.some.inj hstep
    -- the flag is not seen by the consumers
    have hsame : (s.become i ⟨true, (s.worker i).phase⟩).consumers = s.consumers :=
      (consumers_become s i _).trans (Consumers.goto_self s.consumers i)
    rw [hsame]
    exact .refl
  | check i =>
    rw [step] at hstep
    split at hstep
    case h_2 => cases hstep
    case h_1 =>
      obtain rfl := Option.some.inj hstep
      exact reaches_become s i (by split <;> rfl)
  | pullNone i =>
    rw [step] at hstep
    split at hstep
    case h_2 => cases hstep
    case h_1 =>
      obtain rfl := Option.some.inj hstep
      exact reaches_become s i rfl
  | deliver i data stream send =>
    rw [step] at hstep
    split at hstep
    case h_2 => cases hstep
    case h_1 =>
      obtain ⟨hsent, hstep⟩ := Option.ite_none_right_eq_some.1 hstep
      obtain rfl := Option.some.inj hstep
      rcases received_cases hserved.1 hserved.2 with hnone | ⟨work, hworks, hjob⟩
      · exact reaches_become s i hnone
      · refine reaches_step (e := .deliver i data work) hworks ?_
        rw [Fleet.enter, consumers_become, hjob]
        exact if_pos hsent
  | hand i =>
    rw [step] at hstep
    split at hstep
    case h_2 => cases hstep
    case h_1 data handed row left finish hphase =>
      obtain rfl := Option.some.inj hstep
      refine reaches_step (e := .act i) trivial ?_
      rw [Fleet.enter, consumers_become]
      rcases finish with (error | value) | _ <;>
        simp [Consumers.step, Fleet.consumers, hphase, Phase.job]
  | settle i answered =>
    rw [step] at hstep
    split at hstep
    case h_4 => cases hstep
    case h_2 | h_3 =>
      obtain rfl := Option.some.inj hstep
      exact reaches_become s i rfl
    case h_1 data handed hphase =>
      obtain rfl := Option.some.inj hstep
      cases answered with
      | false => exact reaches_become s i rfl
      | true =>
        refine reaches_step (e := .settle i) trivial ?_
        rw [if_pos rfl, Fleet.enter, consumers_become]
        simp [Consumers.step, Fleet.consumers, hphase, Phase.job]
  | kill i =>
    obtain rfl := Option.some.inj hstep
    exact reaches_become s i rfl
  | start i =>
    rw [step] at hstep
    split at hstep
    case h_3 => cases hstep
    all_goals
      obtain rfl := Option.some.inj hstep
      exact reaches_become s i rfl

/-- The fleet simulates the consumers of a queue. -/
theorem fleet_simulates (h : Reaches (step decode crates) (Served decode ledger kind) .new s) :
    Reaches Consumers.step (Consumers.Allowed (Works decode crates ledger kind)) .new s.consumers :=
  h.map Fleet.consumers fun _ _ _ _ hserved hstep => step_simulates hserved hstep

end Simulation

/-! ## What is acknowledged was handed over -/

/-- A message calls for a row: its payload is a range, and the row is one of a version of the range,
of a table that the message selects. -/
def CallsFor (decode : List UInt8 → Except String Worker.IndexingRange) (crates : Crates)
    (ledger : Ledger) (data : List UInt8) (row : Handed) : Prop :=
  ∃ range, decode data = .ok range ∧ (range.table.getD .newAll).enables row.1 = true ∧
    ∃ v, range.start ≤ v ∧ v ≤ range.end ∧ row.2 ∈ rowsOf crates (ledger.tx v) row.1

section Works

variable {decode : List UInt8 → Except String Worker.IndexingRange} {crates : Crates}
  {ledger : Ledger} {kind : Sends ε → Prop} {data : List UInt8} {work : Consumers.Work ε}

/-- The work on a message is what the publishers do in the calls of a run on its range, unless the
run is interrupted. -/
theorem Works.extracted (h : Works decode crates ledger kind data work) :
    (∃ range calls send, decode data = .ok range ∧
      Extracted crates ledger range.table (range.start, range.end) calls ∧ kind send ∧
        work = ⟨(published send calls).1, (published send calls).2⟩) ∨ work = ⟨[], false⟩ := by
  cases h with
  | err => exact .inr rfl
  | @ok range stream calls send hdecode hserves hrun hkind =>
    have hextracted : Extracted crates ledger range.table (range.start, range.end) calls := by
      cases stream with
      | error error => cases hrun
      | ok responses => exact ⟨responses, hserves responses rfl, hrun⟩
    exact .inl ⟨range, calls, send, hdecode, hextracted, hkind, rfl⟩

/-- The versions of a message whose work acknowledges it transform. -/
theorem Works.transforms (h : Works decode crates ledger kind data work)
    (hacks : work.acks = true) :
    ∃ range, decode data = .ok range ∧ ∀ v, range.start ≤ v → v ≤ range.end →
      Transforms crates (range.table.getD .newAll) (ledger.tx v) := by
  rcases h.extracted with ⟨range, calls, send, hdecode, ⟨responses, hserves, hrun⟩, -⟩ | rfl
  · obtain ⟨-, htransforms, -⟩ := extractRange_of_serves hserves hrun
    exact ⟨range, hdecode, fun v hstart hend => htransforms v (mem_versions.2 ⟨hstart, hend⟩)⟩
  · cases hacks

variable [DecidableEq ι] {s : Fleet ι ε}

/-- A message that is acknowledged was worked on. -/
theorem works_of_acked (h : Reaches (step decode crates) (Served decode ledger kind) .new s)
    (hdata : data ∈ s.acked) :
    ∃ effects, Works decode crates ledger kind data ⟨effects, true⟩ := by
  obtain ⟨-, effects, hworks, -⟩ :=
    (Consumers.invariant_of_reaches (fleet_simulates h)).acked data hdata
  exact ⟨effects, hworks⟩

end Works

section Handed

variable {decode : List UInt8 → Except String Worker.IndexingRange} {crates : Crates}
  {ledger : Ledger}

/-- The publishers are handed the rows one by one. -/
def RowByRow (send : Sends Handed) : Prop := send = handOver

/-- Publishers that are handed the rows get those of the calls. -/
theorem published_handOver (calls : List PublishCall) :
    published handOver calls = (handedRows calls, true) := by
  induction calls with
  | nil => rfl
  | cons call calls ih =>
    rw [published, ih]
    rfl

/-- The rows of some calls are those that they hand over for each table. -/
theorem mem_handedRows {calls : List PublishCall} {row : Handed} :
    row ∈ handedRows calls ↔ row.2 ∈ handed row.1 calls := by
  obtain ⟨table, row⟩ := row
  simp only [handedRows, handed, List.mem_flatMap, List.mem_map]
  refine exists_congr fun call => and_congr_right fun _ => ?_
  constructor
  · rintro ⟨record, hrecord, hsame⟩
    obtain ⟨rfl, rfl⟩ := Sigma.mk.inj_iff.1 hsame
    simpa using hrecord
  · intro hrow
    split_ifs at hrow with htable
    · subst htable
      exact ⟨row, hrow, rfl⟩
    · cases hrow

/-- The rows of a run on the range of a message are those that the message calls for. -/
theorem mem_handedRows_iff {data : List UInt8} {range : Worker.IndexingRange}
    {calls : List PublishCall} (hdecode : decode data = .ok range)
    (hextracted : Extracted crates ledger range.table (range.start, range.end) calls)
    (row : Handed) :
    row ∈ handedRows calls ↔ CallsFor decode crates ledger data row := by
  have hcalls : CallsFor decode crates ledger data row ↔
      (range.table.getD .newAll).enables row.1 = true ∧
        ∃ v, range.start ≤ v ∧ v ≤ range.end ∧ row.2 ∈ rowsOf crates (ledger.tx v) row.1 := by
    simp [CallsFor, hdecode]
  rw [hcalls, mem_handedRows, hextracted.handed_eq, List.mem_flatMap]
  cases henabled : (range.table.getD .newAll).enables row.1 with
  | false => simp [enabledRows, henabled]
  | true => simp [enabledRows, henabled, mem_versions, and_assoc]

/-- The effects of work that acknowledges a message are the rows that it calls for. -/
theorem Works.mem_iff {data : List UInt8} {work : Consumers.Work Handed}
    (h : Works decode crates ledger RowByRow data work) (hacks : work.acks = true) (row : Handed) :
    row ∈ work.effects ↔ CallsFor decode crates ledger data row := by
  rcases h.extracted with ⟨range, calls, send, hdecode, hextracted, rfl, rfl⟩ | rfl
  · rw [published_handOver]
    exact mem_handedRows_iff hdecode hextracted row
  · cases hacks

/-- The effects of work on a message are rows that it calls for. -/
theorem Works.callsFor {data : List UInt8} {work : Consumers.Work Handed}
    (h : Works decode crates ledger RowByRow data work) {row : Handed}
    (hrow : row ∈ work.effects) : CallsFor decode crates ledger data row := by
  rcases h.extracted with ⟨range, calls, send, hdecode, hextracted, rfl, rfl⟩ | rfl
  · rw [published_handOver] at hrow
    exact (mem_handedRows_iff hdecode hextracted row).1 hrow
  · cases hrow

variable [DecidableEq ι] {s : Fleet ι Handed}

/-- In every state that the fleet reaches on streams that are served from a ledger: a message that
is acknowledged was sent and its payload is a range, every row that it calls for was handed over,
and no row was handed over that no message calls for. -/
theorem acked_handed
    (h : Reaches (step decode crates) (Served decode ledger RowByRow) .new s) :
    (∀ data ∈ s.acked, data ∈ s.messages ∧ (∃ range, decode data = .ok range) ∧
      ∀ row, CallsFor decode crates ledger data row → row ∈ s.handed) ∧
    ∀ row ∈ s.handed, ∃ data ∈ s.messages, CallsFor decode crates ledger data row := by
  have hs := Consumers.invariant_of_reaches (fleet_simulates h)
  constructor
  · intro data hdata
    obtain ⟨hsent, effects, hworks, hlogged⟩ := hs.acked data hdata
    refine ⟨hsent, ?_, fun row hrow => hlogged row ((hworks.mem_iff rfl row).2 hrow)⟩
    obtain ⟨range, hdecode, -⟩ := hworks.transforms rfl
    exact ⟨range, hdecode⟩
  · intro row hrow
    obtain ⟨data, hsent, work, hworks, heffect⟩ := hs.log row hrow
    exact ⟨data, hsent, hworks.callsFor heffect⟩

/-- One worker that extracts the range of one version and acknowledges it. -/
def sampleEvents : List (Event Unit Handed) :=
  [.send [], .start (), .check (), .deliver () [] (.ok [.ok [sampleCheckpoint 0]]) handOver,
    .hand (), .settle () true]

/-- The run of the worker. -/
theorem exists_run_sampleEvents : ∃ s : Fleet Unit Handed,
    Reaches (step sampleDecode sampleCrates) (Served sampleDecode sampleLedger RowByRow) .new s ∧
      s.messages = [[]] ∧ s.acked = [[]] := by
  have hserved : ∀ e ∈ sampleEvents, ∀ s, Served sampleDecode sampleLedger RowByRow s e := by
    intro e he s
    simp only [sampleEvents, List.mem_cons, List.not_mem_nil, or_false] at he
    rcases he with rfl | rfl | rfl | rfl | rfl | rfl
    case inr.inr.inr.inl =>
      refine ⟨rfl, ?_⟩
      rintro range hdecode responses hstream
      obtain rfl := Except.ok.inj hdecode
      obtain rfl := Except.ok.inj hstream
      exact serves_sampleCheckpoint 0
    all_goals exact trivial
  have hrun : (run (step sampleDecode sampleCrates) .new sampleEvents).map
      (fun s => (s.messages, s.acked)) = some ([[]], [[]]) := by
    decide +kernel
  obtain ⟨s, hrun, hs⟩ := Option.map_eq_some_iff.1 hrun
  exact ⟨s, .of_run_mem hserved hrun, congrArg Prod.fst hs, congrArg Prod.snd hs⟩

/-- What this worker has acknowledged was handed over. -/
theorem acked_handed_sample : ∃ s : Fleet Unit Handed,
    Reaches (step sampleDecode sampleCrates) (Served sampleDecode sampleLedger RowByRow) .new s ∧
      [] ∈ s.acked ∧ (∀ row, CallsFor sampleDecode sampleCrates sampleLedger [] row →
        row ∈ s.handed) ∧
      ∀ row ∈ s.handed, ∃ data ∈ s.messages,
        CallsFor sampleDecode sampleCrates sampleLedger data row := by
  obtain ⟨s, hreach, -, hacked⟩ := exists_run_sampleEvents
  have hmem : [] ∈ s.acked := by simp [hacked]
  obtain ⟨hcomplete, hsound⟩ := acked_handed hreach
  exact ⟨s, hreach, hmem, (hcomplete [] hmem).2.2, hsound⟩

/-- Once every message is acknowledged, the rows that were handed over are those that the messages
call for. -/
theorem mem_handed_iff (h : Reaches (step decode crates) (Served decode ledger RowByRow) .new s)
    (hacked : ∀ data ∈ s.messages, data ∈ s.acked) (row : Handed) :
    row ∈ s.handed ↔ ∃ data ∈ s.messages, CallsFor decode crates ledger data row :=
  Consumers.mem_log_iff (fleet_simulates h) (fun _ _ _ hworks _ heffect => hworks.callsFor heffect)
    (fun _ _ _ hworks row hrow => (hworks.mem_iff rfl row).2 hrow) hacked row

end Handed

/-! ## Shutting down -/

/-- The messages that a worker can still be delivered once it stops: the one that it already waits
for. -/
inductive Stopping : Instance ε → ℕ → Prop where
  | pulling : Stopping ⟨true, .Pulling⟩ 1
  | checking : Stopping ⟨true, .Checking⟩ 0
  | extracting {data : List UInt8} {handed left : List ε} {finish : Finish} :
    Stopping ⟨true, .Extracting data handed left finish⟩ 0
  | returned {terminated : Bool} {result : Except ExtractionInteruptionError Unit} :
    Stopping ⟨terminated, .Returned result⟩ 0
  | down {terminated : Bool} : Stopping ⟨terminated, .Down⟩ 0

/-- What a step does to a worker that it does not start, and how many messages it delivers to it. -/
inductive Moves (decode : List UInt8 → Except String Worker.IndexingRange) (crates : Crates) :
    Instance ε → ℕ → Instance ε → Prop where
  | stay {w : Instance ε} : Moves decode crates w 0 w
  | signal {w : Instance ε} : Moves decode crates w 0 ⟨true, w.phase⟩
  | check {terminated : Bool} :
    Moves decode crates ⟨terminated, .Checking⟩ 0
      ⟨terminated, if terminated then .Returned (.ok ()) else .Pulling⟩
  | pullNone {terminated : Bool} :
    Moves decode crates ⟨terminated, .Pulling⟩ 0 ⟨terminated, .Checking⟩
  | deliver {terminated : Bool} {data : List UInt8} {stream : Stream} {send : Sends ε} :
    Moves decode crates ⟨terminated, .Pulling⟩ 1
      ⟨terminated, received decode crates data stream send⟩
  | hand {terminated : Bool} {data : List UInt8} {handed left : List ε} {row : ε}
    {finish : Finish} :
    Moves decode crates ⟨terminated, .Extracting data handed (row :: left) finish⟩ 0
      ⟨terminated, .Extracting data (handed ++ [row]) left finish⟩
  | ack {terminated : Bool} {data : List UInt8} {handed : List ε} :
    Moves decode crates ⟨terminated, .Extracting data handed [] (.Returns (.ok ()))⟩ 0
      ⟨terminated, .Checking⟩
  | nack {terminated : Bool} {data : List UInt8} {handed : List ε}
    {error : ExtractionInteruptionError} :
    Moves decode crates ⟨terminated, .Extracting data handed [] (.Returns (.error error))⟩ 0
      ⟨terminated, .Returned (.error error)⟩
  | kill {w : Instance ε} : Moves decode crates w 0 ⟨w.terminated, .Down⟩

/-- The deliveries to a worker among some events. -/
def deliveries [DecidableEq ι] (i : ι) (es : List (Event ι ε)) : ℕ :=
  es.countP fun
    | .deliver j _ _ _ => j = i
    | _ => false

section Stopping

variable {decode : List UInt8 → Except String Worker.IndexingRange} {crates : Crates}

/-- A worker that stops is delivered none but the message that it waits for. -/
theorem Moves.stopping {w w' : Instance ε} {d n : ℕ} (h : Moves decode crates w d w')
    (hn : Stopping w n) : ∃ m, Stopping w' m ∧ d + m ≤ n := by
  cases h with
  | stay => exact ⟨n, hn, by omega⟩
  | signal =>
    refine ⟨n, ?_, by omega⟩
    cases hn <;> constructor
  | check =>
    cases hn
    exact ⟨0, .returned, by omega⟩
  | pullNone =>
    cases hn
    exact ⟨0, .checking, by omega⟩
  | deliver =>
    cases hn
    refine ⟨0, ?_, by omega⟩
    unfold received
    split
    · exact .down
    · split
      · exact .extracting
      · exact .extracting
      · exact .down
  | hand =>
    cases hn
    exact ⟨0, .extracting, by omega⟩
  | ack =>
    cases hn
    exact ⟨0, .checking, by omega⟩
  | nack => exact ⟨0, .returned, by omega⟩
  | kill => exact ⟨0, .down, by omega⟩

/-- A worker at a phase. -/
theorem worker_eq {s : Fleet ι ε} {i : ι} {phase : Phase ε} (h : (s.worker i).phase = phase) :
    s.worker i = ⟨(s.worker i).terminated, phase⟩ := by
  rw [← h]

variable [DecidableEq ι] {s s' : Fleet ι ε} {i : ι}

/-- A worker after another one has changed, or it itself. -/
theorem become_worker (s : Fleet ι ε) (i j : ι) (w : Instance ε) :
    (s.become i w).worker j = if j = i then w else s.worker j := Function.update_apply _ _ _ _

/-- What a step changes of one worker is what it does to the worker. -/
theorem moves_become {j : ι} {w : Instance ε} {d : ℕ} {t : Fleet ι ε} (ht : t.worker = s.worker)
    (h : j = i → Moves decode crates (s.worker i) d w) (hne : j ≠ i → d = 0) :
    Moves decode crates (s.worker i) d ((t.become j w).worker i) := by
  rw [become_worker, ht]
  by_cases hij : i = j
  · rw [if_pos hij]
    exact h hij.symm
  · rw [if_neg hij, hne (Ne.symm hij)]
    exact .stay

/-- Every step that does not start a worker moves it. -/
theorem step_moves {e : Event ι ε} (hstart : e ≠ .start i)
    (hstep : step decode crates s e = some s') :
    Moves decode crates (s.worker i) (deliveries i [e]) (s'.worker i) := by
  cases e with
  | send data =>
    obtain rfl := Option.some.inj hstep
    exact .stay
  | signal j =>
    obtain rfl := Option.some.inj hstep
    exact moves_become rfl (by rintro rfl; exact .signal) fun _ => rfl
  | check j =>
    rw [step] at hstep
    split at hstep
    case h_2 => cases hstep
    case h_1 hphase =>
      obtain rfl := Option.some.inj hstep
      refine moves_become rfl ?_ fun _ => rfl
      rintro rfl
      rw [worker_eq hphase]
      exact .check
  | pullNone j =>
    rw [step] at hstep
    split at hstep
    case h_2 => cases hstep
    case h_1 hphase =>
      obtain rfl := Option.some.inj hstep
      refine moves_become rfl ?_ fun _ => rfl
      rintro rfl
      rw [worker_eq hphase]
      exact .pullNone
  | deliver j data stream send =>
    rw [step] at hstep
    split at hstep
    case h_2 => cases hstep
    case h_1 hphase =>
      obtain ⟨-, hstep⟩ := Option.ite_none_right_eq_some.1 hstep
      obtain rfl := Option.some.inj hstep
      refine moves_become rfl ?_ fun hne => by simp [deliveries, hne]
      rintro rfl
      have hone : deliveries j [.deliver j data stream send] = 1 := by simp [deliveries]
      rw [worker_eq hphase, hone]
      exact .deliver
  | hand j =>
    rw [step] at hstep
    split at hstep
    case h_2 => cases hstep
    case h_1 hphase =>
      obtain rfl := Option.some.inj hstep
      refine moves_become rfl ?_ fun _ => rfl
      rintro rfl
      rw [worker_eq hphase]
      exact .hand
  | settle j answered =>
    rw [step] at hstep
    split at hstep
    case h_4 => cases hstep
    case h_3 =>
      obtain rfl := Option.some.inj hstep
      exact moves_become rfl (by rintro rfl; exact .kill) fun _ => rfl
    case h_1 hphase =>
      obtain rfl := Option.some.inj hstep
      refine moves_become (by split <;> rfl) ?_ fun _ => rfl
      rintro rfl
      rw [worker_eq hphase]
      split <;> exact .ack
    case h_2 hphase =>
      obtain rfl := Option.some.inj hstep
      refine moves_become rfl ?_ fun _ => rfl
      rintro rfl
      rw [worker_eq hphase]
      exact .nack
  | kill j =>
    obtain rfl := Option.some.inj hstep
    exact moves_become rfl (by rintro rfl; exact .kill) fun _ => rfl
  | start j =>
    have hne : j ≠ i := fun hij => hstart (congrArg Event.start hij)
    rw [step] at hstep
    split at hstep
    case h_3 => cases hstep
    all_goals
      obtain rfl := Option.some.inj hstep
      exact moves_become rfl (fun hij => absurd hij hne) fun _ => rfl

/-- In any run in which it is not started again, a worker that was terminated, or has returned, or
is down, is delivered no message but the one that it already waits for, whatever the others do. -/
theorem deliveries_le {n : ℕ} {es : List (Event ι ε)} (hn : Stopping (s.worker i) n)
    (hstart : .start i ∉ es) (hrun : run (step decode crates) s es = some s') :
    deliveries i es ≤ n := by
  induction es generalizing s n with
  | nil => exact Nat.zero_le n
  | cons e es ih =>
    obtain ⟨s₁, hstep, hrest⟩ := Option.bind_eq_some_iff.1 hrun
    obtain ⟨hne, hlater⟩ := List.ne_and_not_mem_of_not_mem_cons hstart
    obtain ⟨m, hm, hle⟩ := (step_moves (Ne.symm hne) hstep).stopping hn
    have hrest := ih hm hlater hrest
    have hsplit : deliveries i (e :: es) = deliveries i [e] + deliveries i es := by
      rw [deliveries, deliveries, deliveries, ← List.countP_append, List.singleton_append]
    omega

end Stopping

/-- A worker that is delivered a message when it was terminated already. -/
theorem deliveries_le_sample :
    let s : Fleet Unit Handed := ⟨[[]], [], [], fun _ => ⟨true, .Pulling⟩⟩
    let es : List (Event Unit Handed) :=
      [.deliver () [] (.error .BadResponse) handOver, .settle () false]
    (run (step sampleDecode sampleCrates) s es).isSome = true ∧ deliveries () es ≤ 1 := by
  intro s es
  have hsome : (run (step sampleDecode sampleCrates) s es).isSome = true := by
    decide +kernel
  obtain ⟨s', hrun⟩ := Option.isSome_iff_exists.1 hsome
  have hstart : .start () ∉ es := by simp [es]
  exact ⟨hsome, deliveries_le (s := s) .pulling hstart hrun⟩

end AptosEtl.Pipeline
