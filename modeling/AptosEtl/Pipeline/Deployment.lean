import AptosEtl.Airflow.Dedupe
import AptosEtl.Coordinator.Shutdown
import AptosEtl.Pipeline.Fleet

/-!
# The deployment

The coordinator, the topic between it and the workers, the fleet, and the dedupe job over the tables
that the workers fill. The steps of the coordinator, with its shutdowns and restarts, and those of
the workers come in any order.

`tables_exact` is about all of them together. Whatever was delivered twice, overlapped, crashed or
was restarted: once every message is acknowledged and the dedupe job has run for the days of the
rows, a table has the rows of the versions that the coordinator covered, each once.
-/

namespace AptosEtl.Pipeline

open Rust Input Reps Tables Worker Machine Airflow

/-! ## The machine -/

/-- The coordinator and the fleet. -/
structure Deployment (ι ε : Type) where
  coordinator : Coordinator.System
  fleet : Fleet ι ε

/-- What happens next, to the coordinator or to a worker. -/
inductive Occurrence (ι ε : Type) where
  | coordinator (e : Coordinator.Event)
  | worker (e : Event ι ε)

variable {ι ε : Type}

/-- Nothing has run. -/
def Deployment.new : Deployment ι ε := ⟨.new, .new⟩

section Step

variable (encode : Coordinator.IndexingRange → List UInt8)
  (decode : List UInt8 → Except String Worker.IndexingRange) (crates : Crates) [DecidableEq ι]

/-- One step. The messages on the topic are those of the coordinator, and none is sent otherwise. -/
def deploymentStep (d : Deployment ι ε) : Occurrence ι ε → Option (Deployment ι ε)
  | .coordinator e =>
    (Coordinator.step d.coordinator e).map fun coordinator =>
      ⟨coordinator, { d.fleet with
        messages := coordinator.transaction_indexing_ranges.map encode }⟩
  | .worker (.send _) => none
  | .worker e => (step decode crates d.fleet e).map fun fleet => ⟨d.coordinator, fleet⟩

end Step

/-- The streams that the workers get are served from a ledger, and their publishers are of a kind.
-/
def DeploymentServed (decode : List UInt8 → Except String Worker.IndexingRange) (ledger : Ledger)
    (kind : Sends ε → Prop) (d : Deployment ι ε) : Occurrence ι ε → Prop
  | .coordinator _ => True
  | .worker e => Served decode ledger kind d.fleet e

/-! ## The messages of the coordinator -/

/-- The messages of the coordinator select all tables. -/
structure SelectsAll (s : Coordinator.System) : Prop where
  published : ∀ m ∈ s.transaction_indexing_ranges, m.table = none
  serialized : ∀ p ∈ s.process, ∀ m ∈ p.indexing_range_serialized, m.table = none

/-- A message is built without options. -/
theorem table_of_new {r : Span ℤ} {m : Coordinator.IndexingRange}
    (h : Coordinator.IndexingRange.new r = some m) : m.table = none := by
  rw [Coordinator.IndexingRange.new, Option.ite_none_right_eq_some] at h
  rw [← Option.some.inj h.2]

/-- A step of the coordinator publishes one message, or none, and its messages still select all
tables. -/
theorem coordinator_step {s s' : Coordinator.System} {e : Coordinator.Event} (hs : SelectsAll s)
    (hstep : Coordinator.step s e = some s') :
    SelectsAll s' ∧ (s'.transaction_indexing_ranges = s.transaction_indexing_ranges ∨
      ∃ m, s'.transaction_indexing_ranges = s.transaction_indexing_ranges ++ [m]) := by
  cases hprocess : s.process with
  | none =>
    rw [Coordinator.step_of_none hprocess] at hstep
    split_ifs at hstep
    obtain rfl := Option.some.inj hstep
    unfold Coordinator.pickUpFromPreviousRun
    split
    all_goals
      refine ⟨⟨hs.published, ?_⟩, .inl rfl⟩
      intro p hp m hm
      obtain rfl := Option.mem_some.1 hp
      cases hm
  | some p =>
    have hserialized := hs.serialized p hprocess
    rw [Coordinator.step_of_process hprocess] at hstep
    cases e with
    | pickUp => cases hstep
    | poll ledger_version =>
      rw [Coordinator.processStep, Coordinator.poll] at hstep
      split at hstep
      case h_2 => cases hstep
      case h_1 =>
        obtain rfl := Option.some.inj hstep
        refine ⟨⟨hs.published, fun p' hp' => ?_⟩, .inl rfl⟩
        obtain rfl := Option.mem_some.1 hp'
        exact hserialized
    | serialize =>
      rw [Coordinator.processStep, Coordinator.serialize] at hstep
      split at hstep
      case h_2 => cases hstep
      case h_1 =>
        split at hstep
        case h_2 =>
          obtain rfl := Option.some.inj hstep
          exact ⟨⟨hs.published, fun p hp => by cases hp⟩, .inl rfl⟩
        case h_1 m hm =>
          obtain rfl := Option.some.inj hstep
          refine ⟨⟨hs.published, fun p' hp' m' hm' => ?_⟩, .inl rfl⟩
          obtain rfl := Option.mem_some.1 hp'
          obtain rfl := Option.mem_some.1 hm'
          exact table_of_new hm
    | publish =>
      rw [Coordinator.processStep, Coordinator.publish] at hstep
      split at hstep
      case h_2 => cases hstep
      case h_1 ledger_version ranges m hposition hm =>
        obtain rfl := Option.some.inj hstep
        refine ⟨⟨fun m' hm' => ?_, fun p' hp' => ?_⟩, .inr ⟨m, rfl⟩⟩
        · rcases List.mem_append.1 hm' with hm' | hm'
          · exact hs.published m' hm'
          · rw [List.mem_singleton.1 hm']
            exact hserialized m hm
        · obtain rfl := Option.mem_some.1 hp'
          exact hserialized
    | advance =>
      rw [Coordinator.processStep, Coordinator.advance] at hstep
      split at hstep
      case h_2 => cases hstep
      case h_1 =>
        obtain rfl := Option.some.inj hstep
        refine ⟨⟨hs.published, fun p' hp' => ?_⟩, .inl rfl⟩
        obtain rfl := Option.mem_some.1 hp'
        exact hserialized
    | signal sig =>
      obtain rfl := Option.some.inj hstep
      have hranges : (Coordinator.signalHandler s p sig).transaction_indexing_ranges =
          s.transaction_indexing_ranges := by
        cases sig <;> simp only [Coordinator.signalHandler] <;> split <;> rfl
      have hprocesses : ∀ p' ∈ (Coordinator.signalHandler s p sig).process, p' = p := by
        intro p' hp'
        cases sig with
        | Unexpected => exact (Option.some.inj (hprocess.symm.trans hp')).symm
        | SIGINT =>
          simp only [Coordinator.signalHandler] at hp'
          split at hp' <;> cases hp'
        | SIGTERM =>
          simp only [Coordinator.signalHandler] at hp'
          split at hp' <;> cases hp'
      refine ⟨⟨fun m hm => ?_, fun p' hp' => ?_⟩, .inl hranges⟩
      · rw [hranges] at hm
        exact hs.published m hm
      · rw [hprocesses p' hp']
        exact hserialized

/-! ## The invariant -/

section Reach

variable {encode : Coordinator.IndexingRange → List UInt8}
  {decode : List UInt8 → Except String Worker.IndexingRange} {crates : Crates} {ledger : Ledger}
  {kind : Sends ε → Prop} {d d' : Deployment ι ε}

/-- The messages on the topic are those that the coordinator has published. -/
structure Connected (encode : Coordinator.IndexingRange → List UInt8) (d : Deployment ι ε) :
    Prop where
  selects : SelectsAll d.coordinator
  messages : d.fleet.messages = d.coordinator.transaction_indexing_ranges.map encode

/-- Where every message of the coordinator is acknowledged, every message on the topic is. -/
theorem Connected.all_acked (hd : Connected encode d)
    (hacked : ∀ m ∈ d.coordinator.transaction_indexing_ranges, encode m ∈ d.fleet.acked) :
    ∀ data ∈ d.fleet.messages, data ∈ d.fleet.acked := by
  intro data hdata
  rw [hd.messages] at hdata
  obtain ⟨m, hm, rfl⟩ := List.mem_map.1 hdata
  exact hacked m hm

variable [DecidableEq ι]

/-- The messages on the topic change only when one is sent. -/
theorem messages_of_step {s s' : Fleet ι ε} {e : Event ι ε} (he : ∀ data, e ≠ .send data)
    (hstep : step decode crates s e = some s') : s'.messages = s.messages := by
  cases e with
  | send data => exact absurd rfl (he data)
  | signal i => rw [← Option.some.inj hstep, Fleet.become]
  | kill i => rw [← Option.some.inj hstep, Fleet.enter, Fleet.become]
  | deliver i data stream send =>
    rw [step] at hstep
    split at hstep
    case h_2 => cases hstep
    case h_1 => rw [← Option.some.inj (Option.ite_none_right_eq_some.1 hstep).2]; rfl
  | settle i answered =>
    rw [step] at hstep
    split at hstep
    case h_4 => cases hstep
    case h_1 => cases answered <;> rw [← Option.some.inj hstep] <;> rfl
    case h_2 | h_3 => rw [← Option.some.inj hstep]; rfl
  | check i | pullNone i | hand i =>
    rw [step] at hstep
    split at hstep
    case h_2 => cases hstep
    case h_1 => rw [← Option.some.inj hstep]; rfl
  | start i =>
    rw [step] at hstep
    split at hstep
    case h_3 => cases hstep
    all_goals rw [← Option.some.inj hstep]; rfl

/-- A step of a worker is one of the fleet that sends no message. -/
theorem worker_step {e : Event ι ε}
    (hstep : deploymentStep encode decode crates d (.worker e) = some d') :
    (∀ data, e ≠ .send data) ∧ d'.coordinator = d.coordinator ∧
      step decode crates d.fleet e = some d'.fleet := by
  have hsend : ∀ data, e ≠ .send data := by
    rintro data rfl
    cases hstep
  have hmap : (step decode crates d.fleet e).map (fun fleet => ⟨d.coordinator, fleet⟩) =
      some d' := by
    cases e with
    | send data => exact absurd rfl (hsend data)
    | _ => exact hstep
  obtain ⟨fleet, hfleet, rfl⟩ := Option.map_eq_some_iff.1 hmap
  exact ⟨hsend, rfl, hfleet⟩

/-- Every step keeps the topic connected, and in the fleet it is a step, or the sending of a
message, or nothing. -/
theorem deployment_step {o : Occurrence ι ε} (hd : Connected encode d)
    (hserved : DeploymentServed decode ledger kind d o)
    (hstep : deploymentStep encode decode crates d o = some d') :
    Connected encode d' ∧
      Reaches (step decode crates) (Served decode ledger kind) d.fleet d'.fleet := by
  cases o with
  | coordinator e =>
    obtain ⟨coordinator, hcoordinator, rfl⟩ := Option.map_eq_some_iff.1 hstep
    obtain ⟨hselects, hsame | ⟨m, hnew⟩⟩ := coordinator_step hd.selects hcoordinator
    · refine ⟨⟨hselects, rfl⟩, ?_⟩
      rw [hsame, ← hd.messages]
      exact .refl
    · refine ⟨⟨hselects, rfl⟩, Reaches.tail (e := .send (encode m)) .refl trivial ?_⟩
      rw [hnew, List.map_append, ← hd.messages]
      rfl
  | worker e =>
    obtain ⟨hsend, hcoordinator, hfleet⟩ := worker_step hstep
    refine ⟨⟨hcoordinator ▸ hd.selects, ?_⟩, Reaches.tail .refl hserved hfleet⟩
    rw [messages_of_step hsend hfleet, hcoordinator, hd.messages]

/-- In every state that the deployment reaches, the topic is connected, and the fleet is in a state
that it reaches by itself. -/
theorem connected_of_reaches
    (h : Reaches (deploymentStep encode decode crates) (DeploymentServed decode ledger kind)
      .new d) :
    Connected encode d ∧ Reaches (step decode crates) (Served decode ledger kind) .new d.fleet := by
  have hnew : SelectsAll (Coordinator.System.new) := by
    constructor
    case published => exact fun m hm => absurd hm List.not_mem_nil
    case serialized =>
      intro p hp
      cases hp
  refine h.invariant (P := fun d => Connected encode d ∧
    Reaches (step decode crates) (Served decode ledger kind) .new d.fleet) ⟨⟨hnew, rfl⟩, .refl⟩ ?_
  intro d o d' hd hserved hstep
  obtain ⟨hconnected, hreach⟩ := deployment_step hd.1 hserved hstep
  exact ⟨hconnected, hd.2.trans hreach⟩

end Reach

/-! ## The tables -/

/-- The rows that were handed to the publisher of a table. -/
def tableOf (table : Table) (handed : List Handed) : List table.Row :=
  handed.filterMap fun row => if h : row.1 = table then some (h ▸ row.2) else none

/-- The dedupe job, for one day after another, with the row that it keeps of each group. -/
def dedupeDays (readTimestamp : String → Option ℤ) (table : Table)
    (jobs : List (ℤ × (List table.Row → Option table.Row))) (rows : List table.Row) :
    List table.Row :=
  jobs.foldl (fun rows job => dedupeSql readTimestamp job.1 table job.2 rows) rows

/-- The rows of a table are those that were handed over for it. -/
theorem mem_tableOf {table : Table} {handed : List Handed} {row : table.Row} :
    row ∈ tableOf table handed ↔ (⟨table, row⟩ : Handed) ∈ handed := by
  rw [tableOf, List.mem_filterMap]
  constructor
  · rintro ⟨⟨table', row'⟩, hmem, hrow⟩
    split_ifs at hrow with htable
    · obtain rfl : table' = table := htable
      obtain rfl := Option.some.inj hrow
      exact hmem
  · intro hmem
    exact ⟨_, hmem, dif_pos rfl⟩

/-- The block metadata of a ledger have different block heights. -/
def DistinctHeights (ledger : Ledger) : Prop :=
  ∀ v w, isBlockMetadata (ledger.tx v) = true → isBlockMetadata (ledger.tx w) = true →
    (ledger.tx v).block_height = (ledger.tx w).block_height → v = w

section Exact

variable {encode : Coordinator.IndexingRange → List UInt8}
  {decode : List UInt8 → Except String Worker.IndexingRange} {crates : Crates} {ledger : Ledger}

/-- What the messages of the coordinator call for are the rows of the versions that they cover. -/
theorem callsFor_iff {d : Deployment ι ε}
    (hdecode : ∀ m ∈ d.coordinator.transaction_indexing_ranges,
      decode (encode m) = .ok ⟨m.start, m.end, m.table⟩) (hd : Connected encode d) (row : Handed) :
    (∃ data ∈ d.fleet.messages, CallsFor decode crates ledger data row) ↔
      ∃ v : UInt64, (v.toNat : ℤ) ∈ Coordinator.covered d.coordinator ∧
        row.2 ∈ rowsOf crates (ledger.tx v) row.1 := by
  have henabled : TableOptions.newAll.enables row.1 = true := by
    cases row.1 <;> rfl
  rw [hd.messages]
  constructor
  · rintro ⟨data, hdata, range, hrange, -, v, hstart, hend, hrow⟩
    obtain ⟨m, hm, rfl⟩ := List.mem_map.1 hdata
    obtain rfl := Except.ok.inj ((hdecode m hm).symm.trans hrange)
    exact ⟨v, ⟨m, hm, (m.includes_iff v).2 ⟨hstart, hend⟩⟩, hrow⟩
  · rintro ⟨v, ⟨m, hm, hincludes⟩, hrow⟩
    obtain ⟨hstart, hend⟩ := (m.includes_iff v).1 hincludes
    refine ⟨encode m, List.mem_map_of_mem hm, _, hdecode m hm, ?_, v, hstart, hend, hrow⟩
    rw [hd.selects.published m hm]
    exact henabled

/-- Once every message is acknowledged, the transactions of the covered versions are a chain. -/
theorem chain_of_acked [DecidableEq ι] {kind : Sends ε → Prop} {d : Deployment ι ε}
    (hdecode : ∀ m ∈ d.coordinator.transaction_indexing_ranges,
      decode (encode m) = .ok ⟨m.start, m.end, m.table⟩)
    (h : Reaches (deploymentStep encode decode crates) (DeploymentServed decode ledger kind) .new d)
    (hacked : ∀ m ∈ d.coordinator.transaction_indexing_ranges, encode m ∈ d.fleet.acked)
    (hheights : DistinctHeights ledger) {versions : List UInt64} (hnodup : versions.Nodup)
    (hversions : ∀ v ∈ versions, (v.toNat : ℤ) ∈ Coordinator.covered d.coordinator) :
    Chain crates (versions.map ledger.tx) := by
  obtain ⟨hconnected, hfleet⟩ := connected_of_reaches h
  constructor
  case extracted =>
    intro value hvalue
    obtain ⟨v, hv, rfl⟩ := List.mem_map.1 hvalue
    obtain ⟨m, hm, hincludes⟩ := hversions v hv
    obtain ⟨effects, hworks⟩ := works_of_acked hfleet (hacked m hm)
    obtain ⟨range, hrange, htransforms⟩ := hworks.transforms rfl
    obtain rfl := Except.ok.inj ((hdecode m hm).symm.trans hrange)
    obtain ⟨hstart, hend⟩ := (m.includes_iff v).1 hincludes
    have htransforms := htransforms v hstart hend
    rw [hconnected.selects.published m hm] at htransforms
    exact extractRecords_of_transforms htransforms
  case versions =>
    rw [List.map_map]
    have hsame : Input.Transaction.version ∘ ledger.tx = id := funext ledger.version_tx
    rwa [hsame, List.map_id]
  case heights =>
    rw [List.filter_map, List.map_map]
    refine List.Nodup.map_on (fun v hv w hw hheight => ?_) (hnodup.filter _)
    rw [List.mem_filter] at hv hw
    exact hheights v w hv.2 hw.2 hheight

/-- The dedupe job leaves each row of a chain once, of rows that are those of the chain in any
number, where it runs for the day of each of them. -/
theorem dedupeDays_perm {versions : List UInt64} (hchain : Chain crates (versions.map ledger.tx))
    {table : Table} (hne : table ≠ .Signatures) {rows : List table.Row}
    (hmem : ∀ row, row ∈ rows ↔ row ∈ versions.flatMap fun v => rowsOf crates (ledger.tx v) table)
    {readTimestamp : String → Option ℤ} {jobs : List (ℤ × (List table.Row → Option table.Row))}
    (hpicks : ∀ job ∈ jobs, Sql.Picks job.2)
    (hdays : ∀ v ∈ versions, ∀ row ∈ rowsOf crates (ledger.tx v) table,
      ∃ job ∈ jobs, (dayWindow readTimestamp job.1 table row).Holds) :
    (dedupeDays readTimestamp table jobs rows).Perm
      (versions.flatMap fun v => rowsOf crates (ledger.tx v) table) := by
  have hkeys := hchain.nodup_mergeKey hne
  rw [List.flatMap_map] at hkeys
  have hjobs : dedupeDays readTimestamp table jobs rows = Sql.mergeWindows (mergeKey table)
      (jobs.map fun job => (dayWindow readTimestamp job.1 table, job.2)) rows := by
    rw [dedupeDays, Sql.mergeWindows, List.foldl_map]
    rfl
  rw [hjobs]
  refine Sql.mergeWindows_perm (fun job hjob => ?_) hkeys hmem fun row hrow => ?_
  · obtain ⟨job', hjob', rfl⟩ := List.mem_map.1 hjob
    exact hpicks job' hjob'
  · obtain ⟨v, hv, hrow⟩ := List.mem_flatMap.1 hrow
    obtain ⟨job, hjob, hholds⟩ := hdays v hv row hrow
    exact ⟨_, List.mem_map_of_mem hjob, hholds⟩

/-- In every state that the deployment reaches on streams that are served from a ledger: once every
message is acknowledged, and the dedupe job has run for the days of the rows, in whatever order the
rows were loaded and whichever of the duplicates it keeps, a table other than the signatures has the
rows of the versions that the coordinator has covered, each once. -/
theorem tables_exact [DecidableEq ι] {d : Deployment ι Handed}
    (hdecode : ∀ m ∈ d.coordinator.transaction_indexing_ranges,
      decode (encode m) = .ok ⟨m.start, m.end, m.table⟩)
    (h : Reaches (deploymentStep encode decode crates) (DeploymentServed decode ledger RowByRow)
      .new d)
    (hacked : ∀ m ∈ d.coordinator.transaction_indexing_ranges, encode m ∈ d.fleet.acked)
    (hheights : DistinctHeights ledger) {table : Table} (hne : table ≠ .Signatures)
    {versions : List UInt64} (hnodup : versions.Nodup)
    (hversions : ∀ v, v ∈ versions ↔ (v.toNat : ℤ) ∈ Coordinator.covered d.coordinator)
    {rows : List table.Row} (hrows : rows.Perm (tableOf table d.fleet.handed))
    {readTimestamp : String → Option ℤ} {jobs : List (ℤ × (List table.Row → Option table.Row))}
    (hpicks : ∀ job ∈ jobs, Sql.Picks job.2)
    (hdays : ∀ v ∈ versions, ∀ row ∈ rowsOf crates (ledger.tx v) table,
      ∃ job ∈ jobs, (dayWindow readTimestamp job.1 table row).Holds) :
    (dedupeDays readTimestamp table jobs rows).Perm
      (versions.flatMap fun v => rowsOf crates (ledger.tx v) table) := by
  obtain ⟨hconnected, hfleet⟩ := connected_of_reaches h
  have hchain := chain_of_acked hdecode h hacked hheights hnodup fun v hv => (hversions v).1 hv
  refine dedupeDays_perm hchain hne (fun row => ?_) hpicks hdays
  rw [hrows.mem_iff, mem_tableOf, mem_handed_iff hfleet (hconnected.all_acked hacked),
    callsFor_iff hdecode hconnected, List.mem_flatMap]
  simp only [hversions]

/-- The payload of the range from 0 to 2. -/
def sampleRangeDecode (data : List UInt8) : Except String Worker.IndexingRange :=
  if data = [16, 2] then .ok ⟨0, 2, none⟩ else .error "failed to decode Protobuf message"

/-- The coordinator publishes the range from 0 to 2, and a worker extracts it. -/
def sampleOccurrences : List (Occurrence Unit Handed) :=
  [.coordinator .pickUp, .coordinator (.poll 2), .coordinator .serialize, .coordinator .publish,
    .worker (.start ()), .worker (.check ()),
    .worker (.deliver () [16, 2]
      (.ok [.ok [sampleCheckpoint 0, sampleCheckpoint 1, sampleCheckpoint 2]]) handOver),
    .worker (.hand ()), .worker (.hand ()), .worker (.hand ()), .worker (.settle () true)]

/-- The stream of the worker is served from a ledger. -/
theorem serves_sampleRange : Serves sampleLedger 0 2
    [.ok [sampleCheckpoint 0, sampleCheckpoint 1, sampleCheckpoint 2]] := by
  have hfollows : Follows sampleLedger 0 2
      [.ok [sampleCheckpoint 0, sampleCheckpoint 1, sampleCheckpoint 2]] := by
    constructor
    case consecutive => rfl
    case genuine => simp [delivered, sampleLedger, sampleCheckpoint]
    case complete => simp [delivered]
  exact ⟨hfollows, by simp [StartsEmpty]⟩

/-- All streams of this deployment are. -/
theorem served_sampleOccurrences : ∀ o ∈ sampleOccurrences, ∀ d,
    DeploymentServed sampleRangeDecode sampleLedger RowByRow d o := by
  intro o ho d
  simp only [sampleOccurrences, List.mem_cons, List.not_mem_nil, or_false] at ho
  rcases ho with rfl | rfl | rfl | rfl | rfl | rfl | rfl | rfl | rfl | rfl | rfl
  case inr.inr.inr.inr.inr.inr.inl =>
    refine ⟨rfl, ?_⟩
    intro range hrange responses hresponses
    obtain rfl := Except.ok.inj hrange
    obtain rfl := Except.ok.inj hresponses
    exact serves_sampleRange
  all_goals exact trivial

/-- A ledger of state checkpoints has no block metadata. -/
theorem distinctHeights_sampleLedger : DistinctHeights sampleLedger := by
  intro v w hv
  cases hv

/-- The versions that the coordinator has covered after its range. -/
theorem mem_covered_sampleRange {s : Coordinator.System}
    (hranges : s.transaction_indexing_ranges = [⟨0, 2, none⟩]) (v : UInt64) :
    v ∈ ([0, 1, 2] : List UInt64) ↔ (v.toNat : ℤ) ∈ Coordinator.covered s := by
  have hcovered : (v.toNat : ℤ) ∈ Coordinator.covered s ↔ v ≤ 2 := by
    simp only [Coordinator.covered, hranges, List.mem_singleton, exists_eq_left, Set.mem_ofPred_eq,
      Coordinator.IndexingRange.includes_iff, and_iff_right_iff_imp]
    exact fun _ => UInt64.zero_le
  rw [hcovered, UInt64.le_iff_toNat_le]
  simp only [List.mem_cons, List.not_mem_nil, or_false, ← UInt64.toNat_inj]
  have hsmall : (2 : UInt64).toNat = 2 ∧ (1 : UInt64).toNat = 1 ∧ (0 : UInt64).toNat = 0 :=
    ⟨rfl, rfl, rfl⟩
  omega

/-- The message of the range is decoded. -/
theorem decode_sampleRange {s : Coordinator.System}
    (hranges : s.transaction_indexing_ranges = [⟨0, 2, none⟩]) :
    ∀ m ∈ s.transaction_indexing_ranges,
      sampleRangeDecode [16, 2] = .ok ⟨m.start, m.end, m.table⟩ := by
  intro m hm
  rw [hranges, List.mem_singleton] at hm
  rw [hm]
  rfl

/-- The dedupe job for the first day, which keeps the first row of each group. -/
def sampleJobs : List (ℤ × (List Rows.Transaction → Option Rows.Transaction)) := [(0, List.head?)]

/-- It keeps a row of each group. -/
theorem picks_sampleJobs : ∀ job ∈ sampleJobs, Sql.Picks job.2 := by
  intro job hjob group hgroup
  obtain rfl := List.mem_singleton.1 hjob
  obtain ⟨row, rest, rfl⟩ := List.exists_cons_of_ne_nil hgroup
  exact ⟨row, List.mem_cons_self, rfl⟩

/-- The first day is that of the rows. -/
theorem days_sampleJobs : ∀ v ∈ ([0, 1, 2] : List UInt64),
    ∀ row ∈ rowsOf sampleCrates (sampleLedger.tx v) .Transactions,
      ∃ job ∈ sampleJobs, (dayWindow sampleReadTimestamp job.1 .Transactions row).Holds := by
  have hwindow : [0, 1, 2].all fun v =>
      (rowsOf sampleCrates (sampleLedger.tx v) .Transactions).all fun row =>
        decide (dayWindow sampleReadTimestamp 0 .Transactions row).Holds := by
    decide +kernel
  intro v hv row hrow
  have hholds := List.all_eq_true.1 (List.all_eq_true.1 hwindow v hv) row hrow
  exact ⟨_, List.mem_singleton_self _, of_decide_eq_true hholds⟩

/-- The transactions table of this deployment. -/
theorem tables_exact_sample : ∃ d : Deployment Unit Handed,
    Reaches (deploymentStep (fun _ => [16, 2]) sampleRangeDecode sampleCrates)
      (DeploymentServed sampleRangeDecode sampleLedger RowByRow) .new d ∧
    (dedupeDays sampleReadTimestamp .Transactions sampleJobs
      (tableOf .Transactions d.fleet.handed)).Perm
        ([0, 1, 2].flatMap fun v => rowsOf sampleCrates (sampleLedger.tx v) .Transactions) := by
  have hrun : (run (deploymentStep (fun _ => [16, 2]) sampleRangeDecode sampleCrates) .new
      sampleOccurrences).map (fun d => (d.coordinator.transaction_indexing_ranges, d.fleet.acked)) =
        some ([⟨0, 2, none⟩], [[16, 2]]) := by
    decide +kernel
  obtain ⟨d, hrun, hd⟩ := Option.map_eq_some_iff.1 hrun
  have hranges : d.coordinator.transaction_indexing_ranges = [⟨0, 2, none⟩] := congrArg Prod.fst hd
  have hacked : d.fleet.acked = [[16, 2]] := congrArg Prod.snd hd
  have hreach := Reaches.of_run_mem served_sampleOccurrences hrun
  refine ⟨d, hreach, ?_⟩
  have hall : ∀ m ∈ d.coordinator.transaction_indexing_ranges, [16, 2] ∈ d.fleet.acked := by
    simp [hacked]
  exact tables_exact (decode_sampleRange hranges) hreach hall distinctHeights_sampleLedger
    (by decide) (by decide) (mem_covered_sampleRange hranges) (List.Perm.refl _) picks_sampleJobs
    days_sampleJobs

end Exact

end AptosEtl.Pipeline
