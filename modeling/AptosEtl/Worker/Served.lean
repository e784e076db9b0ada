import AptosEtl.Lib.Spans
import AptosEtl.Worker.Published

/-!
# Ranges that are served from a ledger

The node gives the transactions of a ledger, one after another from the start of the range, and a
stream of it does not end before the end of the range unless it fails. `Follows` says this of one
stream, in whatever responses. An empty response makes a difference in one place: on a range of a
single version, it ends a run that has received nothing before, which `Serves` excludes. A run that
returns normally on such a stream publishes the rows of the versions of its range
(`extractRange_of_serves`), so that what it publishes does not depend on the stream, and less and
less on how the ledger was divided into ranges.
-/

namespace AptosEtl.Worker

open Rust Input Reps Tables

/-! ## Ledgers -/

/-- The transactions of a network, each with its version. -/
structure Ledger where
  tx : UInt64 → Input.Transaction
  version_tx : ∀ v, (tx v).version = v

/-- The versions of a range, in order. -/
def versions (start «end» : UInt64) : List UInt64 :=
  (List.range' start.toNat («end».toNat + 1 - start.toNat)).map UInt64.ofNat

/-- The responses of a stream follow a ledger through a range. -/
structure Follows (ledger : Ledger) (start «end» : UInt64)
    (responses : List (Except Status (List Input.Transaction))) : Prop where
  /-- The transactions come one after another from the start of the range. -/
  consecutive : (delivered responses).map (fun tx => tx.version.toNat) =
    List.range' start.toNat (delivered responses).length
  /-- They are those of the ledger. -/
  genuine : ∀ tx ∈ delivered responses, tx = ledger.tx tx.version
  /-- A stream that does not fail goes on through the end of the range. -/
  complete : (∀ status, .error status ∉ responses) →
    «end».toNat < start.toNat + (delivered responses).length

/-- The node serves a range of a ledger by the responses of a stream. -/
structure Serves (ledger : Ledger) (start «end» : UInt64)
    (responses : List (Except Status (List Input.Transaction))) : Prop
    extends Follows ledger start «end» responses where
  /-- The stream of a single version does not start with an empty response. -/
  starts : ¬ (start = «end» ∧ StartsEmpty responses)

/-- The responses follow a ledger through a range, where a stream is created at all. -/
def FollowsStream (ledger : Ledger) (start «end» : UInt64) (stream : Stream) : Prop :=
  ∀ responses, stream = .ok responses → Follows ledger start «end» responses

/-- The node serves a range of a ledger, where it creates a stream at all. -/
def ServesStream (ledger : Ledger) (start «end» : UInt64) (stream : Stream) : Prop :=
  ∀ responses, stream = .ok responses → Serves ledger start «end» responses

/-- The versions of a range are those from its start through its end. -/
theorem mem_versions {start «end» v : UInt64} :
    v ∈ versions start «end» ↔ start ≤ v ∧ v ≤ «end» := by
  simp only [versions, List.mem_map, List.mem_range'_1, UInt64.le_iff_toNat_le]
  constructor
  · rintro ⟨n, ⟨hstart, hend⟩, rfl⟩
    have hlt := «end».toNat_lt
    rw [UInt64.toNat_ofNat_of_lt' (by rw [UInt64.size]; omega)]
    omega
  · intro h
    exact ⟨v.toNat, by omega, UInt64.ofNat_toNat⟩

/-- Transactions with the versions of a range that are those of a ledger. -/
theorem eq_map_of_versions {ledger : Ledger} {start «end» : UInt64} {txs : List Input.Transaction}
    (hversions : txs.map (fun tx => tx.version.toNat) =
      List.range' start.toNat («end».toNat + 1 - start.toNat))
    (hgenuine : ∀ tx ∈ txs, tx = ledger.tx tx.version) :
    txs = (versions start «end»).map ledger.tx := by
  have hmap : (versions start «end»).map ledger.tx = txs.map fun tx => ledger.tx tx.version := by
    rw [versions, ← hversions, List.map_map, List.map_map]
    exact List.map_congr_left fun tx _ => congrArg ledger.tx UInt64.ofNat_toNat
  rw [hmap]
  exact (List.map_id txs).symm.trans (List.map_congr_left hgenuine)

section Runs

variable {crates : Crates} {ledger : Ledger} {start «end» : UInt64}
  {responses : List (Except Status (List Input.Transaction))}

/-- A reading of a served range that does not fail reaches its end, with the transactions of all its
versions. -/
theorem reads_of_serves (hserves : Serves ledger start «end» responses) (hle : start ≤ «end»)
    (hends : ∀ status, (reads start «end» responses).2 ≠ .Failed status) :
    reads start «end» responses = ((versions start «end»).map ledger.tx, .Reached) := by
  have hnat : start.toNat ≤ «end».toNat := UInt64.le_iff_toNat_le.1 hle
  obtain ⟨rest, hfirst⟩ := scan_prefix Input.Transaction.version «end» responses start
  have hreached : (reads start «end» responses).2 = .Reached := by
    cases hending : (reads start «end» responses).2 with
    | Reached => rfl
    | Failed status => exact absurd hending (hends status)
    | Exhausted =>
      -- a stream that runs out without a failure has delivered the end of the range
      obtain ⟨-, hfailures, hmissing⟩ := scan_of_exhausted hending
      have hlength := hserves.complete hfailures
      have hmem : «end».toNat ∈ (delivered responses).map fun tx => tx.version.toNat := by
        rw [hserves.consecutive, List.mem_range'_1]
        exact ⟨hnat, hlength⟩
      obtain ⟨tx, htx, hversion⟩ := List.mem_map.1 hmem
      exact absurd (UInt64.toNat_inj.1 hversion) (hmissing tx htx)
  obtain ⟨items, last, hitems, hlast⟩ :=
    exists_concat_of_reached (not_and.1 hserves.starts) hreached
  rw [hitems] at hfirst
  have hread : (reads start «end» responses).1 = items ++ [last] := hitems
  -- the versions that are read start with the range, and the last of them is its end
  have hversions : (items ++ [last]).map (fun tx => tx.version.toNat) =
      List.range' start.toNat (items.length + 1) := by
    have hall := hserves.consecutive
    rw [hfirst, List.map_append, List.length_append, ← List.range'_append_1] at hall
    exact (List.append_inj hall (by simp)).1.trans (by simp)
  have hlength : items.length + 1 = «end».toNat + 1 - start.toNat := by
    have hconcat := hversions
    rw [List.range'_concat, List.map_append, List.map_singleton, hlast] at hconcat
    obtain ⟨-, hends⟩ := List.append_inj' hconcat rfl
    have hend := (List.cons.inj hends).1
    omega
  rw [hlength] at hversions
  have hgenuine : ∀ tx ∈ items ++ [last], tx = ledger.tx tx.version := by
    intro tx htx
    refine hserves.genuine tx ?_
    rw [hfirst]
    exact List.mem_append_left _ htx
  rw [← eq_map_of_versions hversions hgenuine, ← hread, ← hreached]

/-- The range of a run that returns normally is not reversed. -/
theorem le_of_extractRange {tableOptions : Option TableOptions} {calls : List PublishCall}
    (h : extractRange crates start «end» tableOptions (.ok responses) = .ok calls) :
    start ≤ «end» := by
  refine UInt64.not_lt.1 fun hlt => ?_
  rw [extractRange, if_pos hlt] at h
  cases h

/-- A run that returns normally on a served range publishes the rows of the versions of its range,
and all of their transactions transform. -/
theorem extractRange_of_serves {tableOptions : Option TableOptions} {calls : List PublishCall}
    (hserves : Serves ledger start «end» responses)
    (h : extractRange crates start «end» tableOptions (.ok responses) = .ok calls) :
    start ≤ «end» ∧
      (∀ v ∈ versions start «end», Transforms crates (tableOptions.getD .newAll) (ledger.tx v)) ∧
      calls = publishRows (tableOptions.getD .newAll) (rangeName start «end») fun table =>
        (versions start «end»).flatMap fun v =>
          enabledRows crates (tableOptions.getD .newAll) (ledger.tx v) table := by
  have hle := le_of_extractRange h
  obtain ⟨htransforms, hending⟩ := (extractRange_eq_ok tableOptions hle).1 h
  have hends : ∀ status, (reads start «end» responses).2 ≠ .Failed status := by
    intro status hfailed
    rcases hending with ⟨hending, -⟩ | ⟨hending, -⟩ <;> simp [hfailed] at hending
  have hreads := reads_of_serves hserves hle hends
  rw [hreads] at htransforms hending
  obtain ⟨hexhausted, -⟩ | ⟨-, rfl⟩ := hending
  · cases hexhausted
  · refine ⟨hle, fun v hv => htransforms _ (List.mem_map_of_mem hv), ?_⟩
    simp only [List.flatMap_map]

end Runs

/-! ## Dividing a range -/

/-- Consecutive ranges that divide a range. -/
inductive Divides : UInt64 → UInt64 → List (UInt64 × UInt64) → Prop where
  | last {start «end» : UInt64} (hle : start ≤ «end») : Divides start «end» [(start, «end»)]
  | cons {start middle «end» : UInt64} {ranges : List (UInt64 × UInt64)} (hle : start ≤ middle)
    (hlt : middle < «end») (rest : Divides (middle + 1) «end» ranges) :
    Divides start «end» ((start, middle) :: ranges)

/-- The successor of a version before another one. -/
theorem toNat_succ {middle «end» : UInt64} (hlt : middle < «end») :
    (middle + 1).toNat = middle.toNat + 1 := by
  have hnat := UInt64.lt_iff_toNat_lt.1 hlt
  have hend := «end».toNat_lt
  rw [UInt64.toNat_add, UInt64.toNat_one]
  omega

/-- The versions of a range are those of the ranges that divide it. -/
theorem Divides.versions_eq {start «end» : UInt64} {ranges : List (UInt64 × UInt64)}
    (h : Divides start «end» ranges) :
    start ≤ «end» ∧ versions start «end» = ranges.flatMap fun r => versions r.1 r.2 := by
  induction h with
  | last hle => exact ⟨hle, by simp⟩
  | @cons start middle «end» ranges hle hlt rest ih =>
    obtain ⟨-, hrest⟩ := ih
    have hmiddle := UInt64.le_iff_toNat_le.1 hle
    have hend := UInt64.lt_iff_toNat_lt.1 hlt
    refine ⟨UInt64.le_iff_toNat_le.2 (by omega), ?_⟩
    rw [List.flatMap_cons, ← hrest]
    simp only [versions, toNat_succ hlt, ← List.map_append]
    -- the versions through the middle, and those after it
    have hcount : «end».toNat + 1 - start.toNat =
        (middle.toNat + 1 - start.toNat) + («end».toNat + 1 - (middle.toNat + 1)) := by
      omega
    have hnext : start.toNat + (middle.toNat + 1 - start.toNat) = middle.toNat + 1 := by
      omega
    rw [hcount, ← List.range'_append_1, hnext]

/-- A run on a range of a ledger, on some stream that serves it, that returns normally. -/
def Extracted (crates : Crates) (ledger : Ledger) (tableOptions : Option TableOptions)
    (range : UInt64 × UInt64) (calls : List PublishCall) : Prop :=
  ∃ responses, Serves ledger range.1 range.2 responses ∧
    extractRange crates range.1 range.2 tableOptions (.ok responses) = .ok calls

section Division

variable {crates : Crates} {ledger : Ledger} {tableOptions : Option TableOptions}

/-- The rows that a run hands over are those of the versions of its range, in the enabled tables. -/
theorem Extracted.handed_eq {range : UInt64 × UInt64} {calls : List PublishCall}
    (h : Extracted crates ledger tableOptions range calls) (table : Table) :
    handed table calls = (versions range.1 range.2).flatMap fun v =>
      enabledRows crates (tableOptions.getD .newAll) (ledger.tx v) table := by
  obtain ⟨responses, hserves, hrun⟩ := h
  obtain ⟨-, -, rfl⟩ := extractRange_of_serves hserves hrun
  rw [handed_publishRows]
  cases henabled : (tableOptions.getD .newAll).enables table with
  | true => rfl
  | false => simp [enabledRows, henabled]

/-- However a range is divided into consecutive ranges: when their runs return normally, so does the
run on the whole range, unless its stream fails, and it hands over the rows that they have handed
over, one after the other. -/
theorem extractRange_divided {start «end» : UInt64} {ranges : List (UInt64 × UInt64)}
    {runs : List (List PublishCall)} {responses : List (Except Status (List Input.Transaction))}
    (hdivides : Divides start «end» ranges)
    (hruns : List.Forall₂ (Extracted crates ledger tableOptions) ranges runs)
    (hserves : Serves ledger start «end» responses)
    (hends : ∀ status, (reads start «end» responses).2 ≠ .Failed status) :
    ∃ calls, extractRange crates start «end» tableOptions (.ok responses) = .ok calls ∧
      ∀ table, handed table calls = runs.flatMap (handed table) := by
  obtain ⟨hle, hversions⟩ := hdivides.versions_eq
  have hreads := reads_of_serves hserves hle hends
  -- every version of the whole range is one of a part, whose run has transformed it
  have htransforms : ∀ tx ∈ (reads start «end» responses).1,
      Transforms crates (tableOptions.getD .newAll) tx := by
    intro tx htx
    rw [hreads, hversions] at htx
    obtain ⟨v, hv, rfl⟩ := List.mem_map.1 htx
    obtain ⟨range, hrange, hv⟩ := List.mem_flatMap.1 hv
    obtain ⟨calls, -, part, hpart, hrun⟩ := Aligned.exists_of_mem_right hruns.flip hrange
    obtain ⟨-, htransforms, -⟩ := extractRange_of_serves hpart hrun
    exact htransforms v hv
  have hrun := (extractRange_eq_ok tableOptions hle).2
    ⟨htransforms, .inr ⟨by rw [hreads], rfl⟩⟩
  refine ⟨_, hrun, fun table => ?_⟩
  have hwhole : Extracted crates ledger tableOptions (start, «end») _ := ⟨responses, hserves, hrun⟩
  rw [hwhole.handed_eq, hversions, List.flatMap_assoc]
  -- part by part
  clear hdivides hversions hwhole hrun htransforms
  induction hruns with
  | nil => rfl
  | cons hrun _ ih => rw [List.flatMap_cons, List.flatMap_cons, hrun.handed_eq, ih]

end Division

/-- A ledger of state checkpoints. -/
def sampleLedger : Ledger := ⟨sampleCheckpoint, fun _ => rfl⟩

/-- One response with one version serves it. -/
theorem serves_sampleCheckpoint (v : UInt64) :
    Serves sampleLedger v v [.ok [sampleCheckpoint v]] := by
  have hfollows : Follows sampleLedger v v [.ok [sampleCheckpoint v]] := by
    constructor
    case consecutive => rfl
    case genuine => simp [delivered, sampleLedger, sampleCheckpoint]
    case complete => simp [delivered]
  exact ⟨hfollows, by simp [StartsEmpty]⟩

/-- Two versions in one response, whose range is divided into two. -/
theorem extractRange_divided_sample :
    ∃ first second calls : List PublishCall,
      extractRange sampleCrates 4 5 none (.ok [.ok [sampleCheckpoint 4, sampleCheckpoint 5]]) =
        .ok calls ∧ ∀ table, handed table calls = [first, second].flatMap (handed table) := by
  obtain ⟨first, hfirst⟩ : ∃ calls,
      extractRange sampleCrates 4 4 none (.ok [.ok [sampleCheckpoint 4]]) = .ok calls :=
    Outcome.isSome_toOption.1 (by decide)
  obtain ⟨second, hsecond⟩ : ∃ calls,
      extractRange sampleCrates 5 5 none (.ok [.ok [sampleCheckpoint 5]]) = .ok calls :=
    Outcome.isSome_toOption.1 (by decide)
  have hdivides : Divides 4 5 [(4, 4), (5, 5)] :=
    .cons (by decide) (by decide) (.last (by decide))
  have hruns : List.Forall₂ (Extracted sampleCrates sampleLedger none) [(4, 4), (5, 5)]
      [first, second] :=
    .cons ⟨_, serves_sampleCheckpoint 4, hfirst⟩
      (.cons ⟨_, serves_sampleCheckpoint 5, hsecond⟩ .nil)
  have hfollows : Follows sampleLedger 4 5 [.ok [sampleCheckpoint 4, sampleCheckpoint 5]] := by
    constructor
    case consecutive => rfl
    case genuine => simp [delivered, sampleLedger, sampleCheckpoint]
    case complete => simp [delivered]
  have hserves : Serves sampleLedger 4 5 [.ok [sampleCheckpoint 4, sampleCheckpoint 5]] :=
    ⟨hfollows, by simp [StartsEmpty]⟩
  have hends : ∀ status,
      (reads 4 5 [.ok [sampleCheckpoint 4, sampleCheckpoint 5]]).2 ≠ .Failed status := by
    intro status hfailed
    cases hfailed
  obtain ⟨calls, hcalls⟩ := extractRange_divided hdivides hruns hserves hends
  exact ⟨first, second, calls, hcalls⟩

/-! ## Selecting all tables -/

/-- A transaction that transforms for all tables is one whose records can all be extracted. -/
theorem extractRecords_of_transforms {crates : Crates} {tx : Input.Transaction}
    (h : Transforms crates .newAll tx) : ∃ records, extractRecords crates tx = .ok records := by
  obtain ⟨txExtract, htx, hbuilds⟩ := h
  obtain ⟨sigs, hsigs⟩ := hbuilds.signatures (.inl rfl)
  obtain ⟨block, hblock⟩ := hbuilds.block rfl
  obtain ⟨row, hrow⟩ := hbuilds.row rfl sigs hsigs
  obtain ⟨events, hevents⟩ := hbuilds.events rfl
  obtain ⟨changes, hchanges⟩ := hbuilds.changes rfl
  exact ⟨_, extractRecords_eq_ok.2 ⟨txExtract, block, changes, events, sigs, row,
    ⟨htx, hblock, hchanges, hevents, hsigs, hrow⟩, rfl⟩⟩

/-! ## Selecting fewer tables -/

/-- What is selected by some options is selected by others. -/
def TablesWithin (options options' : TableOptions) : Prop :=
  ∀ table, options.enables table = true → options'.enables table = true

section Selection

variable {crates : Crates} {options options' : TableOptions}

/-- The builders that fewer tables ask for return where those for more tables do. -/
theorem Builds.of_within {tx : TransactionExtraction} (hwithin : TablesWithin options options')
    (h : Builds crates options' tx) : Builds crates options tx := by
  have hsigs : options.doSignatures = true → options'.doSignatures = true := hwithin .Signatures
  have hrow : options.doTransactions = true → options'.doTransactions = true :=
    hwithin .Transactions
  constructor
  case signatures => exact fun hdo => h.signatures (hdo.imp hsigs hrow)
  case block => exact fun hdo => h.block (hwithin .Blocks hdo)
  case row => exact fun hdo => h.row (hrow hdo)
  case events => exact fun hdo => h.events (hwithin .Events hdo)
  case changes =>
    intro hdo
    refine h.changes ?_
    simp only [TableOptions.doChangesOrSubchanges, Bool.or_eq_true] at hdo ⊢
    exact hdo.imp (.imp (.imp (hwithin .Changes) (hwithin .Modules)) (hwithin .Resources))
      (hwithin .TableItems)

/-- A transaction that transforms for more tables transforms for fewer. -/
theorem Transforms.of_within {tx : Input.Transaction} (hwithin : TablesWithin options options')
    (h : Transforms crates options' tx) : Transforms crates options tx := by
  obtain ⟨txExtract, htx, hbuilds⟩ := h
  exact ⟨txExtract, htx, hbuilds.of_within hwithin⟩

/-- The calls for fewer tables are those of the calls for more tables that are for them. -/
theorem publishRows_of_within (hwithin : TablesWithin options options') (name : String)
    {rows rows' : (table : Table) → List table.Row}
    (hrows : ∀ table, options.enables table = true → rows table = rows' table) :
    publishRows options name rows =
      (publishRows options' name rows').filter fun call => options.enables call.table := by
  have htables : Table.all.filter options.enables =
      (Table.all.filter options'.enables).filter options.enables := by
    rw [List.filter_filter]
    refine List.filter_congr fun table _ => ?_
    cases henabled : options.enables table with
    | false => rfl
    | true => simp [hwithin table henabled]
  rw [publishRows_congr hrows, publishRows, publishRows, List.filter_map, htables]
  rfl

/-- A run for fewer tables: where a run for more tables returns normally, so does one for fewer on
the same stream, with the same calls for the tables that are left. -/
theorem extractRange_of_within {start «end» : UInt64}
    {tableOptions tableOptions' : Option TableOptions} {stream : Stream} {calls : List PublishCall}
    (hwithin : TablesWithin (tableOptions.getD .newAll) (tableOptions'.getD .newAll))
    (h : extractRange crates start «end» tableOptions' stream = .ok calls) :
    extractRange crates start «end» tableOptions stream =
      .ok (calls.filter fun call => (tableOptions.getD .newAll).enables call.table) := by
  cases stream with
  | error error => cases h
  | ok responses =>
    have hle := le_of_extractRange h
    obtain ⟨htransforms, hending⟩ := (extractRange_eq_ok tableOptions' hle).1 h
    refine (extractRange_eq_ok tableOptions hle).2
      ⟨fun tx htx => (htransforms tx htx).of_within hwithin, ?_⟩
    rcases hending with ⟨hending, rfl⟩ | ⟨hending, rfl⟩
    · exact .inl ⟨hending, rfl⟩
    · refine .inr ⟨hending, (publishRows_of_within hwithin _ fun table henabled => ?_).symm⟩
      refine List.flatMap_congr fun tx _ => ?_
      rw [enabledRows, enabledRows, if_pos henabled, if_pos (hwithin table henabled)]

/-- Of all tables, only the events. -/
theorem extractRange_of_within_sample :
    ∃ calls, extractRange sampleCrates 4 4 none (.ok [.ok [sampleCheckpoint 4]]) = .ok calls ∧
      let events : TableOptions := ⟨none, none, some true, none, none, none, none, none⟩
      extractRange sampleCrates 4 4 (some events) (.ok [.ok [sampleCheckpoint 4]]) =
        .ok (calls.filter fun call => events.enables call.table) := by
  obtain ⟨calls, hcalls⟩ : ∃ calls,
      extractRange sampleCrates 4 4 none (.ok [.ok [sampleCheckpoint 4]]) = .ok calls :=
    Outcome.isSome_toOption.1 (by decide)
  refine ⟨calls, hcalls, extractRange_of_within (fun table _ => ?_) hcalls⟩
  cases table <;> rfl

end Selection

end AptosEtl.Worker
