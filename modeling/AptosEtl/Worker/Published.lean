import AptosEtl.Worker.ExtractRange

/-!
# What a run publishes

The results about `extractRange`. A run that returns normally either reached the end of its range,
and then publishes the rows of the transactions that it read in every enabled table, or its stream
ran out first, and then it publishes nothing (`extractRange_eq_ok`).

On a stream that delivers its range, in whatever responses, a run therefore publishes the same as
`extractRecords` on each transaction (`extractRange_of_versions`). A run that is acknowledged has
published its range only if the stream delivered it: `lossless_iff` says exactly when.
-/

namespace AptosEtl.Worker

open Rust Input Reps Tables

/-! ## The calls of a run -/

/-- The calls that publish given rows: one for each enabled table, with the timestamps of its
rows. -/
def publishRows (options : TableOptions) (name : String)
    (rows : (table : Table) → List table.Row) : List PublishCall :=
  (Table.all.filter options.enables).map fun table =>
    ⟨table, rows table, some name, (rows table).map table.unixTimestamp⟩

/-- The rows that the calls hand to the publisher of a table. -/
def handed (table : Table) (calls : List PublishCall) : List table.Row :=
  calls.flatMap fun call => if h : call.table = table then h ▸ call.records else []

/-- What has grown from nothing by some rows is published as these rows. -/
theorem publishAll_of_appends {acc : Accumulators} {rows : (table : Table) → List table.Row}
    (h : Appends .new acc rows) (options : TableOptions) (name : String) :
    publishAll options acc name = publishRows options name rows := by
  have hrows : ∀ table, acc.records table = rows table ∧
      acc.timestamps table = (rows table).map table.unixTimestamp := by
    intro table
    have hnew : Accumulators.new.records table = [] ∧ Accumulators.new.timestamps table = [] := by
      cases table <;> exact ⟨rfl, rfl⟩
    simpa [hnew] using h table
  have hcall : ∀ table,
      (⟨table, acc.records table, some name, acc.timestamps table⟩ : PublishCall) =
        ⟨table, rows table, some name, (rows table).map table.unixTimestamp⟩ := by
    intro table
    rw [(hrows table).2, (hrows table).1]
  have hall : publishAll options acc name = Table.all.flatMap fun table =>
      publishIf (options.enables table) ⟨table, acc.records table, some name,
        acc.timestamps table⟩ := by
    simp [publishAll, Table.all, TableOptions.enables, Accumulators.records,
      Accumulators.timestamps]
  -- guarding each table in turn is mapping over the enabled ones
  have hif : ∀ tables : List Table, (tables.flatMap fun table =>
      publishIf (options.enables table) ⟨table, rows table, some name,
        (rows table).map table.unixTimestamp⟩) =
      (tables.filter options.enables).map fun table =>
        ⟨table, rows table, some name, (rows table).map table.unixTimestamp⟩ := by
    intro tables
    induction tables with
    | nil => rfl
    | cons table tables ih => cases h : options.enables table <;> simp [publishIf, h, ← ih]
  rw [hall, publishRows, ← hif]
  simp only [hcall]

/-- The rows handed over for an enabled table are the given ones, and there are none for a disabled
one. -/
theorem handed_publishRows (options : TableOptions) (name : String)
    (rows : (table : Table) → List table.Row) (table : Table) :
    handed table (publishRows options name rows) =
      if options.enables table then rows table else [] := by
  -- by induction on the tables: each occurs once, so one call at most is of this table
  have key : ∀ tables : List Table, tables.Nodup →
      handed table ((tables.filter options.enables).map fun table =>
        ⟨table, rows table, some name, (rows table).map table.unixTimestamp⟩) =
          if table ∈ tables ∧ options.enables table = true then rows table else [] := by
    intro tables hnodup
    induction tables with
    | nil => simp [handed]
    | cons t tables ih =>
      obtain ⟨hnew, hnodup⟩ := List.nodup_cons.1 hnodup
      have ih := ih hnodup
      by_cases henabled : options.enables t = true
      · rw [List.filter_cons_of_pos henabled, List.map_cons, handed, List.flatMap_cons, ← handed,
          ih]
        by_cases ht : t = table
        · subst ht
          simp [hnew, henabled]
        · simp [ht, Ne.symm ht]
      · rw [List.filter_cons_of_neg henabled, ih]
        by_cases ht : t = table
        · subst ht
          simp [hnew, henabled]
        · simp [Ne.symm ht]
  rw [publishRows, key Table.all (by decide)]
  cases table <;> simp [Table.all]

/-- The calls depend on the rows of the enabled tables only. -/
theorem publishRows_congr {options : TableOptions} {name : String}
    {rows rows' : (table : Table) → List table.Row}
    (h : ∀ table, options.enables table = true → rows table = rows' table) :
    publishRows options name rows = publishRows options name rows' := by
  refine List.map_congr_left fun table htable => ?_
  rw [h table (List.mem_filter.1 htable).2]

/-- What a run reads from its stream: the transactions through the end of the range, and how the
reading ends. -/
def reads (start «end» : UInt64) (responses : List (Except Status (List Input.Transaction))) :
    List Input.Transaction × Ending Status :=
  scan Input.Transaction.version «end» responses start

/-- A run returns normally exactly when every transaction that it reads transforms and its reading
does not fail. If the end of the range was reached, it publishes the rows of what it read, and if
the stream ran out, nothing. -/
theorem extractRange_eq_ok {crates : Crates} {start «end» : UInt64}
    (tableOptions : Option TableOptions) (hle : start ≤ «end»)
    {responses : List (Except Status (List Input.Transaction))} {calls : List PublishCall} :
    extractRange crates start «end» tableOptions (.ok responses) = .ok calls ↔
      (∀ tx ∈ (reads start «end» responses).1, Transforms crates (tableOptions.getD .newAll) tx) ∧
        ((reads start «end» responses).2 = .Exhausted ∧ calls = [] ∨
          (reads start «end» responses).2 = .Reached ∧
            calls = publishRows (tableOptions.getD .newAll) (rangeName start «end») fun table =>
              (reads start «end» responses).1.flatMap fun tx =>
                enabledRows crates (tableOptions.getD .newAll) tx table) := by
  set options := tableOptions.getD .newAll with hoptions
  have hlt : ¬ «end» < start := UInt64.not_lt.2 hle
  -- what the loop has accumulated at its end are the rows of what it read
  have hpublish : ∀ {s : LoopState}, Outcome.tryFold (step crates options start «end»)
      ⟨start, .new⟩ (reads start «end» responses).1 = .ok s → ∀ name,
        publishAll options s.acc name = publishRows options name fun table =>
          (reads start «end» responses).1.flatMap fun tx => enabledRows crates options tx table :=
    fun hs name => publishAll_of_appends (steps_spec hs).2 options name
  simp only [extractRange, ← hoptions, hlt, if_false, pullLoop_eq]
  rw [← steps_eq_ok_iff start «end» ⟨start, .new⟩]
  constructor
  · intro h
    obtain ⟨r, hr, h⟩ := Outcome.bind_eq_ok.1 h
    obtain ⟨s, hs, hr⟩ := Outcome.bind_eq_ok.1 hr
    refine ⟨⟨s, hs⟩, ?_⟩
    unfold conclude at hr
    split at hr
    case h_1 hending =>
      obtain rfl := Outcome.ok.inj hr
      exact .inl ⟨hending, (Outcome.ok.inj h).symm⟩
    case h_2 => cases hr
    case h_3 hending =>
      obtain rfl := Outcome.ok.inj hr
      exact .inr ⟨hending, (Outcome.ok.inj h).symm.trans (hpublish hs _)⟩
  · rintro ⟨⟨s, hs⟩, ⟨hending, rfl⟩ | ⟨hending, rfl⟩⟩
    · unfold reads at hs hending
      simp [hs, hending, conclude]
    · rw [← hpublish hs]
      unfold reads at hs hending
      simp [hs, hending, conclude]

/-! ## A stream that delivers its range -/

/-- Transactions with the versions of a range end with the first one that has the last version. -/
theorem exists_last_of_versions {start «end» : UInt64} (hle : start ≤ «end»)
    {txs : List Input.Transaction}
    (hversions : txs.map (fun tx => tx.version.toNat) =
      List.range' start.toNat («end».toNat - start.toNat + 1)) :
    ∃ init last, txs = init ++ [last] ∧ last.version = «end» ∧
      ∀ tx ∈ init, tx.version ≠ «end» := by
  have hnat : start.toNat ≤ «end».toNat := UInt64.le_iff_toNat_le.1 hle
  -- the last of the versions is the end of the range, and the ones before it are below
  rw [List.range'_concat, List.map_eq_append_iff] at hversions
  obtain ⟨init, tail, rfl, hinit, htail⟩ := hversions
  obtain ⟨last, rfl, hlast⟩ := List.map_eq_singleton_iff.1 htail
  refine ⟨init, last, rfl, UInt64.toNat_inj.1 (by omega), fun tx htx hend => ?_⟩
  have hmem : tx.version.toNat ∈ List.range' start.toNat («end».toNat - start.toNat) := by
    rw [← hinit]
    exact List.mem_map_of_mem htx
  rw [List.mem_range'_1, hend] at hmem
  omega

/-- Transactions whose records can all be extracted transform under every options, and have in an
enabled table the rows of their records. -/
theorem transforms_and_rows {crates : Crates} {txs : List Input.Transaction}
    {records : List Rows.Records}
    (h : Outcome.tryMap (extractRecords crates) txs = .ok records) (options : TableOptions) :
    (∀ tx ∈ txs, Transforms crates options tx) ∧
      ∀ table, options.enables table = true →
        (txs.flatMap fun tx => enabledRows crates options tx table) =
          records.flatMap fun r => tableRows r table := by
  constructor
  · intro tx htx
    obtain ⟨r, hr⟩ := Outcome.exists_of_tryMap_mem h htx
    exact transforms_of_extractRecords hr options
  · intro table henabled
    refine Outcome.flatMap_eq_of_tryMap h fun tx r hr => ?_
    rw [enabledRows, if_pos henabled, extractRecords_rows hr]

/-- On a stream that delivers the versions of the range in non-empty responses, a run publishes in
every enabled table the rows of `extractRecords` on each transaction, in order, with their
timestamps. Neither the responses nor what follows the range make a difference. -/
theorem extractRange_of_versions {crates : Crates} {start «end» : UInt64}
    {tableOptions : Option TableOptions} {txs beyond : List Input.Transaction}
    {responses : List (List Input.Transaction)} {records : List Rows.Records}
    (rest : List (Except Status (List Input.Transaction))) (hle : start ≤ «end»)
    (hversions : txs.map (fun tx => tx.version.toNat) =
      List.range' start.toNat («end».toNat - start.toNat + 1))
    (hrecords : Outcome.tryMap (extractRecords crates) txs = .ok records)
    (hne : ∀ response ∈ responses, response ≠ [])
    (hresponses : responses.flatten = txs ++ beyond) :
    extractRange crates start «end» tableOptions (.ok (responses.map .ok ++ rest)) =
      .ok (publishRows (tableOptions.getD .newAll) (rangeName start «end») fun table =>
        records.flatMap fun r => tableRows r table) := by
  obtain ⟨init, last, rfl, hlast, hinit⟩ := exists_last_of_versions hle hversions
  have hreads : reads start «end» (responses.map .ok ++ rest) = (init ++ [last], .Reached) :=
    scan_of_flatten rest hne (by simpa using hresponses) hlast hinit
  obtain ⟨htransforms, hrows⟩ := transforms_and_rows hrecords (tableOptions.getD .newAll)
  rw [extractRange_eq_ok tableOptions hle, hreads]
  exact ⟨htransforms, .inr ⟨rfl, publishRows_congr fun table henabled =>
    (hrows table henabled).symm⟩⟩

/-- A state checkpoint, which has a transaction row and no other. -/
def sampleCheckpoint (version : UInt64) : Input.Transaction where
  timestamp := some ⟨0, 0⟩
  version := version
  info := some {
    hash := []
    state_change_hash := []
    event_root_hash := []
    state_checkpoint_hash := none
    gas_used := 0
    success := true
    vm_status := ""
    accumulator_root_hash := []
    changes := [] }
  epoch := 0
  block_height := 0
  type := .known .StateCheckpoint
  txn_data := some .StateCheckpoint

/-- Two versions in two responses, the second of which goes beyond the range. -/
theorem extractRange_of_versions_sample :
    ∃ records, Outcome.tryMap (extractRecords sampleCrates)
        [sampleCheckpoint 4, sampleCheckpoint 5] = .ok records ∧
      extractRange sampleCrates 4 5 none
          (.ok [.ok [sampleCheckpoint 4], .ok [sampleCheckpoint 5, sampleCheckpoint 6]]) =
        .ok (publishRows .newAll "4_5" fun table =>
          records.flatMap fun r => tableRows r table) := by
  obtain ⟨records, hrecords⟩ : ∃ records, Outcome.tryMap (extractRecords sampleCrates)
      [sampleCheckpoint 4, sampleCheckpoint 5] = .ok records :=
    Outcome.isSome_toOption.1 (by decide)
  have hresponses : [[sampleCheckpoint 4], [sampleCheckpoint 5, sampleCheckpoint 6]].flatten =
      [sampleCheckpoint 4, sampleCheckpoint 5] ++ [sampleCheckpoint 6] := rfl
  exact ⟨records, hrecords, extractRange_of_versions [] (by decide) (by decide) hrecords
    (by simp) hresponses⟩

/-! ## Acknowledged ranges -/

/-- No acknowledged range is lost: when a run returns normally, every version of the range was read
from the stream, and for every enabled table the rows that were handed over with this version are
the rows of the transaction that was read, once. -/
def Lossless (crates : Crates) (start «end» : UInt64) (tableOptions : Option TableOptions)
    (responses : List (Except Status (List Input.Transaction))) : Prop :=
  ∀ calls, extractRange crates start «end» tableOptions (.ok responses) = .ok calls →
    ∀ v, start ≤ v → v ≤ «end» → ∃ tx ∈ (reads start «end» responses).1, tx.version = v ∧
      ∀ table, (tableOptions.getD .newAll).enables table = true →
        (handed table calls).filter (fun row => table.version row = v) = rowsOf crates tx table

/-- The transactions that a stream delivers through the first one with the last version of a range,
as far as it gives no error status before. -/
def deliveredThrough («end» : UInt64)
    (responses : List (Except Status (List Input.Transaction))) : List Input.Transaction :=
  takeThrough (fun tx => tx.version = «end») (beforeFailure responses)

/-- The stream has an error for the run: a transaction through the first one with the last version
does not transform, or none has this version before the stream gives an error status. -/
def StopsOnError (crates : Crates) (options : TableOptions) («end» : UInt64)
    (responses : List (Except Status (List Input.Transaction))) : Prop :=
  (∃ tx ∈ deliveredThrough «end» responses, ¬ Transforms crates options tx) ∨
    (∃ status, .error status ∈ responses) ∧ ∀ tx ∈ beforeFailure responses, tx.version ≠ «end»

/-- The stream delivers the range: of the transactions through the first one with the last version,
every version of the range has one, and others of the same version have no enabled rows. -/
def Delivers (crates : Crates) (options : TableOptions) (start «end» : UInt64)
    (responses : List (Except Status (List Input.Transaction))) : Prop :=
  ∀ v, start ≤ v → v ≤ «end» → ∃ done tx rest,
    deliveredThrough «end» responses = done ++ tx :: rest ∧ tx.version = v ∧
      ∀ tx' ∈ done ++ rest, tx'.version = v → ∀ table, enabledRows crates options tx' table = []

/-- The enabled rows of some transactions, at a version, are those of the transactions of this
version. -/
theorem filter_enabledRows (crates : Crates) (options : TableOptions) (v : UInt64)
    (txs : List Input.Transaction) (table : Table) :
    (txs.flatMap fun tx => enabledRows crates options tx table).filter
        (fun row => table.version row = v) =
      (txs.filter fun tx => tx.version = v).flatMap fun tx =>
        enabledRows crates options tx table := by
  have hversion : ∀ tx, ∀ row ∈ enabledRows crates options tx table,
      table.version row = tx.version := by
    intro tx row hrow
    unfold enabledRows at hrow
    split_ifs at hrow
    · exact rowsOf_version hrow
    · simp at hrow
  induction txs with
  | nil => rfl
  | cons tx txs ih =>
    rw [List.flatMap_cons, List.filter_append, ih]
    by_cases h : tx.version = v
    · rw [List.filter_cons_of_pos (by simpa using h), List.flatMap_cons, List.filter_eq_self.2]
      intro row hrow
      simpa [h] using hversion tx row hrow
    · rw [List.filter_cons_of_neg (by simpa using h), List.filter_eq_nil_iff.2, List.nil_append]
      intro row hrow
      simpa [hversion tx row hrow] using h

/-- Of some transactions, the enabled rows at the version of one of them are its own exactly when
the others at this version have none. -/
theorem flatMap_version_eq_iff {crates : Crates} {options : TableOptions} {v : UInt64}
    {done rest : List Input.Transaction} {tx : Input.Transaction} {table : Table}
    (hversion : tx.version = v) (henabled : options.enables table = true) :
    ((done ++ tx :: rest).filter fun tx => tx.version = v).flatMap
        (fun tx => enabledRows crates options tx table) = rowsOf crates tx table ↔
      ∀ tx' ∈ done ++ rest, tx'.version = v → enabledRows crates options tx' table = [] := by
  have hown : enabledRows crates options tx table = rowsOf crates tx table := if_pos henabled
  rw [List.filter_append, List.filter_cons_of_pos (by simpa using hversion), ← hown,
    flatMap_append_cons_eq_iff, ← List.filter_append]
  simp only [List.mem_filter, decide_eq_true_eq, and_imp]

/-- The rows handed over at a version, once the end of the range was reached. -/
theorem handed_version (crates : Crates) {options : TableOptions} (name : String)
    (txs : List Input.Transaction) (v : UInt64) {table : Table}
    (henabled : options.enables table = true) :
    (handed table (publishRows options name fun table =>
      txs.flatMap fun tx => enabledRows crates options tx table)).filter
        (fun row => table.version row = v) =
      (txs.filter fun tx => tx.version = v).flatMap fun tx =>
        enabledRows crates options tx table := by
  rw [handed_publishRows, if_pos henabled, filter_enabledRows]

/-- A run on a single version whose first response is empty is acknowledged without having read
anything. -/
theorem not_lossless_of_startsEmpty {crates : Crates} {version : UInt64}
    {tableOptions : Option TableOptions}
    {responses : List (Except Status (List Input.Transaction))} (h : StartsEmpty responses) :
    ¬ Lossless crates version version tableOptions responses := by
  have hle := UInt64.le_refl version
  have hreads : reads version version responses = ([], .Reached) := scan_of_startsEmpty h
  have hnone : ∀ tx ∈ (reads version version responses).1,
      Transforms crates (tableOptions.getD .newAll) tx := by
    rw [hreads]
    exact fun tx htx => absurd htx List.not_mem_nil
  have hrun := (extractRange_eq_ok tableOptions hle).2 ⟨hnone, .inr ⟨by rw [hreads], rfl⟩⟩
  intro hlossless
  obtain ⟨tx, htx, -⟩ := hlossless _ hrun version hle hle
  rw [hreads] at htx
  exact absurd htx List.not_mem_nil

section Read

variable {crates : Crates} {start «end» : UInt64} {tableOptions : Option TableOptions}
  {responses : List (Except Status (List Input.Transaction))}

/-- Except on a single version with an empty first response, the loop reads what the stream
delivers. -/
theorem reads_fst (hfirst : start = «end» → ¬ StartsEmpty responses) :
    (reads start «end» responses).1 = deliveredThrough «end» responses :=
  scan_fst hfirst

/-- A stream has an error for such a run exactly when its loop has. -/
theorem stopsOnError_iff {options : TableOptions}
    (hfirst : start = «end» → ¬ StartsEmpty responses) :
    StopsOnError crates options «end» responses ↔
      (∃ tx ∈ (reads start «end» responses).1, ¬ Transforms crates options tx) ∨
        ∃ status, (reads start «end» responses).2 = .Failed status := by
  rw [StopsOnError, reads_fst hfirst]
  exact or_congr_right (scan_failed_iff hfirst).symm

/-- Such a run that loses nothing, on a stream without an error for it, was delivered its range. -/
theorem delivers_of_lossless (hle : start ≤ «end»)
    (hfirst : start = «end» → ¬ StartsEmpty responses)
    (h : Lossless crates start «end» tableOptions responses)
    (hgoes : ¬ StopsOnError crates (tableOptions.getD .newAll) «end» responses) :
    Delivers crates (tableOptions.getD .newAll) start «end» responses := by
  rw [stopsOnError_iff hfirst] at hgoes
  simp only [not_or, not_exists, not_and, not_not] at hgoes
  obtain ⟨htransforms, hfails⟩ := hgoes
  -- the run returns normally, and by what it promises it reached the end
  have hending : (reads start «end» responses).2 = .Reached := by
    cases hend : (reads start «end» responses).2 with
    | Reached => rfl
    | Failed status => exact absurd hend (hfails status)
    | Exhausted =>
      have hrun := (extractRange_eq_ok tableOptions hle).2 ⟨htransforms, .inl ⟨hend, rfl⟩⟩
      obtain ⟨tx, htx, hversion, -⟩ := h [] hrun «end» hle (UInt64.le_refl _)
      exact hend ▸ scan_reached_of_mem htx hversion
  have hrun := (extractRange_eq_ok tableOptions hle).2 ⟨htransforms, .inr ⟨hending, rfl⟩⟩
  intro v hstart hend
  obtain ⟨tx, htx, hversion, hrows⟩ := h _ hrun v hstart hend
  obtain ⟨done, rest, hsplit⟩ := List.append_of_mem htx
  refine ⟨done, tx, rest, reads_fst hfirst ▸ hsplit, hversion, fun tx' htx' hversion' table => ?_⟩
  cases henabled : (tableOptions.getD .newAll).enables table with
  | false => simp [enabledRows, henabled]
  | true =>
    have hsame := hrows table henabled
    rw [handed_version crates _ _ _ henabled, hsplit] at hsame
    exact (flatMap_version_eq_iff hversion henabled).1 hsame tx' htx' hversion'

/-- A run that is delivered its range loses nothing. -/
theorem lossless_of_delivers (hle : start ≤ «end»)
    (hfirst : start = «end» → ¬ StartsEmpty responses)
    (h : Delivers crates (tableOptions.getD .newAll) start «end» responses) :
    Lossless crates start «end» tableOptions responses := by
  intro calls hrun v hstart hend
  -- the last version was delivered, so the end of the range was reached
  obtain ⟨_, last, _, hlast, hlastVersion, -⟩ := h «end» hle (UInt64.le_refl _)
  have hmem : last ∈ (reads start «end» responses).1 := by simp [reads_fst hfirst, hlast]
  have hreached := scan_reached_of_mem hmem hlastVersion
  obtain ⟨-, ⟨hexhausted, -⟩ | ⟨-, rfl⟩⟩ := (extractRange_eq_ok tableOptions hle).1 hrun
  · exact nomatch hreached.symm.trans hexhausted
  obtain ⟨done, tx, rest, hsplit, hversion, hothers⟩ := h v hstart hend
  rw [← reads_fst hfirst] at hsplit
  refine ⟨tx, by simp [hsplit], hversion, fun table henabled => ?_⟩
  rw [handed_version crates _ _ _ henabled, hsplit]
  exact (flatMap_version_eq_iff hversion henabled).2
    fun tx' htx' hversion' => hothers tx' htx' hversion' table

/-- No acknowledged range is lost exactly when the run is not on a single version with an empty
first response, and every run that is acknowledged was delivered its range: the stream has an error
for it, or delivers every version. -/
theorem lossless_iff (hle : start ≤ «end») :
    Lossless crates start «end» tableOptions responses ↔
      ¬ (start = «end» ∧ StartsEmpty responses) ∧
        (StopsOnError crates (tableOptions.getD .newAll) «end» responses ∨
          Delivers crates (tableOptions.getD .newAll) start «end» responses) := by
  by_cases hempty : start = «end» ∧ StartsEmpty responses
  · obtain ⟨rfl, hempty⟩ := hempty
    exact iff_of_false (not_lossless_of_startsEmpty hempty) fun h => h.1 ⟨rfl, hempty⟩
  rw [and_iff_right hempty]
  have hfirst : start = «end» → ¬ StartsEmpty responses := not_and.1 hempty
  constructor
  · intro h
    by_cases hstops : StopsOnError crates (tableOptions.getD .newAll) «end» responses
    · exact .inl hstops
    · exact .inr (delivers_of_lossless hle hfirst h hstops)
  · rintro (hstops | hdelivers)
    · -- such a run does not return normally
      intro calls hrun
      obtain ⟨htransforms, hending⟩ := (extractRange_eq_ok tableOptions hle).1 hrun
      rcases (stopsOnError_iff hfirst).1 hstops with ⟨tx, htx, hfails⟩ | ⟨status, hfails⟩
      · exact absurd (htransforms tx htx) hfails
      · rcases hending with ⟨hending, -⟩ | ⟨hending, -⟩ <;> simp [hfails] at hending
    · exact lossless_of_delivers hle hfirst hdelivers

end Read

/-- A range of two versions, delivered in two responses. -/
theorem lossless_iff_sample :
    Lossless sampleCrates 4 5 none [.ok [sampleCheckpoint 4], .ok [sampleCheckpoint 5]] ↔
      ¬ ((4 : UInt64) = 5 ∧ StartsEmpty
          [(.ok [sampleCheckpoint 4] : Except Status _), .ok [sampleCheckpoint 5]]) ∧
        (StopsOnError sampleCrates .newAll 5
            [.ok [sampleCheckpoint 4], .ok [sampleCheckpoint 5]] ∨
          Delivers sampleCrates .newAll 4 5
            [.ok [sampleCheckpoint 4], .ok [sampleCheckpoint 5]]) :=
  lossless_iff (by decide)

/-- A stream that ends after the first of two versions loses the range: the run returns normally
and has published nothing. -/
theorem not_lossless_of_early_end :
    ¬ Lossless sampleCrates 4 5 none [.ok [sampleCheckpoint 4]] := by
  intro h
  obtain ⟨tx, htx, hversion, -⟩ := h [] rfl 5 (by decide) (by decide)
  have hread : (reads 4 5 [.ok [sampleCheckpoint 4]]).1 = [sampleCheckpoint 4] := rfl
  rw [hread, List.mem_singleton] at htx
  subst htx
  exact absurd hversion (by decide)

end AptosEtl.Worker
