import AptosEtl.Worker.Subscribe

/-!
# The two publishing paths

`transform_txs` and `publish_record_struct` of `aptos_config/mod.rs`, which publish the rows of each
transaction on its own, next to `extract_range`, which publishes the rows of all transactions of its
range at the end.

The two differ in two places. The name of a transaction is there exactly when it is empty, and it
never is, so that nothing is published under the features that need a name. And `transform_txs`
hands on the publisher as it was connected, which panics under the features whose publishers are to
be prepared. So the two paths agree under the two other features, and under these only when there is
nothing to publish (`transformTxs_publishes_iff`).
-/

namespace AptosEtl.Worker

open Rust Input Reps Tables

/-- Under `GOOGLE_CLOUD_STORAGE` it is the batch of the call, if there is one, that is uploaded. -/
theorem publishRecords_of_publications (publishers : GcsPublishers) (call : PublishCall) :
    (publications .GOOGLE_CLOUD_STORAGE call.records call.name call.timestamps = [] ∧
      publishRecords publishers call = .ok ()) ∨
    ∃ outputName, publications .GOOGLE_CLOUD_STORAGE call.records call.name call.timestamps =
        [.Batch (some outputName) (some call.timestamps) call.records] ∧
      publishRecords publishers call =
        (Output.publishBatch (publishers.crates call.table) (publishers.queue_name call.table)
          outputName call.timestamps call.records (publishers.failures call.table)).bind
            fun _ => .ok () := by
  cases hname : call.name with
  | none => exact .inl ⟨rfl, by rw [publishRecords, hname]⟩
  | some outputName => exact .inr ⟨outputName, rfl, by rw [publishRecords, hname]⟩

/-! ## Transforming transactions -/

/-- `Records::get_range`. -/
def getRange (self : Rows.Records) : Outcome RecordsError (Option (UInt64 × UInt64)) :=
  let txVersions := self.transactions.map Rows.Transaction.tx_version
  if self.transactions.isEmpty then
    .ok none
  else
    match txVersions.min?, txVersions.max? with
    | some start, some «end» => .ok (some (start, «end»))
    | none, none => .ok none
    | _, _ => .panic "Somehow had min or max, but not both"

/-- The name under which `transform_txs` publishes records of a range. -/
def transformName (range : Option (UInt64 × UInt64)) : Option String :=
  let nameStr := match range with
    | some (start, «end») => rangeName start «end»
    | none => ""
  -- a name that is empty is kept, and one that is not is dropped
  match nameStr.isEmpty with
  | true => some nameStr
  | false => none

/-- A call that is made for the records of a table if there are any. -/
def publishNonempty (table : Table) (records : List table.Row) (name : Option String) :
    List PublishCall :=
  if records.isEmpty then [] else [⟨table, records, name, records.map table.unixTimestamp⟩]

/-- `publish_record_struct`. -/
def publishRecordStruct (records : Rows.Records) (name : Option String) : List PublishCall :=
  publishNonempty .Blocks records.blocks name ++
  publishNonempty .Transactions records.transactions name ++
  publishNonempty .Signatures records.signatures name ++
  publishNonempty .Events records.events name ++
  publishNonempty .Changes records.changes name ++
  publishNonempty .Resources records.resources name ++
  publishNonempty .TableItems records.table_items name ++
  publishNonempty .Modules records.modules name

section Transform

variable {ω : Type} (crates : Crates) (publisher : Option (PublishCall → Traced ω Empty Unit))

/-- The body of the loop of `transform_txs`. -/
def transformTx (recordsVec : List Rows.Records) (tx : Input.Transaction) :
    Traced ω RecordsError (List Rows.Records) :=
  (Traced.lift (extractRecords crates tx)).bind fun records =>
    let recordsVec := recordsVec ++ [records]
    match publisher with
    | some publish =>
      (Traced.lift (getRange records)).bind fun range =>
        ((publishEach publish (publishRecordStruct records (transformName range))).mapErr
          Empty.elim).bind fun _ => .lift (.ok recordsVec)
    | none => .lift (.ok recordsVec)

/-- `transform_txs` without an output directory, with what it does to a publisher, if it is given
one. -/
def transformTxs (txs : List Input.Transaction) : Traced ω RecordsError (List Rows.Records) :=
  Traced.tryFold (transformTx crates publisher) [] txs

end Transform

/-! ## What reaches the publishers -/

/-- The rows that a call of `publish_records` is for reach the publisher of its table, except under
a feature that needs a name when there is none. -/
theorem received_sends (feature : Feature) (table : Table) (call : PublishCall) :
    received table (sends feature call) =
      if feature.publishWithName = true ∧ call.name = none then [] else handed table [call] := by
  rw [received, sends, List.flatMap_map, handed, List.flatMap_singleton]
  by_cases htable : call.table = table
  · subst htable
    simp only [dif_pos]
    exact rows_publications feature call.records call.name call.timestamps
  · simp [htable]

section Received

variable {feature : Feature} {table : Table} {calls : List PublishCall}

/-- What calls with a name are for reaches the publisher. -/
theorem received_eq_handed
    (h : ∀ call ∈ calls, feature.publishWithName = true → call.name ≠ none) :
    received table (calls.flatMap (sends feature)) = handed table calls := by
  have heach : handed table calls = calls.flatMap fun call => handed table [call] := by
    simp [handed]
  rw [heach, received, List.flatMap_assoc]
  refine List.flatMap_congr fun call hcall => ?_
  exact (received_sends feature table call).trans
    (if_neg fun hnone => h call hcall hnone.1 hnone.2)

/-- Calls without a name reach no publisher that needs one. -/
theorem received_eq_nil (hfeature : feature.publishWithName = true)
    (h : ∀ call ∈ calls, call.name = none) :
    received table (calls.flatMap (sends feature)) = [] := by
  rw [received, List.flatMap_assoc, List.flatMap_eq_nil_iff]
  intro call hcall
  exact (received_sends feature table call).trans (if_pos ⟨hfeature, h call hcall⟩)

end Received

/-- What a call for the records of a table hands over. -/
theorem handed_publishNonempty (table table' : Table) (records : List table'.Row)
    (name : Option String) :
    handed table (publishNonempty table' records name) =
      if h : table' = table then h ▸ records else [] := by
  unfold publishNonempty
  split_ifs with hempty htable htable
  · subst htable
    exact (List.isEmpty_iff.1 hempty).symm
  · rfl
  · simp [handed, htable]
  · simp [handed, htable]

/-- The records are handed over to the publishers of their tables. -/
theorem handed_publishRecordStruct (records : Rows.Records) (name : Option String)
    (table : Table) :
    handed table (publishRecordStruct records name) = tableRows records table := by
  have happend : ∀ calls calls' : List PublishCall,
      handed table (calls ++ calls') = handed table calls ++ handed table calls' :=
    fun calls calls' => List.flatMap_append
  simp only [publishRecordStruct, happend, handed_publishNonempty]
  cases table <;> simp [tableRows]

/-- All calls for some records have the name that is given. -/
theorem name_of_mem_publishRecordStruct {records : Rows.Records} {name : Option String}
    {call : PublishCall} (h : call ∈ publishRecordStruct records name) : call.name = name := by
  have hname : ∀ (table : Table) (rows : List table.Row),
      call ∈ publishNonempty table rows name → call.name = name := by
    intro table rows hcall
    unfold publishNonempty at hcall
    split_ifs at hcall
    · exact absurd hcall List.not_mem_nil
    · rw [List.mem_singleton.1 hcall]
  simp only [publishRecordStruct, List.mem_append] at h
  rcases h with ((((((h | h) | h) | h) | h) | h) | h) | h <;> exact hname _ _ h

/-- A transaction has a first call, and it is for some rows. -/
theorem exists_first_publishRecordStruct {crates : Crates} {tx : Input.Transaction}
    {records : Rows.Records} (name : Option String) (h : extractRecords crates tx = .ok records) :
    ∃ call calls, publishRecordStruct records name = call :: calls ∧ call.records ≠ [] := by
  have hrecords : ∀ call ∈ publishRecordStruct records name, call.records ≠ [] := by
    have htable : ∀ (call : PublishCall) (table : Table) (rows : List table.Row),
        call ∈ publishNonempty table rows name → call.records ≠ [] := by
      intro call table rows hcall
      unfold publishNonempty at hcall
      split_ifs at hcall with hempty
      · exact absurd hcall List.not_mem_nil
      · rw [List.mem_singleton.1 hcall]
        exact fun hnil => hempty (List.isEmpty_iff.2 hnil)
    intro call hcall
    simp only [publishRecordStruct, List.mem_append] at hcall
    rcases hcall with ((((((h | h) | h) | h) | h) | h) | h) | h <;> exact htable _ _ _ h
  have hne : publishRecordStruct records name ≠ [] := by
    -- the transaction has a row in its own table
    obtain ⟨txExtract, block, changes, events, sigs, row, -, rfl⟩ := extractRecords_eq_ok.1 h
    simp [publishRecordStruct, publishNonempty]
  obtain ⟨call, calls, hcalls⟩ := List.exists_cons_of_ne_nil hne
  exact ⟨call, calls, hcalls, hrecords call (hcalls ▸ List.mem_cons_self)⟩

/-! ## The name is dropped -/

/-- A range has a name that is not empty, so it is published without one. -/
theorem transformName_some (range : UInt64 × UInt64) : transformName (some range) = none := by
  have hname : (rangeName range.1 range.2).isEmpty = false := by
    rw [rangeName, String.isEmpty_eq_false_iff]
    intro hempty
    have hlength := congrArg String.length hempty
    simp at hlength
  simp [transformName, hname]

/-- The range of the records of a transaction is its version. -/
theorem getRange_of_extractRecords {crates : Crates} {tx : Input.Transaction}
    {records : Rows.Records} (h : extractRecords crates tx = .ok records) :
    ∃ range, getRange records = .ok (some range) := by
  obtain ⟨txExtract, block, changes, events, sigs, row, -, rfl⟩ := extractRecords_eq_ok.1 h
  exact ⟨(row.tx_version, row.tx_version), rfl⟩

/-- A transaction whose records are extracted is published without a name. -/
theorem transformTx_of_extractRecords {ω : Type} {crates : Crates} {tx : Input.Transaction}
    {records : Rows.Records} (publish : PublishCall → Traced ω Empty Unit)
    (recordsVec : List Rows.Records) (h : extractRecords crates tx = .ok records) :
    transformTx crates (some publish) recordsVec tx =
      ((publishEach publish (publishRecordStruct records none)).mapErr Empty.elim).bind
        fun _ => .lift (.ok (recordsVec ++ [records])) := by
  obtain ⟨range, hrange⟩ := getRange_of_extractRecords h
  simp only [transformTx, h, hrange, Traced.lift_ok_bind, transformName_some]

/-- When all records are extracted, and the publisher returns from every call, the calls are those
for the records, in order and without a name. -/
theorem transformTxs_eq {ω : Type} {crates : Crates} {txs : List Input.Transaction}
    {records : List Rows.Records} {publish : PublishCall → Traced ω Empty Unit}
    {act : PublishCall → List ω}
    (hpublish : ∀ calls, publishEach publish calls = ⟨calls.flatMap act, .ok ()⟩)
    (h : Outcome.tryMap (extractRecords crates) txs = .ok records) :
    transformTxs crates (some publish) txs =
      ⟨(records.flatMap fun r => publishRecordStruct r none).flatMap act, .ok records⟩ := by
  -- by induction on the transactions, whatever has been collected before them
  have hloop : ∀ done, Traced.tryFold (transformTx crates (some publish)) done txs =
      ⟨(records.flatMap fun r => publishRecordStruct r none).flatMap act,
        .ok (done ++ records)⟩ := by
    induction Outcome.tryMap_eq_ok.1 h with
    | nil =>
      intro done
      rw [List.append_nil]
      rfl
    | @cons tx r txs records htx hrest ih =>
      intro done
      have hrest := ih (Outcome.tryMap_eq_ok.2 hrest) (done ++ [r])
      have hstep : transformTx crates (some publish) done tx =
          ⟨(publishRecordStruct r none).flatMap act, .ok (done ++ [r])⟩ := by
        rw [transformTx_of_extractRecords publish done htx, hpublish]
        simp [Traced.mapErr, Traced.bind, Traced.lift]
      rw [Traced.tryFold, hstep, Traced.bind]
      simp only [hrest, List.flatMap_cons, List.flatMap_append, List.append_assoc,
        List.singleton_append]
  exact hloop []

/-! ## The two paths -/

/-- What `extract_range` publishes once it has read some transactions, with all tables enabled. -/
def publishRange (crates : Crates) (start «end» : UInt64) (txs : List Input.Transaction) :
    Outcome ExtractionInteruptionError (List PublishCall) :=
  (Outcome.tryFold (step crates .newAll start «end») ⟨start, .new⟩ txs).bind fun s =>
    .ok (publishAll .newAll s.acc (rangeName start «end»))

section Paths

variable {crates : Crates} {start «end» : UInt64} {txs : List Input.Transaction}

/-- A run that reads the transactions of its range publishes so. -/
theorem extractRange_eq_publishRange (hle : start ≤ «end»)
    {responses : List (Except Status (List Input.Transaction))}
    (h : reads start «end» responses = (txs, .Reached)) :
    extractRange crates start «end» (some .newAll) (.ok responses) =
      publishRange crates start «end» txs := by
  unfold reads at h
  have hlt : ¬ «end» < start := UInt64.not_lt.2 hle
  simp only [extractRange, Option.getD_some, hlt, if_false, pullLoop_eq, h, conclude, publishRange,
    Outcome.bind_assoc, Outcome.ok_bind]

/-- What is published of a range are the rows of its records. -/
theorem publishRange_eq {records : List Rows.Records} (start «end» : UInt64)
    (h : Outcome.tryMap (extractRecords crates) txs = .ok records) :
    publishRange crates start «end» txs = .ok (publishRows .newAll (rangeName start «end»)
      fun table => records.flatMap fun r => tableRows r table) := by
  obtain ⟨htransforms, hrows⟩ := transforms_and_rows h .newAll
  obtain ⟨s, hs⟩ := (steps_eq_ok_iff start «end» ⟨start, .new⟩).2 htransforms
  rw [publishRange, hs, Outcome.ok_bind, publishAll_of_appends (steps_spec hs).2]
  exact congrArg Outcome.ok (publishRows_congr hrows)

/-- What is published of a range reaches the publishers, under every feature. -/
theorem received_publishRows (feature : Feature) (name : String)
    (rows : (table : Table) → List table.Row) (table : Table) :
    received table (publishEach (publishRecordsOn feature (.prepared feature))
      (publishRows .newAll name rows)).actions = rows table := by
  rw [publishEach_of_handle (handle_prepared feature), received_eq_handed, handed_publishRows,
    if_pos (by cases table <;> rfl)]
  intro call hcall _
  obtain ⟨t, -, rfl⟩ := List.mem_map.1 hcall
  exact Option.some_ne_none name

/-- What is published of single transactions reaches the publishers that need no name, and no
other. -/
theorem received_publishRecordStruct (feature : Feature) (records : List Rows.Records)
    (table : Table) :
    received table ((records.flatMap fun r => publishRecordStruct r none).flatMap (sends feature)) =
      if feature.publishWithName then [] else records.flatMap fun r => tableRows r table := by
  have hname : ∀ call ∈ records.flatMap fun r => publishRecordStruct r none, call.name = none := by
    intro call hcall
    obtain ⟨r, -, hcall⟩ := List.mem_flatMap.1 hcall
    exact name_of_mem_publishRecordStruct hcall
  split_ifs with hfeature
  · exact received_eq_nil hfeature hname
  · rw [received_eq_handed fun _ _ h => absurd h hfeature, handed, List.flatMap_assoc]
    exact List.flatMap_congr fun r _ => handed_publishRecordStruct r none table

/-- A publisher that panics is handed nothing of the transactions. -/
theorem actions_transformTxs_of_panic {feature : Feature} {publisher : StreamPublisher}
    {message : String} (h : ∀ table, (publisher table).handle feature = .panic message)
    (txs : List Input.Transaction) :
    (transformTxs crates (some (publishRecordsOn feature publisher)) txs).actions = [] := by
  refine Traced.actions_tryFold_eq_nil (fun recordsVec tx => ?_) [] txs
  refine Traced.actions_bind_eq_nil rfl fun records => ?_
  refine Traced.actions_bind_eq_nil rfl fun range => ?_
  exact Traced.actions_bind_eq_nil (actions_publishEach_of_panic h _) fun _ => rfl

/-- It panics at the first transaction. -/
theorem outcome_transformTxs_of_panic {feature : Feature} {publisher : StreamPublisher}
    {message : String} (hconnected : feature.publishesConnected = false)
    (h : ∀ table, (publisher table).handle feature = .panic message) {tx : Input.Transaction}
    {records : Rows.Records} (hrecords : extractRecords crates tx = .ok records)
    (txs : List Input.Transaction) :
    (transformTxs crates (some (publishRecordsOn feature publisher)) (tx :: txs)).outcome =
      .panic message := by
  obtain ⟨call, calls, hcalls, hne⟩ := exists_first_publishRecordStruct none hrecords
  have hsends : sends feature call ≠ [] := by
    obtain ⟨table, rows, name, timestamps⟩ := call
    cases feature <;> simp_all [sends, publications, Feature.publishWithName,
      Feature.publishesConnected]
  have hfirst : (publishEach (publishRecordsOn feature publisher)
      (publishRecordStruct records none)).outcome = .panic message := by
    rw [hcalls]
    exact publishEach_panics h hsends calls
  rw [transformTxs, Traced.tryFold, Traced.outcome_bind, transformTx_of_extractRecords _ _ hrecords,
    Traced.outcome_bind, Traced.mapErr, hfirst]
  rfl

/-- What reaches a publisher as it was connected: the rows of all transactions, if it needs neither
a name nor to be prepared. -/
theorem received_transformTxs {records : List Rows.Records} (feature : Feature)
    (h : Outcome.tryMap (extractRecords crates) txs = .ok records) (table : Table) :
    received table (transformTxs crates (some (publishRecordsOn feature .new)) txs).actions =
      if feature = .GOOGLE_PUBSUB ∨ feature = .RABBITMQ_STREAM then
        records.flatMap fun r => tableRows r table
      else [] := by
  cases hconnected : feature.publishesConnected with
  | true =>
    have hreturns := publishEach_of_handle (handle_new hconnected)
    rw [transformTxs_eq hreturns h, received_publishRecordStruct]
    cases feature <;> simp_all [Feature.publishWithName, Feature.publishesConnected]
  | false =>
    obtain ⟨message, hpanic⟩ := handle_new_panics hconnected
    rw [actions_transformTxs_of_panic hpanic txs]
    cases feature <;> simp_all [Feature.publishesConnected, received]

/-- On a publisher as it was connected, `transform_txs` returns exactly when it need not be prepared
or there is nothing to publish. -/
theorem outcome_transformTxs_iff {records : List Rows.Records} (feature : Feature)
    (h : Outcome.tryMap (extractRecords crates) txs = .ok records) :
    (transformTxs crates (some (publishRecordsOn feature .new)) txs).outcome = .ok records ↔
      feature.publishesConnected = true ∨ txs = [] := by
  cases hconnected : feature.publishesConnected with
  | true =>
    have hreturns := publishEach_of_handle (handle_new hconnected)
    rw [transformTxs_eq hreturns h]
    exact iff_of_true rfl (.inl rfl)
  | false =>
    obtain ⟨message, hpanic⟩ := handle_new_panics hconnected
    cases txs with
    | nil =>
      obtain rfl := Outcome.ok.inj h
      exact iff_of_true rfl (.inr rfl)
    | cons tx txs =>
      obtain ⟨r, rest, hr, -, rfl⟩ := List.forall₂_cons_left_iff.1 (Outcome.tryMap_eq_ok.1 h)
      rw [outcome_transformTxs_of_panic hconnected hpanic hr txs]
      simp

/-- The two paths agree exactly when the feature needs neither a name nor a publisher that is
prepared, or there is nothing to publish: the rows that reach the publisher of each table from
`transform_txs` are those that reach it from `extract_range` for the same transactions. -/
theorem transformTxs_publishes_iff {records : List Rows.Records} (feature : Feature)
    (start «end» : UInt64) (h : Outcome.tryMap (extractRecords crates) txs = .ok records) :
    ((transformTxs crates (some (publishRecordsOn feature .new)) txs).outcome = .ok records ↔
      feature.publishesConnected = true ∨ txs = []) ∧
      ∃ calls, publishRange crates start «end» txs = .ok calls ∧
        (∀ responses, start ≤ «end» → reads start «end» responses = (txs, .Reached) →
          extractRange crates start «end» (some .newAll) (.ok responses) = .ok calls) ∧
          ((∀ table, received table
              (transformTxs crates (some (publishRecordsOn feature .new)) txs).actions =
            received table
              (publishEach (publishRecordsOn feature (.prepared feature)) calls).actions) ↔
            feature = .GOOGLE_PUBSUB ∨ feature = .RABBITMQ_STREAM ∨ txs = []) := by
  have hrange := publishRange_eq start «end» h
  refine ⟨outcome_transformTxs_iff feature h, _, hrange, fun responses hle hreads => ?_, ?_⟩
  · rw [extractRange_eq_publishRange hle hreads, hrange]
  simp only [received_transformTxs feature h, received_publishRows]
  by_cases hfeature : feature = .GOOGLE_PUBSUB ∨ feature = .RABBITMQ_STREAM
  · exact iff_of_true (fun _ => if_pos hfeature) (or_assoc.1 (.inl hfeature))
  · rw [← or_assoc, or_iff_right hfeature]
    simp only [if_neg hfeature]
    constructor
    · intro hrows
      -- every transaction has a row in its own table
      cases txs with
      | nil => rfl
      | cons tx txs =>
        obtain ⟨r, rest, hr, -, rfl⟩ := List.forall₂_cons_left_iff.1 (Outcome.tryMap_eq_ok.1 h)
        obtain ⟨txExtract, block, changes, events, sigs, row, -, rfl⟩ := extractRecords_eq_ok.1 hr
        exact nomatch hrows .Transactions
    · rintro rfl table
      obtain rfl := Outcome.ok.inj h
      rfl

/-- The range of two checkpoints, published as JSON lines. -/
theorem transformTxs_publishes_iff_sample :
    ∃ records, Outcome.tryMap (extractRecords sampleCrates)
        [sampleCheckpoint 4, sampleCheckpoint 5] = .ok records ∧
      ∃ calls, publishRange sampleCrates 4 5 [sampleCheckpoint 4, sampleCheckpoint 5] =
          .ok calls ∧
        ((∀ table, received table (transformTxs sampleCrates (some (publishRecordsOn .JSONL .new))
            [sampleCheckpoint 4, sampleCheckpoint 5]).actions =
          received table (publishEach (publishRecordsOn .JSONL (.prepared .JSONL)) calls).actions) ↔
            Feature.JSONL = .GOOGLE_PUBSUB ∨ Feature.JSONL = .RABBITMQ_STREAM ∨
              [sampleCheckpoint 4, sampleCheckpoint 5] = []) := by
  obtain ⟨records, hrecords⟩ : ∃ records, Outcome.tryMap (extractRecords sampleCrates)
      [sampleCheckpoint 4, sampleCheckpoint 5] = .ok records :=
    Outcome.isSome_toOption.1 (by decide)
  obtain ⟨-, calls, hcalls, -, hiff⟩ := transformTxs_publishes_iff .JSONL 4 5 hrecords
  exact ⟨records, hrecords, calls, hcalls, hiff⟩

end Paths

/-- The row of a checkpoint is published as JSON by `extract_range`, and not by
`transform_txs`. -/
theorem not_received_transformTxs :
    ¬ ∀ crates feature start «end» txs records responses calls,
      Outcome.tryMap (extractRecords crates) txs = .ok records →
        reads start «end» responses = (txs, .Reached) →
          extractRange crates start «end» (some .newAll) (.ok responses) = .ok calls →
            ∀ table,
              received table
                  (transformTxs crates (some (publishRecordsOn feature .new)) txs).actions =
                received table
                  (publishEach (publishRecordsOn feature (.prepared feature)) calls).actions := by
  intro h
  obtain ⟨records, hrecords⟩ : ∃ records, Outcome.tryMap (extractRecords sampleCrates)
      [sampleCheckpoint 4] = .ok records :=
    Outcome.isSome_toOption.1 (by decide)
  have hreads : reads 4 4 [.ok [sampleCheckpoint 4]] = ([sampleCheckpoint 4], .Reached) := rfl
  have hrange := @extractRange_eq_publishRange sampleCrates 4 4 _ (by decide) _ hreads
  rw [publishRange_eq 4 4 hrecords] at hrange
  have hrows := h sampleCrates .JSON 4 4 _ records _ _ hrecords hreads hrange .Transactions
  rw [received_publishRows, received_transformTxs .JSON hrecords] at hrows
  obtain ⟨r, rest, hr, -, rfl⟩ := List.forall₂_cons_left_iff.1 (Outcome.tryMap_eq_ok.1 hrecords)
  obtain ⟨txExtract, block, changes, events, sigs, row, -, rfl⟩ := extractRecords_eq_ok.1 hr
  exact nomatch hrows

end AptosEtl.Worker
