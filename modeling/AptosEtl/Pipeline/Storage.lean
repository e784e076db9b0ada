import AptosEtl.Lib.LastWrite
import AptosEtl.Loader.HourlyLoad
import AptosEtl.Output.Objects

/-!
# From the bucket to the warehouse

The objects that `publish_batch` uploads, and the hourly load that picks them up by the names of
their directories. The uploads come in any order, from any number of workers, and a range that is
delivered again is uploaded again; its objects have the same names, so that they replace what was
there.

`finalRows_of_batches` is about both sides of the bucket: the first run of an hour that completes
after the batches of some ranges are stored leaves in the final table the records of these batches
that are of the hour, each once.
-/

namespace AptosEtl.Pipeline

open Rust Rows Worker Output Loader Delimited

/-! ## Source objects -/

/-- The minutes that a directory is named after. -/
def minuteOf : Half → String
  | .zero => "0"
  | .thirty => "30"

/-- `{BLOCK_DATE}/{BLOCK_HOUR}/0/` and the same with `30`. -/
def sourcePrefix (strftime : ℤ → String) (h : Hour) (half : Half) : String :=
  strftime h.date ++ "/" ++ toString (h.hour : ℕ) ++ "/" ++ minuteOf half ++ "/"

/-- The name of an object matches a source object, which is a prefix and `*.jsonl`. -/
def Matches (strftime : ℤ → String) (h : Hour) (half : Half) (name : String) : Prop :=
  (sourcePrefix strftime h half).toList <+: name.toList ∧ ".jsonl".toList <:+ name.toList

/-- The hour of a time in seconds. -/
def hourAt (seconds : ℤ) : Hour :=
  ⟨seconds / 86400, ⟨(seconds / 3600 % 24).toNat, by omega⟩⟩

/-- The half of the hour. -/
def halfAt (seconds : ℤ) : Half := if seconds / 60 % 60 < 30 then .zero else .thirty

/-- Dates are written without a slash, each day in its own way. -/
structure DateFormat (strftime : ℤ → String) : Prop where
  injective : Function.Injective strftime
  no_slash : ∀ day, '/' ∉ (strftime day).toList

variable {α : Type} {crates : GcsCrates α}

/-- The directory of a time is the prefix of its source object. -/
theorem halfHour_eq (seconds : ℤ) :
    halfHour crates seconds ++ "/" =
      sourcePrefix crates.date_naive (hourAt seconds) (halfAt seconds) := by
  have hhour : toString (seconds / 3600 % 24) = toString (seconds / 3600 % 24).toNat := by
    obtain ⟨n, hn⟩ := Int.eq_ofNat_of_zero_le (show 0 ≤ seconds / 3600 % 24 by omega)
    rw [hn]
    rfl
  have hminute : (if seconds / 60 % 60 < 30 then "0" else "30") = minuteOf (halfAt seconds) := by
    rw [halfAt]
    split_ifs <;> rfl
  simp only [halfHour, hhour, hminute, sourcePrefix, hourAt, String.intercalate_cons_cons,
    String.intercalate_singleton, String.append_assoc]

/-- The parts of a prefix are determined by it, whatever comes after it. -/
theorem sourcePrefix_inj {strftime : ℤ → String} (hformat : DateFormat strftime) {h h' : Hour}
    {half half' : Half} {rest rest' : List Char}
    (heq : (sourcePrefix strftime h half).toList ++ rest =
      (sourcePrefix strftime h' half').toList ++ rest') : h = h' ∧ half = half' := by
  have hdate : ∀ day, Word (· = '/') (strftime day).toList := by
    rintro day c hc rfl
    exact hformat.no_slash day hc
  have hhour : ∀ n : ℕ, Word (· = '/') (toString n).toList := by
    rintro n c hc rfl
    exact absurd (Decimal.isDigit_of_mem_toString hc) (by decide)
  have hminute : ∀ half, Word (· = '/') (minuteOf half).toList := by
    intro half
    cases half <;> simp [Word, minuteOf]
  -- the three words of the prefix, one after the other
  have hparts : ∀ (h : Hour) (half : Half) (rest : List Char),
      (sourcePrefix strftime h half).toList ++ rest = (strftime h.date).toList ++
        '/' :: ((toString (h.hour : ℕ)).toList ++
          '/' :: ((minuteOf half).toList ++ '/' :: rest)) := by
    intro h half rest
    simp [sourcePrefix]
  rw [hparts, hparts] at heq
  obtain ⟨hdates, -, heq⟩ := (hdate _).append_cons_inj (hdate _) rfl rfl heq
  obtain ⟨hhours, -, heq⟩ := (hhour _).append_cons_inj (hhour _) rfl rfl heq
  obtain ⟨hminutes, -, -⟩ := (hminute _).append_cons_inj (hminute _) rfl rfl heq
  constructor
  · have hday : h.date = h'.date := hformat.injective (String.toList_inj.1 hdates)
    have hhourOf : h.hour = h'.hour :=
      Fin.ext (Decimal.toString_nat_injective (String.toList_inj.1 hhours))
    cases h
    cases h'
    rw [Hour.mk.injEq]
    exact ⟨hday, hhourOf⟩
  · cases half <;> cases half' <;> simp [minuteOf] at hminutes ⊢

/-- A file of the directory of a time matches the source objects of its hour and half, and no
other. -/
theorem matches_path_iff (hformat : DateFormat crates.date_naive) {seconds : ℤ} {name : String}
    {k : ℕ} {h : Hour} {half : Half} :
    Matches crates.date_naive h half (path (halfHour crates seconds) name k) ↔
      hourAt seconds = h ∧ halfAt seconds = half := by
  have hpath : (path (halfHour crates seconds) name k).toList =
      (sourcePrefix crates.date_naive (hourAt seconds) (halfAt seconds)).toList ++
        (filename name k).toList := by
    rw [← halfHour_eq, path, String.toList_append]
  constructor
  · rintro ⟨⟨rest, hrest⟩, -⟩
    rw [hpath] at hrest
    obtain ⟨rfl, rfl⟩ := sourcePrefix_inj hformat hrest
    exact ⟨rfl, rfl⟩
  · rintro ⟨rfl, rfl⟩
    refine ⟨⟨_, hpath.symm⟩, ?_⟩
    rw [hpath, filename, String.toList_append, ← List.append_assoc]
    exact List.suffix_append _ _

/-! ## Batches -/

/-- A batch of one table: the range that it is named after, the timestamps and the records. -/
structure Batch (α : Type) where
  start : UInt64
  «end» : UInt64
  timestamps : List UnixTimestamp
  records : List α

/-- The uploads of a batch, of which no call fails. -/
def Batch.uploads (crates : GcsCrates α) (bucket : String) (b : Batch α) : List Upload :=
  match publishBatch crates bucket (rangeName b.start b.end) b.timestamps b.records [] with
  | .ok uploads => uploads
  | _ => []

/-- How the load reads a line of an object, and the timestamp of a row in microseconds. -/
structure LoadCrates (α : Type) where
  read : String → Option α
  block_timestamp : α → Option ℤ

/-- A record is written on one line, from which the load reads it back, and has the time of its
timestamp, which is one of `chrono`'s. -/
structure Loads (crates : GcsCrates α) (load : LoadCrates α) (ts : UnixTimestamp) (record : α) :
    Prop where
  valid : crates.timestamp_opt ts.seconds ts.nanos = true
  reads : ∃ text, crates.to_string record = some text ∧ '\n' ∉ text.toList ∧
    load.read text = some record
  time : ∃ timestamp, load.block_timestamp record = some timestamp ∧
    timestamp / 1000000 = ts.seconds

/-- The records of a batch go with its timestamps. -/
def Batch.Proper (crates : GcsCrates α) (load : LoadCrates α) (b : Batch α) : Prop :=
  List.Forall₂ (Loads crates load) b.timestamps b.records

/-- The object that the load finds for an upload. -/
structure IsObject (strftime : ℤ → String) (read : String → Option α) (upload : Upload)
    (object : Object α) : Prop where
  matches_iff : ∀ h half, Matches strftime h half upload.file_destination ↔
    object.hour = h ∧ object.half = half
  records : (fileLines upload.concatenated_records).map read = object.records.map some

/-- A time is in an hour when its seconds are. -/
theorem holds_inHour_iff {timestamp seconds : ℤ} (hseconds : timestamp / 1000000 = seconds)
    {h : Hour} : (inHour h (some timestamp)).Holds ↔ hourAt seconds = h := by
  rw [holds_inHour]
  have hdate : dateOf timestamp = seconds / 86400 := by
    rw [dateOf]
    omega
  have hhour : hourOf timestamp = seconds / 3600 % 24 := by
    rw [hourOf]
    omega
  constructor
  · rintro ⟨_, ⟨⟩, hday, hhours⟩
    rw [hdate] at hday
    rw [hhour] at hhours
    cases h with
    | mk date hour =>
      rw [hourAt, Hour.mk.injEq]
      have hhours : seconds / 3600 % 24 = ((hour : ℕ) : ℤ) := hhours
      have hval : (seconds / 3600 % 24).toNat = (hour : ℕ) := by omega
      exact ⟨hday, Fin.ext hval⟩
  · rintro rfl
    refine ⟨_, rfl, hdate, ?_⟩
    rw [hhour, hourAt]
    have hnonneg : 0 ≤ seconds / 3600 % 24 := by omega
    exact (Int.toNat_of_nonneg hnonneg).symm

/-- A line of a batch, with its timestamp, and the record that the load reads from it. -/
structure Reads (crates : GcsCrates α) (load : LoadCrates α) (item : Item) (record : α) : Prop where
  valid : crates.timestamp_opt item.1.seconds item.1.nanos = true
  line : '\n' ∉ item.2.toList
  read : load.read item.2 = some record
  hour : ∀ h, (inHour h (load.block_timestamp record)).Holds ↔ hourAt item.1.seconds = h

/-- The lines that records are written on. -/
theorem exists_items {load : LoadCrates α} {timestamps : List UnixTimestamp} {records : List α}
    (h : List.Forall₂ (Loads crates load) timestamps records) :
    ∃ texts, List.Forall₂ (fun record text => crates.to_string record = some text) records texts ∧
      List.Forall₂ (Reads crates load) (timestamps.zip texts) records := by
  induction h with
  | nil => exact ⟨[], .nil, .nil⟩
  | @cons ts record timestamps records hloads _ ih =>
    obtain ⟨texts, htexts, hitems⟩ := ih
    obtain ⟨text, htext, hline, hread⟩ := hloads.reads
    obtain ⟨timestamp, htimestamp, hseconds⟩ := hloads.time
    have hreads : Reads crates load (ts, text) record := by
      refine ⟨hloads.valid, hline, hread, fun h => ?_⟩
      rw [htimestamp]
      exact holds_inHour_iff hseconds
    exact ⟨text :: texts, .cons htext htexts, .cons hreads hitems⟩

variable {load : LoadCrates α} {bucket name : String}

variable (bucket) in
/-- A batch whose records can be loaded is uploaded in runs of one directory, in files of their own,
and its lines go with its records. -/
theorem Batch.Proper.holds {b : Batch α} (h : b.Proper crates load) :
    publishBatch crates bucket (rangeName b.start b.end) b.timestamps b.records [] =
        .ok (b.uploads crates bucket) ∧
      ∃ items, List.Forall₂ (Reads crates load) items b.records ∧
        List.Forall₂ (Holds crates bucket (rangeName b.start b.end)) (b.uploads crates bucket)
          (items.splitBy (sameDirectory crates)) ∧
        ((b.uploads crates bucket).map (·.file_destination)).Nodup := by
  obtain ⟨texts, htexts, hreads⟩ := exists_items h
  have hlength : b.timestamps.length = b.records.length := List.Forall₂.length_eq h
  have hcount : texts.length = b.timestamps.length := by rw [hlength, htexts.length_eq]
  have hrecords : recordStrings crates b.records = .ok texts :=
    Outcome.tryMap_eq_ok.2 (htexts.imp fun _ _ htext => Outcome.expect_eq_ok.2 htext)
  set items := b.timestamps.zip texts with hitems
  have hfst : items.map Prod.fst = b.timestamps := List.map_fst_zip hcount.ge
  have hsnd : items.map Prod.snd = texts := List.map_snd_zip hcount.le
  suffices hrun : ∃ uploads, publishBatch crates bucket (rangeName b.start b.end) b.timestamps
      b.records [] = .ok uploads ∧
        List.Forall₂ (Holds crates bucket (rangeName b.start b.end)) uploads
          (items.splitBy (sameDirectory crates)) ∧
        (uploads.map (·.file_destination)).Nodup by
    obtain ⟨uploads, hrun, hholds, hdistinct⟩ := hrun
    have huploads : b.uploads crates bucket = uploads := by rw [Batch.uploads, hrun]
    rw [huploads]
    exact ⟨hrun, items, hreads, hholds, hdistinct⟩
  by_cases hnil : b.timestamps = []
  · have hitems_nil : items = [] := by rw [hitems, hnil, List.zip_nil_left]
    refine ⟨[], ?_, ?_, List.nodup_nil⟩
    · rw [publishBatch, if_neg (not_not.2 hlength), if_pos hnil]
    · rw [hitems_nil]
      exact .nil
  · have hne : items ≠ [] := fun hitems_nil => hnil (by rw [← hfst, hitems_nil, List.map_nil])
    have hstart : Segmented crates bucket (rangeName b.start b.end) [] (items.map Prod.snd)
        (.new texts []) := by
      rw [hsnd]
      exact segmented_new crates bucket _ texts List.not_mem_nil
    obtain ⟨s, hloop, hs⟩ := loop_segmented (fun item hitem => by
      obtain ⟨record, -, hitem⟩ := Aligned.exists_of_mem_right hreads.flip hitem
      exact hitem.valid) hstart
    obtain ⟨dir, file, hdir, hfile, hholds, hdistinct⟩ := hs.finish hne
    rw [hfst] at hloop
    exact ⟨_, (publishBatch_eq_ok hnil hlength).2
      ⟨texts, s, dir, file, hrecords, hloop, hdir, hfile, rfl⟩, hholds, hdistinct⟩

/-! ## Objects -/

/-- The load reads the object of a run of lines, all of which are of its hour. -/
structure RunObject (load : LoadCrates α) (run : List Item) (object : Object α) : Prop where
  hour : ∀ item ∈ run, hourAt item.1.seconds = object.hour
  records : object.records = run.filterMap fun item => load.read item.2

/-- What is read of lines that can all be read. -/
theorem map_some_filterMap {β γ : Type} {f : β → Option γ} {xs : List β}
    (h : ∀ x ∈ xs, ∃ y, f x = some y) : (xs.filterMap f).map some = xs.map f := by
  induction xs with
  | nil => rfl
  | cons x xs ih =>
    obtain ⟨⟨y, hy⟩, hrest⟩ := List.forall_mem_cons.1 h
    rw [List.filterMap_cons_some hy, List.map_cons, List.map_cons, ih hrest, hy]

/-- The upload of a run is found as an object. -/
theorem exists_object (hformat : DateFormat crates.date_naive) {upload : Upload} {run : List Item}
    (hholds : Holds crates bucket name upload run) (hne : run ≠ [])
    (hreads : ∀ item ∈ run, ∃ record, Reads crates load item record) :
    ∃ object, IsObject crates.date_naive load.read upload object ∧ RunObject load run object := by
  obtain ⟨first, hfirst⟩ := List.exists_mem_of_ne_nil _ hne
  have hmatches : ∀ item ∈ run, ∀ h half,
      Matches crates.date_naive h half upload.file_destination ↔
        hourAt item.1.seconds = h ∧ halfAt item.1.seconds = half := by
    intro item hitem h half
    obtain ⟨k, hpath⟩ := hholds.directory item hitem
    rw [hpath]
    exact matches_path_iff hformat
  refine ⟨⟨hourAt first.1.seconds, halfAt first.1.seconds,
    run.filterMap fun item => load.read item.2⟩, ⟨hmatches first hfirst, ?_⟩, ⟨?_, rfl⟩⟩
  · have hlines : ∀ text ∈ run.map Prod.snd, '\n' ∉ text.toList := by
      intro text htext
      obtain ⟨item, hitem, rfl⟩ := List.mem_map.1 htext
      obtain ⟨record, hrecord⟩ := hreads item hitem
      exact hrecord.line
    have htexts : run.map Prod.snd ≠ [] := fun hnil => hne (List.map_eq_nil_iff.1 hnil)
    rw [hholds.records, fileLines_joinRecords htexts hlines, map_some_filterMap, List.map_map]
    · rfl
    · intro item hitem
      obtain ⟨record, hrecord⟩ := hreads item hitem
      exact ⟨record, hrecord.read⟩
  · intro item hitem
    -- the name of the upload matches the hour of each of its lines
    exact ((hmatches item hitem _ _).1 ((hmatches first hfirst _ _).2 ⟨rfl, rfl⟩)).1

/-- The records under the prefixes of an hour are those of the objects of the hour. -/
theorem storedRecords_eq (h : Hour) (objects : List (Object α)) :
    storedRecords h objects =
      (objects.filter fun object => object.hour = h).flatMap Object.records := by
  rw [storedRecords]
  congr 1
  exact List.filter_congr fun object _ => decide_eq_decide.2 mem_sourceObjects_iff

/-- The records under the prefixes of an hour, in two lists of objects. -/
theorem storedRecords_append_objects (h : Hour) (objects objects' : List (Object α)) :
    storedRecords h (objects ++ objects') =
      storedRecords h objects ++ storedRecords h objects' := by
  rw [storedRecords, List.filter_append, List.flatMap_append]
  rfl

/-- The records of an hour in the objects of runs are those that are read from the lines of the
hour. -/
theorem storedRecords_of_runs {runs : List (List Item)} {objects : List (Object α)}
    (hruns : List.Forall₂ (RunObject load) runs objects) (h : Hour) :
    storedRecords h objects =
      (runs.flatten.filter fun item => hourAt item.1.seconds = h).filterMap
        fun item => load.read item.2 := by
  rw [storedRecords_eq]
  induction hruns with
  | nil => rfl
  | @cons run object runs objects hrun _ ih =>
    rw [List.flatten_cons, List.filter_append, List.filterMap_append, ← ih]
    by_cases hhour : object.hour = h
    · have hall : run.filter (fun item => hourAt item.1.seconds = h) = run :=
        List.filter_eq_self.2 fun item hitem => decide_eq_true ((hrun.hour item hitem).trans hhour)
      rw [List.filter_cons, if_pos (decide_eq_true hhour), List.flatMap_cons, hall, hrun.records]
    · have hnone : run.filter (fun item => hourAt item.1.seconds = h) = [] := by
        refine List.filter_eq_nil_iff.2 fun item hitem => ?_
        rw [hrun.hour item hitem]
        simpa using hhour
      rw [List.filter_cons, if_neg (by simpa using hhour), hnone]
      rfl

/-- The records of an hour that are read from lines. -/
theorem filterMap_of_reads {items : List Item} {records : List α}
    (hreads : List.Forall₂ (Reads crates load) items records) (h : Hour) :
    (items.filter fun item => hourAt item.1.seconds = h).filterMap (fun item => load.read item.2) =
      rowsIn load.block_timestamp h records := by
  rw [rowsIn, Sql.filter]
  induction hreads with
  | nil => rfl
  | @cons item record items records hread _ ih =>
    have hiff := hread.hour h
    by_cases hhour : hourAt item.1.seconds = h
    · have hholds := hiff.2 hhour
      simp only [List.filter_cons, hhour, hholds, decide_true, if_true, List.filterMap_cons,
        hread.read, ih]
    · have hholds : ¬ (inHour h (load.block_timestamp record)).Holds :=
        fun hin => hhour (hiff.1 hin)
      rw [List.filter_cons, if_neg (by simpa using hhour), ih, List.filter_cons,
        if_neg (by simpa using hholds)]

/-- The objects of a batch: the load finds in them the records of the batch, by their hours. -/
theorem Batch.Proper.exists_objects (hformat : DateFormat crates.date_naive) {b : Batch α}
    (h : b.Proper crates load) :
    ∃ objects, List.Forall₂ (IsObject crates.date_naive load.read) (b.uploads crates bucket)
        objects ∧
      ∀ hour, storedRecords hour objects = rowsIn load.block_timestamp hour b.records := by
  obtain ⟨-, items, hreads, hholds, -⟩ := h.holds bucket
  have hitems : ∀ run ∈ items.splitBy (sameDirectory crates), run ≠ [] ∧
      ∀ item ∈ run, ∃ record, Reads crates load item record := by
    intro run hrun
    refine ⟨List.ne_nil_of_mem_splitBy hrun, fun item hitem => ?_⟩
    have hmem : item ∈ (items.splitBy (sameDirectory crates)).flatten :=
      List.mem_flatten.2 ⟨run, hrun, hitem⟩
    rw [List.flatten_splitBy] at hmem
    obtain ⟨record, -, hread⟩ := Aligned.exists_of_mem_right hreads.flip hmem
    exact ⟨record, hread⟩
  -- one object for each upload and its run
  have hboth : ∀ {uploads runs}, List.Forall₂ (Holds crates bucket (rangeName b.start b.end))
      uploads runs → (∀ run ∈ runs, run ≠ [] ∧ ∀ item ∈ run, ∃ record,
        Reads crates load item record) → ∃ objects,
          List.Forall₂ (IsObject crates.date_naive load.read) uploads objects ∧
            List.Forall₂ (RunObject load) runs objects := by
    intro uploads runs hholds
    induction hholds with
    | nil => exact fun _ => ⟨[], .nil, .nil⟩
    | cons hupload _ ih =>
      intro hruns
      obtain ⟨⟨hne, hrun⟩, hrest⟩ := List.forall_mem_cons.1 hruns
      obtain ⟨object, hobject, hrunObject⟩ := exists_object hformat hupload hne hrun
      obtain ⟨objects, hobjects, hrunObjects⟩ := ih hrest
      exact ⟨object :: objects, .cons hobject hobjects, .cons hrunObject hrunObjects⟩
  obtain ⟨objects, hobjects, hruns⟩ := hboth hholds hitems
  refine ⟨objects, hobjects, fun hour => ?_⟩
  rw [storedRecords_of_runs hruns, List.flatten_splitBy, filterMap_of_reads hreads]

/-- The objects of some batches. -/
theorem exists_objects_of_batches (hformat : DateFormat crates.date_naive)
    {batches : List (Batch α)} (hproper : ∀ b ∈ batches, b.Proper crates load) :
    ∃ objects, List.Forall₂ (IsObject crates.date_naive load.read)
        (batches.flatMap (Batch.uploads crates bucket)) objects ∧
      ∀ hour, storedRecords hour objects =
        rowsIn load.block_timestamp hour (batches.flatMap Batch.records) := by
  induction batches with
  | nil => exact ⟨[], .nil, fun hour => rfl⟩
  | cons b batches ih =>
    obtain ⟨hb, hrest⟩ := List.forall_mem_cons.1 hproper
    obtain ⟨first, hfirst, hrecords⟩ := hb.exists_objects hformat
    obtain ⟨rest, hobjects, hrestRecords⟩ := ih hrest
    refine ⟨first ++ rest, List.rel_append hfirst hobjects, fun hour => ?_⟩
    rw [storedRecords_append_objects, hrecords, hrestRecords, List.flatMap_cons]
    exact (Sql.filter_append _ _ _).symm

/-- The files of batches of different ranges are different. -/
theorem nodup_uploads {batches : List (Batch α)}
    (hproper : ∀ b ∈ batches, b.Proper crates load)
    (hranges : batches.Pairwise fun b b' => (b.start, b.end) ≠ (b'.start, b'.end)) :
    ((batches.flatMap (Batch.uploads crates bucket)).map (·.file_destination)).Nodup := by
  induction batches with
  | nil => exact List.nodup_nil
  | cons b batches ih =>
    obtain ⟨hb, hrest⟩ := List.forall_mem_cons.1 hproper
    obtain ⟨hnew, hranges⟩ := List.pairwise_cons.1 hranges
    obtain ⟨hrun, -, -, -, hdistinct⟩ := hb.holds bucket
    rw [List.flatMap_cons, List.map_append]
    refine List.nodup_append.2 ⟨hdistinct, ih hrest hranges, ?_⟩
    rintro name hname name' hname' rfl
    obtain ⟨upload, hupload, rfl⟩ := List.mem_map.1 hname
    obtain ⟨upload', hupload', hsame⟩ := List.mem_map.1 hname'
    obtain ⟨b', hb', hupload'⟩ := List.mem_flatMap.1 hupload'
    obtain ⟨hrun', -⟩ := (hrest b' hb').holds bucket
    obtain ⟨dir, k, hpath⟩ := exists_path_of_publishBatch hrun upload hupload
    obtain ⟨dir', k', hpath'⟩ := exists_path_of_publishBatch hrun' upload' hupload'
    rw [hpath, hpath'] at hsame
    exact path_ne_of_rangeName (hnew b' hb') hsame.symm

/-! ## The bucket -/

/-- The objects in a bucket: of several uploads with one name, the last. -/
def bucketListing (bucket : String) (uploads : List Upload) : List Upload :=
  LastWrite.listing (·.file_destination) (uploads.filter (·.bucket = bucket))

/-- What is listed is stored. -/
theorem stored_of_mem_bucketListing {uploads : List Upload} {upload : Upload}
    (h : upload ∈ bucketListing bucket uploads) :
    stored uploads bucket upload.file_destination = some upload.concatenated_records := by
  have hcurrent := LastWrite.mem_listing.1 h
  rw [LastWrite.current, ← List.filter_reverse, List.find?_filter] at hcurrent
  rw [stored]
  simp only [Bool.decide_and, decide_eq_true_eq] at hcurrent
  rw [hcurrent, Option.map_some]

/-- All uploads of a batch are to its bucket. -/
theorem Batch.Proper.bucket_eq {b : Batch α} (h : b.Proper crates load) {upload : Upload}
    (hupload : upload ∈ b.uploads crates bucket) : upload.bucket = bucket := by
  obtain ⟨-, items, -, hholds, -⟩ := h.holds bucket
  obtain ⟨run, -, hrun⟩ := Aligned.exists_of_mem_right hholds.flip hupload
  exact hrun.bucket

/-- Batches that are uploaded in any order and any number of times leave their objects, each
once. -/
theorem bucketListing_perm {batches : List (Batch α)} {uploads : List Upload}
    (hproper : ∀ b ∈ batches, b.Proper crates load)
    (hranges : batches.Pairwise fun b b' => (b.start, b.end) ≠ (b'.start, b'.end))
    (huploads : ∀ upload, upload ∈ uploads ∧ upload.bucket = bucket ↔
      ∃ b ∈ batches, upload ∈ b.uploads crates bucket) :
    (bucketListing bucket uploads).Perm (batches.flatMap (Batch.uploads crates bucket)) := by
  refine LastWrite.listing_perm (nodup_uploads hproper hranges) fun upload => ?_
  rw [List.mem_filter, decide_eq_true_iff, huploads, List.mem_flatMap]

/-! ## The final table -/

/-- The objects that an event uploads. -/
def uploadedBy : Loader.Event α → List (Object α)
  | .upload object => [object]
  | _ => []

/-- The objects that are uploaded in a history. -/
def uploaded (history : List (Loader.Event α)) : List (Object α) := history.flatMap uploadedBy

/-- An event adds the records of its objects to the ledger of an hour. -/
theorem stored_step (h : Hour) (l : Loader.Ledger α) (event : Loader.Event α) :
    (l.step h event).stored = l.stored ++ storedRecords h (uploadedBy event) := by
  cases event with
  | upload object =>
    have hobject := storedRecords_append (h := h) [] object
    rw [List.nil_append] at hobject
    rw [Loader.Ledger.step, uploadedBy, hobject]
    split_ifs
    · rfl
    · exact (List.append_nil _).symm
  | start h' => exact (List.append_nil _).symm
  | remove h' attempt =>
    rw [Loader.Ledger.step]
    split_ifs <;> exact (List.append_nil _).symm
  | load h' attempt =>
    rw [Loader.Ledger.step]
    split_ifs <;> exact (List.append_nil _).symm
  | guard h' attempt => exact (List.append_nil _).symm
  | insert h' attempt =>
    rw [Loader.Ledger.step]
    split_ifs <;> exact (List.append_nil _).symm

/-- The ledger of an hour knows the records of the objects that were uploaded. -/
theorem stored_ledger (h : Hour) (history : List (Loader.Event α)) :
    (Loader.ledger h history).stored = storedRecords h (uploaded history) := by
  have hfold : ∀ l : Loader.Ledger α, (history.foldl (Loader.Ledger.step h) l).stored =
      l.stored ++ storedRecords h (uploaded history) := by
    induction history with
    | nil => exact fun l => (List.append_nil _).symm
    | cons event history ih =>
      intro l
      rw [List.foldl_cons, ih, stored_step, List.append_assoc, ← storedRecords_append_objects]
      rfl
  exact hfold ⟨[], [], none⟩

/-- An event that belongs to no attempt of a task of the hour with an effect on its rows. -/
def Idle (block_timestamp : α → Option ℤ) (h : Hour) : Loader.Event α → Prop
  | .upload object => object.Proper block_timestamp
  | .start _ => True
  | .remove h' attempt => h' = h → attempt = .failed
  | .load h' attempt => h' = h → attempt = .failed
  | .guard _ _ => True
  | .insert h' attempt => h' = h → attempt = .failed

/-- Such an event leaves what was loaded for the hour, and what was copied. -/
theorem ledger_of_idle {block_timestamp : α → Option ℤ} {h : Hour} {l : Loader.Ledger α}
    {event : Loader.Event α} (hidle : Idle block_timestamp h event) :
    (l.step h event).loaded = l.loaded ∧ (l.step h event).copied = l.copied := by
  have hnone : ∀ {h' attempt}, (h' = h → attempt = .failed) →
      ¬ (h' = h ∧ Attempt.Effective attempt) :=
    fun hfailed heffective => heffective.2 (hfailed heffective.1)
  cases event with
  | upload object =>
    rw [Loader.Ledger.step]
    split_ifs <;> exact ⟨rfl, rfl⟩
  | start h' => exact ⟨rfl, rfl⟩
  | remove h' attempt =>
    rw [Loader.Ledger.step, if_neg (hnone hidle)]
    exact ⟨rfl, rfl⟩
  | load h' attempt =>
    rw [Loader.Ledger.step, if_neg (hnone hidle)]
    exact ⟨rfl, rfl⟩
  | guard h' attempt => exact ⟨rfl, rfl⟩
  | insert h' attempt =>
    rw [Loader.Ledger.step, if_neg fun heffective => hnone hidle ⟨heffective.1, heffective.2.1⟩]
    exact ⟨rfl, rfl⟩

/-- So do some of them. -/
theorem ledger_of_all_idle {block_timestamp : α → Option ℤ} {h : Hour} {l : Loader.Ledger α}
    {events : List (Loader.Event α)} (hidle : ∀ event ∈ events, Idle block_timestamp h event) :
    (events.foldl (Loader.Ledger.step h) l).loaded = l.loaded ∧
      (events.foldl (Loader.Ledger.step h) l).copied = l.copied := by
  induction events generalizing l with
  | nil => exact ⟨rfl, rfl⟩
  | cons event events ih =>
    obtain ⟨hevent, hrest⟩ := List.forall_mem_cons.1 hidle
    obtain ⟨hloaded, hcopied⟩ := ledger_of_idle (l := l) hevent
    rw [List.foldl_cons, (ih hrest).1, (ih hrest).2]
    exact ⟨hloaded, hcopied⟩

/-- The uploads of an idle time are of the right records. -/
theorem properHistory_of_idle {block_timestamp : α → Option ℤ} {h : Hour}
    {events : List (Loader.Event α)} (hidle : ∀ event ∈ events, Idle block_timestamp h event) :
    ProperHistory block_timestamp events := fun _ hobject => hidle _ hobject

/-- The first load of an hour that has an effect: after the copy that follows it, the final table
has the records of the hour that were stored before the load. -/
theorem finalRows_of_load {block_timestamp : α → Option ℤ} {h : Hour}
    {before middle : List (Loader.Event α)} {s : Loader.State α}
    (hbefore : ProperHistory block_timestamp before)
    (hloaded : (Loader.ledger h before).loaded = [])
    (hcopied : (Loader.ledger h before).copied = none)
    (hidle : ∀ event ∈ middle, Idle block_timestamp h event)
    (hrun : Machine.run (Loader.step block_timestamp) .new
      (before ++ .load h .done :: middle ++ [.insert h .done]) = some s) :
    rowsIn block_timestamp h s.final = storedRecords h (uploaded before) := by
  have hproper : ProperHistory block_timestamp
      (before ++ .load h .done :: middle ++ [.insert h .done]) := by
    intro object hobject
    simp only [List.mem_append, List.mem_cons, reduceCtorEq, false_or, List.not_mem_nil,
      or_false] at hobject
    rcases hobject with hobject | hobject
    · exact hbefore object hobject
    · exact properHistory_of_idle hidle object hobject
  have hload : (Loader.ledger h before).step h (.load h .done) =
      ⟨storedRecords h (uploaded before), [storedRecords h (uploaded before)], none⟩ := by
    have heffective : h = h ∧ Attempt.Effective .done := ⟨rfl, by decide⟩
    rw [Loader.Ledger.step, if_pos heffective, hloaded, hcopied, stored_ledger]
    rfl
  have hledger : Loader.ledger h (before ++ .load h .done :: middle) =
      middle.foldl (Loader.Ledger.step h) ⟨storedRecords h (uploaded before),
        [storedRecords h (uploaded before)], none⟩ := by
    rw [Loader.ledger, List.foldl_append, ← Loader.ledger, List.foldl_cons, hload]
  obtain ⟨hmiddle, hmiddleCopied⟩ := ledger_of_all_idle hidle
  rw [finalRows_eq hproper hrun, copied_append_insert, hledger, hmiddle, hmiddleCopied,
    Option.getD_none, List.flatten_cons, List.flatten_nil, List.append_nil]

/-- The batches of some ranges are uploaded, in any order and any number of times. The load then
finds one object for each file that they leave, and in these objects the records of the batches, by
their hours. -/
theorem exists_objects_of_uploads (hformat : DateFormat crates.date_naive)
    {batches : List (Batch α)} {uploads : List Upload}
    (hproper : ∀ b ∈ batches, b.Proper crates load)
    (hranges : batches.Pairwise fun b b' => (b.start, b.end) ≠ (b'.start, b'.end))
    (huploads : ∀ upload, upload ∈ uploads ∧ upload.bucket = bucket ↔
      ∃ b ∈ batches, upload ∈ b.uploads crates bucket) :
    ∃ objects, List.Forall₂ (IsObject crates.date_naive load.read) (bucketListing bucket uploads)
        objects ∧
      ∀ hour, (storedRecords hour objects).Perm
        (rowsIn load.block_timestamp hour (batches.flatMap Batch.records)) := by
  obtain ⟨ordered, hordered, hrecords⟩ := exists_objects_of_batches hformat hproper
  -- the listing has the files of the batches in another order
  obtain ⟨objects, hobjects, hperm⟩ :=
    List.perm_comp_forall₂ (bucketListing_perm hproper hranges huploads) hordered
  refine ⟨objects, hobjects, fun hour => ?_⟩
  rw [← hrecords hour, storedRecords, storedRecords]
  exact (hperm.filter _).flatMap_right _

/-- Objects that have the rows of the hours under their prefixes are proper. -/
theorem proper_of_stored {block_timestamp : α → Option ℤ} {objects : List (Object α)}
    {records : List α}
    (h : ∀ hour, (storedRecords hour objects).Perm (rowsIn block_timestamp hour records)) :
    ∀ object ∈ objects, object.Proper block_timestamp := by
  intro object hobject record hrecord
  -- the record is under the prefixes of the hour of its object
  have hstored : record ∈ storedRecords object.hour objects := by
    rw [storedRecords_eq]
    exact List.mem_flatMap.2 ⟨object, List.mem_filter.2 ⟨hobject, decide_eq_true rfl⟩, hrecord⟩
  exact (Sql.mem_filter.1 ((h object.hour).mem_iff.1 hstored)).2

/-- The objects that are uploaded are those of the events. -/
theorem mem_uploaded {history : List (Loader.Event α)} {object : Object α} :
    object ∈ uploaded history ↔ .upload object ∈ history := by
  rw [uploaded, List.mem_flatMap]
  constructor
  · rintro ⟨event, hevent, hobject⟩
    cases event with
    | upload object' =>
      obtain rfl := List.mem_singleton.1 hobject
      exact hevent
    | _ => cases hobject
  · exact fun hevent => ⟨_, hevent, List.mem_singleton_self object⟩

/-- The batches of some ranges are uploaded, in any order and any number of times. The load then
finds one object for each file that they leave, and where it loads these for the first time for an
hour, the copy that follows leaves in the final table the records of the batches that are of the
hour, each once. -/
theorem finalRows_of_batches (hformat : DateFormat crates.date_naive) {batches : List (Batch α)}
    {uploads : List Upload} (hproper : ∀ b ∈ batches, b.Proper crates load)
    (hranges : batches.Pairwise fun b b' => (b.start, b.end) ≠ (b'.start, b'.end))
    (huploads : ∀ upload, upload ∈ uploads ∧ upload.bucket = bucket ↔
      ∃ b ∈ batches, upload ∈ b.uploads crates bucket) :
    ∃ objects, List.Forall₂ (IsObject crates.date_naive load.read) (bucketListing bucket uploads)
        objects ∧
      ∀ h before middle s, (uploaded before).Perm objects →
        (Loader.ledger h before).loaded = [] → (Loader.ledger h before).copied = none →
        (∀ event ∈ middle, Idle load.block_timestamp h event) →
        Machine.run (Loader.step load.block_timestamp) .new
            (before ++ .load h .done :: middle ++ [.insert h .done]) = some s →
          (rowsIn load.block_timestamp h s.final).Perm
            (rowsIn load.block_timestamp h (batches.flatMap Batch.records)) := by
  obtain ⟨objects, hobjects, hrecords⟩ :=
    exists_objects_of_uploads hformat hproper hranges huploads
  refine ⟨objects, hobjects, fun h before middle s hbefore hloaded hcopied hidle hrun => ?_⟩
  have hbeforeProper : ProperHistory load.block_timestamp before := fun object hobject =>
    proper_of_stored hrecords object (hbefore.mem_iff.1 (mem_uploaded.2 hobject))
  rw [finalRows_of_load hbeforeProper hloaded hcopied hidle hrun]
  refine List.Perm.trans ?_ (hrecords h)
  rw [storedRecords, storedRecords]
  exact (hbefore.filter _).flatMap_right _

/-- The date of the first day, and texts that are different for the other days. -/
def sampleDate (day : ℤ) : String :=
  "1970-01-01" ++
    String.ofList (List.replicate (if 0 ≤ day then 2 * day else -2 * day - 1).toNat '+')

/-- Records that are versions, and dates. -/
def sampleStorage : GcsCrates ℕ := { sampleGcs with date_naive := sampleDate }

/-- The load reads versions, of which the second is of the first half hour. -/
def sampleLoad : LoadCrates ℕ where
  read text := [1, 2, 3].find? fun version => sampleStorage.to_string version = some text
  block_timestamp version := some (if version = 2 then 0 else 1800000000)

/-- A batch of three versions. -/
def sampleBatch : Batch ℕ := ⟨1, 3, sampleTimestamps, [1, 2, 3]⟩

/-- The dates of the sample are different. -/
theorem dateFormat_sampleDate : DateFormat sampleDate := by
  constructor
  case injective =>
    intro day day' h
    have hlength := congrArg (fun text => text.toList.length) h
    simp only [sampleDate, String.toList_append, String.toList_ofList, List.length_append,
      List.length_replicate] at hlength
    split_ifs at hlength <;> omega
  case no_slash =>
    intro day
    simp [sampleDate]

/-- The sample batch can be loaded. -/
theorem proper_sampleBatch : sampleBatch.Proper sampleStorage sampleLoad := by
  have hloads : ∀ (seconds : ℤ) (version : ℕ), (version, seconds) ∈ [(1, 1800), (2, 0), (3, 1800)] →
      Loads sampleStorage sampleLoad ⟨seconds, 0⟩ version := by
    intro seconds version hmem
    simp only [List.mem_cons, Prod.mk.injEq, List.not_mem_nil, or_false] at hmem
    rcases hmem with ⟨rfl, rfl⟩ | ⟨rfl, rfl⟩ | ⟨rfl, rfl⟩ <;>
      exact ⟨by decide, ⟨_, rfl, by decide, by decide⟩, ⟨_, rfl, by decide⟩⟩
  exact .cons (hloads 1800 1 (by decide)) (.cons (hloads 0 2 (by decide))
    (.cons (hloads 1800 3 (by decide)) .nil))

/-- Some objects are uploaded, and a run of the first hour removes what there is. -/
def sampleUploads (objects : List (Object ℕ)) : List (Loader.Event ℕ) :=
  objects.map .upload ++ [.start sampleHour, .remove sampleHour .done]

/-- What is left of the run after its load, up to the copy. -/
def sampleGuard : List (Loader.Event ℕ) := [.guard sampleHour .done]

/-- The batch is uploaded twice, loaded and copied. -/
theorem finalRows_of_batches_sample : ∃ (objects : List (Object ℕ)) (s : Loader.State ℕ),
    Machine.run (Loader.step sampleLoad.block_timestamp) .new
      (sampleUploads objects ++ .load sampleHour .done :: sampleGuard ++
        [.insert sampleHour .done]) = some s ∧
      (rowsIn sampleLoad.block_timestamp sampleHour s.final).Perm [1, 2, 3] := by
  have huploads : ∀ upload, upload ∈ sampleBatch.uploads sampleStorage "bucket" ++
        sampleBatch.uploads sampleStorage "bucket" ∧ upload.bucket = "bucket" ↔
      ∃ b ∈ [sampleBatch], upload ∈ b.uploads sampleStorage "bucket" := by
    intro upload
    simp only [List.mem_append, or_self, List.mem_singleton, exists_eq_left, and_iff_left_iff_imp]
    exact proper_sampleBatch.bucket_eq
  have hformat : DateFormat sampleStorage.date_naive := dateFormat_sampleDate
  have hproper : ∀ b ∈ [sampleBatch], b.Proper sampleStorage sampleLoad := by
    intro b hb
    rw [List.mem_singleton.1 hb]
    exact proper_sampleBatch
  obtain ⟨objects, -, hload⟩ :=
    finalRows_of_batches hformat hproper (List.pairwise_singleton _ _) huploads
  have hrun : ∀ (objects : List (Object ℕ)) (s : Loader.State ℕ),
      Machine.run (Loader.step sampleLoad.block_timestamp) s (objects.map .upload) =
        some { s with bucket := s.bucket ++ objects } := by
    intro objects
    induction objects with
    | nil => exact fun s => by simp [Machine.run]
    | cons object objects ih =>
      intro s
      have hrest := ih { s with bucket := s.bucket ++ [object] }
      rw [List.append_assoc, List.singleton_append] at hrest
      exact hrest
  have huploaded : uploaded (sampleUploads objects) = objects := by
    simp [sampleUploads, uploaded, uploadedBy, List.flatMap_map]
  have hcopied : ∀ (objects : List (Object ℕ)) (l : Loader.Ledger ℕ),
      ((objects.map .upload).foldl (Loader.Ledger.step sampleHour) l).copied = l.copied := by
    intro objects
    induction objects with
    | nil => exact fun l => rfl
    | cons object objects ih =>
      intro l
      rw [List.map_cons, List.foldl_cons, ih, Loader.Ledger.step]
      split_ifs <;> rfl
  obtain ⟨s, hs⟩ : ∃ s, Machine.run (Loader.step sampleLoad.block_timestamp) .new
      (sampleUploads objects ++ .load sampleHour .done :: sampleGuard ++
        [.insert sampleHour .done]) = some s := by
    rw [Machine.run_append, Machine.run_append, sampleUploads, Machine.run_append, hrun]
    exact ⟨_, rfl⟩
  refine ⟨objects, s, hs, hload _ _ _ s (by rw [huploaded]) ?_ ?_ ?_ hs⟩
  · rw [Loader.ledger, sampleUploads, List.foldl_append]
    rfl
  · rw [Loader.ledger, sampleUploads, List.foldl_append]
    exact hcopied objects ⟨[], [], none⟩
  · simp [Idle, sampleGuard]

end AptosEtl.Pipeline
