import AptosEtl.Lib.Aligned
import AptosEtl.Lib.Decimal
import AptosEtl.Output.Gcs
import AptosEtl.Worker.ExtractRange
import Mathlib.Data.List.SplitBy

/-!
# The objects of a batch

What `publish_batch` stores when no upload fails. The timestamps may come in any order, and the
records are cut where the half hour changes: the objects are the maximal runs of records of one half
hour (`Partitions`).

The loop is followed with the records it has passed, of which `prev_i` are stored and the others are
the current run (`Segmented`). The name of a file is computed before `prev_i` moves on, so that a
last run of one record has the file name of the run before it, in another directory.
-/

namespace AptosEtl.Output

open Rust Rows Worker

variable {α : Type}

/-! ## Paths -/

/-- The path of a file in a directory. -/
def path (dir name : String) (k : ℕ) : String := dir ++ "/" ++ filename name k

/-- A path determines the position that it is named after, and the text before that. -/
theorem path_inj {dir dir' name name' : String} {k k' : ℕ}
    (h : path dir name k = path dir' name' k') :
    k = k' ∧ dir ++ "/" ++ name = dir' ++ "/" ++ name' := by
  have hlist := congrArg String.toList h
  simp only [path, filename, String.toList_append] at hlist
  -- before the ending is the position, behind an underscore
  have hstem : (dir ++ "/" ++ name).toList ++ '_' :: (toString k).toList =
      (dir' ++ "/" ++ name').toList ++ '_' :: (toString k').toList := by
    exact List.append_cancel_right (show _ ++ ".jsonl".toList = _ ++ ".jsonl".toList by
      simpa using hlist)
  obtain ⟨htext, hk⟩ := Decimal.append_toString_inj rfl hstem
  exact ⟨hk, String.toList_inj.1 htext⟩

/-- Paths of one name are different when the directories or the positions are. -/
theorem path_ne {dir dir' name : String} {k k' : ℕ} (h : dir ≠ dir' ∨ k ≠ k') :
    path dir name k ≠ path dir' name k' := by
  intro hpath
  obtain ⟨rfl, hdir⟩ := path_inj hpath
  rw [String.append_assoc, String.append_assoc, String.append_left_inj] at hdir
  exact h.elim (fun hne => hne hdir) (fun hne => hne rfl)

/-- Paths whose names are those of different ranges are different. -/
theorem path_ne_of_rangeName {dir dir' : String} {start «end» start' end' : UInt64} {k k' : ℕ}
    (h : (start, «end») ≠ (start', end')) :
    path dir (rangeName start «end») k ≠ path dir' (rangeName start' end') k' := by
  intro hpath
  obtain ⟨-, hname⟩ := path_inj hpath
  -- behind the directory are the two ends, with an underscore between them
  have hnames : dir ++ "/" ++ (toString start.toNat ++ "_" ++ toString «end».toNat) =
      dir' ++ "/" ++ (toString start'.toNat ++ "_" ++ toString end'.toNat) := hname
  have hends : (dir.toList ++ '/' :: (toString start.toNat).toList) ++
        '_' :: (toString «end».toNat).toList =
      (dir'.toList ++ '/' :: (toString start'.toNat).toList) ++
        '_' :: (toString end'.toNat).toList := by
    simpa using congrArg String.toList hnames
  obtain ⟨hfirst, hend⟩ := Decimal.append_toString_inj rfl hends
  obtain ⟨-, hstart⟩ := Decimal.append_toString_inj rfl hfirst
  exact h (Prod.ext (UInt64.toNat_inj.1 hstart) (UInt64.toNat_inj.1 hend))

/-! ## Runs of records -/

/-- The lines of a file. -/
def fileLines (contents : String) : List String :=
  (contents.split '\n').toList.map (·.copy)

/-- Joining records is putting newlines between them. -/
theorem joinRecords_eq_intercalate (records : List String) :
    joinRecords records = "\n".intercalate records := by
  cases records with
  | nil => rfl
  | cons record records =>
    induction records generalizing record with
    | nil => exact String.intercalate_singleton.symm
    | cons next records ih =>
      calc joinRecords (record :: next :: records)
          = joinRecords ((record ++ "\n" ++ next) :: records) := rfl
        _ = "\n".intercalate ((record ++ "\n" ++ next) :: records) := ih _
        _ = "\n".intercalate (record :: next :: records) := by
          rw [String.intercalate_cons_append, String.intercalate_cons_cons]

/-- The lines of a file of records are the records. -/
theorem fileLines_joinRecords {records : List String} (hne : records ≠ [])
    (hlines : ∀ record ∈ records, '\n' ∉ record.toList) :
    fileLines (joinRecords records) = records := by
  rw [fileLines, joinRecords_eq_intercalate]
  exact (String.toList_split_intercalate hlines).trans (if_neg hne)

/-- A record as it is written, with its timestamp. -/
abbrev Item := UnixTimestamp × String

/-- The directory of a record. -/
def directory (crates : GcsCrates α) (item : Item) : String := halfHour crates item.1.seconds

/-- Two records have one directory. -/
def sameDirectory (crates : GcsCrates α) (item item' : Item) : Bool :=
  directory crates item = directory crates item'

/-- An upload holds the records of a run, in the directory of each of them. -/
structure Holds (crates : GcsCrates α) (bucket name : String) (upload : Upload) (run : List Item) :
    Prop where
  bucket : upload.bucket = bucket
  records : upload.concatenated_records = joinRecords (run.map Prod.snd)
  directory : ∀ item ∈ run, ∃ k, upload.file_destination = path (directory crates item) name k

/-- The state of the loop after some records: the ones before `prev_i` are stored in their runs, and
the others are the current run. -/
structure Segmented (crates : GcsCrates α) (bucket name : String) (done : List Item)
    (left : List String) (s : LoopState) : Prop where
  failures : true ∉ s.failures
  records : s.record_strings = (done.drop s.prev_i).map Prod.snd ++ left
  prev_i : s.prev_i ≤ done.length
  stored : List.Forall₂ (Holds crates bucket name) s.uploads
    ((done.take s.prev_i).splitBy (sameDirectory crates))
  numbered : ∀ upload ∈ s.uploads, ∃ dir k, k < s.prev_i ∧
    upload.file_destination = path dir name k
  distinct : (s.uploads.map (·.file_destination)).Nodup
  start : done = [] → s.cur_dir = none
  current : done ≠ [] → s.prev_i < done.length ∧ ∃ dir k, s.cur_dir = some dir ∧
    s.filename = some (filename name k) ∧
    (∀ item ∈ done.drop s.prev_i, directory crates item = dir) ∧
    (∀ item ∈ (done.take s.prev_i).getLast?, directory crates item ≠ dir) ∧
    ∀ upload ∈ s.uploads, upload.file_destination ≠ path dir name k

section Loop

variable {crates : GcsCrates α} {bucket name : String} {done : List Item} {left : List String}
  {s : LoopState} {item : Item}

/-- Where no call fails, the next one does not. -/
theorem failing_eq_zero {failures : List Bool} (h : true ∉ failures) : failing failures = 0 := by
  rcases failures with _ | ⟨_ | _, failures⟩
  · rfl
  · rfl
  · exact absurd List.mem_cons_self h

/-- Before the loop, nothing is passed. -/
theorem segmented_new (crates : GcsCrates α) (bucket name : String) (texts : List String)
    {failures : List Bool} (h : true ∉ failures) :
    Segmented crates bucket name [] texts (.new texts failures) where
  failures := h
  records := rfl
  prev_i := le_refl 0
  stored := .nil
  numbered := by simp [LoopState.new]
  distinct := List.nodup_nil
  start := fun _ => rfl
  current := fun hne => absurd rfl hne

/-- An object of a path of its own keeps the paths distinct. -/
theorem nodup_append_upload {uploads : List Upload} {upload : Upload}
    (h : (uploads.map (·.file_destination)).Nodup)
    (hfresh : ∀ old ∈ uploads, old.file_destination ≠ upload.file_destination) :
    ((uploads ++ [upload]).map (·.file_destination)).Nodup := by
  rw [List.map_append, List.nodup_append]
  refine ⟨h, List.nodup_singleton _, ?_⟩
  intro old hold new hnew
  obtain ⟨upload', hupload', rfl⟩ := List.mem_map.1 hold
  rw [List.mem_singleton.1 hnew]
  exact hfresh upload' hupload'

/-- No object has a file of the index where the current run starts. -/
theorem Segmented.fresh (h : Segmented crates bucket name done left s) (dir : String) :
    ∀ upload ∈ s.uploads, upload.file_destination ≠ path dir name s.prev_i := by
  intro upload hupload
  obtain ⟨dir', k, hk, hpath⟩ := h.numbered upload hupload
  rw [hpath]
  exact path_ne (.inr hk.ne)

/-- A record of the current directory joins the current run. -/
theorem Segmented.extend (h : Segmented crates bucket name done (item.2 :: left) s)
    (hsame : ∀ c ∈ s.cur_dir, c = directory crates item) :
    Segmented crates bucket name (done ++ [item]) left
      { s with
        filename := some (filename name s.prev_i)
        cur_dir := some (directory crates item) } := by
  have htake : (done ++ [item]).take s.prev_i = done.take s.prev_i :=
    List.take_append_of_le_length h.prev_i
  have hdrop : (done ++ [item]).drop s.prev_i = done.drop s.prev_i ++ [item] :=
    List.drop_append_of_le_length h.prev_i
  -- the run before the record is empty or in the directory of the record
  have hrun : (∀ item' ∈ done.drop s.prev_i, directory crates item' = directory crates item) ∧
      ∀ item' ∈ (done.take s.prev_i).getLast?, directory crates item' ≠ directory crates item := by
    by_cases hnil : done = []
    · subst hnil
      simp
    · obtain ⟨-, dir, k, hdir, -, hall, hlast, -⟩ := h.current hnil
      obtain rfl := hsame dir hdir
      exact ⟨hall, hlast⟩
  refine ⟨h.failures, ?_, ?_, ?_, h.numbered, h.distinct, ?_, fun _ => ⟨?_, _, _, rfl, rfl, ?_⟩⟩
  · rw [hdrop, h.records, List.map_append, List.append_assoc]
    rfl
  · rw [List.length_append]
    exact h.prev_i.trans (Nat.le_add_right _ _)
  · rw [htake]
    exact h.stored
  · simp
  · rw [List.length_append]
    exact Nat.lt_succ_of_le h.prev_i
  · rw [hdrop, htake]
    refine ⟨?_, hrun.2, h.fresh _⟩
    intro item' hitem'
    rcases List.mem_append.1 hitem' with hold | hnew
    · exact hrun.1 item' hold
    · rw [List.mem_singleton.1 hnew]

/-- The runs of what is passed are the stored ones and the current one. -/
theorem Segmented.splitBy_eq (h : Segmented crates bucket name done left s) (hnil : done ≠ []) :
    done.splitBy (sameDirectory crates) =
      (done.take s.prev_i).splitBy (sameDirectory crates) ++ [done.drop s.prev_i] := by
  obtain ⟨hlt, dir, k, -, -, hall, hlast, -⟩ := h.current hnil
  have hne : done.drop s.prev_i ≠ [] := by
    rw [Ne, List.drop_eq_nil_iff]
    exact Nat.not_le.2 hlt
  have hchain : (done.drop s.prev_i).IsChain fun x y => sameDirectory crates x y = true := by
    refine (List.pairwise_of_forall_mem_list fun x hx y hy => ?_).isChain
    simp [sameDirectory, hall x hx, hall y hy]
  have hcut : ∀ x ∈ (done.take s.prev_i).getLast?, ∀ y ∈ (done.drop s.prev_i).head?,
      sameDirectory crates x y = false := by
    intro x hx y hy
    have hdir := hall y (List.mem_of_mem_head? hy)
    simpa [sameDirectory, hdir] using hlast x hx
  calc done.splitBy (sameDirectory crates)
      = (done.take s.prev_i ++ done.drop s.prev_i).splitBy (sameDirectory crates) := by
        rw [List.take_append_drop]
    _ = (done.take s.prev_i).splitBy (sameDirectory crates) ++
          (done.drop s.prev_i).splitBy (sameDirectory crates) := List.splitBy_append hcut
    _ = (done.take s.prev_i).splitBy (sameDirectory crates) ++ [done.drop s.prev_i] := by
        rw [List.splitBy_of_isChain hne hchain]

/-- Before a record of another directory, the current run is stored. -/
theorem Segmented.cut (h : Segmented crates bucket name done (item.2 :: left) s) {c : String}
    (hc : s.cur_dir = some c) (hne : c ≠ directory crates item) :
    ∃ upload, uploadDrained bucket (path c name s.prev_i) (done.length - s.prev_i) s.failures
        s.record_strings = .ok (item.2 :: left, s.failures.drop 1, upload) ∧
      Segmented crates bucket name (done ++ [item]) left
        ⟨item.2 :: left, done.length, some (directory crates item), some (filename name s.prev_i),
          s.failures.drop 1, s.uploads ++ [upload]⟩ := by
  have hnil : done ≠ [] := by
    intro hnil
    rw [h.start hnil] at hc
    cases hc
  obtain ⟨hlt, dir, k, hdir, -, hall, hlast, -⟩ := h.current hnil
  obtain rfl : c = dir := Option.some.inj (hc.symm.trans hdir)
  have hlength : (done.drop s.prev_i).length = done.length - s.prev_i := List.length_drop
  have htexts : ((done.drop s.prev_i).map Prod.snd).length = done.length - s.prev_i := by
    rw [List.length_map, hlength]
  have hzero := failing_eq_zero h.failures
  have htake : (done ++ [item]).take done.length = done := List.take_left
  have hdrop : (done ++ [item]).drop done.length = [item] := List.drop_left
  -- the current run is not empty, so the last record is one of it
  have hlast_dir : ∀ item' ∈ done.getLast?, directory crates item' = c := by
    intro item' hitem'
    have hdropped : (done.drop s.prev_i).getLast? = done.getLast? := by
      rw [List.getLast?_drop, if_neg (Nat.not_le.2 hlt)]
    rw [← hdropped] at hitem'
    exact hall item' (List.mem_of_getLast? hitem')
  refine ⟨⟨bucket, path c name s.prev_i, joinRecords ((done.drop s.prev_i).map Prod.snd)⟩, ?_, ?_⟩
  · rw [uploadDrained_eq_ok, failing_eq_zero h.failures, h.records, ← htexts, Nat.zero_add,
      Nat.one_mul, Nat.zero_mul, List.drop_zero, List.drop_left, List.take_left]
    exact ⟨by simp, rfl, rfl, rfl⟩
  · refine ⟨?_, ?_, ?_, ?_, ?_, ?_, ?_, fun _ => ⟨?_, _, _, rfl, rfl, ?_, ?_, ?_⟩⟩
    · exact fun hmem => h.failures (List.mem_of_mem_drop hmem)
    · rw [hdrop]
      rfl
    · rw [List.length_append]
      exact Nat.le_add_right _ _
    · rw [htake, h.splitBy_eq hnil]
      refine List.rel_append h.stored (.cons ⟨rfl, rfl, ?_⟩ .nil)
      intro item' hitem'
      rw [hall item' hitem']
      exact ⟨_, rfl⟩
    · intro upload hupload
      rcases List.mem_append.1 hupload with hold | hnew
      · obtain ⟨dir, k, hk, hpath⟩ := h.numbered upload hold
        exact ⟨dir, k, hk.trans hlt, hpath⟩
      · rw [List.mem_singleton.1 hnew]
        exact ⟨c, s.prev_i, hlt, rfl⟩
    · exact nodup_append_upload h.distinct (h.fresh c)
    · simp
    · simp
    · intro item' hitem'
      rw [hdrop] at hitem'
      rw [List.mem_singleton.1 hitem']
    · intro item' hitem' heq
      rw [htake] at hitem'
      exact hne ((hlast_dir item' hitem').symm.trans heq)
    · intro upload hupload
      rcases List.mem_append.1 hupload with hold | hnew
      · exact h.fresh _ upload hold
      · rw [List.mem_singleton.1 hnew]
        exact path_ne (.inl hne)

/-- One step passes a record. -/
theorem step_segmented (hvalid : crates.timestamp_opt item.1.seconds item.1.nanos = true)
    (h : Segmented crates bucket name done (item.2 :: left) s) :
    ∃ s', step crates bucket name s (item.1, done.length) = .ok s' ∧
      Segmented crates bucket name (done ++ [item]) left s' := by
  by_cases hsame : ∀ c ∈ s.cur_dir, c = directory crates item
  · exact ⟨_, (step_eq_ok hvalid).2 (.inl ⟨hsame, rfl⟩), h.extend hsame⟩
  · push Not at hsame
    obtain ⟨c, hc, hne⟩ := hsame
    obtain ⟨upload, hrun, hsegmented⟩ := h.cut hc hne
    exact ⟨_, (step_eq_ok hvalid).2 (.inr ⟨c, hc, hne, _, _, _, hrun, rfl⟩), hsegmented⟩

/-- The loop passes all records. -/
theorem loop_segmented {rest : List Item}
    (hvalid : ∀ item ∈ rest, crates.timestamp_opt item.1.seconds item.1.nanos = true)
    (h : Segmented crates bucket name done (rest.map Prod.snd) s) :
    ∃ s', Outcome.tryFold (step crates bucket name) s
        ((rest.map Prod.fst).zipIdx done.length) = .ok s' ∧
      Segmented crates bucket name (done ++ rest) [] s' := by
  induction rest generalizing done s with
  | nil => exact ⟨s, rfl, by rw [List.append_nil]; exact h⟩
  | cons item rest ih =>
    obtain ⟨t, hstep, ht⟩ := step_segmented (hvalid item List.mem_cons_self) h
    obtain ⟨s', hloop, hs'⟩ := ih (fun x hx => hvalid x (List.mem_cons_of_mem item hx)) ht
    refine ⟨s', ?_, ?_⟩
    · rw [List.map_cons, List.zipIdx_cons, Outcome.tryFold, hstep, Outcome.ok_bind]
      rw [List.length_append] at hloop
      exact hloop
    · rw [List.append_assoc] at hs'
      exact hs'

/-- The last upload stores the current run, in a file of its own. -/
theorem Segmented.finish (h : Segmented crates bucket name done [] s) (hnil : done ≠ []) :
    ∃ dir file, s.cur_dir = some dir ∧ s.filename = some file ∧
      List.Forall₂ (Holds crates bucket name)
        (s.uploads ++ [(⟨bucket, dir ++ "/" ++ file, joinRecords s.record_strings⟩ : Upload)])
        (done.splitBy (sameDirectory crates)) ∧
      ((s.uploads ++ [(⟨bucket, dir ++ "/" ++ file, joinRecords s.record_strings⟩ : Upload)]).map
        (·.file_destination)).Nodup := by
  obtain ⟨-, dir, k, hdir, hfile, hall, -, hfresh⟩ := h.current hnil
  refine ⟨dir, filename name k, hdir, hfile, ?_, ?_⟩
  · rw [h.splitBy_eq hnil]
    refine List.rel_append h.stored (.cons ⟨rfl, ?_, ?_⟩ .nil)
    · rw [h.records, List.append_nil]
    · intro item hitem
      rw [hall item hitem]
      exact ⟨k, rfl⟩
  · exact nodup_append_upload h.distinct hfresh

end Loop

/-! ## Batches -/

/-- The uploads partition the records: the lines of their contents are the records, in order, cut
into the maximal runs of one directory, each of which is in its directory, and no two of them have
one path. -/
structure Partitions (crates : GcsCrates α) (bucket name : String) (items : List Item)
    (uploads : List Upload) : Prop where
  lines : (uploads.flatMap fun upload => fileLines upload.concatenated_records) =
    items.map Prod.snd
  runs : (uploads.map fun upload => fileLines upload.concatenated_records) =
    (items.splitBy (sameDirectory crates)).map fun run => run.map Prod.snd
  directories : List.Forall₂ (fun upload run => upload.bucket = bucket ∧
      ∀ item ∈ run, ∃ k, upload.file_destination = path (directory crates item) name k)
    uploads (items.splitBy (sameDirectory crates))
  distinct : (uploads.map (·.file_destination)).Nodup

/-- Uploads that hold the runs partition the records, as long as these are single lines. -/
theorem partitions_of_holds {crates : GcsCrates α} {bucket name : String} {items : List Item}
    {uploads : List Upload} (hlines : ∀ item ∈ items, '\n' ∉ item.2.toList)
    (hholds : List.Forall₂ (Holds crates bucket name) uploads
      (items.splitBy (sameDirectory crates)))
    (hdistinct : (uploads.map (·.file_destination)).Nodup) :
    Partitions crates bucket name items uploads := by
  have hruns : (uploads.map fun upload => fileLines upload.concatenated_records) =
      (items.splitBy (sameDirectory crates)).map fun run => run.map Prod.snd := by
    -- no run is empty, and its records are among the records
    have hrecords : ∀ run ∈ items.splitBy (sameDirectory crates),
        run.map Prod.snd ≠ [] ∧ ∀ record ∈ run.map Prod.snd, '\n' ∉ record.toList := by
      intro run hrun
      refine ⟨fun hnil => List.ne_nil_of_mem_splitBy hrun (List.map_eq_nil_iff.1 hnil), ?_⟩
      intro record hrecord
      obtain ⟨item, hitem, rfl⟩ := List.mem_map.1 hrecord
      have hmem : item ∈ (items.splitBy (sameDirectory crates)).flatten :=
        List.mem_flatten.2 ⟨run, hrun, hitem⟩
      rw [List.flatten_splitBy] at hmem
      exact hlines item hmem
    have hboth := (List.forall₂_and_left _ _).2 ⟨hrecords, hholds.flip⟩
    refine (Aligned.map_eq_map (hboth.imp ?_)).symm
    rintro run upload ⟨⟨hne, hnewlines⟩, hupload⟩
    rw [hupload.records, fileLines_joinRecords hne hnewlines]
  refine ⟨?_, hruns, hholds.imp fun _ _ h => ⟨h.bucket, h.directory⟩, hdistinct⟩
  rw [List.flatMap_def, hruns, ← List.map_flatten, List.flatten_splitBy]

/-- What a step has uploaded, and what it names a file, is of the name of the batch. -/
theorem step_named {crates : GcsCrates α} {bucket name : String} {s s' : LoopState}
    {item : UnixTimestamp × ℕ} (hstep : step crates bucket name s item = .ok s')
    (huploads : ∀ upload ∈ s.uploads, ∃ dir k, upload.file_destination = path dir name k) :
    (∀ upload ∈ s'.uploads, ∃ dir k, upload.file_destination = path dir name k) ∧
      ∀ file ∈ s'.filename, ∃ k, file = filename name k := by
  have hvalid : crates.timestamp_opt item.1.seconds item.1.nanos = true := by
    by_contra hinvalid
    simp [step, directoryDestination, hinvalid] at hstep
  rcases (step_eq_ok hvalid).1 hstep with ⟨-, rfl⟩ | ⟨c, -, -, rest, left, upload, hrun, rfl⟩
  · refine ⟨huploads, ?_⟩
    rintro file ⟨⟩
    exact ⟨s.prev_i, rfl⟩
  · obtain ⟨-, -, -, rfl⟩ := uploadDrained_eq_ok.1 hrun
    refine ⟨?_, ?_⟩
    · intro upload hupload
      rcases List.mem_append.1 hupload with hold | hnew
      · exact huploads upload hold
      · rw [List.mem_singleton.1 hnew]
        exact ⟨c, s.prev_i, rfl⟩
    · rintro file ⟨⟩
      exact ⟨s.prev_i, rfl⟩

/-- The uploads of a batch have paths of its name, whether or not calls of it fail. -/
theorem exists_path_of_publishBatch {crates : GcsCrates α} {bucket name : String}
    {timestamps : List UnixTimestamp} {msg_batch : List α} {failures : List Bool}
    {uploads : List Upload}
    (h : publishBatch crates bucket name timestamps msg_batch failures = .ok uploads) :
    ∀ upload ∈ uploads, ∃ dir k, upload.file_destination = path dir name k := by
  by_cases hlength : timestamps.length = msg_batch.length
  · by_cases hnil : timestamps = []
    · rw [publishBatch, if_neg (not_not.2 hlength), if_pos hnil] at h
      obtain rfl := Outcome.ok.inj h
      exact fun upload hupload => absurd hupload List.not_mem_nil
    · obtain ⟨records, s, cur_dir, file, -, hloop, -, hfile, rfl⟩ :=
        (publishBatch_eq_ok hnil hlength).1 h
      obtain ⟨huploads, hnamed⟩ := Outcome.tryFold_induct
        (P := fun _ s => (∀ upload ∈ s.uploads, ∃ dir k,
          upload.file_destination = path dir name k) ∧ ∀ file ∈ s.filename, ∃ k,
            file = filename name k)
        hloop (by simp [LoopState.new]) fun _ _ _ _ ht hstep => step_named hstep ht.1
      obtain ⟨k, rfl⟩ := hnamed file hfile
      intro upload hupload
      rcases List.mem_append.1 hupload with hold | hnew
      · exact huploads upload hold
      · rw [List.mem_singleton.1 hnew]
        exact ⟨cur_dir, k, rfl⟩
  · rw [publishBatch, if_pos hlength] at h
    cases h

/-- No upload of one list overwrites an upload of the other. -/
def DisjointPaths (uploads uploads' : List Upload) : Prop :=
  ∀ upload ∈ uploads, ∀ upload' ∈ uploads', upload.file_destination ≠ upload'.file_destination

/-- Where no upload fails, a batch is partitioned into its maximal runs of one half hour, each in
its directory, and no object of a batch of another range overwrites an object of it. -/
theorem publishBatch_partitions {crates : GcsCrates α} {bucket name : String}
    {timestamps : List UnixTimestamp} {msg_batch : List α} {texts : List String}
    {failures : List Bool} (hlength : timestamps.length = msg_batch.length)
    (hvalid : ∀ ts ∈ timestamps, crates.timestamp_opt ts.seconds ts.nanos = true)
    (htexts : msg_batch.map crates.to_string = texts.map some)
    (hlines : ∀ text ∈ texts, '\n' ∉ text.toList) (hsucceed : true ∉ failures) :
    ∃ uploads, publishBatch crates bucket name timestamps msg_batch failures = .ok uploads ∧
      Partitions crates bucket name (timestamps.zip texts) uploads ∧
      ∀ start «end» start' end' : UInt64, name = rangeName start «end» →
        (start, «end») ≠ (start', end') →
          ∀ {β : Type} (crates' : GcsCrates β) (bucket' : String)
            (timestamps' : List UnixTimestamp) (msg_batch' : List β) (failures' : List Bool)
            (uploads' : List Upload), publishBatch crates' bucket' (rangeName start' end')
              timestamps' msg_batch' failures' = .ok uploads' → DisjointPaths uploads uploads' := by
  have hcount : texts.length = timestamps.length := by
    have hmap := congrArg List.length htexts
    rw [List.length_map, List.length_map] at hmap
    rw [hlength, hmap]
  have hrecords : recordStrings crates msg_batch = .ok texts := by
    refine Outcome.tryMap_eq_ok.2 ?_
    rw [← List.forall₂_eq_eq_eq, List.forall₂_map_left_iff, List.forall₂_map_right_iff] at htexts
    exact htexts.imp fun _ _ h => Outcome.expect_eq_ok.2 h
  set items := timestamps.zip texts with hitems
  have hfst : items.map Prod.fst = timestamps := List.map_fst_zip hcount.ge
  have hsnd : items.map Prod.snd = texts := List.map_snd_zip hcount.le
  obtain ⟨uploads, hrun, hpartitions⟩ : ∃ uploads,
      publishBatch crates bucket name timestamps msg_batch failures = .ok uploads ∧
        Partitions crates bucket name items uploads := by
    by_cases hnil : timestamps = []
    · have hitems_nil : items = [] := by rw [hitems, hnil, List.zip_nil_left]
      refine ⟨[], ?_, ?_⟩
      · rw [publishBatch, if_neg (not_not.2 hlength), if_pos hnil]
      · rw [hitems_nil]
        exact partitions_of_holds (by simp) .nil List.nodup_nil
    · have hne : items ≠ [] := fun hitems_nil => hnil (by rw [← hfst, hitems_nil, List.map_nil])
      have hstart : Segmented crates bucket name [] (items.map Prod.snd) (.new texts failures) := by
        rw [hsnd]
        exact segmented_new crates bucket name texts hsucceed
      obtain ⟨s, hloop, hs⟩ := loop_segmented (fun item hitem =>
        hvalid item.1 (List.of_mem_zip hitem).1) hstart
      obtain ⟨dir, file, hdir, hfile, hholds, hdistinct⟩ := hs.finish hne
      rw [hfst] at hloop
      exact ⟨_, (publishBatch_eq_ok hnil hlength).2
          ⟨texts, s, dir, file, hrecords, hloop, hdir, hfile, rfl⟩,
        partitions_of_holds (fun item hitem => hlines item.2 (List.of_mem_zip hitem).2) hholds
          hdistinct⟩
  refine ⟨uploads, hrun, hpartitions, ?_⟩
  rintro start «end» start' end' rfl hne β crates' bucket' timestamps' msg_batch' failures' uploads'
    hrun' upload hupload upload' hupload'
  obtain ⟨dir, k, hpath⟩ := exists_path_of_publishBatch hrun upload hupload
  obtain ⟨dir', k', hpath'⟩ := exists_path_of_publishBatch hrun' upload' hupload'
  rw [hpath, hpath']
  exact path_ne_of_rangeName hne

/-- Timestamps that go back to an earlier half hour. -/
def sampleTimestamps : List UnixTimestamp := [⟨1800, 0⟩, ⟨0, 0⟩, ⟨1800, 0⟩]

/-- The texts of three records. -/
def sampleTexts : List String :=
  ["\x7b\"tx_version\":1\x7d", "\x7b\"tx_version\":2\x7d", "\x7b\"tx_version\":3\x7d"]

/-- A batch of three runs is partitioned. -/
theorem publishBatch_partitions_sample :
    ∃ uploads, publishBatch sampleGcs "bucket" "1_3" sampleTimestamps [1, 2, 3] [] = .ok uploads ∧
      Partitions sampleGcs "bucket" "1_3" (sampleTimestamps.zip sampleTexts) uploads := by
  have hlength : sampleTimestamps.length = [1, 2, 3].length := rfl
  have hvalid : ∀ ts ∈ sampleTimestamps, sampleGcs.timestamp_opt ts.seconds ts.nanos = true := by
    decide
  have htexts : [1, 2, 3].map sampleGcs.to_string = sampleTexts.map some := rfl
  have hlines : ∀ text ∈ sampleTexts, '\n' ∉ text.toList := by decide
  obtain ⟨uploads, hrun, hpartitions, -⟩ :=
    publishBatch_partitions hlength hvalid htexts hlines List.not_mem_nil
  exact ⟨uploads, hrun, hpartitions⟩

end AptosEtl.Output
