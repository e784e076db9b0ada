import AptosEtl.Lib.Outcome
import AptosEtl.Proto.Rows
import Mathlib.Tactic.Ring

/-!
# Publishing a batch to Google Cloud Storage

`output/gcs.rs`, `publish_batch`. The records of a batch go to one object for each run of records
whose timestamps fall into the same half hour. The records of a run are drained from the front of
`record_strings` when the directory changes, and the last run is uploaded after the loop. A failed
upload is tried again: after the loop the content is computed once, but inside it the records are
drained again on every attempt.

`retriesTransparent_iff` says exactly which failures leave the stored objects as they are without
failures. The time slept between two attempts has no effect on them and is left out.
-/

namespace AptosEtl.Output

open Rust Rows

variable {α : Type}

/-- What publishing takes from other crates. -/
structure GcsCrates (α : Type) where
  /-- `serde_json::to_string`. -/
  to_string : α → Option String
  /-- `Utc.timestamp_opt` has a single value for these seconds and nanoseconds. -/
  timestamp_opt : ℤ → ℕ → Bool
  /-- `date_naive().to_string()`, of the day with this number. -/
  date_naive : ℤ → String

/-- A successful call of `upload_object`: the bucket, the name of the object and its content. -/
structure Upload where
  bucket : String
  file_destination : String
  concatenated_records : String
  deriving DecidableEq, Repr

/-- The objects that uploads leave in the buckets: of several with one name, the last. -/
def stored (uploads : List Upload) (bucket file_destination : String) : Option String :=
  (uploads.reverse.find? fun upload =>
    upload.bucket = bucket && upload.file_destination = file_destination).map
      (·.concatenated_records)

/-! ## The loop over the timestamps -/

/-- The half hour of a time: the minutes of its hour are below thirty, or not. -/
def halfHour (crates : GcsCrates α) (seconds : ℤ) : String :=
  let date := crates.date_naive (seconds / 86400)
  let hour := toString (seconds / 3600 % 24)
  let minute := if seconds / 60 % 60 < 30 then "0" else "30"
  "/".intercalate [date, hour, minute]

/-- The directory of a timestamp, which has to be one of `chrono`'s. -/
def directoryDestination (crates : GcsCrates α) (ts : UnixTimestamp) : Outcome Empty String :=
  if crates.timestamp_opt ts.seconds ts.nanos then
    .ok (halfHour crates ts.seconds)
  else
    .panic "timestamp should be valid and parseable"

/-- The records as strings. -/
def recordStrings (crates : GcsCrates α) (msg_batch : List α) : Outcome Empty (List String) :=
  Outcome.tryMap (fun record => Outcome.expect (crates.to_string record)
    "called `Result::unwrap()` on an `Err` value") msg_batch

/-- The name of the file that starts at a position. -/
def filename (name : String) (prev_i : ℕ) : String := name ++ "_" ++ toString prev_i ++ ".jsonl"

/-- The records, joined by a newline, and an empty file if there are none. -/
def joinRecords : List String → String
  | [] => ""
  | record :: records => records.foldl (fun acc record => acc ++ "\n" ++ record) record

/-- `record_strings.drain(0..num_to_drain)`: the drained records, and those that are left. -/
def drain (num_to_drain : ℕ) (record_strings : List String) :
    Outcome Empty (List String × List String) :=
  if num_to_drain ≤ record_strings.length then
    .ok (record_strings.take num_to_drain, record_strings.drop num_to_drain)
  else
    .panic ("range end index " ++ toString num_to_drain ++ " out of range for slice of length " ++
      toString record_strings.length)

/-- The variables of the loop, the uploads so far, and which of the next calls of `upload_object`
fail. A call beyond the list succeeds. -/
structure LoopState where
  record_strings : List String
  prev_i : ℕ
  cur_dir : Option String
  filename : Option String
  failures : List Bool
  uploads : List Upload

/-- The loop that uploads the drained records until a call succeeds. -/
def uploadDrained (bucket file_destination : String) (num_to_drain : ℕ) :
    List Bool → List String → Outcome Empty (List String × List Bool × Upload)
  | true :: failures, record_strings =>
    (drain num_to_drain record_strings).bind fun (_, record_strings) =>
      -- the next attempt drains from what this one left
      uploadDrained bucket file_destination num_to_drain failures record_strings
  | failures, record_strings =>
    (drain num_to_drain record_strings).bind fun (batch, record_strings) =>
      .ok (record_strings, failures.tail, ⟨bucket, file_destination, joinRecords batch⟩)

/-- One timestamp and its position. -/
def step (crates : GcsCrates α) (bucket name : String) (s : LoopState) (item : UnixTimestamp × ℕ) :
    Outcome Empty LoopState :=
  let file := filename name s.prev_i
  (directoryDestination crates item.1).bind fun directory_destination =>
    match s.cur_dir with
    -- the first timestamp only sets the directory
    | none => .ok { s with filename := some file, cur_dir := some directory_destination }
    | some c =>
      if c = directory_destination then
        .ok { s with filename := some file }
      else
        -- the records before this one go to the directory that was current
        (uploadDrained bucket (c ++ "/" ++ file) (item.2 - s.prev_i) s.failures
          s.record_strings).bind fun (record_strings, failures, upload) =>
            .ok {
              record_strings := record_strings
              prev_i := item.2
              cur_dir := some directory_destination
              -- the name of the file that was uploaded, with the position where it starts
              filename := some file
              failures := failures
              uploads := s.uploads ++ [upload] }

/-- The loop that uploads what is left until a call succeeds, with the same content each time. -/
def uploadLast (upload : Upload) : List Bool → Upload
  | true :: failures => uploadLast upload failures
  | _ => upload

/-- The variables before the loop. -/
def LoopState.new (record_strings : List String) (failures : List Bool) : LoopState where
  record_strings := record_strings
  prev_i := 0
  cur_dir := none
  filename := none
  failures := failures
  uploads := []

/-- `publish_batch`, with the calls of `upload_object` that fail: its successful uploads. -/
def publishBatch (crates : GcsCrates α) (bucket name : String) (timestamps : List UnixTimestamp)
    (msg_batch : List α) (failures : List Bool) : Outcome Empty (List Upload) :=
  if timestamps.length ≠ msg_batch.length then
    .panic "assertion failed: timestamps.len() == msg_batch.len()"
  else if timestamps = [] then
    .ok []
  else
    (recordStrings crates msg_batch).bind fun record_strings =>
    (Outcome.tryFold (step crates bucket name) (.new record_strings failures)
      timestamps.zipIdx).bind fun s =>
    (Outcome.expect s.cur_dir "called `Option::unwrap()` on a `None` value").bind fun cur_dir =>
    (Outcome.expect s.filename "called `Option::unwrap()` on a `None` value").bind fun file =>
      .ok (s.uploads ++
        [uploadLast ⟨bucket, cur_dir ++ "/" ++ file, joinRecords s.record_strings⟩ s.failures])

/-! ## Contents -/

/-- The length of joined records, with a newline after each. -/
theorem length_joinRecords {records : List String} (h : records ≠ []) :
    (joinRecords records).length + 1 = (records.map fun record => record.length + 1).sum := by
  -- by induction on the records that are left, for any text before them
  have hfold : ∀ (rest : List String) (acc : String),
      (rest.foldl (fun acc record => acc ++ "\n" ++ record) acc).length =
        acc.length + (rest.map fun record => record.length + 1).sum := by
    intro rest
    induction rest with
    | nil => simp
    | cons record rest ih =>
      intro acc
      have hnewline : "\n".length = 1 := rfl
      rw [List.foldl_cons, ih, String.length_append, String.length_append, hnewline, List.map_cons,
        List.sum_cons]
      omega
  cases records with
  | nil => exact absurd rfl h
  | cons record rest =>
    rw [joinRecords, hfold, List.map_cons, List.sum_cons]
    omega

/-- A file of non-empty records is not the file of what is left of them. -/
theorem joinRecords_drop_ne {records : List String} {d : ℕ} (h : records ≠ [])
    (htexts : ∀ record ∈ records, record ≠ "") (hd : 0 < d) :
    joinRecords (records.drop d) ≠ joinRecords records := by
  intro hsame
  have hlength := congrArg String.length hsame
  have hall := length_joinRecords h
  cases records with
  | nil => exact h rfl
  | cons record rest =>
    obtain ⟨d, rfl⟩ := Nat.exists_eq_succ_of_ne_zero hd.ne'
    have hrecord : 0 < record.length :=
      Nat.pos_of_ne_zero fun hzero =>
        htexts record List.mem_cons_self (String.length_eq_zero_iff.1 hzero)
    rw [List.map_cons, List.sum_cons] at hall
    have hsplit : ((rest.take d).map fun record => record.length + 1).sum +
        ((rest.drop d).map fun record => record.length + 1).sum =
          (rest.map fun record => record.length + 1).sum := by
      rw [← List.sum_append, ← List.map_append, List.take_append_drop]
    rw [List.drop_succ_cons] at hlength
    by_cases hleft : rest.drop d = []
    · rw [hleft, show joinRecords [] = "" from rfl, String.length_empty] at hlength
      omega
    · have hdropped := length_joinRecords hleft
      omega

/-! ## One run of records -/

/-- How many calls fail before the next one succeeds. -/
def failing (failures : List Bool) : ℕ := (failures.takeWhile id).length

@[simp] theorem failing_nil : failing [] = 0 := rfl

/-- Uploading a run of records drains it once for every call that is made, and panics when the
records run out. -/
theorem uploadDrained_eq_ok {bucket file_destination : String} {n : ℕ} {failures left : List Bool}
    {records rest : List String} {upload : Upload} :
    uploadDrained bucket file_destination n failures records = .ok (rest, left, upload) ↔
      (failing failures + 1) * n ≤ records.length ∧
        rest = records.drop ((failing failures + 1) * n) ∧
        left = failures.drop (failing failures + 1) ∧
        upload = ⟨bucket, file_destination,
          joinRecords ((records.drop (failing failures * n)).take n)⟩ := by
  induction failures generalizing records with
  | nil =>
    unfold uploadDrained drain failing
    split_ifs with h <;> simp [h, eq_comm]
  | cons failed failures ih =>
    cases failed with
    | false =>
      unfold uploadDrained drain failing
      split_ifs with h <;> simp [h, eq_comm]
    | true =>
      have hfailing : failing (true :: failures) = failing failures + 1 := by simp [failing]
      rw [hfailing]
      unfold uploadDrained drain
      split_ifs with h
      · simp only [Outcome.ok_bind, ih, List.length_drop, List.drop_drop, List.drop_succ_cons]
        -- this attempt has drained a run too, so the rest of them start after it
        have harith : n + (failing failures + 1) * n = (failing failures + 1 + 1) * n := by ring
        have harith' : n + failing failures * n = (failing failures + 1) * n := by ring
        rw [harith, harith']
        refine and_congr_left fun _ => ?_
        omega
      · have hle : n ≤ (failing failures + 1 + 1) * n := Nat.le_mul_of_pos_left n (by omega)
        simp only [Outcome.panic_bind, reduceCtorEq, false_iff, not_and]
        omega

/-- The first `k` calls succeed. -/
def FirstSucceed (k : ℕ) (failures : List Bool) : Prop := ∀ j < k, failures[j]? ≠ some true

@[simp] theorem firstSucceed_nil (k : ℕ) : FirstSucceed k [] := fun _ _ => by simp

/-- The first call succeeds, and then the next ones. -/
theorem firstSucceed_succ {k : ℕ} {failures : List Bool} :
    FirstSucceed (k + 1) failures ↔ failing failures = 0 ∧ FirstSucceed k (failures.drop 1) := by
  have hfirst : failing failures = 0 ↔ failures[0]? ≠ some true := by
    rcases failures with _ | ⟨_ | _, failures⟩ <;> simp [failing]
  rw [hfirst]
  constructor
  · intro h
    refine ⟨h 0 (by omega), fun j hj => ?_⟩
    rw [List.getElem?_drop, Nat.add_comm]
    exact h (j + 1) (by omega)
  · rintro ⟨hzero, hrest⟩ j hj
    cases j with
    | zero => exact hzero
    | succ j =>
      have hj := hrest j (by omega)
      rwa [List.getElem?_drop, Nat.add_comm] at hj

/-! ## The loop with and without failures -/

/-- How often the directory changes along some directories. -/
def changes : Option String → List String → ℕ
  | _, [] => 0
  | cur_dir, directory :: directories =>
    (if ∀ c ∈ cur_dir, c = directory then 0 else 1) + changes (some directory) directories

section Loop

variable {crates : GcsCrates α} {bucket name : String}

/-- What one step does: it keeps the records when the directory stays, and uploads the run before
this position when it changes. -/
theorem step_eq_ok {s s' : LoopState} {ts : UnixTimestamp} {i : ℕ}
    (hvalid : crates.timestamp_opt ts.seconds ts.nanos = true) :
    step crates bucket name s (ts, i) = .ok s' ↔
      ((∀ c ∈ s.cur_dir, c = halfHour crates ts.seconds) ∧
        s' = { s with
          filename := some (filename name s.prev_i)
          cur_dir := some (halfHour crates ts.seconds) }) ∨
      ∃ c, s.cur_dir = some c ∧ c ≠ halfHour crates ts.seconds ∧ ∃ rest left upload,
        uploadDrained bucket (c ++ "/" ++ filename name s.prev_i) (i - s.prev_i) s.failures
          s.record_strings = .ok (rest, left, upload) ∧
        s' = ⟨rest, i, some (halfHour crates ts.seconds), some (filename name s.prev_i), left,
          s.uploads ++ [upload]⟩ := by
  unfold step directoryDestination
  obtain ⟨record_strings, prev_i, cur_dir, file, failures, uploads⟩ := s
  cases cur_dir with
  | none => simp [hvalid, eq_comm]
  | some c =>
    by_cases hsame : c = halfHour crates ts.seconds
    · simp [hvalid, hsame, eq_comm]
    · simp [hvalid, hsame, Prod.exists, eq_comm (a := s')]

/-- The current run of records starts before position `i`, unless it has not started. -/
def Placed (s : LoopState) (i : ℕ) : Prop := s.prev_i ≤ i ∧ (s.cur_dir = none ∨ s.prev_i < i)

/-- After a step the directory is that of its timestamp, and the state is placed for the next
one. -/
theorem step_placed {s s' : LoopState} {ts : UnixTimestamp} {i : ℕ}
    (hvalid : crates.timestamp_opt ts.seconds ts.nanos = true)
    (hplaced : Placed s i) (hstep : step crates bucket name s (ts, i) = .ok s') :
    s'.cur_dir = some (halfHour crates ts.seconds) ∧ Placed s' (i + 1) := by
  rcases (step_eq_ok hvalid).1 hstep with ⟨-, rfl⟩ | ⟨_, -, -, _, _, _, -, rfl⟩
  · exact ⟨rfl, hplaced.1.trans (by omega), .inr (Nat.lt_succ_of_le hplaced.1)⟩
  · exact ⟨rfl, Nat.le_succ i, .inr (Nat.lt_succ_self i)⟩

variable (bucket name) in
/-- A step whose call succeeds does not panic as long as there are records, and uses up those of the
run that it uploads. -/
theorem step_of_firstSucceed {s : LoopState} {ts : UnixTimestamp} {i k n : ℕ}
    (hvalid : crates.timestamp_opt ts.seconds ts.nanos = true)
    (hplaced : Placed s i) (hi : i ≤ n) (hlength : s.prev_i + s.record_strings.length = n)
    (hfirst : FirstSucceed ((if ∀ c ∈ s.cur_dir, c = halfHour crates ts.seconds then 0 else 1) + k)
      s.failures) :
    ∃ s', step crates bucket name s (ts, i) = .ok s' ∧
      s'.prev_i + s'.record_strings.length = n ∧ FirstSucceed k s'.failures ∧
      s'.filename.isSome ∧ s'.record_strings ⊆ s.record_strings := by
  by_cases hsame : ∀ c ∈ s.cur_dir, c = halfHour crates ts.seconds
  · rw [if_pos hsame, Nat.zero_add] at hfirst
    exact ⟨_, (step_eq_ok hvalid).2 (.inl ⟨hsame, rfl⟩), hlength, hfirst, rfl, List.Subset.refl _⟩
  · rw [if_neg hsame, Nat.add_comm, firstSucceed_succ] at hfirst
    obtain ⟨hnone, hrest⟩ := hfirst
    obtain ⟨c, hc, hne⟩ : ∃ c, s.cur_dir = some c ∧ c ≠ halfHour crates ts.seconds := by
      push Not at hsame
      exact hsame
    have hprev := hplaced.1
    -- the call does not fail, so the run is drained once
    have henough : (failing s.failures + 1) * (i - s.prev_i) ≤ s.record_strings.length := by
      rw [hnone]
      omega
    refine ⟨_, (step_eq_ok hvalid).2 (.inr ⟨c, hc, hne, _, _, _,
      uploadDrained_eq_ok.2 ⟨henough, rfl, rfl, rfl⟩, rfl⟩), ?_, ?_, rfl,
      List.drop_subset _ _⟩
    · simp only [hnone, List.length_drop]
      omega
    · rw [hnone]
      exact hrest

variable (bucket name) in
/-- The loop does not panic when its first calls succeed, as many as the directory changes, and
leaves the records of the last run. -/
theorem loop_of_firstSucceed {timestamps : List UnixTimestamp} {i : ℕ} {s : LoopState}
    (hvalid : ∀ ts ∈ timestamps, crates.timestamp_opt ts.seconds ts.nanos = true)
    (hplaced : Placed s i)
    (hlength : s.prev_i + s.record_strings.length = i + timestamps.length)
    (hfirst : FirstSucceed
      (changes s.cur_dir (timestamps.map fun ts => halfHour crates ts.seconds)) s.failures) :
    ∃ s', Outcome.tryFold (step crates bucket name) s (timestamps.zipIdx i) = .ok s' ∧
      s'.prev_i + s'.record_strings.length = i + timestamps.length ∧
      Placed s' (i + timestamps.length) ∧ s'.record_strings ⊆ s.record_strings ∧
      (timestamps ≠ [] → s'.cur_dir.isSome ∧ s'.filename.isSome) := by
  induction timestamps generalizing i s with
  | nil => exact ⟨s, rfl, hlength, hplaced, List.Subset.refl _, fun h => absurd rfl h⟩
  | cons ts timestamps ih =>
    have hts := hvalid ts List.mem_cons_self
    rw [List.length_cons] at hlength ⊢
    obtain ⟨s₁, hstep, hlength₁, hfirst₁, hfile, hsub⟩ :=
      step_of_firstSucceed bucket name hts hplaced (by omega) hlength hfirst
    obtain ⟨hdir, hplaced₁⟩ := step_placed hts hplaced hstep
    rw [← hdir] at hfirst₁
    obtain ⟨s', hloop, hlength', hplaced', hsub', hsome⟩ :=
      ih (fun ts' hts' => hvalid ts' (List.mem_cons_of_mem ts hts')) hplaced₁ (by omega) hfirst₁
    rw [show i + (timestamps.length + 1) = i + 1 + timestamps.length by omega]
    refine ⟨s', ?_, hlength', hplaced', fun record hrecord => hsub (hsub' hrecord), fun _ => ?_⟩
    · rw [List.zipIdx_cons, Outcome.tryFold, hstep]
      exact hloop
    · by_cases hnil : timestamps = []
      · subst hnil
        obtain rfl := Outcome.ok.inj hloop
        exact ⟨by rw [hdir]; rfl, hfile⟩
      · exact hsome hnil

/-- A run is `d` records behind a run without failures: it is at the same place with the same names,
has lost the first `d` records, and has uploaded the same if it has lost none. -/
structure Behind (d : ℕ) (s clean : LoopState) : Prop where
  no_failures : clean.failures = []
  record_strings : s.record_strings = clean.record_strings.drop d
  prev_i : s.prev_i = clean.prev_i
  cur_dir : s.cur_dir = clean.cur_dir
  filename : s.filename = clean.filename
  uploads : d = 0 → s.uploads = clean.uploads

/-- A step falls behind by the run of records before it, for each of its failures. -/
theorem behind_step {d i : ℕ} {s clean s' clean' : LoopState} {ts : UnixTimestamp}
    (h : Behind d s clean) (hvalid : crates.timestamp_opt ts.seconds ts.nanos = true)
    (hplaced : Placed s i)
    (hclean : step crates bucket name clean (ts, i) = .ok clean')
    (hstep : step crates bucket name s (ts, i) = .ok s') (k : ℕ) :
    ∃ d', Behind d' s' clean' ∧
      (d' = 0 ∧ FirstSucceed k s'.failures ↔ d = 0 ∧
        FirstSucceed ((if ∀ c ∈ s.cur_dir, c = halfHour crates ts.seconds then 0 else 1) + k)
          s.failures) := by
  obtain ⟨hnone, hrecords, hprev, hdir, hfile, huploads⟩ := h
  rcases (step_eq_ok hvalid).1 hstep with ⟨hsame, rfl⟩ | ⟨c, hc, hne, rest, left, upload, hrun, rfl⟩
  · rcases (step_eq_ok hvalid).1 hclean with ⟨-, rfl⟩ | ⟨c, hc, hne, -⟩
    · refine ⟨d, ⟨hnone, hrecords, hprev, rfl, ?_, huploads⟩, ?_⟩
      · simp only [hprev]
      · rw [if_pos hsame, Nat.zero_add]
    · exact absurd (hsame c (by rw [hdir, hc]; rfl)) hne
  · rcases (step_eq_ok hvalid).1 hclean with ⟨hsame, -⟩ |
      ⟨c', hc', -, rest', left', upload', hrun', rfl⟩
    · exact absurd (hsame c (by rw [← hdir, hc]; rfl)) hne
    obtain rfl : c = c' := Option.some.inj (by rw [← hc, ← hc', hdir])
    rw [hnone, uploadDrained_eq_ok] at hrun'
    rw [uploadDrained_eq_ok] at hrun
    obtain ⟨-, rfl, rfl, rfl⟩ := hrun'
    obtain ⟨-, rfl, rfl, rfl⟩ := hrun
    -- a run that is uploaded has at least one record, which a failure loses
    have hlost : 0 < i - s.prev_i := by
      rcases hplaced.2 with hfirst | hlt
      · simp [hfirst] at hc
      · omega
    have hchanged : ¬ ∀ c ∈ s.cur_dir, c = halfHour crates ts.seconds :=
      fun hall => hne (hall c (by rw [hc]; rfl))
    refine ⟨d + failing s.failures * (i - s.prev_i), ⟨by simp, ?_, rfl, rfl, ?_, ?_⟩, ?_⟩
    · simp only [hrecords, List.drop_drop, hprev, failing_nil]
      congr 1
      ring
    · simp only [hprev]
    · intro hzero
      have hd : d = 0 := by omega
      have hf : failing s.failures = 0 := by
        rcases Nat.mul_eq_zero.1 (by omega : failing s.failures * (i - s.prev_i) = 0) with hf | hf
        · exact hf
        · omega
      simp only [huploads hd, hrecords, hd, hf, hprev, Nat.zero_mul, List.drop_zero, failing_nil]
    · rw [if_neg hchanged, Nat.add_comm 1 k, firstSucceed_succ]
      have hf : d + failing s.failures * (i - s.prev_i) = 0 ↔ d = 0 ∧ failing s.failures = 0 := by
        rw [Nat.add_eq_zero_iff, Nat.mul_eq_zero]
        omega
      rw [hf]
      constructor
      · rintro ⟨⟨hd, hf⟩, hk⟩
        rw [hf] at hk
        exact ⟨hd, hf, hk⟩
      · rintro ⟨hd, hf, hk⟩
        refine ⟨⟨hd, hf⟩, ?_⟩
        rw [hf]
        exact hk

/-- The loop falls behind exactly when one of the first calls fails, as many as the directory
changes. -/
theorem behind_loop {timestamps : List UnixTimestamp} {d i : ℕ} {s clean s' clean' : LoopState}
    (h : Behind d s clean)
    (hvalid : ∀ ts ∈ timestamps, crates.timestamp_opt ts.seconds ts.nanos = true)
    (hplaced : Placed s i)
    (hclean : Outcome.tryFold (step crates bucket name) clean (timestamps.zipIdx i) = .ok clean')
    (hloop : Outcome.tryFold (step crates bucket name) s (timestamps.zipIdx i) = .ok s') :
    ∃ d', Behind d' s' clean' ∧ (d' = 0 ↔ d = 0 ∧ FirstSucceed
      (changes s.cur_dir (timestamps.map fun ts => halfHour crates ts.seconds)) s.failures) := by
  induction timestamps generalizing d i s clean with
  | nil =>
    obtain rfl := Outcome.ok.inj hclean
    obtain rfl := Outcome.ok.inj hloop
    exact ⟨d, h, by simp [changes, FirstSucceed]⟩
  | cons ts timestamps ih =>
    obtain ⟨s₁, hstep, hloop⟩ := Outcome.bind_eq_ok.1 hloop
    obtain ⟨clean₁, hclean₁, hclean⟩ := Outcome.bind_eq_ok.1 hclean
    have hts := hvalid ts List.mem_cons_self
    obtain ⟨d₁, hbehind, hiff⟩ := behind_step h hts hplaced hclean₁ hstep
      (changes (some (halfHour crates ts.seconds))
        (timestamps.map fun ts => halfHour crates ts.seconds))
    obtain ⟨hdir, hplaced'⟩ := step_placed hts hplaced hstep
    obtain ⟨d', hbehind', hiff'⟩ := ih hbehind
      (fun ts' hts' => hvalid ts' (List.mem_cons_of_mem ts hts')) hplaced' hclean hloop
    refine ⟨d', hbehind', hiff'.trans ?_⟩
    rw [hdir, List.map_cons, changes]
    exact hiff

/-- Before the loop, no run of records has started. -/
theorem placed_new (records : List String) (failures : List Bool) :
    Placed (.new records failures) 0 := ⟨le_refl 0, .inl rfl⟩

/-- Without failures, the loop leaves some of the records for the last upload. -/
theorem clean_leaves {timestamps : List UnixTimestamp} {records : List String} {clean : LoopState}
    (hne : timestamps ≠ [])
    (hvalid : ∀ ts ∈ timestamps, crates.timestamp_opt ts.seconds ts.nanos = true)
    (hcount : records.length = timestamps.length)
    (hloop : Outcome.tryFold (step crates bucket name) (.new records []) timestamps.zipIdx =
      .ok clean) :
    clean.record_strings ≠ [] ∧ clean.record_strings ⊆ records := by
  obtain ⟨_, hloop', hlength, hplaced, hsub, hsome⟩ :=
    loop_of_firstSucceed bucket name hvalid (placed_new records [])
      (by rw [← hcount]; rfl) (firstSucceed_nil _)
  obtain rfl := Outcome.ok.inj (hloop'.symm.trans hloop)
  refine ⟨fun hnil => ?_, hsub⟩
  rcases hplaced.2 with hdir | hlt
  · simp [hdir] at hsome
    exact hne hsome
  · rw [hnil, List.length_nil] at hlength
    omega

end Loop

/-! ## Retries -/

@[simp] theorem uploadLast_eq (upload : Upload) (failures : List Bool) :
    uploadLast upload failures = upload := by
  induction failures with
  | nil => rfl
  | cons failed failures ih =>
    cases failed with
    | false => rfl
    | true => exact ih

/-- The object of the last upload has its content. -/
theorem stored_last (uploads : List Upload) (upload : Upload) :
    stored (uploads ++ [upload]) upload.bucket upload.file_destination =
      some upload.concatenated_records := by
  simp [stored]

/-- The retries of a batch are transparent: the run does not panic, and leaves the objects of a run
in which no call fails. -/
def RetriesTransparent (crates : GcsCrates α) (bucket name : String)
    (timestamps : List UnixTimestamp) (msg_batch : List α) (failures : List Bool) : Prop :=
  ∃ uploads clean, publishBatch crates bucket name timestamps msg_batch failures = .ok uploads ∧
    publishBatch crates bucket name timestamps msg_batch [] = .ok clean ∧
    stored uploads = stored clean

/-- A batch that is published serializes, runs through the loop, and is stored by the uploads of the
loop and a last one. -/
theorem publishBatch_eq_ok {crates : GcsCrates α} {bucket name : String}
    {timestamps : List UnixTimestamp} {msg_batch : List α} {failures : List Bool}
    {uploads : List Upload} (hne : timestamps ≠ [])
    (hlength : timestamps.length = msg_batch.length) :
    publishBatch crates bucket name timestamps msg_batch failures = .ok uploads ↔
      ∃ records s cur_dir file,
        recordStrings crates msg_batch = .ok records ∧
        Outcome.tryFold (step crates bucket name) (.new records failures) timestamps.zipIdx =
          .ok s ∧
        s.cur_dir = some cur_dir ∧ s.filename = some file ∧
        uploads =
          s.uploads ++ [⟨bucket, cur_dir ++ "/" ++ file, joinRecords s.record_strings⟩] := by
  simp [publishBatch, hne, hlength, eq_comm (a := uploads)]

/-- The records have strings exactly when each of them serializes. -/
theorem exists_recordStrings {crates : GcsCrates α} {msg_batch : List α} :
    (∃ records, recordStrings crates msg_batch = .ok records) ↔
      ∀ record ∈ msg_batch, (crates.to_string record).isSome := by
  constructor
  · rintro ⟨records, hrecords⟩ record hrecord
    obtain ⟨text, htext⟩ := Outcome.exists_of_tryMap_mem hrecords hrecord
    rw [Outcome.expect_eq_ok.1 htext]
    rfl
  · intro h
    induction msg_batch with
    | nil => exact ⟨[], rfl⟩
    | cons record msg_batch ih =>
      obtain ⟨text, htext⟩ := Option.isSome_iff_exists.1 (h record List.mem_cons_self)
      obtain ⟨records, hrecords⟩ := ih fun r hr => h r (List.mem_cons_of_mem record hr)
      refine ⟨text :: records, ?_⟩
      unfold recordStrings at hrecords ⊢
      rw [Outcome.tryMap, hrecords, Outcome.expect_eq_ok.2 htext]
      rfl

/-- With records that all serialize, to texts that are not empty, retries are transparent exactly
when the first calls succeed, as many as the directory changes. -/
theorem retriesTransparent_iff {crates : GcsCrates α} {bucket name : String}
    {timestamps : List UnixTimestamp} {msg_batch : List α} {failures : List Bool}
    (hlength : timestamps.length = msg_batch.length)
    (hvalid : ∀ ts ∈ timestamps, crates.timestamp_opt ts.seconds ts.nanos = true)
    (htexts : ∀ record text, crates.to_string record = some text → text ≠ "") :
    RetriesTransparent crates bucket name timestamps msg_batch failures ↔
      (∀ record ∈ msg_batch, (crates.to_string record).isSome) ∧
        FirstSucceed (changes none (timestamps.map fun ts => halfHour crates ts.seconds))
          failures := by
  by_cases hne : timestamps = []
  · obtain rfl : msg_batch = [] := List.length_eq_zero_iff.1 (by rw [← hlength, hne]; rfl)
    simp [RetriesTransparent, publishBatch, hne, changes, FirstSucceed]
  have hstart : ∀ records, Behind 0 (.new records failures) (.new records []) :=
    fun _ => ⟨rfl, rfl, rfl, rfl, rfl, fun _ => rfl⟩
  constructor
  · rintro ⟨uploads, clean, hrun, hclean, hstored⟩
    obtain ⟨records, s, cur_dir, file, hrecords, hloop, hdir, hfile, rfl⟩ :=
      (publishBatch_eq_ok hne hlength).1 hrun
    obtain ⟨_, s₀, cur_dir₀, file₀, hrecords₀, hloop₀, hdir₀, hfile₀, rfl⟩ :=
      (publishBatch_eq_ok hne hlength).1 hclean
    obtain rfl := Outcome.ok.inj (hrecords₀.symm.trans hrecords)
    refine ⟨exists_recordStrings.1 ⟨_, hrecords⟩, ?_⟩
    obtain ⟨d, hbehind, hiff⟩ := behind_loop (hstart _) hvalid (placed_new _ _) hloop₀ hloop
    obtain ⟨hleft, hsub⟩ := clean_leaves hne hvalid
      ((Outcome.length_of_tryMap_eq_ok hrecords).trans hlength.symm) hloop₀
    by_contra hfails
    have hd : 0 < d := Nat.pos_of_ne_zero fun hd => hfails (hiff.1 hd).2
    -- the last object is at the same place, and without failures it holds more records
    obtain rfl := Option.some.inj (hdir.symm.trans (hbehind.cur_dir.trans hdir₀))
    obtain rfl := Option.some.inj (hfile.symm.trans (hbehind.filename.trans hfile₀))
    have hlast := congrFun (congrFun hstored bucket) (cur_dir ++ "/" ++ file)
    rw [stored_last s.uploads ⟨bucket, _, _⟩, stored_last s₀.uploads ⟨bucket, _, _⟩,
      hbehind.record_strings] at hlast
    refine joinRecords_drop_ne hleft (fun text htext => ?_) hd (Option.some.inj hlast)
    obtain ⟨record, -, hrecord⟩ := Outcome.exists_of_mem_tryMap hrecords (hsub htext)
    exact htexts record text (Outcome.expect_eq_ok.1 hrecord)
  · rintro ⟨hserialize, hfirst⟩
    obtain ⟨records, hrecords⟩ := exists_recordStrings.2 hserialize
    have hcount : (LoopState.new records failures).prev_i + records.length =
        0 + timestamps.length := by
      rw [hlength, Outcome.length_of_tryMap_eq_ok hrecords]
      rfl
    obtain ⟨s₀, hloop₀, -⟩ := loop_of_firstSucceed bucket name hvalid
      (placed_new records []) hcount (firstSucceed_nil _)
    obtain ⟨s, hloop, -, -, -, hsome⟩ := loop_of_firstSucceed bucket name hvalid
      (placed_new records failures) hcount hfirst
    obtain ⟨d, hbehind, hiff⟩ := behind_loop (hstart _) hvalid (placed_new _ _) hloop₀ hloop
    obtain rfl : d = 0 := hiff.2 ⟨rfl, hfirst⟩
    obtain ⟨hdir, hfile⟩ := hsome hne
    obtain ⟨cur_dir, hdir⟩ := Option.isSome_iff_exists.1 hdir
    obtain ⟨file, hfile⟩ := Option.isSome_iff_exists.1 hfile
    refine ⟨_, _, (publishBatch_eq_ok hne hlength).2
        ⟨records, s, cur_dir, file, hrecords, hloop, hdir, hfile, rfl⟩,
      (publishBatch_eq_ok hne hlength).2 ⟨records, s₀, cur_dir, file, hrecords, hloop₀,
        hbehind.cur_dir ▸ hdir, hbehind.filename ▸ hfile, rfl⟩, ?_⟩
    rw [hbehind.uploads rfl, hbehind.record_strings, List.drop_zero]

/-- Records that are versions, on the first day. -/
def sampleGcs : GcsCrates ℕ where
  to_string version := some ("\x7b\"tx_version\":" ++ toString version ++ "\x7d")
  timestamp_opt seconds nanos := -8334601228800 ≤ seconds ∧ seconds ≤ 8210266876799 ∧ nanos < 10 ^ 9
  date_naive day := if day = 0 then "1970-01-01" else "1970-01-02"

/-- Two half hours, with a failure after the directory has changed. -/
theorem retriesTransparent_iff_sample :
    RetriesTransparent sampleGcs "bucket" "1_2" [⟨0, 0⟩, ⟨1800, 0⟩] [1, 2] [false, true] ↔
      (∀ record ∈ [1, 2], (sampleGcs.to_string record).isSome) ∧
        FirstSucceed (changes none ([⟨0, 0⟩, ⟨1800, 0⟩].map fun ts : UnixTimestamp =>
          halfHour sampleGcs ts.seconds)) [false, true] :=
  retriesTransparent_iff rfl (by decide) fun _ _ htext => by
    rw [← Option.some.inj htext]
    simp

/-- A failure when the directory changes loses the first record: the second is stored in its
place, and the place of the second is empty. -/
theorem not_retriesTransparent_of_failure :
    ¬ RetriesTransparent sampleGcs "bucket" "1_2" [⟨0, 0⟩, ⟨1800, 0⟩] [1, 2] [true] := by
  rintro ⟨uploads, clean, hrun, hclean, hstored⟩
  have hrun' : publishBatch sampleGcs "bucket" "1_2" [⟨0, 0⟩, ⟨1800, 0⟩] [1, 2] [true] =
      .ok [⟨"bucket", "1970-01-01/0/0/1_2_0.jsonl", "\x7b\"tx_version\":2\x7d"⟩,
        ⟨"bucket", "1970-01-01/0/30/1_2_0.jsonl", ""⟩] := by decide
  have hclean' : publishBatch sampleGcs "bucket" "1_2" [⟨0, 0⟩, ⟨1800, 0⟩] [1, 2] [] =
      .ok [⟨"bucket", "1970-01-01/0/0/1_2_0.jsonl", "\x7b\"tx_version\":1\x7d"⟩,
        ⟨"bucket", "1970-01-01/0/30/1_2_0.jsonl", "\x7b\"tx_version\":2\x7d"⟩] := by decide
  obtain rfl := Outcome.ok.inj (hrun.symm.trans hrun')
  obtain rfl := Outcome.ok.inj (hclean.symm.trans hclean')
  have hlast := congrFun (congrFun hstored "bucket") "1970-01-01/0/30/1_2_0.jsonl"
  exact absurd hlast (by decide)

end AptosEtl.Output
