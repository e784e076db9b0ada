import AptosEtl.Lib.Lines
import AptosEtl.Output.Files
import AptosEtl.Output.Objects

/-!
# Publishing to a file of lines

`publish_batch` of `output/jsonl.rs`. The records of a batch are appended to the file with the name
of the batch, each by two writes, of its text and of a newline. A worker may be killed between two
writes, and the batch is then published again to the same file, when its range is delivered again.

`jsonl_lines_iff` says when the lines of the file are then those of the records.
-/

namespace AptosEtl.Output

open Rust Lines

variable {κ α : Type} (crates : FileCrates κ α)

/-- The path of a batch. -/
def jsonlPath (filename : String) : κ := crates.join (filename ++ ".jsonl")

/-- `OpenOptions::new().create(true).append(true).open(filepath)`: what is in the file. -/
def openAppend (directory : Directory κ) (path : κ) : Except String String :=
  match crates.open_error path with
  | some error => .error error
  | none =>
    match directory path with
    | none => .ok ""
    | some (.file content) => .ok content
    | some .directory => .error "Is a directory"

/-- The writes of the loop over the records, of which each `writeln!` makes two, and its end. -/
def recordWrites : List α → List String × Outcome Empty Unit
  | [] => ([], .ok ())
  | record :: msg_batch =>
    match crates.to_string record with
    | some json => (json :: "\n" :: (recordWrites msg_batch).1, (recordWrites msg_batch).2)
    | none => ([], .panic "called `Result::unwrap()` on an `Err` value")

/-- The texts that some records are serialized to. -/
def Texts (msg_batch : List α) (texts : List String) : Prop :=
  List.Forall₂ (fun record text => crates.to_string record = some text) msg_batch texts

section Publish

variable [DecidableEq κ]

/-- `publish_batch` of `jsonl.rs`: the directory after the call, and how it ends, unless the worker
is killed after a number of writes. -/
def publishBatchFile (directory : Directory κ) (filename : String) (msg_batch : List α)
    (killed : Option ℕ) : Directory κ × Option (Outcome Empty Unit) :=
  match msg_batch with
  | [] => (directory, some (.ok ()))
  | _ :: _ =>
    let path := jsonlPath crates filename
    match openAppend crates directory path with
    | .error error => (directory, some (.panic ("Failed to open file: " ++ error)))
    | .ok content =>
      let append (text : String) : Directory κ :=
        Function.update directory path (some (.file (content ++ text)))
      let (writes, outcome) := recordWrites crates msg_batch
      match killed with
      | none =>
        let (text, written) := writeText crates path (String.join writes)
        (append text, some (written.bind fun _ => outcome))
      | some stop => (append (String.join (writes.take stop)), none)

/-- The directory after workers that publish one batch, and are each killed after a number of
writes. -/
def killedRuns (directory : Directory κ) (filename : String) (msg_batch : List α)
    (stops : List ℕ) : Directory κ :=
  stops.foldl (fun directory stop =>
    (publishBatchFile crates directory filename msg_batch (some stop)).1) directory

end Publish

/-! ## The file as lines -/

/-- The string of a write. -/
def toText : Write → String
  | .text line => line
  | .newline => "\n"

/-- One more record is joined by a newline. -/
theorem joinRecords_concat {records : List String} (hne : records ≠ []) (record : String) :
    joinRecords (records ++ [record]) = joinRecords records ++ "\n" ++ record := by
  obtain ⟨first, rest, rfl⟩ := List.exists_cons_of_ne_nil hne
  show (rest ++ [record]).foldl _ first = _
  rw [List.foldl_append]
  rfl

/-- A write appends its string to the file. -/
theorem joinRecords_write (t : Text) (write : Write) :
    joinRecords (t.write write).lines = joinRecords t.lines ++ toText write := by
  cases write with
  | newline =>
    show joinRecords (t.lines ++ [""]) = _
    rw [joinRecords_concat t.lines_ne_nil, String.append_empty]
    rfl
  | text line =>
    show joinRecords (t.ended ++ [t.last ++ line]) = joinRecords (t.ended ++ [t.last]) ++ line
    by_cases hended : t.ended = []
    · rw [hended]
      rfl
    · rw [joinRecords_concat hended, joinRecords_concat hended]
      exact (String.append_assoc ..).symm

/-- Some writes append their strings. -/
theorem joinRecords_writeAll (t : Text) (writes : List Write) :
    joinRecords (t.writeAll writes).lines =
      joinRecords t.lines ++ String.join (writes.map toText) := by
  induction writes generalizing t with
  | nil => exact (String.append_empty ..).symm
  | cons write writes ih =>
    rw [List.map_cons, String.join_cons, ← String.append_assoc, ← joinRecords_write]
    exact ih _

/-- The lines have no newline in them. -/
def Unbroken (t : Text) : Prop := ∀ line ∈ t.lines, '\n' ∉ line.toList

/-- So the lines of the file are these. -/
theorem Unbroken.fileLines_eq {t : Text} (ht : Unbroken t) :
    fileLines (joinRecords t.lines) = t.lines :=
  fileLines_joinRecords t.lines_ne_nil ht

/-- They still have none after some writes of a text without one. -/
theorem Unbroken.writeAll {t : Text} (ht : Unbroken t) {writes : List Write}
    (hwrites : ∀ line, .text line ∈ writes → '\n' ∉ line.toList) :
    Unbroken (t.writeAll writes) := by
  induction writes generalizing t with
  | nil => exact ht
  | cons write writes ih =>
    refine ih ?_ fun line hline => hwrites line (List.mem_cons_of_mem _ hline)
    intro line hline
    cases write with
    | newline =>
      rcases List.mem_append.1 hline with hline | hline
      · exact ht line hline
      · rw [List.mem_singleton.1 hline]
        exact List.not_mem_nil
    | text start =>
      rcases List.mem_append.1 hline with hline | hline
      · exact ht line (List.mem_append_left _ hline)
      · have hlast := ht t.last (List.mem_append_right _ (List.mem_singleton_self _))
        rw [List.mem_singleton.1 hline]
        show '\n' ∉ (t.last ++ start).toList
        rw [String.toList_append, List.mem_append, not_or]
        exact ⟨hlast, hwrites start List.mem_cons_self⟩

/-- The texts of the writes of some texts are these. -/
theorem mem_of_mem_lineWrites {texts : List String} {line : String}
    (h : .text line ∈ lineWrites texts) : line ∈ texts := by
  simpa [lineWrites] using h

/-- And after some writers. -/
theorem unbroken_attempts {texts : List String} (hlines : ∀ text ∈ texts, '\n' ∉ text.toList)
    {t : Text} (ht : Unbroken t) (stops : List ℕ) : Unbroken (attempts texts t stops) := by
  induction stops generalizing t with
  | nil => exact ht
  | cons stop stops ih =>
    refine ih (ht.writeAll fun line hline => hlines line ?_)
    exact mem_of_mem_lineWrites (List.mem_of_mem_take hline)

/-! ## The calls -/

section Calls

variable {crates} {directory : Directory κ} {filename : String} {msg_batch : List α}
  {texts : List String}

/-- The writes of records that are serialized are those of their texts. -/
theorem recordWrites_eq
    (htexts : Texts crates msg_batch texts) :
    recordWrites crates msg_batch = ((lineWrites texts).map toText, .ok ()) := by
  induction htexts with
  | nil => rfl
  | cons htext _ ih =>
    unfold recordWrites
    rw [htext, ih]
    rfl

variable [DecidableEq κ]

/-- What is written to a file that can be opened is in it afterwards. -/
theorem openAppend_update (directory : Directory κ) {path : κ}
    (hopens : crates.open_error path = none) (content : String) :
    openAppend crates (Function.update directory path (some (.file content))) path =
      .ok content := by
  simp only [openAppend, hopens, Function.update_self]

/-- A worker that is killed appends some of the writes. -/
theorem publishBatchFile_killed (hne : msg_batch ≠ [])
    (htexts : Texts crates msg_batch texts)
    {t : Text}
    (hopen : openAppend crates directory (jsonlPath crates filename) = .ok (joinRecords t.lines))
    (stop : ℕ) :
    (publishBatchFile crates directory filename msg_batch (some stop)).1 =
      Function.update directory (jsonlPath crates filename)
        (some (.file (joinRecords (t.writeAll ((lineWrites texts).take stop)).lines))) := by
  obtain ⟨record, rest, rfl⟩ := List.exists_cons_of_ne_nil hne
  simp only [publishBatchFile, hopen, recordWrites_eq htexts, joinRecords_writeAll, List.map_take]

/-- A worker that is not appends all of them, and returns. -/
theorem publishBatchFile_whole (hne : msg_batch ≠ [])
    (htexts : Texts crates msg_batch texts)
    {t : Text}
    (hopen : openAppend crates directory (jsonlPath crates filename) = .ok (joinRecords t.lines))
    (hwrites : ∀ text, crates.write_error (jsonlPath crates filename) text = none) :
    publishBatchFile crates directory filename msg_batch none =
      (Function.update directory (jsonlPath crates filename)
        (some (.file (joinRecords (t.writeAll (lineWrites texts)).lines))), some (.ok ())) := by
  obtain ⟨record, rest, rfl⟩ := List.exists_cons_of_ne_nil hne
  simp only [publishBatchFile, hopen, recordWrites_eq htexts, writeText, hwrites,
    joinRecords_writeAll, Outcome.ok_bind]

/-- What is in the file after workers that were killed, and that no other file has changed. -/
theorem killedRuns_spec (hne : msg_batch ≠ [])
    (htexts : Texts crates msg_batch texts)
    (hopens : crates.open_error (jsonlPath crates filename) = none) {t : Text}
    (hopen : openAppend crates directory (jsonlPath crates filename) = .ok (joinRecords t.lines))
    (stops : List ℕ) :
    openAppend crates (killedRuns crates directory filename msg_batch stops)
        (jsonlPath crates filename) = .ok (joinRecords (attempts texts t stops).lines) ∧
      ∀ other, other ≠ jsonlPath crates filename →
        killedRuns crates directory filename msg_batch stops other = directory other := by
  induction stops generalizing directory t with
  | nil => exact ⟨hopen, fun _ _ => rfl⟩
  | cons stop stops ih =>
    have hkilled := publishBatchFile_killed hne htexts hopen stop
    have hopen' := openAppend_update directory hopens
      (joinRecords (t.writeAll ((lineWrites texts).take stop)).lines)
    rw [← hkilled] at hopen'
    obtain ⟨hfile, hothers⟩ := ih hopen'
    refine ⟨hfile, fun other hother => (hothers other hother).trans ?_⟩
    rw [hkilled, Function.update_of_ne hother]

/-- However often the workers that publish a batch to a new file were killed between two of their
writes, before one was not: this one returns and changes no other file, the records but the first
one have their lines in the file, and all lines are those of records exactly when no worker was
killed between a record and its newline. -/
theorem jsonl_lines_iff (hne : msg_batch ≠ [])
    (htexts : Texts crates msg_batch texts)
    (hlines : ∀ text ∈ texts, '\n' ∉ text.toList) (hall : Distinguishable texts)
    (hfree : directory (jsonlPath crates filename) = none)
    (hopens : crates.open_error (jsonlPath crates filename) = none)
    (hwrites : ∀ text, crates.write_error (jsonlPath crates filename) text = none)
    (stops : List ℕ) :
    ∃ after content,
      publishBatchFile crates (killedRuns crates directory filename msg_batch stops) filename
          msg_batch none = (after, some (.ok ())) ∧
        after (jsonlPath crates filename) = some (.file content) ∧
        (∀ other, other ≠ jsonlPath crates filename → after other = directory other) ∧
        (∀ text ∈ texts.tail, text ∈ fileLines content) ∧
        ((∀ line ∈ fileLines content, line = "" ∨ line ∈ texts) ↔
          ∀ stop ∈ stops, ¬ Torn texts stop) := by
  have hnew : openAppend crates directory (jsonlPath crates filename) =
      .ok (joinRecords Text.new.lines) := by
    simp only [openAppend, hopens, hfree]
    rfl
  obtain ⟨hopen, hothers⟩ := killedRuns_spec hne htexts hopens hnew stops
  have hwhole := publishBatchFile_whole hne htexts hopen hwrites
  refine ⟨_, _, hwhole, Function.update_self .., fun other hother => ?_, ?_⟩
  · rw [Function.update_of_ne hother]
    exact hothers other hother
  have hnewlines : Unbroken .new := by
    intro line hline
    rw [List.mem_singleton.1 hline]
    exact List.not_mem_nil
  have hunbroken : Unbroken ((attempts texts .new stops).writeAll (lineWrites texts)) :=
    (unbroken_attempts hlines hnewlines stops).writeAll fun line hline =>
      hlines line (mem_of_mem_lineWrites hline)
  have hnonempty : texts ≠ [] := by
    rintro rfl
    exact hne (List.forall₂_nil_right_iff.1 htexts)
  rw [hunbroken.fileLines_eq]
  constructor
  · intro text htext
    obtain ⟨first, rest, rfl⟩ := List.exists_cons_of_ne_nil hnonempty
    rw [writeAll_lineWrites]
    exact List.mem_append_left _ (List.mem_append_right _ (List.mem_cons_of_mem _ htext))
  · have hclean : ¬ Spoiled texts .new := by
      rintro (⟨line, hline, -⟩ | hlast)
      · exact absurd hline List.not_mem_nil
      · exact hlast rfl
    have hbad := (bad_writeAll_iff hall hnonempty (attempts texts .new stops)).trans
      ((spoiled_attempts_iff hall .new stops).trans (or_iff_right hclean))
    calc (∀ line ∈ ((attempts texts .new stops).writeAll (lineWrites texts)).lines,
          line = "" ∨ line ∈ texts)
        ↔ ¬ ∃ line ∈ ((attempts texts .new stops).writeAll (lineWrites texts)).lines,
          Bad texts line := by
            simp only [Bad, not_exists, not_and, not_not, or_iff_not_imp_left, ne_eq]
      _ ↔ ¬ ∃ stop ∈ stops, Torn texts stop := not_congr hbad
      _ ↔ ∀ stop ∈ stops, ¬ Torn texts stop := by simp only [not_exists, not_and]

/-- Files that are named by their paths, of records that are versions. -/
def sampleJsonl : FileCrates String ℕ where
  join filename := filename
  open_error _ := none
  write_error _ _ := none
  to_string := sampleGcs.to_string

/-- Two records, where the first worker was killed after a line, and the second one within a line.
-/
theorem jsonl_lines_iff_sample :
    let texts := ["\x7b\"tx_version\":1\x7d", "\x7b\"tx_version\":2\x7d"]
    ∃ after content,
      publishBatchFile sampleJsonl (killedRuns sampleJsonl (fun _ => none) "1_2" [1, 2] [2, 1])
          "1_2" [1, 2] none = (after, some (.ok ())) ∧
        after "1_2.jsonl" = some (.file content) ∧
        (∀ other, other ≠ "1_2.jsonl" → after other = none) ∧
        (∀ text ∈ texts.tail, text ∈ fileLines content) ∧
        ((∀ line ∈ fileLines content, line = "" ∨ line ∈ texts) ↔
          ∀ stop ∈ [2, 1], ¬ Torn texts stop) := by
  intro texts
  have hsame : ∀ line ∈ texts, line.length = 16 := by decide
  have hall : Distinguishable texts := by
    refine ⟨by decide, fun line hline line' hline' start happend => ?_⟩
    have hlength := congrArg String.length happend
    rw [String.length_append, hsame line hline, hsame line' hline'] at hlength
    exact String.length_eq_zero_iff.1 (by omega)
  have htexts : Texts sampleJsonl [1, 2] texts := .cons rfl (.cons rfl .nil)
  exact jsonl_lines_iff (List.cons_ne_nil _ _) htexts (by decide) hall rfl rfl (fun _ => rfl)
    [2, 1]

end Calls

end AptosEtl.Output
