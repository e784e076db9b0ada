import AptosEtl.Lib.Outcome
import Mathlib.Data.List.Nodup
import Mathlib.Data.List.Basic
import Mathlib.Logic.Function.Basic

/-!
# Publishing to files

`output/json.rs` and the `publish` of `output/jsonl.rs`: a row is written to a file with the name of
the call, in the directory of the connection. As long as that file exists, the path is made again,
but of the same name, so the loop only ends if it is not entered.

`publishesAll_iff` says which sequences of calls write a new file each.
-/

namespace AptosEtl.Output

open Rust

/-- What a path of the output directory can lead to. -/
inductive Entry where
  | file (content : String)
  | directory
  deriving DecidableEq, Repr

/-- The state of the output directory: what is found where a path leads to. -/
abbrev Directory (κ : Type) := κ → Option Entry

/-- A write that fails: its error, and how many characters are written before. -/
structure WriteError where
  error : String
  written : ℕ

/-- What publishing to files takes from the file system and from other crates. -/
structure FileCrates (κ α : Type) where
  /-- `directory.join`: where the path leads to. -/
  join : String → κ
  /-- The error of opening a file there, if that fails. -/
  open_error : κ → Option String
  /-- The error of writing a text to an open file, if that fails. -/
  write_error : κ → String → Option WriteError
  /-- `serde_json::to_string`. -/
  to_string : α → Option String

variable {κ α : Type} (crates : FileCrates κ α)

/-- The path of a call. -/
def filepath (name : String) : κ := crates.join (name ++ ".json")

/-- The loop that recreates the path while it exists, and `none` without fuel. -/
def freePath (directory : Directory κ) (name : String) : ℕ → κ → Option κ
  | 0, _ => none
  | fuel + 1, path =>
    if (directory path).isSome then
      -- the name is the one that the path was made of before
      freePath directory name fuel (filepath crates name)
    else
      some path

/-- What is written of a text to an open file, and whether the write panics. -/
def writeText (path : κ) (text : String) : String × Outcome Empty Unit :=
  match crates.write_error path text with
  | some error => (String.ofList (text.toList.take error.written),
      .panic ("storage is writable: " ++ error.error))
  | none => (text, .ok ())

/-- `publish` of `json.rs`, of which `jsonl.rs` has a copy: the directory after the call, and
whether the call panics. -/
def publishFile [DecidableEq κ] (fuel : ℕ) (directory : Directory κ) (name : String) (msg : α) :
    Option (Directory κ × Outcome Empty Unit) :=
  (freePath crates directory name fuel (filepath crates name)).map fun path =>
    match crates.open_error path with
    | some error => (directory, .panic ("Failed to open file: " ++ error))
    | none =>
      let opened := Function.update directory path (some (.file ""))
      match crates.to_string msg with
      | some json =>
        let (content, outcome) := writeText crates path (json ++ "\n")
        (Function.update opened path (some (.file content)), outcome)
      | none => (opened, .panic "called `Result::unwrap()` on an `Err` value")

/-- The calls of `publish` that `publish_records` makes for some records, each with its name. -/
def recordCalls (output_name : String) (records : List α) : List (String × α) :=
  records.mapIdx fun i record => (output_name ++ "_" ++ toString i, record)

/-! ## The path -/

variable {crates} {directory after : Directory κ} {name : String} {msg : α}

/-- While the path exists, it is made again. -/
theorem freePath_of_exists (hexists : directory (filepath crates name) ≠ none) (fuel : ℕ) :
    freePath crates directory name fuel (filepath crates name) = none := by
  induction fuel with
  | zero => rfl
  | succ fuel ih => rw [freePath, if_pos (Option.isSome_iff_ne_none.2 hexists), ih]

/-- A path that is free is taken at once. -/
theorem freePath_of_free (hfree : directory (filepath crates name) = none) (fuel : ℕ) :
    freePath crates directory name (fuel + 1) (filepath crates name) =
      some (filepath crates name) := by
  simp [freePath, hfree]

/-- The row of a call can be written to a new file at its path. -/
structure Writable (crates : FileCrates κ α) (directory : Directory κ) (call : String × α) :
    Prop where
  free : directory (filepath crates call.1) = none
  opens : crates.open_error (filepath crates call.1) = none
  writes : ∃ json, crates.to_string call.2 = some json ∧
    crates.write_error (filepath crates call.1) (json ++ "\n") = none

/-! ## One call -/

variable [DecidableEq κ]

/-- The call terminates, and writes its row to a file that did not exist, and nothing else. -/
structure Writes (crates : FileCrates κ α) (directory : Directory κ) (name : String) (msg : α)
    (after : Directory κ) : Prop where
  /-- With enough iterations of the loop, the call returns. -/
  terminates : ∃ bound, ∀ fuel ≥ bound, publishFile crates fuel directory name msg =
    some (after, .ok ())
  /-- A new file has the row, and what was in the directory is unchanged. -/
  written : ∃ path json, directory path = none ∧ crates.to_string msg = some json ∧
    after path = some (.file (json ++ "\n")) ∧ ∀ other, other ≠ path → after other = directory other

/-- A call whose path exists does not terminate. -/
theorem publishFile_of_exists (hexists : directory (filepath crates name) ≠ none) (fuel : ℕ) :
    publishFile crates fuel directory name msg = none := by
  rw [publishFile, freePath_of_exists hexists, Option.map_none]

/-- A call that can write its row does so, and its path is the only one that changes. -/
theorem publishFile_of_writable {json : String} (h : Writable crates directory (name, msg))
    (hjson : crates.to_string msg = some json) (fuel : ℕ) :
    publishFile crates (fuel + 1) directory name msg =
      some (Function.update directory (filepath crates name) (some (.file (json ++ "\n"))),
        .ok ()) := by
  obtain ⟨json', hjson', hwrites⟩ := h.writes
  obtain rfl := Option.some.inj (hjson.symm.trans hjson')
  rw [publishFile, freePath_of_free h.free, Option.map_some, h.opens]
  simp only [hjson, writeText, hwrites, Function.update_idem]

/-- A call that returns can write its row. -/
theorem Writes.writable (h : Writes crates directory name msg after) :
    Writable crates directory (name, msg) := by
  obtain ⟨bound, hrun⟩ := h.terminates
  obtain ⟨_, json, -, hjson, -⟩ := h.written
  have hfree : directory (filepath crates name) = none := by
    by_contra hexists
    have hreturns := hrun bound (Nat.le_refl bound)
    rw [publishFile_of_exists hexists] at hreturns
    exact absurd hreturns.symm (Option.some_ne_none _)
  have hreturns := hrun (bound + 1) (Nat.le_succ bound)
  rw [publishFile, freePath_of_free hfree, Option.map_some] at hreturns
  -- a file that cannot be opened or written would be a panic
  cases hopens : crates.open_error (filepath crates name) with
  | some error =>
    rw [hopens] at hreturns
    cases (Prod.mk.inj (Option.some.inj hreturns)).2
  | none =>
    cases hwrites : crates.write_error (filepath crates name) (json ++ "\n") with
    | some error =>
      simp only [hopens, hjson, writeText, hwrites] at hreturns
      cases (Prod.mk.inj (Option.some.inj hreturns)).2
    | none => exact ⟨hfree, hopens, json, hjson, hwrites⟩

/-- A call writes its row exactly when it can. -/
theorem writes_iff : Writes crates directory name msg after ↔
    Writable crates directory (name, msg) ∧ ∃ json, crates.to_string msg = some json ∧
      after = Function.update directory (filepath crates name) (some (.file (json ++ "\n"))) := by
  constructor
  · intro h
    obtain ⟨bound, hrun⟩ := h.terminates
    obtain ⟨_, json, -, hjson, -⟩ := h.written
    have hreturns := hrun (bound + 1) (Nat.le_succ bound)
    rw [publishFile_of_writable h.writable hjson] at hreturns
    exact ⟨h.writable, json, hjson, (Prod.mk.inj (Option.some.inj hreturns)).1.symm⟩
  · rintro ⟨hwritable, json, hjson, rfl⟩
    refine ⟨⟨1, fun fuel hfuel => ?_⟩, filepath crates name, json, hwritable.free, hjson,
      Function.update_self .., fun other hother => Function.update_of_ne hother ..⟩
    obtain ⟨fuel, rfl⟩ := Nat.exists_eq_add_of_le' hfuel
    exact publishFile_of_writable hwritable hjson fuel

/-! ## A run -/

/-- Each of the calls writes its row to a file that did not exist before it, and nothing else. -/
def PublishesAll (crates : FileCrates κ α) : Directory κ → List (String × α) → Prop
  | _, [] => True
  | directory, (name, msg) :: calls =>
    ∃ after, Writes crates directory name msg after ∧ PublishesAll crates after calls

/-- After a file is written, a row can be written where it could before, but not to this file. -/
theorem writable_update {path : κ} {entry : Entry} {call : String × α} :
    Writable crates (Function.update directory path (some entry)) call ↔
      filepath crates call.1 ≠ path ∧ Writable crates directory call := by
  constructor
  · rintro ⟨hfree, hopens, hwrites⟩
    have hne : filepath crates call.1 ≠ path := by
      rintro heq
      rw [heq, Function.update_self] at hfree
      exact absurd hfree (Option.some_ne_none _)
    rw [Function.update_of_ne hne] at hfree
    exact ⟨hne, hfree, hopens, hwrites⟩
  · rintro ⟨hne, hfree, hopens, hwrites⟩
    exact ⟨by rwa [Function.update_of_ne hne], hopens, hwrites⟩

/-- Calls write a new file each exactly when their paths are different, and each can be written in
the directory as it is before the run. -/
theorem publishesAll_iff {calls : List (String × α)} : PublishesAll crates directory calls ↔
    (calls.map fun call => filepath crates call.1).Nodup ∧
      ∀ call ∈ calls, Writable crates directory call := by
  induction calls generalizing directory with
  | nil => simp [PublishesAll]
  | cons call calls ih =>
    obtain ⟨name, msg⟩ := call
    have hmem : filepath crates name ∉ calls.map (fun call => filepath crates call.1) ↔
        ∀ call ∈ calls, filepath crates call.1 ≠ filepath crates name := by
      simp
    rw [List.map_cons, List.nodup_cons, List.forall_mem_cons, hmem]
    constructor
    · rintro ⟨after, hwrites, hcalls⟩
      obtain ⟨hwritable, json, -, rfl⟩ := writes_iff.1 hwrites
      obtain ⟨hnodup, hrest⟩ := ih.1 hcalls
      exact ⟨⟨fun call hcall => (writable_update.1 (hrest call hcall)).1, hnodup⟩, hwritable,
        fun call hcall => (writable_update.1 (hrest call hcall)).2⟩
    · rintro ⟨⟨hnew, hnodup⟩, hwritable, hrest⟩
      obtain ⟨json, hjson, -⟩ := hwritable.writes
      refine ⟨_, writes_iff.2 ⟨hwritable, json, hjson, rfl⟩, ih.2 ⟨hnodup, fun call hcall => ?_⟩⟩
      exact writable_update.2 ⟨hnew call hcall, hrest call hcall⟩

/-- Files named by their path, and rows that are texts. -/
def sampleFiles : FileCrates String String := ⟨id, fun _ => none, fun _ _ => none, some⟩

/-- A row of a range that is indexed again is not written: its file is there. -/
theorem not_publishesAll_of_redelivery :
    ¬ ∀ (directory : Directory String) (calls : List (String × String)),
      PublishesAll sampleFiles directory calls := by
  intro h
  obtain ⟨after, hfirst, again, hsecond, -⟩ :=
    h (fun _ => none) (recordCalls "0_7" ["\x7b\x7d"] ++ recordCalls "0_7" ["\x7b\x7d"])
  obtain ⟨-, json, -, rfl⟩ := writes_iff.1 hfirst
  have hfree := hsecond.writable.free
  rw [Function.update_self] at hfree
  exact absurd hfree (Option.some_ne_none _)

end AptosEtl.Output
