import AptosEtl.Lib.Stateful
import Mathlib.Data.List.Infix
import Mathlib.Data.Set.Basic
import Mathlib.Logic.Function.Basic

/-!
# Files

A disk with files and directories, and the calls of the operating system that create and read them.
Any call can fail, whatever the disk holds, and a write that fails may have written a part of what
it was to write.

`ChangesOnly` is the frame of a computation: outside of some paths, the disk has what it had, except
for new directories.
-/

namespace Disk

open Rust

/-- A path, as its components. The empty one is the current directory. -/
abbrev Path := List String

/-- The components of a text, without empty ones and the current directory. -/
def components (text : String) : Path :=
  ((text.toList.splitOn '/').map String.ofList).filter fun part => part ≠ "" ∧ part ≠ "."

/-- `Path::join`. An absolute path replaces the one before it. -/
def join (path : Path) (text : String) : Path :=
  if text.toList.head? = some '/' then "/" :: components text else path ++ components text

/-- Without a slash, a name is one component. -/
theorem join_of_not_mem {path : Path} {name : String} (h : '/' ∉ name.toList) (hne : name ≠ "")
    (hdot : name ≠ ".") : join path name = path ++ [name] := by
  have hrelative : name.toList.head? ≠ some '/' := fun hhead => h (List.mem_of_head? hhead)
  have hsplit : name.toList.splitOn '/' = [name.toList] := List.splitOn_eq_singleton h
  rw [join, if_neg hrelative, components, hsplit]
  simp [hne, hdot]

/-- What a path leads to. -/
inductive Entry where
  | file (content : List UInt8)
  | directory
  deriving DecidableEq, Repr

/-- `std::io::Error`. -/
structure IoError where
  message : String
  deriving DecidableEq, Repr

/-- The failure of a call, and how many bytes it has written before. -/
structure Fault where
  error : IoError
  written : ℕ

/-- What the paths lead to, and what becomes of the next calls, all others of which succeed. -/
structure State where
  entries : Path → Option Entry
  faults : List (Option Fault)

/-- The failure of the next call, if it fails. -/
def State.fault (d : State) : Option Fault := d.faults.head?.join

/-- The disk after a call. -/
def State.next (d : State) : State := { d with faults := d.faults.tail }

/-- The disk with another entry. -/
def State.set (d : State) (path : Path) (entry : Entry) : State :=
  { d with entries := Function.update d.entries path (some entry) }

/-- The disk when no call fails any more. -/
def State.healthy (d : State) : State := { d with faults := [] }

/-- `Path::is_dir`. -/
def State.isDir (d : State) (path : Path) : Bool :=
  path.isEmpty || d.entries path = some .directory

/-- `Path::exists`. -/
def State.exists (d : State) (path : Path) : Bool := path.isEmpty || (d.entries path).isSome

/-- `Path::is_file`. -/
def State.isFile (d : State) (path : Path) : Bool :=
  match d.entries path with
  | some (.file _) => true
  | _ => false

/-! ## Calls -/

/-- `mkdir`, if there is no such directory. -/
def createDir (path : Path) : Stateful State IoError Unit := fun d =>
  if d.isDir path then (.ok (), d)
  else match d.fault with
    | some fault => (.err fault.error, d.next)
    | none =>
      if (d.entries path).isSome then (.err ⟨"File exists"⟩, d.next)
      else (.ok (), d.next.set path .directory)

/-- `std::fs::create_dir_all`. -/
def createDirAll (path : Path) : Stateful State IoError Unit :=
  Stateful.tryFold (fun _ parent => createDir parent) () path.inits.tail

/-- `File::create`: an empty file, also where there was one. -/
def create (path : Path) : Stateful State IoError Unit := fun d =>
  match d.fault with
  | some fault => (.err fault.error, d.next)
  | none =>
    if d.isDir path then (.err ⟨"Is a directory"⟩, d.next)
    else if d.isDir path.dropLast then (.ok (), d.next.set path (.file []))
    else (.err ⟨"No such file or directory"⟩, d.next)

/-- `write_all`, to a file that was just created. -/
def writeAll (path : Path) (bytes : List UInt8) : Stateful State IoError Unit := fun d =>
  match d.fault with
  | some fault => (.err fault.error, d.next.set path (.file (bytes.take fault.written)))
  | none => (.ok (), d.next.set path (.file bytes))

/-- `File::open` and `read_to_end`. -/
def readToEnd (path : Path) : Stateful State IoError (List UInt8) := fun d =>
  match d.fault with
  | some fault => (.err fault.error, d.next)
  | none =>
    match d.entries path with
    | some (.file content) => (.ok content, d.next)
    | some .directory => (.err ⟨"Is a directory"⟩, d.next)
    | none => (.err ⟨"No such file or directory"⟩, d.next)

/-! ## What the calls do -/

variable {d d' : State} {path : Path} {bytes : List UInt8}

@[simp] theorem entries_next : d.next.entries = d.entries := rfl

@[simp] theorem entries_healthy : d.healthy.entries = d.entries := rfl

/-- The entry that was set. -/
theorem entries_set_self (d : State) (path : Path) (entry : Entry) :
    (d.set path entry).entries path = some entry := Function.update_self ..

/-- The other entries are left. -/
theorem entries_set_of_ne {other : Path} (h : other ≠ path) (entry : Entry) :
    (d.set path entry).entries other = d.entries other := Function.update_of_ne h ..

/-- What is written to a file that is created is in it. -/
theorem entries_of_writeAll (h : writeAll path bytes d = (.ok (), d')) :
    d'.entries path = some (.file bytes) := by
  unfold writeAll at h
  split at h
  · cases h
  · obtain ⟨-, rfl⟩ := Prod.mk_inj.1 h
    exact entries_set_self ..

/-- A file is read when nothing fails. -/
theorem readToEnd_healthy (h : d.entries path = some (.file bytes)) :
    readToEnd path d.healthy = (.ok bytes, d.healthy) := by
  have hentry : d.healthy.entries path = some (.file bytes) := h
  have hfault : d.healthy.fault = none := rfl
  rw [readToEnd, hfault]
  simp only [hentry]
  rfl

/-! ## Frames -/

/-- Outside of the paths the disk is as before, except for new directories. -/
def ChangesOnly (paths : Set Path) (d d' : State) : Prop :=
  ∀ path ∉ paths, d'.entries path = d.entries path ∨
    d.entries path = none ∧ d'.entries path = some .directory

variable {paths paths' : Set Path}

/-- Nothing is changed. -/
theorem changesOnly_refl (paths : Set Path) (d : State) : ChangesOnly paths d d :=
  fun _ _ => .inl rfl

/-- Nothing is changed in two steps. -/
theorem changesOnly_trans (paths : Set Path) (d d' d'' : State) (h : ChangesOnly paths d d')
    (h' : ChangesOnly paths d' d'') : ChangesOnly paths d d'' := by
  intro path hpath
  rcases h path hpath with hsame | ⟨hnone, hdirectory⟩
  · rw [← hsame]
    exact h' path hpath
  · rcases h' path hpath with hsame' | ⟨hnone', -⟩
    · exact .inr ⟨hnone, hsame'.trans hdirectory⟩
    · cases hdirectory.symm.trans hnone'

/-- What changes only some paths changes only more of them. -/
theorem ChangesOnly.mono (h : ChangesOnly paths d d') (hsub : paths ⊆ paths') :
    ChangesOnly paths' d d' :=
  fun path hpath => h path fun hmem => hpath (hsub hmem)

/-- A file outside of the paths stays. -/
theorem ChangesOnly.file (h : ChangesOnly paths d d') (hpath : path ∉ paths)
    (hfile : d.entries path = some (.file bytes)) : d'.entries path = some (.file bytes) := by
  rcases h path hpath with hsame | ⟨hnone, -⟩
  · rw [hsame, hfile]
  · cases hfile.symm.trans hnone

/-- An entry that is set is the only change. -/
theorem changesOnly_set (hpath : path ∈ paths) (entry : Entry) :
    ChangesOnly paths d (d.next.set path entry) := by
  intro other hother
  refine .inl (entries_set_of_ne ?_ entry)
  rintro rfl
  exact hother hpath

/-- A new directory is no change. -/
theorem keeps_createDir (paths : Set Path) (path : Path) :
    (createDir path).Keeps (ChangesOnly paths) := by
  intro d
  unfold createDir
  split_ifs with hdir hentry
  · exact changesOnly_refl paths d
  · split
    · exact changesOnly_refl paths d
    · exact changesOnly_refl paths d
  · split
    · exact changesOnly_refl paths d
    · intro other _
      by_cases hother : other = path
      · subst hother
        have hnone : d.entries other = none := by simpa using hentry
        exact .inr ⟨hnone, entries_set_self ..⟩
      · exact .inl (entries_set_of_ne hother _)

/-- New directories are no change. -/
theorem keeps_createDirAll (paths : Set Path) (path : Path) :
    (createDirAll path).Keeps (ChangesOnly paths) :=
  Stateful.keeps_tryFold (changesOnly_refl paths) (changesOnly_trans paths)
    (fun _ parent _ => keeps_createDir paths parent) ()

/-- Creating a file changes it only. -/
theorem keeps_create (hpath : path ∈ paths) : (create path).Keeps (ChangesOnly paths) := by
  intro d
  unfold create
  split
  · exact changesOnly_refl paths d
  · split_ifs
    · exact changesOnly_refl paths d
    · exact changesOnly_set hpath _
    · exact changesOnly_refl paths d

/-- Writing a file changes it only. -/
theorem keeps_writeAll (hpath : path ∈ paths) (bytes : List UInt8) :
    (writeAll path bytes).Keeps (ChangesOnly paths) := by
  intro d
  unfold writeAll
  split
  · exact changesOnly_set hpath _
  · exact changesOnly_set hpath _

end Disk
