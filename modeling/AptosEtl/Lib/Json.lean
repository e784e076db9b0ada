import AptosEtl.Lib.Outcome
import Mathlib.Algebra.Group.Int.Defs
import Mathlib.Data.Int.Notation
import Mathlib.Data.Rat.Init

/-!
# Reading JSON at a type

A JSON value, and what a typed reader makes of it: a value of the type, or an error where the JSON
value is of another kind or out of range. The members of an object keep their order and may repeat a
name, since a reader that is written by hand takes them one by one.
-/

namespace Rust

universe u

/-- A JSON value. A number is an integer, or a fraction. -/
inductive Json where
  | null
  | bool (value : Bool)
  | int (value : ℤ)
  | float (value : ℚ)
  | string (value : String)
  | array (items : List Json)
  | object (members : List (String × Json))

/-- The errors of a reader: a value that is not what is expected, a member that is not there, and
one that is there twice. -/
inductive JsonError where
  | Invalid (expected : String)
  | MissingField (field : String)
  | DuplicateField (field : String)
  deriving DecidableEq, Repr

namespace Json

/-! ## Readers -/

/-- An integer from a bound up to another one. -/
def readInt (expected : String) (lo hi : ℤ) : Json → Outcome JsonError ℤ
  | int value => if lo ≤ value ∧ value < hi then .ok value else .err (.Invalid expected)
  | _ => .err (.Invalid expected)

/-- A `u64`. -/
def readU64 (json : Json) : Outcome JsonError UInt64 :=
  (readInt "u64" 0 (2 ^ 64) json).bind fun value => .ok (UInt64.ofNat value.toNat)

/-- An `i64`. -/
def readI64 (json : Json) : Outcome JsonError Int64 :=
  (readInt "i64" (-2 ^ 63) (2 ^ 63) json).bind fun value => .ok (Int64.ofInt value)

/-- A `String`. -/
def readString : Json → Outcome JsonError String
  | string value => .ok value
  | _ => .err (.Invalid "a string")

/-- An `Option`, which is `None` for `null`. -/
def readOption {α : Type u} (read : Json → Outcome JsonError α) :
    Json → Outcome JsonError (Option α)
  | null => .ok none
  | json => (read json).bind fun value => .ok (some value)

/-- A `Vec`. -/
def readVec {α : Type u} (read : Json → Outcome JsonError α) : Json → Outcome JsonError (List α)
  | array items => Outcome.tryMap read items
  | _ => .err (.Invalid "a sequence")

/-- A member that is there once. -/
def readMember (members : List (String × Json)) (field : String) : Outcome JsonError Json :=
  match members.filter fun entry => entry.1 = field with
  | [entry] => .ok entry.2
  | [] => .err (.MissingField field)
  | _ => .err (.DuplicateField field)

/-- The fields of a struct whose reader is derived, by name from an object and by place from an
array. -/
def readFields (name : String) (fields : List String) : Json → Outcome JsonError (List Json)
  | object members => Outcome.tryMap (readMember members) fields
  | array items =>
    if items.length = fields.length then .ok items else .err (.Invalid ("struct " ++ name))
  | _ => .err (.Invalid ("struct " ++ name))

/-! ## What is read -/

/-- Only a string is read as one. -/
theorem readString_eq_ok {json : Json} {text : String} :
    readString json = .ok text ↔ json = string text := by
  cases json <;> simp [readString]

/-! ## Objects -/

variable {σ : Type} {visit : σ → String × Json → Outcome JsonError σ} {s s' : σ}
  {members : List (String × Json)}

/-- Where an object is read, a member is read in the state after those before it, and those after it
are read from there. -/
theorem exists_visit {before after : List (String × Json)} {entry : String × Json}
    (h : Outcome.tryFold visit s (before ++ entry :: after) = .ok s') :
    ∃ t t', visit t entry = .ok t' ∧ Outcome.tryFold visit t' after = .ok s' := by
  rw [Outcome.tryFold_append] at h
  obtain ⟨t, -, h⟩ := Outcome.bind_eq_ok.1 h
  obtain ⟨t', hvisit, hafter⟩ := Outcome.bind_eq_ok.1 h
  exact ⟨t, t', hvisit, hafter⟩

/-- A variable that no member changes keeps its value. -/
theorem eq_of_frame {γ : Type} {read : σ → γ} (h : Outcome.tryFold visit s members = .ok s')
    (hframe : ∀ entry ∈ members, ∀ t t', visit t entry = .ok t' → read t' = read t) :
    read s' = read s := by
  induction members generalizing s with
  | nil =>
    obtain rfl := Outcome.ok.inj h
    rfl
  | cons entry members ih =>
    obtain ⟨hentry, hrest⟩ := List.forall_mem_cons.1 hframe
    obtain ⟨t, hvisit, h⟩ := Outcome.bind_eq_ok.1 h
    rw [ih h hrest, hentry s t hvisit]

end Json

end Rust
