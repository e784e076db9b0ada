import Mathlib.Data.List.Basic

/-!
# Lines that are appended to a file

A file is appended to by writers that write each of some texts and then a newline, and that may be
stopped between two writes. `Text` is a file by its lines. A writer that is stopped between a text
and its newline leaves a line open, and the first text of the next writer goes on with it.

`spoiled_attempts_iff` says when this happens, however often the writers were stopped: where no text
ends with another one, the lines of the file are the texts unless one of the writers was stopped
there.
-/

namespace Lines

/-- The lines that are ended, and what is written after the last newline. -/
structure Text where
  ended : List String
  last : String

/-- One write. -/
inductive Write where
  | text (line : String)
  | newline

/-- A file without a write. -/
def Text.new : Text := ⟨[], ""⟩

/-- All lines, with the one that is not ended. -/
def Text.lines (t : Text) : List String := t.ended ++ [t.last]

/-- The file after a write. -/
def Text.write (t : Text) : Write → Text
  | .text line => { t with last := t.last ++ line }
  | .newline => ⟨t.ended ++ [t.last], ""⟩

/-- The file after some writes. -/
def Text.writeAll (t : Text) (writes : List Write) : Text := writes.foldl Text.write t

/-- The writes of some texts. -/
def lineWrites (texts : List String) : List Write :=
  texts.flatMap fun line => [.text line, .newline]

/-- The file after writers that are each stopped after a number of writes. -/
def attempts (texts : List String) (t : Text) (stops : List ℕ) : Text :=
  stops.foldl (fun t stop => t.writeAll ((lineWrites texts).take stop)) t

/-- A writer is stopped between a text and its newline. -/
def Torn (texts : List String) (stop : ℕ) : Prop := stop < 2 * texts.length ∧ stop % 2 = 1

/-- A line is none of the texts, and not empty. -/
def Bad (texts : List String) (line : String) : Prop := line ≠ "" ∧ line ∉ texts

/-- A line is bad, or the last one is open. -/
def Spoiled (texts : List String) (t : Text) : Prop :=
  (∃ line ∈ t.ended, Bad texts line) ∨ t.last ≠ ""

/-- No text is empty, and none ends with another one. -/
structure Distinguishable (texts : List String) : Prop where
  nonempty : ∀ line ∈ texts, line ≠ ""
  ends : ∀ line ∈ texts, ∀ line' ∈ texts, ∀ start, start ++ line = line' → start = ""

variable {texts all : List String} {line : String}

/-- There is a line, which may be empty. -/
theorem Text.lines_ne_nil (t : Text) : t.lines ≠ [] :=
  List.append_ne_nil_of_right_ne_nil _ (List.cons_ne_nil _ _)

/-- The writes of a text and the next ones. -/
theorem lineWrites_cons (line : String) (texts : List String) :
    lineWrites (line :: texts) = .text line :: .newline :: lineWrites texts := rfl

/-- The number of writes. -/
theorem length_lineWrites (texts : List String) : (lineWrites texts).length = 2 * texts.length := by
  induction texts with
  | nil => rfl
  | cons line texts ih =>
    rw [lineWrites_cons, List.length_cons, List.length_cons, List.length_cons, ih]
    omega

/-- A text and its newline end the line that was open. -/
theorem writeAll_cons (t : Text) (line : String) (writes : List Write) :
    t.writeAll (.text line :: .newline :: writes) =
      Text.writeAll ⟨t.ended ++ [t.last ++ line], ""⟩ writes := rfl

/-- A writer that is not stopped writes its first text to the line that is open, and each of the
others to a line of its own. -/
theorem writeAll_lineWrites (t : Text) (line : String) (texts : List String) :
    t.writeAll (lineWrites (line :: texts)) = ⟨t.ended ++ (t.last ++ line) :: texts, ""⟩ := by
  induction texts generalizing t line with
  | nil => rfl
  | cons line' texts ih =>
    rw [lineWrites_cons, writeAll_cons, ih]
    simp

/-- What is written to an open line is bad. -/
theorem bad_append_iff (hall : Distinguishable all) (hline : line ∈ all) (start : String) :
    Bad all (start ++ line) ↔ start ≠ "" := by
  constructor
  · rintro ⟨-, hbad⟩ rfl
    rw [String.empty_append] at hbad
    exact hbad hline
  · intro hstart
    have hnonempty : start ++ line ≠ "" := fun hempty =>
      hstart (String.append_eq_empty_iff.1 hempty).1
    exact ⟨hnonempty, fun hmem => hstart (hall.ends line hline _ hmem start rfl)⟩

/-- A writer spoils a file exactly when it is stopped between a text and its newline. -/
theorem spoiled_take_iff (hall : Distinguishable all) (htexts : ∀ line ∈ texts, line ∈ all)
    (t : Text) (stop : ℕ) :
    Spoiled all (t.writeAll ((lineWrites texts).take stop)) ↔ Spoiled all t ∨ Torn texts stop := by
  induction texts generalizing t stop with
  | nil =>
    have hnever : ¬ Torn [] stop := fun htorn => Nat.not_lt_zero _ htorn.1
    have hnothing : (lineWrites []).take stop = [] := List.take_nil
    rw [hnothing, or_iff_left hnever]
    rfl
  | cons line texts ih =>
    have hline := htexts line List.mem_cons_self
    match stop with
    | 0 =>
      have hnever : ¬ Torn (line :: texts) 0 := fun htorn => absurd htorn.2 (by decide)
      rw [or_iff_left hnever]
      rfl
    | 1 =>
      -- the text is written, and its newline is not
      have hopen : Spoiled all (t.writeAll ((lineWrites (line :: texts)).take 1)) := by
        refine .inr fun hempty => hall.nonempty line hline ?_
        exact (String.append_eq_empty_iff.1 hempty).2
      have htorn : Torn (line :: texts) 1 := by
        refine ⟨?_, rfl⟩
        rw [List.length_cons]
        omega
      exact iff_of_true hopen (.inr htorn)
    | stop + 2 =>
      have hlater := ih (fun line hmem => htexts line (List.mem_cons_of_mem _ hmem))
        ⟨t.ended ++ [t.last ++ line], ""⟩ stop
      have htorn : Torn (line :: texts) (stop + 2) ↔ Torn texts stop := by
        have hlength : stop + 2 < 2 * (line :: texts).length ↔ stop < 2 * texts.length := by
          rw [List.length_cons]
          omega
        have hodd : (stop + 2) % 2 = 1 ↔ stop % 2 = 1 := by omega
        unfold Torn
        rw [hlength, hodd]
      have hstart : Spoiled all ⟨t.ended ++ [t.last ++ line], ""⟩ ↔ Spoiled all t := by
        have hbad := bad_append_iff hall hline t.last
        simp only [Spoiled, List.mem_append, List.mem_singleton, or_and_right, exists_or,
          exists_eq_left, hbad, ne_eq, not_true_eq_false, or_false]
      rw [htorn, ← hstart]
      exact hlater

/-- So do writers one after another, as soon as one of them is stopped there. -/
theorem spoiled_attempts_iff (hall : Distinguishable texts) (t : Text) (stops : List ℕ) :
    Spoiled texts (attempts texts t stops) ↔ Spoiled texts t ∨ ∃ stop ∈ stops, Torn texts stop := by
  induction stops generalizing t with
  | nil =>
    show Spoiled texts t ↔ _
    simp
  | cons stop stops ih =>
    show Spoiled texts (attempts texts _ stops) ↔ _
    rw [ih, spoiled_take_iff hall fun _ hmem => hmem, or_assoc, List.exists_mem_cons_iff]

/-- After one that is not stopped, a file has a bad line exactly when it was spoiled. -/
theorem bad_writeAll_iff (hall : Distinguishable texts) (hne : texts ≠ []) (t : Text) :
    (∃ line ∈ (t.writeAll (lineWrites texts)).lines, Bad texts line) ↔ Spoiled texts t := by
  have hwhole := spoiled_take_iff hall (fun _ hmem => hmem) t (2 * texts.length)
  have hnever : ¬ Torn texts (2 * texts.length) := fun htorn => Nat.lt_irrefl _ htorn.1
  rw [or_iff_left hnever, ← length_lineWrites, List.take_length] at hwhole
  have hended : (t.writeAll (lineWrites texts)).last = "" := by
    obtain ⟨line, rest, rfl⟩ := List.exists_cons_of_ne_nil hne
    rw [writeAll_lineWrites]
  rw [← hwhole]
  unfold Spoiled Text.lines
  rw [hended]
  simp [Bad]

end Lines
