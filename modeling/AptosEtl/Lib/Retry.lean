import Mathlib.Data.List.Defs
import Mathlib.Data.List.Perm.Basic
import Mathlib.Data.List.Forall2

/-!
# Sending again what failed

A sender attempts to send messages, and each attempt succeeds, which delivers the message, or fails,
which delivers nothing. A batch is attempted as a whole, and then each message of it that failed is
attempted again until it succeeds. `Batch` describes the attempts of such a sender, whatever failed
and however often, and `Batch.delivered_perm` says that they deliver each message once.
-/

namespace Retry

universe u

variable {μ : Type u}

/-- An attempt to send a message, and whether it succeeded. -/
structure Attempt (μ : Type u) where
  message : μ
  ok : Bool
  deriving DecidableEq, Repr

/-- The messages that attempts deliver. -/
def delivered (attempts : List (Attempt μ)) : List μ :=
  (attempts.filter (·.ok)).map (·.message)

/-- The attempts of a message that fails some times and then succeeds. -/
def untilSuccess (message : μ) (failures : ℕ) : List (Attempt μ) :=
  List.replicate failures ⟨message, false⟩ ++ [⟨message, true⟩]

/-- The attempts after those of a batch: each message that failed, in order, until it succeeds. -/
inductive Resent : List (Attempt μ) → List (Attempt μ) → Prop where
  | nil : Resent [] []
  | ok {message : μ} {firsts resends : List (Attempt μ)} (rest : Resent firsts resends) :
    Resent (⟨message, true⟩ :: firsts) resends
  | failed {message : μ} {failures : ℕ} {firsts resends : List (Attempt μ)}
    (rest : Resent firsts resends) :
    Resent (⟨message, false⟩ :: firsts) (untilSuccess message failures ++ resends)

/-- The attempts of a batch: one for each message in order, and then those for the messages that
failed. -/
def Batch (messages : List μ) (attempts : List (Attempt μ)) : Prop :=
  ∃ firsts resends, firsts.map (·.message) = messages ∧ Resent firsts resends ∧
    attempts = firsts ++ resends

/-- Only finitely many attempts fail. -/
def FinitelyMany (fails : ℕ → Bool) : Prop := ∃ bound, ∀ n, bound ≤ n → fails n = false

@[simp] theorem delivered_nil : delivered ([] : List (Attempt μ)) = [] := rfl

@[simp] theorem delivered_append (attempts attempts' : List (Attempt μ)) :
    delivered (attempts ++ attempts') = delivered attempts ++ delivered attempts' := by
  simp [delivered]

@[simp] theorem delivered_cons_ok (message : μ) (attempts : List (Attempt μ)) :
    delivered (⟨message, true⟩ :: attempts) = message :: delivered attempts := rfl

@[simp] theorem delivered_cons_failed (message : μ) (attempts : List (Attempt μ)) :
    delivered (⟨message, false⟩ :: attempts) = delivered attempts := rfl

/-- A message that failed, and then is sent until it succeeds. -/
theorem untilSuccess_succ (message : μ) (failures : ℕ) :
    untilSuccess message (failures + 1) = ⟨message, false⟩ :: untilSuccess message failures := rfl

/-- A message that is sent until it succeeds is delivered once. -/
@[simp] theorem delivered_untilSuccess (message : μ) (failures : ℕ) :
    delivered (untilSuccess message failures) = [message] := by
  induction failures with
  | zero => rfl
  | succ failures ih => rw [untilSuccess_succ, delivered_cons_failed, ih]

/-- What is sent again delivers what the first attempts did not. -/
theorem Resent.delivered_perm {firsts resends : List (Attempt μ)} (h : Resent firsts resends) :
    (delivered firsts ++ delivered resends).Perm (firsts.map (·.message)) := by
  induction h with
  | nil => simp
  | @ok message firsts resends _ ih =>
    rw [delivered_cons_ok, List.cons_append, List.map_cons]
    exact ih.cons message
  | @failed message failures firsts resends _ ih =>
    rw [delivered_cons_failed, delivered_append, delivered_untilSuccess, List.map_cons]
    exact List.perm_middle.trans (ih.cons message)

/-- The attempts of a batch deliver each of its messages once. -/
theorem Batch.delivered_perm {messages : List μ} {attempts : List (Attempt μ)}
    (h : Batch messages attempts) : (delivered attempts).Perm messages := by
  obtain ⟨firsts, resends, rfl, hresent, rfl⟩ := h
  rw [delivered_append]
  exact hresent.delivered_perm

/-- So do the attempts of several batches. -/
theorem delivered_flatten_perm {batches : List (List μ)} {attempts : List (List (Attempt μ))}
    (h : List.Forall₂ Batch batches attempts) :
    (delivered attempts.flatten).Perm batches.flatten := by
  induction h with
  | nil => exact List.Perm.refl _
  | cons hbatch _ ih =>
    rw [List.flatten_cons, List.flatten_cons, delivered_append]
    exact hbatch.delivered_perm.append ih

/-! ## Chunks -/

/-- The items that are collected, in order: the chunks so far, the one that grows, and the rest. -/
theorem flatten_toChunks_go (n : ℕ) (xs : List μ) (acc : Array μ) (chunks : Array (List μ)) :
    (List.toChunks.go n xs acc chunks).flatten = chunks.toList.flatten ++ (acc.toList ++ xs) := by
  induction xs generalizing acc chunks with
  | nil => simp [List.toChunks.go]
  | cons x xs ih =>
    unfold List.toChunks.go
    split_ifs
    · rw [ih]
      simp
    · rw [ih]
      simp

/-- Chunks neither drop nor repeat an item. -/
theorem flatten_toChunks (n : ℕ) (xs : List μ) : (xs.toChunks n).flatten = xs := by
  match n, xs with
  | 0, [] | _ + 1, [] => rfl
  | 0, x :: xs => simp [List.toChunks]
  | n + 1, x :: xs =>
    rw [List.toChunks, flatten_toChunks_go]
    · rfl
    · rintro ⟨⟩

end Retry
