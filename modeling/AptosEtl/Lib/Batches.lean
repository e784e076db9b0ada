import Mathlib.Data.List.Basic
import Mathlib.Order.Basic

/-!
# Reading batches up to an item

A reader takes batches from a source that may fail or run out, looks at the items of a batch one
by one, and stops at the first item with a given key. It stops in two places: inside a batch, and
after a batch whose last item was the one. `scan` says which items such a reader sees and how its
reading ends, without the work it does on them, so that what depends on the batches is separated
from what depends on the items.
-/

namespace Rust

universe u v w

variable {α : Type u} {κ : Type v} {φ : Type w}

/-- The items of a list through the first one that satisfies a predicate. -/
def takeThrough (p : α → Bool) : List α → List α
  | [] => []
  | x :: xs => if p x then [x] else x :: takeThrough p xs

/-- A list without an item that satisfies the predicate is taken as a whole. -/
theorem takeThrough_eq_self {p : α → Bool} {xs : List α} (h : ∀ x ∈ xs, p x = false) :
    takeThrough p xs = xs := by
  induction xs with
  | nil => rfl
  | cons x xs ih =>
    rw [takeThrough, h x List.mem_cons_self, if_neg Bool.false_ne_true,
      ih fun y hy => h y (List.mem_cons_of_mem x hy)]

/-- What follows the first item that satisfies the predicate is not taken. -/
theorem takeThrough_append_cons {p : α → Bool} {xs : List α} {x : α} (ys : List α)
    (h : ∀ y ∈ xs, p y = false) (hx : p x = true) :
    takeThrough p (xs ++ x :: ys) = xs ++ [x] := by
  induction xs with
  | nil => simp [takeThrough, hx]
  | cons y xs ih =>
    rw [List.cons_append, takeThrough, h y List.mem_cons_self, if_neg Bool.false_ne_true,
      ih fun z hz => h z (List.mem_cons_of_mem y hz), List.cons_append]

/-- The taken items before the last one do not satisfy the predicate. -/
theorem takeThrough_eq_append {p : α → Bool} {xs done : List α} {x : α} (rest : List α)
    (h : takeThrough p xs = done ++ x :: rest) : (∀ y ∈ done, p y = false) ∧
      (p x = true → rest = []) := by
  induction xs generalizing done with
  | nil => simp [takeThrough] at h
  | cons y xs ih =>
    rw [takeThrough] at h
    split_ifs at h with hy
    · cases done with
      | nil =>
        obtain ⟨-, rfl⟩ := List.cons.inj h
        exact ⟨nofun, fun _ => rfl⟩
      | cons z done => simp at h
    · cases done with
      | nil =>
        obtain ⟨rfl, -⟩ := List.cons.inj h
        exact ⟨nofun, fun hx => absurd hx hy⟩
      | cons z done =>
        obtain ⟨rfl, htail⟩ := List.cons.inj h
        obtain ⟨hdone, hrest⟩ := ih htail
        refine ⟨fun w hw => ?_, hrest⟩
        rcases List.mem_cons.1 hw with rfl | hw
        · simpa using hy
        · exact hdone w hw

/-- Items that do not satisfy the predicate are taken, and then what follows. -/
theorem takeThrough_append {p : α → Bool} {xs : List α} (ys : List α)
    (h : ∀ x ∈ xs, p x = false) : takeThrough p (xs ++ ys) = xs ++ takeThrough p ys := by
  induction xs with
  | nil => rfl
  | cons x xs ih =>
    rw [List.cons_append, takeThrough, h x List.mem_cons_self, if_neg Bool.false_ne_true,
      ih fun y hy => h y (List.mem_cons_of_mem x hy), List.cons_append]

/-- What is taken are the first items, and where they are not all items the last one taken satisfies
the predicate. -/
theorem takeThrough_prefix (p : α → Bool) (xs : List α) :
    takeThrough p xs = xs ∨
      ∃ done x rest, takeThrough p xs = done ++ [x] ∧ p x = true ∧ xs = done ++ x :: rest := by
  induction xs with
  | nil => exact .inl rfl
  | cons x xs ih =>
    rw [takeThrough]
    split_ifs with hx
    · exact .inr ⟨[], x, xs, rfl, hx, rfl⟩
    · rcases ih with hall | ⟨done, y, rest, htaken, hy, hsplit⟩
      · exact .inl (by rw [hall])
      · refine .inr ⟨x :: done, y, rest, ?_, hy, ?_⟩
        · rw [htaken, List.cons_append]
        · rw [hsplit, List.cons_append]

/-- Where an item satisfies the predicate, the last one taken does. -/
theorem takeThrough_of_mem {p : α → Bool} {xs : List α} {x : α} (hx : x ∈ xs) (hp : p x = true) :
    ∃ done last, takeThrough p xs = done ++ [last] ∧ p last = true := by
  rcases takeThrough_prefix p xs with hall | ⟨done, last, _, htaken, hlast, -⟩
  · obtain ⟨done, rest, hsplit⟩ := List.append_of_mem hx
    rw [hall]
    rw [hsplit] at hall
    obtain ⟨-, hrest⟩ := takeThrough_eq_append rest hall
    obtain rfl := hrest hp
    exact ⟨done, x, hsplit, hp⟩
  · exact ⟨done, last, htaken, hlast⟩

/-- Where an item satisfies the predicate, what follows is not taken. -/
theorem takeThrough_append_of_mem {p : α → Bool} {xs : List α} {x : α} (ys : List α) (hx : x ∈ xs)
    (hp : p x = true) : takeThrough p (xs ++ ys) = takeThrough p xs := by
  induction xs with
  | nil => exact absurd hx List.not_mem_nil
  | cons y xs ih =>
    rw [List.cons_append, takeThrough, takeThrough]
    by_cases hy : p y = true
    · rw [if_pos hy, if_pos hy]
    · rw [if_neg hy, if_neg hy, ih ((List.mem_cons.1 hx).resolve_left fun heq => hy (heq ▸ hp))]

/-- What the items around one give is nothing exactly when all of them together give what this one
gives. -/
theorem flatMap_append_cons_eq_iff {β : Type v} {f : α → List β} {done rest : List α} {x : α} :
    (done ++ x :: rest).flatMap f = f x ↔ ∀ y ∈ done ++ rest, f y = [] := by
  rw [List.flatMap_append, List.flatMap_cons, List.forall_mem_append,
    ← List.flatMap_eq_nil_iff, ← List.flatMap_eq_nil_iff]
  constructor
  · intro h
    have hlength := congrArg List.length h
    simp only [List.length_append] at hlength
    exact ⟨List.length_eq_zero_iff.1 (by omega), List.length_eq_zero_iff.1 (by omega)⟩
  · rintro ⟨hdone, hrest⟩
    rw [hdone, hrest, List.nil_append, List.append_nil]

/-- How a reading ends: the source runs out, the source fails, or the key is reached. -/
inductive Ending (φ : Type w) where
  | Exhausted
  | Failed (failure : φ)
  | Reached
  deriving DecidableEq, Repr

/-- The key of the last item seen, from the key before. -/
def lastKey (key : α → κ) (items : List α) (cur : κ) : κ := (items.getLast?.map key).getD cur

@[simp] theorem lastKey_nil (key : α → κ) (cur : κ) : lastKey key [] cur = cur := rfl

@[simp] theorem lastKey_concat (key : α → κ) (items : List α) (x : α) (cur : κ) :
    lastKey key (items ++ [x]) cur = key x := by
  simp [lastKey]

/-- The last key of items none of which has a given key is not that key. -/
theorem lastKey_ne {key : α → κ} {stop : κ} {items : List α} (cur : κ) (hne : items ≠ [])
    (h : ∀ x ∈ items, key x ≠ stop) : lastKey key items cur ≠ stop := by
  obtain ⟨init, x, rfl⟩ := (List.eq_nil_or_concat items).resolve_left hne
  rw [List.concat_eq_append, lastKey_concat]
  exact h x (by simp)

/-- The last key is the key before or that of an item, so that what holds of these holds of it. -/
theorem lastKey_induction {P : κ → Prop} {key : α → κ} {items : List α} {cur : κ} (hcur : P cur)
    (hitems : ∀ x ∈ items, P (key x)) : P (lastKey key items cur) := by
  rcases List.eq_nil_or_concat items with rfl | ⟨init, x, rfl⟩
  · exact hcur
  · rw [List.concat_eq_append] at hitems ⊢
    rw [lastKey_concat]
    exact hitems x (List.mem_append_right init (List.mem_singleton_self x))

section Ordered

variable [LE κ] [LT κ] [Std.LawfulOrderLT κ] {key : α → κ} {items : List α}

/-- Where the keys increase, no item is after the last key. -/
theorem le_lastKey [Std.IsPreorder κ] (h : items.Pairwise fun x y => key x < key y) (cur : κ)
    {x : α} (hx : x ∈ items) : key x ≤ lastKey key items cur := by
  rcases List.eq_nil_or_concat items with rfl | ⟨init, last, rfl⟩
  · exact absurd hx List.not_mem_nil
  · rw [List.concat_eq_append] at h hx ⊢
    rw [lastKey_concat]
    obtain ⟨-, -, hbetween⟩ := List.pairwise_append.1 h
    rcases List.mem_append.1 hx with hinit | hlast
    · exact Std.le_of_lt (hbetween x hinit last (List.mem_singleton_self last))
    · rw [List.mem_singleton.1 hlast]
      exact Std.le_refl _

/-- Where the keys increase, the last key is not after an item that follows. -/
theorem lastKey_le {rest : List α} (h : (items ++ rest).Pairwise fun x y => key x < key y)
    {cur : κ} {y : α} (hy : y ∈ rest) (hcur : cur ≤ key y) : lastKey key items cur ≤ key y := by
  obtain ⟨-, -, hbetween⟩ := List.pairwise_append.1 h
  exact lastKey_induction (P := (· ≤ key y)) hcur fun x hx => Std.le_of_lt (hbetween x hx y hy)

end Ordered

/-- The items that a source delivers, in all its batches. -/
def delivered : List (Except φ (List α)) → List α
  | [] => []
  | .error _ :: rest => delivered rest
  | .ok batch :: rest => batch ++ delivered rest

/-- The items that a source delivers before it first fails. -/
def beforeFailure : List (Except φ (List α)) → List α
  | [] => []
  | .error _ :: _ => []
  | .ok batch :: rest => batch ++ beforeFailure rest

/-- The source starts with a batch without items. -/
def StartsEmpty (batches : List (Except φ (List α))) : Prop :=
  ∃ rest, batches = .ok [] :: rest

section Scan

variable [DecidableEq κ] (key : α → κ) (stop : κ)

/-- The items that a reader sees and the end of its reading. The key of the last item seen is
compared after every batch, also after a batch without items. -/
def scan : List (Except φ (List α)) → κ → List α × Ending φ
  | [], _ => ([], .Exhausted)
  | .error failure :: _, _ => ([], .Failed failure)
  | .ok batch :: rest, cur =>
    let taken := takeThrough (fun x => key x = stop) batch
    let cur := lastKey key taken cur
    if cur = stop then (taken, .Reached) else (taken ++ (scan rest cur).1, (scan rest cur).2)

/-- The items that a reader sees are the first ones that are delivered. -/
theorem scan_prefix (batches : List (Except φ (List α))) (cur : κ) :
    ∃ rest, delivered batches = (scan key stop batches cur).1 ++ rest := by
  induction batches generalizing cur with
  | nil => exact ⟨[], rfl⟩
  | cons batch batches ih =>
    cases batch with
    | error failure => exact ⟨delivered batches, rfl⟩
    | ok batch =>
      rw [delivered, scan]
      rcases takeThrough_prefix (fun x => decide (key x = stop)) batch with
        hall | ⟨done, x, rest, htaken, hx, hsplit⟩
      · rw [hall]
        split_ifs with hcur
        · exact ⟨_, rfl⟩
        · obtain ⟨rest, hrest⟩ := ih (lastKey key batch cur)
          exact ⟨rest, by rw [hrest, List.append_assoc]⟩
      · -- a batch that is cut short is the last one that is seen
        have hcur : lastKey key (done ++ [x]) cur = stop := by
          rw [lastKey_concat]
          simpa using hx
        rw [htaken, if_pos hcur, hsplit]
        exact ⟨rest ++ delivered batches, by simp⟩

variable {key stop}

/-- A reading that sees an item with the key ends there. -/
theorem scan_reached_of_mem {batches : List (Except φ (List α))} {cur : κ} {x : α}
    (hx : x ∈ (scan key stop batches cur).1) (hkey : key x = stop) :
    (scan key stop batches cur).2 = .Reached := by
  induction batches generalizing cur with
  | nil => simp [scan] at hx
  | cons batch rest ih =>
    cases batch with
    | error failure => simp [scan] at hx
    | ok batch =>
      simp only [scan] at hx ⊢
      split_ifs at hx ⊢ with hcur
      · rfl
      · rcases List.mem_append.1 hx with hx | hx
        · -- an item with the key is the last one taken of its batch
          exfalso
          obtain ⟨done, tail, hsplit⟩ := List.append_of_mem hx
          obtain ⟨-, htail⟩ := takeThrough_eq_append tail hsplit
          obtain rfl := htail (by simpa using hkey)
          rw [hsplit, lastKey_concat] at hcur
          exact hcur hkey
        · exact ih hx

/-- A reading that runs out has seen all items, none of them with the key, and no failure. -/
theorem scan_of_exhausted {batches : List (Except φ (List α))} {cur : κ}
    (h : (scan key stop batches cur).2 = .Exhausted) :
    (scan key stop batches cur).1 = delivered batches ∧
      (∀ failure, .error failure ∉ batches) ∧ ∀ x ∈ delivered batches, key x ≠ stop := by
  have hall : (scan key stop batches cur).1 = delivered batches ∧
      ∀ failure, .error failure ∉ batches := by
    induction batches generalizing cur with
    | nil => exact ⟨rfl, fun _ => List.not_mem_nil⟩
    | cons batch rest ih =>
      cases batch with
      | error failure => exact nomatch h
      | ok batch =>
        simp only [scan] at h ⊢
        split_ifs at h ⊢ with hcur
        obtain ⟨hrest, hfailures⟩ := ih h
        -- a batch that is cut short would have ended the reading
        have htaken : takeThrough (fun x => decide (key x = stop)) batch = batch := by
          rcases takeThrough_prefix (fun x => decide (key x = stop)) batch with
            hall | ⟨done, x, tail, htaken, hx, -⟩
          · exact hall
          · rw [htaken, lastKey_concat] at hcur
            exact absurd (of_decide_eq_true hx) hcur
        rw [htaken] at hrest ⊢
        exact ⟨by rw [hrest, delivered], by simpa using hfailures⟩
  refine ⟨hall.1, hall.2, fun x hx hkey => ?_⟩
  rw [← hall.1] at hx
  exact absurd (h.symm.trans (scan_reached_of_mem hx hkey)) nofun

/-- A batch with an item that has the key is the last one that is read. -/
theorem scan_cons_of_mem {batch : List α} {x : α} (rest : List (Except φ (List α))) (cur : κ)
    (hx : x ∈ batch) (hkey : key x = stop) :
    scan key stop (.ok batch :: rest) cur =
      (takeThrough (fun x => key x = stop) batch, .Reached) := by
  obtain ⟨done, last, htaken, hlast⟩ := takeThrough_of_mem (p := fun x => decide (key x = stop)) hx
    (decide_eq_true hkey)
  have hcur : lastKey key (done ++ [last]) cur = stop := by
    rw [lastKey_concat]
    exact of_decide_eq_true hlast
  simp only [scan, htaken, if_pos hcur]

/-- After a batch without such an item, a reader goes on, if it has seen an item or looks for
another key than the one it starts with. -/
theorem scan_cons_of_not_mem {batch : List α} (rest : List (Except φ (List α))) {cur : κ}
    (hkey : ∀ x ∈ batch, key x ≠ stop) (hfirst : cur = stop → batch ≠ []) :
    ∃ cur', cur' ≠ stop ∧ scan key stop (.ok batch :: rest) cur =
      (batch ++ (scan key stop rest cur').1, (scan key stop rest cur').2) := by
  have htaken : takeThrough (fun x => decide (key x = stop)) batch = batch :=
    takeThrough_eq_self fun x hx => decide_eq_false (hkey x hx)
  have hcur : lastKey key batch cur ≠ stop := by
    by_cases hempty : batch = []
    · rw [hempty, lastKey_nil]
      exact fun hstop => hfirst hstop hempty
    · exact lastKey_ne cur hempty hkey
  exact ⟨_, hcur, by simp only [scan, htaken, if_neg hcur]⟩

/-- A reader whose first batch is empty stops at once if it looks for the key that it starts
with. -/
theorem scan_of_startsEmpty {batches : List (Except φ (List α))} (h : StartsEmpty batches) :
    scan key stop batches stop = ([], .Reached) := by
  obtain ⟨rest, rfl⟩ := h
  exact if_pos rfl

section Starts

variable {batches : List (Except φ (List α))} {cur : κ}

/-- The first batch, where it is one, is not empty. -/
theorem ne_nil_of_not_startsEmpty {batch : List α} {rest : List (Except φ (List α))}
    (h : ¬ StartsEmpty (.ok batch :: rest)) : batch ≠ [] := by
  rintro rfl
  exact h ⟨rest, rfl⟩

/-- Any other reader sees the items that are delivered before a failure, through the first one with
the key. -/
theorem scan_fst (hfirst : cur = stop → ¬ StartsEmpty batches) :
    (scan key stop batches cur).1 =
      takeThrough (fun x => key x = stop) (beforeFailure batches) := by
  induction batches generalizing cur with
  | nil => rfl
  | cons batch rest ih =>
    cases batch with
    | error failure => rfl
    | ok batch =>
      rw [beforeFailure]
      by_cases hmem : ∃ x ∈ batch, key x = stop
      · obtain ⟨x, hx, hkey⟩ := hmem
        rw [scan_cons_of_mem rest cur hx hkey, takeThrough_append_of_mem _ hx (by simpa using hkey)]
      · have hkey : ∀ x ∈ batch, key x ≠ stop := fun x hx hkey => hmem ⟨x, hx, hkey⟩
        obtain ⟨cur', hcur', hscan⟩ := scan_cons_of_not_mem rest hkey
          fun hstop => ne_nil_of_not_startsEmpty (hfirst hstop)
        rw [hscan, ih fun hstop => absurd hstop hcur',
          takeThrough_append _ fun x hx => decide_eq_false (hkey x hx)]

/-- It reaches the key exactly when an item with it is delivered before a failure. -/
theorem scan_reached_iff (hfirst : cur = stop → ¬ StartsEmpty batches) :
    (scan key stop batches cur).2 = .Reached ↔ ∃ x ∈ beforeFailure batches, key x = stop := by
  induction batches generalizing cur with
  | nil => simp [scan, beforeFailure]
  | cons batch rest ih =>
    cases batch with
    | error failure => simp [scan, beforeFailure]
    | ok batch =>
      rw [beforeFailure]
      by_cases hmem : ∃ x ∈ batch, key x = stop
      · obtain ⟨x, hx, hkey⟩ := hmem
        rw [scan_cons_of_mem rest cur hx hkey]
        exact iff_of_true rfl ⟨x, List.mem_append_left _ hx, hkey⟩
      · have hkey : ∀ x ∈ batch, key x ≠ stop := fun x hx hkey => hmem ⟨x, hx, hkey⟩
        obtain ⟨cur', hcur', hscan⟩ := scan_cons_of_not_mem rest hkey
          fun hstop => ne_nil_of_not_startsEmpty (hfirst hstop)
        rw [hscan, ih fun hstop => absurd hstop hcur']
        simp only [List.mem_append, or_and_right, exists_or, hmem, false_or]

/-- It fails exactly when the source does, and no item with the key is delivered before. -/
theorem scan_failed_iff (hfirst : cur = stop → ¬ StartsEmpty batches) :
    (∃ failure, (scan key stop batches cur).2 = .Failed failure) ↔
      (∃ failure, .error failure ∈ batches) ∧ ∀ x ∈ beforeFailure batches, key x ≠ stop := by
  induction batches generalizing cur with
  | nil => simp [scan]
  | cons batch rest ih =>
    cases batch with
    | error failure => simp [scan, beforeFailure]
    | ok batch =>
      rw [beforeFailure]
      by_cases hmem : ∃ x ∈ batch, key x = stop
      · obtain ⟨x, hx, hkey⟩ := hmem
        rw [scan_cons_of_mem rest cur hx hkey]
        refine iff_of_false (by simp) fun h => ?_
        exact h.2 x (List.mem_append_left _ hx) hkey
      · have hkey : ∀ x ∈ batch, key x ≠ stop := fun x hx hkey => hmem ⟨x, hx, hkey⟩
        obtain ⟨cur', hcur', hscan⟩ := scan_cons_of_not_mem rest hkey
          fun hstop => ne_nil_of_not_startsEmpty (hfirst hstop)
        rw [hscan, ih fun hstop => absurd hstop hcur', List.forall_mem_append,
          and_iff_right hkey]
        simp

/-- A reader that reaches its key has seen an item with it last. -/
theorem exists_concat_of_reached (hfirst : cur = stop → ¬ StartsEmpty batches)
    (h : (scan key stop batches cur).2 = .Reached) :
    ∃ items last, (scan key stop batches cur).1 = items ++ [last] ∧ key last = stop := by
  obtain ⟨x, hx, hkey⟩ := (scan_reached_iff hfirst).1 h
  obtain ⟨items, last, htaken, hlast⟩ :=
    takeThrough_of_mem (p := fun x => decide (key x = stop)) hx (decide_eq_true hkey)
  exact ⟨items, last, (scan_fst hfirst).trans htaken, of_decide_eq_true hlast⟩

end Starts

/-- Batches that are delivered are delivered before a failure. -/
theorem beforeFailure_map_ok (batches : List (List α)) (rest : List (Except φ (List α))) :
    beforeFailure (batches.map .ok ++ rest) = batches.flatten ++ beforeFailure rest := by
  induction batches with
  | nil => rfl
  | cons batch batches ih =>
    rw [List.map_cons, List.cons_append, beforeFailure, ih, List.flatten_cons, List.append_assoc]

/-- Where non-empty batches hold together some items, the last of which is the first with the key,
a reader sees exactly these, whatever the batches and whatever follows. -/
theorem scan_of_flatten {items beyond : List α} {last : α} {batches : List (List α)}
    (rest : List (Except φ (List α))) {cur : κ} (hne : ∀ batch ∈ batches, batch ≠ [])
    (hflatten : batches.flatten = items ++ last :: beyond) (hlast : key last = stop)
    (hitems : ∀ x ∈ items, key x ≠ stop) :
    scan key stop (batches.map .ok ++ rest) cur = (items ++ [last], .Reached) := by
  have hfirst : ¬ StartsEmpty (batches.map .ok ++ rest) := by
    rintro ⟨tail, htail⟩
    cases batches with
    | nil => simp at hflatten
    | cons batch batches =>
      obtain ⟨hempty, -⟩ := List.cons.inj htail
      exact hne batch List.mem_cons_self (Except.ok.inj hempty)
  have hdelivered : beforeFailure (batches.map .ok ++ rest) =
      items ++ last :: (beyond ++ beforeFailure rest) := by
    rw [beforeFailure_map_ok, hflatten, List.append_assoc, List.cons_append]
  refine Prod.ext ?_ ?_
  · rw [scan_fst fun _ => hfirst, hdelivered]
    exact takeThrough_append_cons _ (fun x hx => decide_eq_false (hitems x hx))
      (decide_eq_true hlast)
  · rw [scan_reached_iff fun _ => hfirst, hdelivered]
    exact ⟨last, by simp, hlast⟩

end Scan

end Rust
