import Mathlib.Data.List.Forall2

/-!
# Reading a delimited text back

A text is written in words, which have no delimiter in them, and delimiters between them. A text
`Stopped` at its start is empty or goes on with a delimiter. A word in front of a stopped text is
then determined by the two together (`Word.append_inj`).

`ReadsBack` says the same of a whole language: what was written, up to a key, and the text after it
are determined by the two together, where that text may go on with certain delimiters only. A list
of such texts with a comma between them reads back element by element (`ReadsBack.joined`).
-/

namespace Delimited

universe u v w

variable {α : Type u} {β : Type v} {κ : Type w}

/-! ## Words -/

/-- A text without a delimiter. -/
def Word (sep : α → Prop) (text : List α) : Prop := ∀ c ∈ text, ¬ sep c

/-- A text that is empty or starts with a delimiter. -/
def Stopped (sep : α → Prop) (text : List α) : Prop := ∀ c ∈ text.head?, sep c

variable {sep follow : α → Prop} {t u r s : List α} {c d : α}

/-- A text that is empty is stopped. -/
theorem stopped_nil : Stopped sep ([] : List α) := nofun

/-- A text that starts with a delimiter is stopped. -/
theorem stopped_cons (hc : sep c) : Stopped sep (c :: r) := by
  rintro _ ⟨⟩
  exact hc

/-- What stops a text with fewer delimiters stops it with more. -/
theorem Stopped.mono (hsep : ∀ c, follow c → sep c) (hr : Stopped follow r) : Stopped sep r :=
  fun c hc => hsep c (hr c hc)

/-- A word and the stopped text after it are determined by the two together. -/
theorem Word.append_inj (ht : Word sep t) (hu : Word sep u) (hr : Stopped sep r)
    (hs : Stopped sep s) (h : t ++ r = u ++ s) : t = u ∧ r = s := by
  induction t generalizing u with
  | nil =>
    cases u with
    | nil => exact ⟨rfl, h⟩
    | cons d u =>
      -- the word on the right starts where the text on the left is stopped
      rw [List.nil_append] at h
      subst h
      exact absurd (hr d rfl) (hu d List.mem_cons_self)
  | cons c t ih =>
    cases u with
    | nil =>
      rw [List.nil_append] at h
      subst h
      exact absurd (hs c rfl) (ht c List.mem_cons_self)
    | cons d u =>
      rw [List.cons_append, List.cons_append] at h
      obtain ⟨rfl, htail⟩ := List.cons.inj h
      obtain ⟨rfl, hrest⟩ := ih (fun x hx => ht x (List.mem_cons_of_mem _ hx))
        (fun x hx => hu x (List.mem_cons_of_mem _ hx)) htail
      exact ⟨rfl, hrest⟩

/-- A word, the delimiter after it and the text after that are determined by the three together. -/
theorem Word.append_cons_inj (ht : Word sep t) (hu : Word sep u) (hc : sep c) (hd : sep d)
    (h : t ++ c :: r = u ++ d :: s) : t = u ∧ c = d ∧ r = s := by
  obtain ⟨rfl, hrest⟩ := ht.append_inj hu (stopped_cons hc) (stopped_cons hd) h
  obtain ⟨rfl, rfl⟩ := List.cons.inj hrest
  exact ⟨rfl, rfl, rfl⟩

/-- A word before what may follow is not a word before a delimiter that may not. -/
theorem Word.append_ne (ht : Word sep t) (hu : Word sep u) (hsep : ∀ c, follow c → sep c)
    (hr : Stopped follow r) (hd : sep d) (hnot : ¬ follow d) : t ++ r ≠ u ++ d :: s := by
  intro h
  obtain ⟨-, rfl⟩ := ht.append_inj hu (hr.mono hsep) (stopped_cons hd) h
  exact hnot (hr d rfl)

/-! ## Languages -/

/-- Reading back an element: whatever it was written as, in front of a text that is stopped, its
key and that text are determined. -/
def ReadsBack (follow : α → Prop) (writes : β → List α → Prop) (key : β → κ) (x : β) : Prop :=
  ∀ ⦃y : β⦄ ⦃t u r s : List α⦄, writes x t → writes y u → Stopped follow r → Stopped follow s →
    t ++ r = u ++ s → key x = key y ∧ r = s

variable {writes : β → List α → Prop} {key : β → κ} {comma : α}

/-- Texts with a comma before each of them read back, in front of a text that goes on with something
else. -/
theorem ReadsBack.commas {xs ys : List β} {ts us : List (List α)}
    (hxs : ∀ x ∈ xs, ReadsBack follow writes key x) (hcomma : follow comma)
    (hts : List.Forall₂ writes xs ts) (hus : List.Forall₂ writes ys us)
    (hr : Stopped follow r) (hs : Stopped follow s)
    (hr' : comma ∉ r.head?) (hs' : comma ∉ s.head?)
    (h : ts.flatMap (comma :: ·) ++ r = us.flatMap (comma :: ·) ++ s) :
    xs.map key = ys.map key ∧ r = s := by
  induction hts generalizing ys us with
  | nil =>
    cases hus with
    | nil => exact ⟨rfl, h⟩
    | cons hu hus =>
      rw [List.flatMap_nil, List.nil_append] at h
      exact absurd (by rw [h]; rfl) hr'
  | @cons x t xs ts ht hts ih =>
    cases hus with
    | nil =>
      rw [List.flatMap_nil, List.nil_append] at h
      exact absurd (by rw [← h]; rfl) hs'
    | @cons y u ys us hu hus =>
      rw [List.flatMap_cons, List.flatMap_cons, List.append_assoc, List.append_assoc,
        List.cons_append, List.cons_append] at h
      have hstop : ∀ (vs : List (List α)) (e : List α), Stopped follow e →
          Stopped follow (vs.flatMap (comma :: ·) ++ e) := by
        intro vs e he
        cases vs with
        | nil => exact he
        | cons v vs => exact stopped_cons hcomma
      obtain ⟨hkey, hrest⟩ := hxs x List.mem_cons_self ht hu (hstop ts r hr) (hstop us s hs)
        (List.cons.inj h).2
      obtain ⟨hkeys, hrs⟩ := ih (fun x hx => hxs x (List.mem_cons_of_mem _ hx)) hus hrest
      exact ⟨congrArg₂ List.cons hkey hkeys, hrs⟩

/-- A joined list is its first element and each further one after a comma. -/
theorem intercalate_cons (t : List α) (ts : List (List α)) :
    [comma].intercalate (t :: ts) = t ++ ts.flatMap (comma :: ·) := by
  induction ts generalizing t with
  | nil => simp
  | cons u ts ih =>
    rw [List.intercalate_cons_cons, ih, List.flatMap_cons, List.append_assoc]
    rfl

/-- Two joined lists, neither of them empty, read back element by element. -/
theorem ReadsBack.joined {xs ys : List β} {ts us : List (List α)}
    (hxs : ∀ x ∈ xs, ReadsBack follow writes key x) (hcomma : follow comma)
    (hts : List.Forall₂ writes xs ts) (hus : List.Forall₂ writes ys us) (hne : xs ≠ [])
    (hne' : ys ≠ []) (hr : Stopped follow r) (hs : Stopped follow s)
    (hr' : comma ∉ r.head?) (hs' : comma ∉ s.head?)
    (h : [comma].intercalate ts ++ r = [comma].intercalate us ++ s) :
    xs.map key = ys.map key ∧ r = s := by
  -- the first elements have no comma before them: give them one
  cases hts with
  | nil => contradiction
  | @cons x t xs ts ht hts =>
    cases hus with
    | nil => contradiction
    | @cons y u ys us hu hus =>
      rw [intercalate_cons, intercalate_cons] at h
      refine ReadsBack.commas hxs hcomma (.cons ht hts) (.cons hu hus) hr hs hr' hs' ?_
      rw [List.flatMap_cons, List.flatMap_cons, List.cons_append, List.cons_append,
        List.cons_append, List.cons_append, h]

end Delimited
