import Mathlib.Data.List.Dedup
import Mathlib.Data.List.Perm.Basic

/-!
# Stores in which the last write stays

A store is written to under keys, and a key is left with the last write to it. Where the writes to
one key are all the same, nothing depends on their order or on how often each was done: what the
store lists is each write once (`listing_perm`).
-/

universe u v

namespace LastWrite

variable {ω : Type u} {κ : Type v} [DecidableEq κ] (key : ω → κ)

/-- The write that a key is left with. -/
def current (writes : List ω) (k : κ) : Option ω := writes.reverse.find? fun w => key w = k

/-- The writes that the keys are left with, one for each key that was written to. -/
def listing (writes : List ω) : List ω := (writes.map key).dedup.filterMap (current key writes)

variable {key} {writes distinct : List ω} {k : κ} {w : ω}

/-- What a key is left with was written to it. -/
theorem of_current (h : current key writes k = some w) : w ∈ writes ∧ key w = k := by
  rw [current] at h
  have hkey := List.find?_some h
  exact ⟨List.mem_reverse.1 (List.mem_of_find?_eq_some h), of_decide_eq_true hkey⟩

/-- A write replaces what its key was left with, and nothing else. -/
theorem current_concat (writes : List ω) (w : ω) (k : κ) :
    current key (writes ++ [w]) k = if key w = k then some w else current key writes k := by
  rw [current, List.reverse_concat, List.find?_cons]
  by_cases hk : key w = k
  · rw [decide_eq_true hk, if_pos hk]
  · rw [decide_eq_false hk, if_neg hk, current]

/-- A key that was written to is left with something. -/
theorem exists_current (h : k ∈ writes.map key) : ∃ w, current key writes k = some w := by
  obtain ⟨w, hw, rfl⟩ := List.mem_map.1 h
  have hfound : (writes.reverse.find? fun w' => key w' = key w).isSome = true :=
    List.find?_isSome.2 ⟨w, List.mem_reverse.2 hw, decide_eq_true rfl⟩
  exact Option.isSome_iff_exists.1 hfound

/-- A write is listed when its key is left with it. -/
theorem mem_listing : w ∈ listing key writes ↔ current key writes (key w) = some w := by
  rw [listing, List.mem_filterMap]
  constructor
  · rintro ⟨k, -, hk⟩
    rw [(of_current hk).2]
    exact hk
  · intro h
    exact ⟨key w, List.mem_dedup.2 (List.mem_map_of_mem (of_current h).1), h⟩

/-- No write is listed twice. -/
theorem nodup_listing : (listing key writes).Nodup := by
  refine List.Nodup.filterMap ?_ (List.nodup_dedup _)
  intro k k' w (hw : current key writes k = some w) (hw' : current key writes k' = some w)
  rw [← (of_current hw).2, ← (of_current hw').2]

/-- Where no key is written to with different writes, all of them are listed. -/
theorem mem_listing_of_consistent
    (hconsistent : ∀ w ∈ writes, ∀ w' ∈ writes, key w = key w' → w = w') :
    w ∈ listing key writes ↔ w ∈ writes := by
  rw [mem_listing]
  constructor
  · exact fun h => (of_current h).1
  · intro hw
    have hkey : key w ∈ writes.map key := List.mem_map_of_mem hw
    obtain ⟨w', hw'⟩ := exists_current hkey
    obtain ⟨hmem, hkey⟩ := of_current hw'
    rw [hw', hconsistent w' hmem w hw hkey]

/-- Writes that are done in any order, and any number of times, to a key of their own each: the
listing has each of them once. -/
theorem listing_perm (hdistinct : (distinct.map key).Nodup)
    (hwrites : ∀ w, w ∈ writes ↔ w ∈ distinct) : (listing key writes).Perm distinct := by
  have hconsistent : ∀ w ∈ writes, ∀ w' ∈ writes, key w = key w' → w = w' :=
    fun w hw w' hw' hkey =>
      List.inj_on_of_nodup_map hdistinct ((hwrites w).1 hw) ((hwrites w').1 hw') hkey
  refine (List.perm_ext_iff_of_nodup nodup_listing hdistinct.of_map).2 fun w => ?_
  rw [mem_listing_of_consistent hconsistent, hwrites]

end LastWrite
