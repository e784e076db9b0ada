import AptosEtl.Lib.Machine
import AptosEtl.Lib.Sql
import AptosEtl.Airflow.Warehouse
import Mathlib.Logic.Function.Basic

/-!
# The hourly load

`dag_hourly_aptos_etl_testnet.py`, for one of its tables. A run for an hour removes the rows of the
hour from a temporary table, appends to it what the bucket holds for the hour, and copies the rows
of the hour to the final table. The copy is guarded: where the final table already has rows of the
hour, the rows of the temporary table are deleted first, so that nothing is copied.

The state machine has a step for each attempt of a task, in any interleaving of the hours and of
the uploads to the bucket. What a history means for one hour is kept in a `Ledger`. The tables
agree with it in every history (`Tracks`), which says what the final table holds after a run that
completes (`completedRun_finalRows`).
-/

namespace AptosEtl.Loader

/-! ## Hours -/

/-- The hour of a logical date, days being counted from the epoch. -/
structure Hour where
  date : ℤ
  hour : Fin 24
  deriving DecidableEq, Repr

/-- `DATE` of a timestamp in microseconds. -/
def dateOf (timestamp : ℤ) : ℤ := timestamp / 86400000000

/-- `EXTRACT(HOUR FROM ..)` of a timestamp in microseconds. -/
def hourOf (timestamp : ℤ) : ℤ := timestamp / 3600000000 % 24

/-- `DATE(block_timestamp)='..' AND EXTRACT(HOUR FROM block_timestamp) = ..`. -/
def inHour (h : Hour) (block_timestamp : Option ℤ) : Sql.Truth :=
  (Sql.compare (fun a b => decide (a = b)) (block_timestamp.map dateOf) (some h.date)).and
    (Sql.compare (fun a b => decide (a = b)) (block_timestamp.map hourOf) (some (h.hour : ℤ)))

/-- A timestamp is in an hour when it is not `NULL` and has its date and its hour. -/
theorem holds_inHour {h : Hour} {block_timestamp : Option ℤ} :
    (inHour h block_timestamp).Holds ↔
      ∃ timestamp ∈ block_timestamp, dateOf timestamp = h.date ∧ hourOf timestamp = h.hour := by
  cases block_timestamp with
  | none => simp [inHour]
  | some timestamp => simp [inHour]

/-- No timestamp is in two hours. -/
theorem eq_of_inHour {h h' : Hour} {block_timestamp : Option ℤ}
    (hin : (inHour h block_timestamp).Holds) (hin' : (inHour h' block_timestamp).Holds) :
    h = h' := by
  obtain ⟨timestamp, hsome, hdate, hhour⟩ := holds_inHour.1 hin
  obtain ⟨timestamp', hsome', hdate', hhour'⟩ := holds_inHour.1 hin'
  obtain rfl : timestamp = timestamp' := Option.some.inj (hsome.symm.trans hsome')
  have hfin : (h.hour : ℤ) = h'.hour := by rw [← hhour, hhour']
  have hhours : h.hour = h'.hour := Fin.ext (Int.natCast_inj.1 hfin)
  have hdates : h.date = h'.date := by rw [← hdate, hdate']
  cases h
  cases h'
  rw [Hour.mk.injEq]
  exact ⟨hdates, hhours⟩

/-! ## The bucket -/

/-- The two directories of an hour. -/
inductive Half where
  | zero
  | thirty
  deriving DecidableEq, Repr

/-- An object of the bucket: its directory and its records. -/
structure Object (α : Type) where
  hour : Hour
  half : Half
  records : List α

/-- `source_objects`: `{BLOCK_DATE}/{BLOCK_HOUR}/0/*.jsonl` and the same with `30`. -/
def sourceObjects (h : Hour) : List (Hour × Half) := [(h, .zero), (h, .thirty)]

/-- The records under the prefixes of an hour. -/
def storedRecords {α : Type} (h : Hour) (bucket : List (Object α)) : List α :=
  (bucket.filter fun object => (object.hour, object.half) ∈ sourceObjects h).flatMap
    Object.records

/-! ## Tasks -/

/-- How an attempt of a task ends: it succeeds, it fails without an effect, or it fails although it
took effect. The last two are retried. -/
inductive Attempt where
  | done
  | failed
  | lost
  deriving DecidableEq, Repr

/-- An attempt takes effect. -/
def Attempt.Effective (attempt : Attempt) : Prop := attempt ≠ .failed

instance (attempt : Attempt) : Decidable attempt.Effective :=
  inferInstanceAs (Decidable (attempt ≠ .failed))

/-- The task that a run has to do next. The copy is a script of two statements. -/
inductive Stage where
  | remove
  | load
  | copy
  | insert
  deriving DecidableEq, Repr

/-- What happens: a run is started, or started again, an attempt of a task ends, or an object is
uploaded. -/
inductive Event (α : Type) where
  | upload (object : Object α)
  | start (h : Hour)
  | remove (h : Hour) (attempt : Attempt)
  | load (h : Hour) (attempt : Attempt)
  | guard (h : Hour) (attempt : Attempt)
  | insert (h : Hour) (attempt : Attempt)

/-- The bucket, the two tables, of which the temporary one may not exist, and the runs. -/
structure State (α : Type) where
  bucket : List (Object α)
  temp : Option (List α)
  final : List α
  stage : Hour → Option Stage

/-- Before the first run. -/
def State.new {α : Type} : State α := ⟨[], none, [], fun _ => none⟩

section Tasks

variable {α : Type} (block_timestamp : α → Option ℤ)

/-- The rows of an hour. -/
def rowsIn (h : Hour) (rows : List α) : List α :=
  Sql.filter (fun row => inHour h (block_timestamp row)) rows

/-- `bq_remove_existing_data_task`, which does nothing without a temporary table. -/
def removeExistingData (h : Hour) (s : State α) : State α :=
  { s with temp := s.temp.map (Sql.delete fun row => inHour h (block_timestamp row)) }

/-- `gcs_bucket_to_temp_bq_task`: `WRITE_APPEND`, and `CREATE_IF_NEEDED`. -/
def gcsBucketToTemp (h : Hour) (s : State α) : State α :=
  { s with temp := some (s.temp.getD [] ++ storedRecords h s.bucket) }

/-- The first statement of `bq_copy_data_task`. -/
def deleteCopied (h : Hour) (s : State α) : State α :=
  if rowsIn block_timestamp h s.final ≠ [] then
    { s with temp := s.temp.map (Sql.delete fun row => inHour h (block_timestamp row)) }
  else
    s

/-- The second statement of `bq_copy_data_task`. -/
def insertRows (h : Hour) (s : State α) : State α :=
  { s with final := s.final ++ rowsIn block_timestamp h (s.temp.getD []) }

/-- The run for an hour goes on to a task. -/
def State.goto (h : Hour) (stage : Option Stage) (s : State α) : State α :=
  { s with stage := Function.update s.stage h stage }

/-- An attempt of a task, from a stage: the next stage if it succeeds, and the one of the retry. -/
def attemptTask (task : State α → State α) (h : Hour) (stage : Stage) (next : Option Stage)
    (retry : Stage) (attempt : Attempt) (s : State α) : Option (State α) :=
  if s.stage h = some stage then
    some ((if attempt.Effective then task s else s).goto h
      (if attempt = .done then next else some retry))
  else
    none

/-- A step of the loader. -/
def step (s : State α) : Event α → Option (State α)
  | .upload object => some { s with bucket := s.bucket ++ [object] }
  | .start h => some (s.goto h (some .remove))
  | .remove h attempt =>
    attemptTask (removeExistingData block_timestamp h) h .remove (some .load) .remove attempt s
  | .load h attempt => attemptTask (gcsBucketToTemp h) h .load (some .copy) .load attempt s
  | .guard h attempt =>
    attemptTask (deleteCopied block_timestamp h) h .copy (some .insert) .copy attempt s
  -- a retry of the copy runs both of its statements
  | .insert h attempt =>
    attemptTask (insertRows block_timestamp h) h .insert none .copy attempt s

end Tasks

/-! ## The ledger of an hour -/

/-- What a history means for one hour: the records under its prefixes, what each load since the last
removal found there, and the loads of the first run that copied a record. -/
structure Ledger (α : Type) where
  stored : List α
  loaded : List (List α)
  copied : Option (List (List α))

section Ledgers

variable {α : Type}

/-- The ledger after an event. -/
def Ledger.step (h : Hour) (l : Ledger α) : Event α → Ledger α
  | .upload object =>
    if object.hour = h then { l with stored := l.stored ++ object.records } else l
  | .start _ => l
  | .remove h' attempt => if h' = h ∧ attempt.Effective then { l with loaded := [] } else l
  | .load h' attempt =>
    if h' = h ∧ attempt.Effective then { l with loaded := l.loaded ++ [l.stored] } else l
  | .guard _ _ => l
  | .insert h' attempt =>
    -- only the first copy that finds a record counts
    if h' = h ∧ attempt.Effective ∧ l.copied = none ∧ l.loaded.flatten ≠ [] then
      { l with copied := some l.loaded }
    else
      l

/-- The ledger of an hour after a history. -/
def ledger (h : Hour) (history : List (Event α)) : Ledger α :=
  history.foldl (Ledger.step h) ⟨[], [], none⟩

/-- A copy that counts is not replaced. -/
theorem copied_of_foldl {h : Hour} {l : Ledger α} {loads : List (List α)}
    (hcopied : l.copied = some loads) (history : List (Event α)) :
    (history.foldl (Ledger.step h) l).copied = some loads := by
  induction history generalizing l with
  | nil => exact hcopied
  | cons event history ih =>
    rw [List.foldl_cons]
    refine ih ?_
    cases event with
    | upload object => rw [Ledger.step]; split_ifs <;> exact hcopied
    | start h' => exact hcopied
    | remove h' attempt => rw [Ledger.step]; split_ifs <;> exact hcopied
    | load h' attempt => rw [Ledger.step]; split_ifs <;> exact hcopied
    | guard h' attempt => exact hcopied
    | insert h' attempt =>
      rw [Ledger.step, if_neg]
      · exact hcopied
      · rintro ⟨-, -, hnone, -⟩
        exact nomatch hcopied.symm.trans hnone

end Ledgers

/-! ## The tables agree with the ledger -/

section Track

variable {α : Type} {block_timestamp : α → Option ℤ} {h h' : Hour} {s s' : State α} {l : Ledger α}

/-- The records of an object are of the hour of its directory. -/
def Object.Proper (block_timestamp : α → Option ℤ) (object : Object α) : Prop :=
  ∀ record ∈ object.records, (inHour object.hour (block_timestamp record)).Holds

/-- The state agrees with the ledger of an hour. The temporary table holds what was loaded, as long
as nothing has been copied; after that it is emptied before each copy. -/
structure Tracks (block_timestamp : α → Option ℤ) (h : Hour) (s : State α) (l : Ledger α) :
    Prop where
  proper : ∀ object ∈ s.bucket, object.Proper block_timestamp
  stored : storedRecords h s.bucket = l.stored
  final : rowsIn block_timestamp h s.final = (l.copied.getD []).flatten
  copied : ∀ loads ∈ l.copied, loads.flatten ≠ []
  loading : s.stage h = some .load ∨ s.stage h = some .copy → l.copied = none →
    rowsIn block_timestamp h (s.temp.getD []) = l.loaded.flatten
  inserting : s.stage h = some .insert →
    rowsIn block_timestamp h (s.temp.getD []) = if l.copied = none then l.loaded.flatten else []

/-- The rows of an hour are left by a delete of another hour, and none of its own. -/
theorem rowsIn_delete (rows : List α) :
    rowsIn block_timestamp h (Sql.delete (fun row => inHour h' (block_timestamp row)) rows) =
      if h' = h then [] else rowsIn block_timestamp h rows := by
  split_ifs with hsame
  · rw [hsame]
    exact Sql.filter_delete_self _ _
  · refine Sql.filter_delete_of_disjoint rows fun row hin hin' => hsame ?_
    exact eq_of_inHour hin' hin

/-- The rows of an hour among rows of an hour. -/
theorem rowsIn_of_forall {rows : List α}
    (hrows : ∀ row ∈ rows, (inHour h' (block_timestamp row)).Holds) :
    rowsIn block_timestamp h rows = if h' = h then rows else [] := by
  split_ifs with hsame
  · rw [hsame] at hrows
    exact Sql.filter_eq_self hrows
  · exact Sql.filter_eq_nil fun row hrow hin => hsame (eq_of_inHour (hrows row hrow) hin)

/-- The objects of an hour are those in its directories. -/
theorem mem_sourceObjects_iff {object : Object α} :
    (object.hour, object.half) ∈ sourceObjects h ↔ object.hour = h := by
  obtain ⟨hour, half, records⟩ := object
  cases half <;> simp [sourceObjects]

/-- One more object. -/
theorem storedRecords_append (bucket : List (Object α)) (object : Object α) :
    storedRecords h (bucket ++ [object]) =
      storedRecords h bucket ++ if object.hour = h then object.records else [] := by
  rw [storedRecords, List.filter_append, List.flatMap_append, ← storedRecords]
  congr 1
  by_cases hsame : object.hour = h
  · simp [mem_sourceObjects_iff, hsame]
  · simp [mem_sourceObjects_iff, hsame]

/-- What is stored for an hour is of the hour. -/
theorem inHour_of_mem_storedRecords (hproper : ∀ object ∈ s.bucket, object.Proper block_timestamp)
    {record : α} (hrecord : record ∈ storedRecords h s.bucket) :
    (inHour h (block_timestamp record)).Holds := by
  obtain ⟨object, hobject, hrecord⟩ := List.mem_flatMap.1 hrecord
  obtain ⟨hobject, hsource⟩ := List.mem_filter.1 hobject
  have hsame : object.hour = h := mem_sourceObjects_iff.1 (of_decide_eq_true hsource)
  rw [← hsame]
  exact hproper object hobject record hrecord

/-! ## What a task does to the rows of an hour -/

/-- The rows of an hour in the temporary table after a delete. -/
theorem rowsIn_temp_delete (temp : Option (List α)) :
    rowsIn block_timestamp h
        ((temp.map (Sql.delete fun row => inHour h' (block_timestamp row))).getD []) =
      if h' = h then [] else rowsIn block_timestamp h (temp.getD []) := by
  cases temp with
  | none => simp [rowsIn, Sql.filter]
  | some rows => exact rowsIn_delete rows

/-- The rows of an hour in the temporary table after a load. -/
theorem rowsIn_temp_load (hproper : ∀ object ∈ s.bucket, object.Proper block_timestamp) :
    rowsIn block_timestamp h ((gcsBucketToTemp h' s).temp.getD []) =
      rowsIn block_timestamp h (s.temp.getD []) ++
        if h' = h then storedRecords h' s.bucket else [] := by
  have hloaded := rowsIn_of_forall (h := h) fun record hrecord =>
    inHour_of_mem_storedRecords (h := h') hproper hrecord
  rw [← hloaded]
  exact Sql.filter_append _ _ _

/-- The rows of an hour in the temporary table after the guard of a copy. -/
theorem rowsIn_temp_guard :
    rowsIn block_timestamp h ((deleteCopied block_timestamp h' s).temp.getD []) =
      if h' = h ∧ rowsIn block_timestamp h s.final ≠ [] then []
      else rowsIn block_timestamp h (s.temp.getD []) := by
  rw [deleteCopied]
  by_cases hfinal : rowsIn block_timestamp h' s.final ≠ []
  · rw [if_pos hfinal]
    refine (rowsIn_temp_delete s.temp).trans ?_
    by_cases hsame : h' = h
    · rw [if_pos hsame, if_pos ⟨hsame, hsame ▸ hfinal⟩]
    · rw [if_neg hsame, if_neg fun hboth => hsame hboth.1]
  · rw [if_neg hfinal, if_neg]
    rintro ⟨rfl, hne⟩
    exact hfinal hne

/-- The rows of an hour in the final table after an insert. -/
theorem rowsIn_final_insert :
    rowsIn block_timestamp h (insertRows block_timestamp h' s).final =
      rowsIn block_timestamp h s.final ++
        if h' = h then rowsIn block_timestamp h (s.temp.getD []) else [] := by
  refine (Sql.filter_append _ _ _).trans (congrArg _ ?_)
  have hinserted : ∀ row ∈ Sql.filter (fun row => inHour h' (block_timestamp row))
      (s.temp.getD []), (inHour h' (block_timestamp row)).Holds :=
    fun row hrow => (Sql.mem_filter.1 hrow).2
  refine (rowsIn_of_forall hinserted).trans ?_
  by_cases hsame : h' = h
  · rw [if_pos hsame, if_pos hsame, hsame]
    rfl
  · rw [if_neg hsame, if_neg hsame]

/-! ## Every step keeps the agreement -/

/-- A state with the same bucket, the same rows of the hour and the same run for it agrees too. -/
theorem Tracks.congr (ht : Tracks block_timestamp h s l) (hbucket : s'.bucket = s.bucket)
    (htemp : rowsIn block_timestamp h (s'.temp.getD []) =
      rowsIn block_timestamp h (s.temp.getD []))
    (hfinal : rowsIn block_timestamp h s'.final = rowsIn block_timestamp h s.final)
    (hstage : s'.stage h = s.stage h) : Tracks block_timestamp h s' l := by
  refine ⟨?_, ?_, ?_, ht.copied, ?_, ?_⟩
  · rw [hbucket]
    exact ht.proper
  · rw [hbucket]
    exact ht.stored
  · rw [hfinal]
    exact ht.final
  · rw [hstage, htemp]
    exact ht.loading
  · rw [hstage, htemp]
    exact ht.inserting

/-- What an attempt of a task does: it takes effect and may be retried, or it does not and is. -/
theorem attemptTask_eq_some {task : State α → State α} {stage retry : Stage}
    {next : Option Stage} {attempt : Attempt}
    (hstep : attemptTask task h' stage next retry attempt s = some s') :
    s.stage h' = some stage ∧
      (attempt.Effective ∧ (s' = (task s).goto h' next ∨ s' = (task s).goto h' (some retry)) ∨
        ¬ attempt.Effective ∧ s' = s.goto h' (some retry)) := by
  rw [attemptTask] at hstep
  by_cases hstage : s.stage h' = some stage
  · rw [if_pos hstage] at hstep
    refine ⟨hstage, ?_⟩
    obtain rfl := Option.some.inj hstep
    cases attempt with
    | done => exact .inl ⟨nofun, .inl rfl⟩
    | lost => exact .inl ⟨nofun, .inr rfl⟩
    | failed => exact .inr ⟨fun heffective => heffective rfl, rfl⟩
  · rw [if_neg hstage] at hstep
    exact nomatch hstep

/-- An attempt of a task for another hour, which leaves the rows of this hour alone. -/
theorem Tracks.of_other (ht : Tracks block_timestamp h s l) (hne : h' ≠ h)
    {task : State α → State α} {stage retry : Stage} {next : Option Stage} {attempt : Attempt}
    (hstep : attemptTask task h' stage next retry attempt s = some s')
    (hbucket : (task s).bucket = s.bucket) (hstage : (task s).stage = s.stage)
    (htemp : rowsIn block_timestamp h ((task s).temp.getD []) =
      rowsIn block_timestamp h (s.temp.getD []))
    (hfinal : rowsIn block_timestamp h (task s).final = rowsIn block_timestamp h s.final) :
    Tracks block_timestamp h s' l := by
  have hstays : ∀ (t : State α) (stage' : Option Stage), (t.goto h' stage').stage h = t.stage h :=
    fun t stage' => Function.update_of_ne hne.symm _ _
  have heffect : ∀ stage', Tracks block_timestamp h ((task s).goto h' stage') l := by
    intro stage'
    refine ht.congr hbucket htemp hfinal ?_
    rw [hstays, hstage]
  obtain ⟨-, ⟨-, rfl | rfl⟩ | ⟨-, rfl⟩⟩ := attemptTask_eq_some hstep
  · exact heffect next
  · exact heffect (some retry)
  · exact ht.congr rfl rfl rfl (hstays s _)

/-- Where the run for an hour goes. -/
theorem goto_stage (s : State α) (stage : Option Stage) : (s.goto h stage).stage h = stage :=
  Function.update_self _ _ _

/-- The run for an hour is not where it does not go. -/
theorem goto_stage_ne (s : State α) {stage : Option Stage} {stage' : Stage}
    (hne : stage ≠ some stage') : (s.goto h stage).stage h ≠ some stage' := by
  rwa [goto_stage]

/-- An attempt to remove the rows of the hour keeps the agreement. -/
theorem Tracks.remove (ht : Tracks block_timestamp h s l) {attempt : Attempt}
    (hstep : step block_timestamp s (.remove h attempt) = some s') :
    Tracks block_timestamp h s' (l.step h (.remove h attempt)) := by
  have htemp : rowsIn block_timestamp h
      ((removeExistingData block_timestamp h s).temp.getD []) = [] :=
    (rowsIn_temp_delete s.temp).trans (if_pos rfl)
  have heffect : ∀ stage, stage ≠ some .insert →
      Tracks block_timestamp h ((removeExistingData block_timestamp h s).goto h stage)
        { l with loaded := [] } := fun stage hne =>
    ⟨ht.proper, ht.stored, ht.final, ht.copied, fun _ _ => htemp,
      fun hinsert => absurd hinsert (goto_stage_ne _ hne)⟩
  obtain ⟨-, ⟨heffective, hs'⟩ | ⟨hfailed, rfl⟩⟩ := attemptTask_eq_some hstep
  · rw [show l.step h (.remove h attempt) = { l with loaded := [] } from
      if_pos ⟨rfl, heffective⟩]
    rcases hs' with rfl | rfl
    · exact heffect _ nofun
    · exact heffect _ nofun
  · rw [show l.step h (.remove h attempt) = l from if_neg fun hboth => hfailed hboth.2]
    refine ⟨ht.proper, ht.stored, ht.final, ht.copied, fun hload => ?_,
      fun hinsert => absurd hinsert (goto_stage_ne _ nofun)⟩
    rcases hload with hload | hcopy
    · exact absurd hload (goto_stage_ne _ nofun)
    · exact absurd hcopy (goto_stage_ne _ nofun)

/-- An attempt to load the hour keeps the agreement. -/
theorem Tracks.load (ht : Tracks block_timestamp h s l) {attempt : Attempt}
    (hstep : step block_timestamp s (.load h attempt) = some s') :
    Tracks block_timestamp h s' (l.step h (.load h attempt)) := by
  obtain ⟨hstage, hattempt⟩ := attemptTask_eq_some hstep
  have hbefore := ht.loading (.inl hstage)
  have hafter : l.copied = none →
      rowsIn block_timestamp h ((gcsBucketToTemp h s).temp.getD []) =
        (l.loaded ++ [l.stored]).flatten := by
    intro hnone
    rw [rowsIn_temp_load ht.proper, if_pos rfl, hbefore hnone, ht.stored]
    simp
  have heffect : ∀ stage, stage ≠ some .insert →
      Tracks block_timestamp h ((gcsBucketToTemp h s).goto h stage)
        { l with loaded := l.loaded ++ [l.stored] } := fun stage hne =>
    ⟨ht.proper, ht.stored, ht.final, ht.copied, fun _ => hafter,
      fun hinsert => absurd hinsert (goto_stage_ne _ hne)⟩
  rcases hattempt with ⟨heffective, hs'⟩ | ⟨hfailed, rfl⟩
  · rw [show l.step h (.load h attempt) = { l with loaded := l.loaded ++ [l.stored] } from
      if_pos ⟨rfl, heffective⟩]
    rcases hs' with rfl | rfl
    · exact heffect _ nofun
    · exact heffect _ nofun
  · rw [show l.step h (.load h attempt) = l from if_neg fun hboth => hfailed hboth.2]
    exact ⟨ht.proper, ht.stored, ht.final, ht.copied, fun _ => hbefore,
      fun hinsert => absurd hinsert (goto_stage_ne _ nofun)⟩

/-- An attempt of the guard of the copy keeps the agreement: the temporary table is emptied where
something has been copied. -/
theorem Tracks.guard (ht : Tracks block_timestamp h s l) {attempt : Attempt}
    (hstep : step block_timestamp s (.guard h attempt) = some s') :
    Tracks block_timestamp h s' (l.step h (.guard h attempt)) := by
  obtain ⟨hstage, hattempt⟩ := attemptTask_eq_some hstep
  have hbefore := ht.loading (.inr hstage)
  have hafter : rowsIn block_timestamp h ((deleteCopied block_timestamp h s).temp.getD []) =
      if l.copied = none then l.loaded.flatten else [] := by
    rw [rowsIn_temp_guard, ht.final]
    cases hcopied : l.copied with
    | none => simp [hbefore hcopied]
    | some loads => simp [ht.copied loads hcopied]
  have hbucket : (deleteCopied block_timestamp h s).bucket = s.bucket := by
    rw [deleteCopied]
    split_ifs <;> rfl
  have hfinal : (deleteCopied block_timestamp h s).final = s.final := by
    rw [deleteCopied]
    split_ifs <;> rfl
  have heffect : ∀ stage,
      Tracks block_timestamp h ((deleteCopied block_timestamp h s).goto h stage) l := fun stage =>
    ⟨hbucket.symm ▸ ht.proper, (congrArg _ hbucket).trans ht.stored,
      (congrArg _ hfinal).trans ht.final, ht.copied,
      fun _ hnone => hafter.trans (if_pos hnone), fun _ => hafter⟩
  rcases hattempt with ⟨-, rfl | rfl⟩ | ⟨-, rfl⟩
  · exact heffect _
  · exact heffect _
  · exact ⟨ht.proper, ht.stored, ht.final, ht.copied, fun _ => hbefore,
      fun hinsert => absurd hinsert (goto_stage_ne _ nofun)⟩

/-- An attempt of the insert of the copy keeps the agreement: rows are inserted by the first copy
that finds any, and by no other. -/
theorem Tracks.insert (ht : Tracks block_timestamp h s l) {attempt : Attempt}
    (hstep : step block_timestamp s (.insert h attempt) = some s') :
    Tracks block_timestamp h s' (l.step h (.insert h attempt)) := by
  obtain ⟨hstage, hattempt⟩ := attemptTask_eq_some hstep
  have htemp := ht.inserting hstage
  have hinserted : rowsIn block_timestamp h (insertRows block_timestamp h s).final =
      (l.copied.getD []).flatten ++ if l.copied = none then l.loaded.flatten else [] := by
    rw [rowsIn_final_insert, if_pos rfl, ht.final, htemp]
  have heffect : attempt.Effective → ∀ stage, stage ≠ some .insert →
      Tracks block_timestamp h ((insertRows block_timestamp h s).goto h stage)
        (l.step h (.insert h attempt)) := by
    intro heffective stage hne
    by_cases hcopies : l.copied = none ∧ l.loaded.flatten ≠ []
    · rw [show l.step h (.insert h attempt) = { l with copied := some l.loaded } from
        if_pos ⟨rfl, heffective, hcopies⟩]
      refine ⟨ht.proper, ht.stored, hinserted.trans ?_, ?_, fun _ => nofun,
        fun hinsert => absurd hinsert (goto_stage_ne _ hne)⟩
      · simp [hcopies.1]
      · rintro _ ⟨⟩
        exact hcopies.2
    · rw [show l.step h (.insert h attempt) = l from if_neg fun hall => hcopies hall.2.2]
      refine ⟨ht.proper, ht.stored, hinserted.trans ?_, ht.copied,
        fun _ hnone => htemp.trans (if_pos hnone),
        fun hinsert => absurd hinsert (goto_stage_ne _ hne)⟩
      by_cases hnone : l.copied = none
      · have hempty : l.loaded.flatten = [] := by
          by_contra hne
          exact hcopies ⟨hnone, hne⟩
        rw [if_pos hnone, hempty, List.append_nil]
      · rw [if_neg hnone, List.append_nil]
  rcases hattempt with ⟨heffective, rfl | rfl⟩ | ⟨hfailed, rfl⟩
  · exact heffect heffective _ nofun
  · exact heffect heffective _ nofun
  · rw [show l.step h (.insert h attempt) = l from if_neg fun hall => hfailed hall.2.1]
    exact ⟨ht.proper, ht.stored, ht.final, ht.copied,
      fun _ hnone => htemp.trans (if_pos hnone),
      fun hinsert => absurd hinsert (goto_stage_ne _ nofun)⟩

/-- An upload of an object of the right records keeps the agreement. -/
theorem Tracks.upload (ht : Tracks block_timestamp h s l) {object : Object α}
    (hproper : object.Proper block_timestamp) :
    Tracks block_timestamp h { s with bucket := s.bucket ++ [object] }
      (l.step h (.upload object)) := by
  have hall : ∀ o ∈ s.bucket ++ [object], o.Proper block_timestamp := by
    intro o ho
    rcases List.mem_append.1 ho with ho | ho
    · exact ht.proper o ho
    · rw [List.mem_singleton.1 ho]
      exact hproper
  have hstored := storedRecords_append (h := h) s.bucket object
  rw [Ledger.step]
  by_cases hsame : object.hour = h
  · rw [if_pos hsame] at hstored ⊢
    refine ⟨hall, ?_, ht.final, ht.copied, ht.loading, ht.inserting⟩
    rw [hstored, ht.stored]
  · rw [if_neg hsame, List.append_nil] at hstored
    rw [if_neg hsame]
    exact ⟨hall, hstored.trans ht.stored, ht.final, ht.copied, ht.loading, ht.inserting⟩

/-- Every step keeps the agreement. -/
theorem tracks_step (ht : Tracks block_timestamp h s l) {event : Event α}
    (hproper : ∀ object, event = .upload object → object.Proper block_timestamp)
    (hstep : step block_timestamp s event = some s') :
    Tracks block_timestamp h s' (l.step h event) := by
  cases event with
  | upload object =>
    obtain rfl := Option.some.inj hstep
    exact ht.upload (hproper object rfl)
  | start h' =>
    obtain rfl := Option.some.inj hstep
    by_cases hsame : h' = h
    · subst hsame
      refine ⟨ht.proper, ht.stored, ht.final, ht.copied, fun hload => ?_, fun hinsert => ?_⟩
      · rcases hload with hload | hcopy
        · exact nomatch (goto_stage _ _).symm.trans hload
        · exact nomatch (goto_stage _ _).symm.trans hcopy
      · exact nomatch (goto_stage _ _).symm.trans hinsert
    · exact ht.congr rfl rfl rfl (Function.update_of_ne (Ne.symm hsame) _ _)
  | remove h' attempt =>
    by_cases hsame : h' = h
    · subst hsame
      exact ht.remove hstep
    · have hledger : l.step h (.remove h' attempt) = l := if_neg fun hboth => hsame hboth.1
      rw [hledger]
      refine ht.of_other hsame hstep rfl rfl ?_ rfl
      exact (rowsIn_temp_delete s.temp).trans (if_neg hsame)
  | load h' attempt =>
    by_cases hsame : h' = h
    · subst hsame
      exact ht.load hstep
    · have hledger : l.step h (.load h' attempt) = l := if_neg fun hboth => hsame hboth.1
      rw [hledger]
      refine ht.of_other hsame hstep rfl rfl ?_ rfl
      rw [rowsIn_temp_load ht.proper, if_neg hsame, List.append_nil]
  | guard h' attempt =>
    by_cases hsame : h' = h
    · subst hsame
      exact ht.guard hstep
    · have hother : (deleteCopied block_timestamp h' s).bucket = s.bucket ∧
          (deleteCopied block_timestamp h' s).stage = s.stage ∧
            (deleteCopied block_timestamp h' s).final = s.final := by
        rw [deleteCopied]
        split_ifs <;> exact ⟨rfl, rfl, rfl⟩
      refine ht.of_other hsame hstep hother.1 hother.2.1 ?_ (by rw [hother.2.2])
      rw [rowsIn_temp_guard, if_neg fun hboth => hsame hboth.1]
  | insert h' attempt =>
    by_cases hsame : h' = h
    · subst hsame
      exact ht.insert hstep
    · have hledger : l.step h (.insert h' attempt) = l := if_neg fun hboth => hsame hboth.1
      rw [hledger]
      refine ht.of_other hsame hstep rfl rfl rfl ?_
      rw [rowsIn_final_insert, if_neg hsame, List.append_nil]

/-- A history whose uploads are of the right records. -/
def ProperHistory (block_timestamp : α → Option ℤ) (history : List (Event α)) : Prop :=
  ∀ object, .upload object ∈ history → object.Proper block_timestamp

/-- Every history keeps the agreement. -/
theorem tracks_run (ht : Tracks block_timestamp h s l) {history : List (Event α)}
    (hproper : ProperHistory block_timestamp history)
    (hrun : Machine.run (step block_timestamp) s history = some s') :
    Tracks block_timestamp h s' (history.foldl (Ledger.step h) l) := by
  induction history generalizing s l with
  | nil =>
    obtain rfl := Option.some.inj hrun
    exact ht
  | cons event history ih =>
    obtain ⟨s₁, hstep, hrest⟩ := Option.bind_eq_some_iff.1 hrun
    have hfirst : ∀ object, event = .upload object → object.Proper block_timestamp := by
      rintro object rfl
      exact hproper object List.mem_cons_self
    refine ih (tracks_step ht hfirst hstep) (fun object hobject => ?_) hrest
    exact hproper object (List.mem_cons_of_mem _ hobject)

/-- The agreement holds at the start. -/
theorem tracks_new : Tracks block_timestamp h State.new ⟨[], [], none⟩ :=
  ⟨nofun, rfl, rfl, nofun, nofun, nofun⟩

end Track

/-! ## Completed runs -/

section Result

variable {α : Type} {block_timestamp : α → Option ℤ} {h : Hour} {s s' : State α}
  {history : List (Event α)}

/-- The last copy adds nothing to the loads that count, other than to make its own count. -/
theorem copied_append_insert (h : Hour) (history : List (Event α)) :
    ((ledger h (history ++ [.insert h .done])).copied.getD []).flatten =
      ((ledger h history).copied.getD (ledger h history).loaded).flatten := by
  rw [ledger, List.foldl_append, ← ledger, List.foldl_cons, List.foldl_nil, Ledger.step]
  cases hcopied : (ledger h history).copied with
  | some loads => simp [hcopied]
  | none =>
    by_cases hempty : (ledger h history).loaded.flatten = []
    · simp [hcopied, hempty]
    · rw [if_pos ⟨rfl, nofun, rfl, hempty⟩]
      rfl

/-- The final table agrees with the ledger after every history. -/
theorem finalRows_eq (hproper : ProperHistory block_timestamp history)
    (hrun : Machine.run (step block_timestamp) .new history = some s) :
    rowsIn block_timestamp h s.final = ((ledger h history).copied.getD []).flatten :=
  (tracks_run tracks_new hproper hrun).final

/-- After a run that completes, the final table has the rows of the hour that the loads of the first
run that copied a record found, which is this run if there was none before. Once there are such
rows, nothing that happens later changes them. -/
theorem completedRun_finalRows
    (hproper : ProperHistory block_timestamp (history ++ [.insert h .done]))
    (hrun : Machine.run (step block_timestamp) .new (history ++ [.insert h .done]) = some s) :
    (rowsIn block_timestamp h s.final).Perm
        ((ledger h history).copied.getD (ledger h history).loaded).flatten ∧
      (rowsIn block_timestamp h s.final ≠ [] →
        ∀ later, ProperHistory block_timestamp later →
          ∀ s', Machine.run (step block_timestamp) s later = some s' →
            (rowsIn block_timestamp h s'.final).Perm (rowsIn block_timestamp h s.final)) := by
  have ht := tracks_run (h := h) tracks_new hproper hrun
  constructor
  · rw [finalRows_eq hproper hrun, copied_append_insert]
  · intro hne later hlater s' hrun'
    have ht' := tracks_run ht hlater hrun'
    rw [ht.final] at hne
    cases hcopied : (ledger h (history ++ [.insert h .done])).copied with
    | none =>
      refine absurd ?_ hne
      rw [ledger] at hcopied
      rw [hcopied]
      rfl
    | some loads =>
      rw [ledger] at hcopied
      rw [ht.final, ht'.final, copied_of_foldl hcopied later, hcopied]

end Result

/-! ## Late data and retried loads -/

/-- A run that completes leaves the records that its load found. -/
def ExactAfter {α : Type} (block_timestamp : α → Option ℤ) (h : Hour) (history : List (Event α)) :
    Prop :=
  ∀ s, Machine.run (step block_timestamp) .new (history ++ [.insert h .done]) = some s →
    (rowsIn block_timestamp h s.final).Perm ((ledger h history).loaded.getLastD [])

/-- The first hour of the epoch. -/
def sampleHour : Hour := ⟨0, 0⟩

/-- The timestamp of a row. -/
def sampleTimestamp (row : Airflow.RecordRow) : Option ℤ := some row.block_timestamp

/-- An object with one record of the hour. -/
def sampleObject (half : Half) (tx_version : ℤ) : Object Airflow.RecordRow :=
  ⟨sampleHour, half, [⟨tx_version, 0⟩]⟩

/-- The attempts of a run before its last one. -/
def sampleRun (loads : List Attempt) : List (Event Airflow.RecordRow) :=
  [.start sampleHour, .remove sampleHour .done] ++ loads.map (.load sampleHour) ++
    [.guard sampleHour .done]

/-- An object is uploaded between two runs. -/
def sampleLate : List (Event Airflow.RecordRow) :=
  .upload (sampleObject .zero 1) :: sampleRun [.done] ++
    .insert sampleHour .done :: .upload (sampleObject .thirty 2) :: sampleRun [.done]

/-- A load takes effect, fails and is tried again. -/
def sampleRetried : List (Event Airflow.RecordRow) :=
  .upload (sampleObject .zero 1) :: sampleRun [.lost, .done]

/-- The records of the sample objects are of the hour. -/
theorem proper_sampleObject (half : Half) (tx_version : ℤ) :
    (sampleObject half tx_version).Proper sampleTimestamp := by
  intro record hrecord
  obtain rfl := List.mem_singleton.1 hrecord
  exact holds_inHour.2 ⟨0, rfl, rfl, rfl⟩

/-- The uploads of the sample with late data are proper. -/
theorem proper_sampleLate :
    ProperHistory sampleTimestamp (sampleLate ++ [.insert sampleHour .done]) := by
  intro object hobject
  have hcases : object = sampleObject .zero 1 ∨ object = sampleObject .thirty 2 := by
    simpa [sampleLate, sampleRun] using hobject
  rcases hcases with rfl | rfl
  · exact proper_sampleObject _ _
  · exact proper_sampleObject _ _

/-- The final table after the second of two runs. -/
theorem completedRun_finalRows_sampleLate :
    ∃ s, Machine.run (step sampleTimestamp) .new (sampleLate ++ [.insert sampleHour .done]) =
        some s ∧
      (rowsIn sampleTimestamp sampleHour s.final).Perm
        ((ledger sampleHour sampleLate).copied.getD (ledger sampleHour sampleLate).loaded).flatten ∧
          (rowsIn sampleTimestamp sampleHour s.final ≠ [] →
            ∀ later, ProperHistory sampleTimestamp later →
              ∀ s', Machine.run (step sampleTimestamp) s later = some s' →
                (rowsIn sampleTimestamp sampleHour s'.final).Perm
                  (rowsIn sampleTimestamp sampleHour s.final)) := by
  obtain ⟨s, hrun⟩ := Option.isSome_iff_exists.1
    (show (Machine.run (step sampleTimestamp) .new
      (sampleLate ++ [.insert sampleHour .done])).isSome = true by decide)
  exact ⟨s, hrun, completedRun_finalRows proper_sampleLate hrun⟩

/-- The late record is missing after the second run, and the record of the retried load is there
twice. -/
theorem loader_not_exact :
    ¬ ExactAfter sampleTimestamp sampleHour sampleLate ∧
      ¬ ExactAfter sampleTimestamp sampleHour sampleRetried := by
  -- in both histories the numbers of rows differ
  have hcounts : ∀ (history : List (Event Airflow.RecordRow)) (count : ℕ),
      (Machine.run (step sampleTimestamp) .new (history ++ [.insert sampleHour .done])).map
          (fun s => (rowsIn sampleTimestamp sampleHour s.final).length) = some count →
        ((ledger sampleHour history).loaded.getLastD []).length ≠ count →
          ¬ ExactAfter sampleTimestamp sampleHour history := by
    intro history count hcount hne hexact
    obtain ⟨s, hrun, hlength⟩ := Option.map_eq_some_iff.1 hcount
    exact hne ((hexact s hrun).length_eq.symm.trans hlength)
  exact ⟨hcounts _ 1 (by decide) (by decide), hcounts _ 2 (by decide) (by decide)⟩

end AptosEtl.Loader
