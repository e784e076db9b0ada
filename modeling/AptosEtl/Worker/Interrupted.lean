import AptosEtl.Lib.Traced
import AptosEtl.Worker.Published

/-!
# Runs that are interrupted

What `extract_range` has done when it returns an error. The run is told once more, here with the
actions that it does on the way: a transaction is transformed, rows are published. Without its
actions it is the run of `extractRange` (`extractRange_eq_tracedRange`).

An error comes from the stream or from a transaction. The actions before it are the
transformations of the transactions through the one that is named in the error, and no publishing
(`Interruption`).
-/

namespace AptosEtl.Worker

open Rust Input Reps Tables

/-! ## The run with its actions -/

/-- What a run does: it transforms a transaction, or it makes a call of `publish_records`. -/
inductive Action where
  | Transforms (tx : Input.Transaction)
  | Publishes (call : PublishCall)

/-- The calls among some actions. -/
def published (actions : List Action) : List PublishCall :=
  actions.filterMap fun
    | .Transforms _ => none
    | .Publishes call => some call

section Traced

variable (crates : Crates) (options : TableOptions) (start «end» : UInt64)

/-- The step of the loop, which transforms its transaction. -/
def tracedStep (s : LoopState) (tx : Input.Transaction) :
    Traced Action ExtractionInteruptionError LoopState :=
  .after [.Transforms tx] (step crates options start «end» s tx)

/-- The inner loop. -/
def tracedResponse : List Input.Transaction → LoopState →
    Traced Action ExtractionInteruptionError LoopState
  | [], s => .lift (.ok s)
  | tx :: txs, s =>
    (tracedStep crates options start «end» s tx).bind fun s =>
      if s.cur_version = «end» then .lift (.ok s) else tracedResponse txs s

/-- The outer loop. -/
def tracedLoop : List (Except Status (List Input.Transaction)) → LoopState →
    Traced Action ExtractionInteruptionError (Option LoopState)
  | [], _ => .lift (.ok none)
  | .error status :: _, s =>
    .lift (.err ⟨.StreamErrorStatus status, start, «end», s.cur_version⟩)
  | .ok transactions :: rest, s =>
    (tracedResponse crates options start «end» transactions s).bind fun s =>
      if s.cur_version = «end» then .lift (.ok (some s)) else tracedLoop rest s

end Traced

/-- `extract_range`, with what it does. -/
def tracedRange (crates : Crates) (start «end» : UInt64) (tableOptions : Option TableOptions)
    (stream : Stream) : Traced Action ExtractionInteruptionError Unit :=
  let options := tableOptions.getD .newAll
  match stream with
  | .error error => .lift (.err ⟨.StreamCreationError error, start, «end», start⟩)
  | .ok responses =>
    if «end» < start then
      .lift (.panic "attempt to subtract with overflow")
    else
      (tracedLoop crates options start «end» responses ⟨start, .new⟩).bind fun
        | none => .lift (.ok ())
        | some s =>
          .after ((publishAll options s.acc (rangeName start «end»)).map .Publishes) (.ok ())

/-! ## The run without its actions -/

section Erasure

variable {crates : Crates} {options : TableOptions} {start «end» : UInt64}

/-- Without its actions, the inner loop is the inner loop. -/
theorem outcome_tracedResponse (txs : List Input.Transaction) (s : LoopState) :
    (tracedResponse crates options start «end» txs s).outcome =
      processResponse crates options start «end» txs s := by
  induction txs generalizing s with
  | nil => rfl
  | cons tx txs ih =>
    rw [tracedResponse, processResponse, Traced.outcome_bind]
    refine congrArg _ (funext fun t => ?_)
    split_ifs
    · rfl
    · exact ih t

/-- Without its actions, the outer loop is the outer loop. -/
theorem outcome_tracedLoop (responses : List (Except Status (List Input.Transaction)))
    (s : LoopState) :
    (tracedLoop crates options start «end» responses s).outcome =
      pullLoop crates options start «end» responses s := by
  induction responses generalizing s with
  | nil => rfl
  | cons response responses ih =>
    cases response with
    | error status => rfl
    | ok transactions =>
      rw [tracedLoop, pullLoop, Traced.outcome_bind, outcome_tracedResponse]
      refine congrArg _ (funext fun t => ?_)
      split_ifs
      · rfl
      · exact ih t

/-- A step transforms its transaction. -/
theorem actions_tracedStep (s : LoopState) (tx : Input.Transaction) :
    (tracedStep crates options start «end» s tx).actions = [.Transforms tx] := rfl

/-- The inner loop is a fold of the steps of what it takes. -/
theorem tracedResponse_eq (txs : List Input.Transaction) (s : LoopState) :
    tracedResponse crates options start «end» txs s =
      Traced.tryFold (tracedStep crates options start «end») s
        (takeThrough (fun tx => tx.version = «end») txs) := by
  induction txs generalizing s with
  | nil => rfl
  | cons tx txs ih =>
    rw [tracedResponse, takeThrough]
    -- the state after the step has the version of its transaction
    have hversion : ∀ t, (tracedStep crates options start «end» s tx).outcome = .ok t →
        t.cur_version = tx.version := fun t ht => (step_spec ht).1
    by_cases hend : tx.version = «end»
    · rw [if_pos (decide_eq_true hend)]
      exact Traced.bind_congr fun t ht => if_pos ((hversion t ht).trans hend)
    · rw [if_neg (by simpa using hend), Traced.tryFold]
      refine Traced.bind_congr fun t ht => ?_
      rw [hversion t ht, if_neg hend, ih]

/-- The outer loop is a fold of the steps of what it reads, and then its conclusion. -/
theorem tracedLoop_eq (responses : List (Except Status (List Input.Transaction)))
    (s : LoopState) :
    tracedLoop crates options start «end» responses s =
      (Traced.tryFold (tracedStep crates options start «end») s
        (scan Input.Transaction.version «end» responses s.cur_version).1).bind fun t =>
          .lift (conclude start «end»
            (scan Input.Transaction.version «end» responses s.cur_version).2 t) := by
  induction responses generalizing s with
  | nil => rfl
  | cons response responses ih =>
    cases response with
    | error status => rfl
    | ok transactions =>
      rw [tracedLoop, tracedResponse_eq, scan]
      set taken := takeThrough (fun tx => decide (tx.version = «end»)) transactions
      have hversion : ∀ t, (Traced.tryFold (tracedStep crates options start «end») s
          taken).outcome = .ok t →
            t.cur_version = lastKey Input.Transaction.version taken s.cur_version := by
        intro t ht
        rw [Traced.outcome_tryFold] at ht
        exact (steps_spec ht).1
      by_cases hend : lastKey Input.Transaction.version taken s.cur_version = «end»
      · rw [if_pos hend]
        exact Traced.bind_congr fun t ht => if_pos ((hversion t ht).trans hend)
      · rw [if_neg hend, Traced.tryFold_append, Traced.bind_assoc]
        refine Traced.bind_congr fun t ht => ?_
        rw [hversion t ht, if_neg hend, ih, hversion t ht]

/-- The loop publishes nothing. -/
theorem exists_of_mem_tracedLoop {responses : List (Except Status (List Input.Transaction))}
    {s : LoopState} {action : Action}
    (h : action ∈ (tracedLoop crates options start «end» responses s).actions) :
    ∃ tx, action = .Transforms tx := by
  rw [tracedLoop_eq, Traced.mem_actions_bind] at h
  rcases h with hsteps | ⟨t, -, hlift⟩
  · obtain ⟨tx, -, heq⟩ := Traced.exists_of_mem_tryFold actions_tracedStep hsteps
    exact ⟨tx, heq⟩
  · cases hlift

/-- Without its actions, the run is the run: it returns what it returned, and its calls are those
among its actions. -/
theorem extractRange_eq_tracedRange (tableOptions : Option TableOptions) (stream : Stream) :
    extractRange crates start «end» tableOptions stream =
      (tracedRange crates start «end» tableOptions stream).outcome.bind fun _ =>
        .ok (published (tracedRange crates start «end» tableOptions stream).actions) := by
  cases stream with
  | error error => rfl
  | ok responses =>
    rw [extractRange, tracedRange]
    by_cases hreversed : «end» < start
    · simp only [if_pos hreversed]
      rfl
    · simp only [if_neg hreversed]
      set loop := tracedLoop crates (tableOptions.getD .newAll) start «end» responses ⟨start, .new⟩
      have hnone : published loop.actions = [] := by
        refine List.filterMap_eq_nil_iff.2 fun action haction => ?_
        obtain ⟨tx, rfl⟩ := exists_of_mem_tracedLoop haction
        rfl
      have hcalls : ∀ calls : List PublishCall, published (calls.map .Publishes) = calls := by
        intro calls
        rw [published, List.filterMap_map]
        exact List.filterMap_some
      rw [← outcome_tracedLoop, Traced.outcome_bind]
      cases hloop : loop.outcome with
      | err e => rfl
      | panic m => rfl
      | ok result =>
        -- only the publishing after the loop makes calls
        rw [Outcome.ok_bind, Outcome.ok_bind, Traced.actions_bind_of_ok hloop, published,
          List.filterMap_append, ← published, hnone, List.nil_append]
        cases result with
        | none => rfl
        | some s => exact congrArg Outcome.ok (hcalls _).symm

end Erasure

/-! ## The error of a transaction -/

/-- The transaction raises an error when it is transformed, whatever has been accumulated. -/
def Raises (crates : Crates) (options : TableOptions) (tx : Input.Transaction)
    (error : ExtractError) : Prop :=
  ∀ acc, pushTransaction crates options acc tx = .err error

/-- A stage ends alike whatever it appends to. -/
theorem stage_agree {ε α β : Type} (enabled : Bool) (x : Outcome ε α) (g : ε → ExtractError)
    (f f' : α → β) (b b' : β) :
    Outcome.Agree (fun _ _ => True)
      (if enabled then (x.mapErr g).bind fun a => .ok (f a) else .ok b : Outcome _ β)
      (if enabled then (x.mapErr g).bind fun a => .ok (f' a) else .ok b') := by
  cases enabled with
  | false => exact trivial
  | true =>
    rw [if_pos rfl, if_pos rfl]
    exact (Outcome.agree_self _).bind fun _ _ _ => trivial

/-- The signature stage ends alike whatever it appends to, also in its count. -/
theorem pushSignatures_agree (crates : Crates) (options : TableOptions)
    (tx : TransactionExtraction) (acc acc' : Accumulators) :
    Outcome.Agree (fun r r' => r.1 = r'.1) (pushSignatures crates options tx acc)
      (pushSignatures crates options tx acc') := by
  unfold pushSignatures
  by_cases hdo : (options.doSignatures || options.doTransactions) = true
  · rw [if_pos hdo, if_pos hdo]
    exact (Outcome.agree_self _).bind fun _ _ h => congrArg (Option.map List.length) h
  · rw [if_neg hdo, if_neg hdo]
    rfl

/-- A transaction ends alike whatever has been accumulated. -/
theorem pushTransaction_agree (crates : Crates) (options : TableOptions) (tx : Input.Transaction)
    (acc acc' : Accumulators) :
    Outcome.Agree (fun _ _ => True) (pushTransaction crates options acc tx)
      (pushTransaction crates options acc' tx) := by
  refine (Outcome.agree_self _).bind fun extract extract' hextract => ?_
  obtain rfl := hextract
  refine (pushSignatures_agree crates options extract acc acc').bind fun r r' hcount => ?_
  obtain ⟨sigCnt, acc₁⟩ := r
  obtain ⟨sigCnt', acc₁'⟩ := r'
  obtain rfl : sigCnt = sigCnt' := hcount
  refine (stage_agree _ _ _ _ _ _ _).bind fun acc₂ acc₂' _ => ?_
  refine (stage_agree _ _ _ _ _ _ _).bind fun acc₃ acc₃' _ => ?_
  refine (stage_agree _ _ _ _ _ _ _).bind fun acc₄ acc₄' _ => ?_
  exact stage_agree _ _ _ _ _ _ _

/-- The error of a transaction does not depend on what has been accumulated. -/
theorem raises_of_pushTransaction {crates : Crates} {options : TableOptions}
    {tx : Input.Transaction} {acc : Accumulators} {error : ExtractError}
    (h : pushTransaction crates options acc tx = .err error) : Raises crates options tx error :=
  fun acc' => (pushTransaction_agree crates options tx acc acc').err_right h

/-- The error is one of a transaction, and not of the stream. -/
def ExtractError.isTransformation : ExtractError → Bool
  | .StreamCreationError _ => false
  | .StreamErrorStatus _ => false
  | _ => true

/-! ## Interruptions -/

/-- The transactions that a stream delivers, whether or not the run reads them. -/
def deliveredBy : Stream → List Input.Transaction
  | .error _ => []
  | .ok responses => delivered responses

/-- What an interrupted run has done: it has published nothing, and its error names its range and a
version of it. The transactions that are delivered before this version have been transformed, and
none after it has. An error of a transaction is the one of the transaction at this version. -/
structure Interruption (crates : Crates) (options : TableOptions) (start «end» : UInt64)
    (stream : Stream) (actions : List Action) (e : ExtractionInteruptionError) : Prop where
  unpublished : ∀ call, .Publishes call ∉ actions
  start_version : e.start_version = start
  end_version : e.end_version = «end»
  start_le : start ≤ e.failed_on
  le_end : e.failed_on ≤ «end»
  before : ∀ tx ∈ deliveredBy stream, tx.version < e.failed_on →
    .Transforms tx ∈ actions ∧ Transforms crates options tx
  after : ∀ tx, .Transforms tx ∈ actions → tx.version ≤ e.failed_on
  raised : e.extracterror.isTransformation = true → ∃ tx ∈ deliveredBy stream,
    tx.version = e.failed_on ∧ Raises crates options tx e.extracterror

section Interrupted

variable {crates : Crates} {options : TableOptions} {start «end» : UInt64}

/-- How a run fails after it transformed some transactions, and which transactions it tried then: it
fails on the stream, or on the next transaction. -/
inductive FailsAfter (crates : Crates) (options : TableOptions) (start «end» : UInt64)
    (done : List Input.Transaction) :
    List Input.Transaction → ExtractionInteruptionError → Prop where
  | Stream (status : Status) :
    FailsAfter crates options start «end» done []
      ⟨.StreamErrorStatus status, start, «end», lastKey Input.Transaction.version done start⟩
  | Next (tx : Input.Transaction) (error : ExtractError)
    (raises : Raises crates options tx error) :
    FailsAfter crates options start «end» done [tx] ⟨error, start, «end», tx.version⟩

namespace FailsAfter

variable {done tried : List Input.Transaction} {e : ExtractionInteruptionError}

/-- The error names the range. -/
theorem range_eq (h : FailsAfter crates options start «end» done tried e) :
    e.start_version = start ∧ e.end_version = «end» := by
  cases h with
  | Stream status => exact ⟨rfl, rfl⟩
  | Next tx error raises => exact ⟨rfl, rfl⟩

/-- The error names the version of the last transaction that the run read. -/
theorem failed_on_eq (h : FailsAfter crates options start «end» done tried e) :
    e.failed_on = lastKey Input.Transaction.version (done ++ tried) start := by
  cases h with
  | Stream status => rw [List.append_nil]
  | Next tx error raises => rw [lastKey_concat]

/-- A transaction that failed is the one that the error names. -/
theorem version_eq (h : FailsAfter crates options start «end» done tried e)
    {tx : Input.Transaction} (htx : tx ∈ tried) : tx.version = e.failed_on := by
  cases h with
  | Stream status => exact absurd htx List.not_mem_nil
  | Next tx' error raises => rw [List.mem_singleton.1 htx]

/-- An error of a transaction is the one of the transaction that failed. -/
theorem exists_raises (h : FailsAfter crates options start «end» done tried e)
    (herror : e.extracterror.isTransformation = true) :
    ∃ tx ∈ tried, Raises crates options tx e.extracterror := by
  cases h with
  | Stream status => exact absurd herror Bool.false_ne_true
  | Next tx error raises => exact ⟨tx, List.mem_singleton_self tx, raises⟩

end FailsAfter

/-- A loop that is interrupted read some transactions and transformed them, and failed after the
last of them. -/
theorem exists_of_tracedLoop_eq_err {responses : List (Except Status (List Input.Transaction))}
    {e : ExtractionInteruptionError}
    (h : (tracedLoop crates options start «end» responses ⟨start, .new⟩).outcome = .err e) :
    ∃ done tried rest, delivered responses = done ++ tried ++ rest ∧
      (tracedLoop crates options start «end» responses ⟨start, .new⟩).actions =
        (done ++ tried).map .Transforms ∧
      (∀ tx ∈ done, Transforms crates options tx) ∧
      FailsAfter crates options start «end» done tried e := by
  obtain ⟨beyond, hbeyond⟩ := scan_prefix Input.Transaction.version «end» responses start
  rw [tracedLoop_eq] at h ⊢
  set reading := scan Input.Transaction.version «end» responses start
  rw [Traced.outcome_bind] at h
  rcases Outcome.bind_eq_err.1 h with hsteps | ⟨t, ht, hconclude⟩
  · -- a step failed, and its transaction is the last one that was tried
    obtain ⟨done, tx, rest, t, hsplit, hdone, hstep, hactions⟩ :=
      Traced.exists_of_tryFold_eq_err actions_tracedStep hsteps
    rw [Traced.outcome_tryFold] at hdone
    refine ⟨done, [tx], rest ++ beyond, ?_, ?_, ?_, ?_⟩
    · rw [hbeyond, hsplit]
      simp
    · rw [Traced.actions_bind_of_err hsteps, hactions]
    · exact (steps_eq_ok_iff start «end» _).1 ⟨t, hdone⟩
    · rcases Outcome.bind_eq_err.1 hstep with hpush | ⟨acc, -, hok⟩
      · obtain ⟨error, herror, rfl⟩ := Outcome.mapErr_eq_err.1 hpush
        exact .Next tx error (raises_of_pushTransaction herror)
      · cases hok
  · -- every step succeeded, and the stream failed after the last one
    have hactions := Traced.actions_tryFold_of_ok actions_tracedStep ht
    rw [Traced.outcome_tryFold] at ht
    refine ⟨reading.1, [], beyond, ?_, ?_, ?_, ?_⟩
    · rw [hbeyond, List.append_nil]
    · rw [Traced.actions_bind_of_ok (by rw [Traced.outcome_tryFold]; exact ht), hactions,
        List.append_nil]
      exact List.append_nil _
    · exact (steps_eq_ok_iff start «end» _).1 ⟨t, ht⟩
    · have hversion := (steps_spec ht).1
      change conclude start «end» reading.2 t = .err e at hconclude
      cases hending : reading.2 with
      | Exhausted =>
        rw [hending] at hconclude
        cases hconclude
      | Reached =>
        rw [hending] at hconclude
        cases hconclude
      | Failed status =>
        rw [hending] at hconclude
        obtain rfl := Outcome.err.inj hconclude
        rw [hversion]
        exact .Stream status

/-- A run whose stream could not be created has done nothing, and nothing was delivered to it. -/
theorem interruption_of_creation (error : StreamCreationError) (hle : start ≤ «end») :
    Interruption crates options start «end» (.error error) []
      ⟨.StreamCreationError error, start, «end», start⟩ := by
  constructor
  case unpublished => exact fun call => List.not_mem_nil
  case start_version => rfl
  case end_version => rfl
  case start_le => exact UInt64.le_refl start
  case le_end => exact hle
  case before => exact fun tx htx => absurd htx List.not_mem_nil
  case after => exact fun tx htx => absurd htx List.not_mem_nil
  case raised => exact fun herror => absurd herror Bool.false_ne_true

/-- A run that read the first of the transactions that are delivered, in the order of their
versions, and then failed. -/
theorem interruption_of_read {responses : List (Except Status (List Input.Transaction))}
    {done tried rest : List Input.Transaction} {e : ExtractionInteruptionError}
    (hle : start ≤ «end»)
    (hincreasing : (delivered responses).Pairwise fun tx tx' => tx.version < tx'.version)
    (hwithin : ∀ tx ∈ delivered responses, start ≤ tx.version ∧ tx.version ≤ «end»)
    (hdelivered : delivered responses = done ++ tried ++ rest)
    (hdone : ∀ tx ∈ done, Transforms crates options tx)
    (hfails : FailsAfter crates options start «end» done tried e) :
    Interruption crates options start «end» (.ok responses)
      ((done ++ tried).map .Transforms) e := by
  rw [hdelivered] at hincreasing hwithin
  have hread_within : ∀ tx ∈ done ++ tried, start ≤ tx.version ∧ tx.version ≤ «end» :=
    fun tx htx => hwithin tx (List.mem_append_left rest htx)
  constructor
  case unpublished =>
    intro call hcall
    obtain ⟨tx, -, heq⟩ := List.mem_map.1 hcall
    cases heq
  case start_version => exact hfails.range_eq.1
  case end_version => exact hfails.range_eq.2
  case start_le =>
    rw [hfails.failed_on_eq]
    exact lastKey_induction (P := (start ≤ ·)) (UInt64.le_refl start)
      fun tx htx => (hread_within tx htx).1
  case le_end =>
    rw [hfails.failed_on_eq]
    exact lastKey_induction (P := (· ≤ «end»)) hle fun tx htx => (hread_within tx htx).2
  case before =>
    intro tx htx hbelow
    rw [deliveredBy, hdelivered] at htx
    rcases List.mem_append.1 htx with hread | hbeyond
    · refine ⟨List.mem_map_of_mem hread, ?_⟩
      rcases List.mem_append.1 hread with hearlier | htried
      · exact hdone tx hearlier
      · rw [hfails.version_eq htried] at hbelow
        exact absurd hbelow (UInt64.lt_irrefl _)
    · -- what was not read is not before the version of the error
      have hle' : e.failed_on ≤ tx.version := by
        rw [hfails.failed_on_eq]
        exact lastKey_le hincreasing hbeyond (hwithin tx htx).1
      exact absurd hbelow (UInt64.not_lt.2 hle')
  case after =>
    intro tx htx
    obtain ⟨tx', hread, heq⟩ := List.mem_map.1 htx
    obtain rfl := Action.Transforms.inj heq
    rw [hfails.failed_on_eq]
    exact le_lastKey (List.pairwise_append.1 hincreasing).1 start hread
  case raised =>
    intro herror
    obtain ⟨tx, htried, hraises⟩ := hfails.exists_raises herror
    refine ⟨tx, ?_, hfails.version_eq htried, hraises⟩
    rw [deliveredBy, hdelivered]
    exact List.mem_append_left rest (List.mem_append_right done htried)

/-- A run that returns an error has published nothing, and the error says where it stopped: on a
stream whose versions increase within the range, the transactions before the version that it names
were transformed and those after it were not, and an error of a transaction is that of the
transaction at this version. -/
theorem extractRange_interrupted {tableOptions : Option TableOptions} {stream : Stream}
    {e : ExtractionInteruptionError} (hle : start ≤ «end»)
    (hincreasing : (deliveredBy stream).Pairwise fun tx tx' => tx.version < tx'.version)
    (hwithin : ∀ tx ∈ deliveredBy stream, start ≤ tx.version ∧ tx.version ≤ «end»)
    (h : extractRange crates start «end» tableOptions stream = .err e) :
    Interruption crates (tableOptions.getD .newAll) start «end» stream
      (tracedRange crates start «end» tableOptions stream).actions e := by
  set options := tableOptions.getD .newAll with hoptions
  cases stream with
  | error error =>
    obtain rfl := Outcome.err.inj h
    exact interruption_of_creation error hle
  | ok responses =>
    have hlt : ¬ «end» < start := UInt64.not_lt.2 hle
    have hloop : (tracedLoop crates options start «end» responses ⟨start, .new⟩).outcome =
        .err e := by
      rw [outcome_tracedLoop]
      simp only [extractRange, hlt, if_false] at h
      rcases Outcome.bind_eq_err.1 h with herr | ⟨result, -, hok⟩
      · exact herr
      · cases result <;> cases hok
    -- what the run did is what its loop did
    have hactions : (tracedRange crates start «end» tableOptions (.ok responses)).actions =
        (tracedLoop crates options start «end» responses ⟨start, .new⟩).actions := by
      simp only [tracedRange, hlt, if_false]
      exact Traced.actions_bind_of_err hloop _
    obtain ⟨done, tried, rest, hdelivered, htransformed, hdone, hfails⟩ :=
      exists_of_tracedLoop_eq_err hloop
    rw [hactions, htransformed]
    exact interruption_of_read hle hincreasing hwithin hdelivered hdone hfails

end Interrupted

/-- Three versions in two responses, the second of which comes without its info. -/
def sampleStream : Stream :=
  .ok [.ok [sampleCheckpoint 4, { sampleCheckpoint 5 with info := none }],
    .ok [sampleCheckpoint 6]]

/-- The run stops at the second version, after it transformed the first one. -/
theorem extractRange_interrupted_sample :
    ∃ e, extractRange sampleCrates 4 6 none sampleStream = .err e ∧ e.failed_on = 5 ∧
      Interruption sampleCrates .newAll 4 6 sampleStream
        (tracedRange sampleCrates 4 6 none sampleStream).actions e := by
  obtain ⟨e, h, hfailed⟩ : ∃ e, extractRange sampleCrates 4 6 none sampleStream = .err e ∧
      e.failed_on = 5 := ⟨_, rfl, rfl⟩
  have hincreasing : (deliveredBy sampleStream).Pairwise fun tx tx' =>
      tx.version < tx'.version := by
    simp [sampleStream, deliveredBy, delivered, sampleCheckpoint]
  have hwithin : ∀ tx ∈ deliveredBy sampleStream, 4 ≤ tx.version ∧ tx.version ≤ 6 := by
    simp [sampleStream, deliveredBy, delivered, sampleCheckpoint]
  exact ⟨e, h, hfailed, extractRange_interrupted (by decide) hincreasing hwithin h⟩

end AptosEtl.Worker
