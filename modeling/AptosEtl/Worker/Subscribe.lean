import AptosEtl.Output.Gcs
import AptosEtl.Worker.Published
import AptosEtl.Worker.Publishers

/-!
# Settling the pulled messages

`subscribe_and_extract` of `aptos_config/mod.rs`. The payload of a pulled message is decoded to a
range, and the message is acknowledged when `extract_range` returns normally on it, and nacked when
it returns an error. A panic on the way leaves the message neither acked nor nacked, takes the
worker down, and takes down the next worker that the message is delivered to.

The panics of one transaction are those of its events (`pushTransaction_settles_iff`). Those of a
range are the ones of preparing the publisher, and of what the range reserves, reads and publishes
(`extractRangeOn_settles_iff`). `message_settled_iff` says exactly which messages are settled.
-/

namespace AptosEtl.Worker

open Rust Input Reps Tables

/-! ## The panics of one transaction -/

/-- The loop gets as far as an event of a transaction: the transaction converts, events are asked
for, and the builders before them return, as does the pass over the events before this one. -/
structure StepReaches (crates : Crates) (options : TableOptions) (value : Input.Transaction)
    (event : Input.Event) : Prop where
  enabled : options.doEvents = true
  exists_extraction : ∃ tx, TransactionExtraction.tryFrom value = .ok tx ∧
    BuildsRows crates options tx ∧ PassReaches crates tx event

/-- The event does not panic: it is malformed, which is an error, or its data is JSON. -/
def Readable (crates : Crates) (event : Input.Event) : Prop :=
  EventExtraction.Malformed event ∨ crates.isJson event.data = true

section Panics

variable {crates : Crates} {options : TableOptions}

/-- A stage that runs only when it is enabled settles when its builder does. -/
theorem stage_settles_iff {ε α β : Type} {enabled : Bool} {x : Outcome ε α} {g : ε → ExtractError}
    {f : α → β} {b : β} :
    (if enabled then (x.mapErr g).bind fun a => .ok (f a) else .ok b : Outcome _ β).Settles ↔
      (enabled = true → x.Settles) := by
  cases enabled <;> simp

/-- The stages other than the events never panic, so that a transaction panics exactly on an event
that it reaches. -/
theorem pushTransaction_settles_iff (acc : Accumulators) (value : Input.Transaction) :
    (pushTransaction crates options acc value).Settles ↔
      ∀ event, StepReaches crates options value event → Readable crates event := by
  have hsigs : ∀ tx acc, (pushSignatures crates options tx acc).Settles :=
    fun tx _ => stage_settles_iff.2 fun _ => getSignatures_settles crates tx
  have hblock : ∀ tx acc, (pushBlock crates options tx acc).Settles :=
    fun tx _ => stage_settles_iff.2 fun _ => getBlock_settles crates tx
  have hrow : ∀ tx sigCnt acc, (pushTxRecord crates options tx sigCnt acc).Settles :=
    fun tx sigCnt _ => stage_settles_iff.2 fun _ => getTransactions_settles crates tx sigCnt
  have hevents : ∀ tx acc, (pushEvents crates options tx acc).Settles ↔
      (options.doEvents = true → (getEvents crates tx).Settles) := fun _ _ => stage_settles_iff
  have hchanges : ∀ tx acc, (pushChanges crates options tx acc).Settles :=
    fun tx _ => stage_settles_iff.2 fun _ => getChanges_settles crates tx
  constructor
  · rintro h event ⟨henabled, tx, htx, hrows, hreaches⟩
    obtain ⟨sigCnt, acc₁, acc₂, acc₃, h₁, h₂, h₃⟩ := (exists_pushRows_iff acc).2 hrows
    have hpass : (pushEvents crates options tx acc₃).Settles := by
      simp only [pushTransaction, htx, h₁, h₂, h₃, Outcome.mapErr_ok, Outcome.ok_bind] at h
      exact h.of_bind
    exact (getEvents_settles_iff crates tx).1 ((hevents tx acc₃).1 hpass henabled) event hreaches
  · intro h
    refine (TransactionExtraction.tryFrom_settles _).mapErr.bind fun tx htx => ?_
    refine (hsigs tx acc).bind fun r h₁ => ?_
    obtain ⟨sigCnt, acc₁⟩ := r
    refine (hblock tx acc₁).bind fun acc₂ h₂ => ?_
    refine (hrow tx sigCnt acc₂).bind fun acc₃ h₃ => ?_
    refine Outcome.Settles.bind ?_ fun acc₄ _ => hchanges tx acc₄
    rw [hevents]
    intro henabled
    have hrows : BuildsRows crates options tx :=
      (exists_pushRows_iff acc).1 ⟨sigCnt, acc₁, acc₂, acc₃, h₁, h₂, h₃⟩
    refine (getEvents_settles_iff crates tx).2 fun event hreaches => ?_
    exact h event ⟨henabled, tx, Outcome.mapErr_eq_ok.1 htx, hrows, hreaches⟩

/-- A run of steps settles exactly when every event that is reached in a transaction, after
transactions that transform, is readable. -/
theorem steps_settles_iff (start «end» : UInt64) (s : LoopState) {txs : List Input.Transaction} :
    (Outcome.tryFold (step crates options start «end») s txs).Settles ↔
      ∀ done tx rest, txs = done ++ tx :: rest →
        (∀ prior ∈ done, Transforms crates options prior) →
          ∀ event, StepReaches crates options tx event → Readable crates event := by
  refine Outcome.settles_tryFold_iff (fun s tx => ?_) (fun s tx => ?_) s
  · rw [← pushTransaction_settles_iff s.acc]
    simp only [step, Outcome.settles_bind_ok, Outcome.settles_mapErr]
  · rw [← pushTransaction_eq_ok_iff s.acc]
    simp [step]

end Panics

/-! ## Reserving the vectors -/

/-- What a worker is built for: the feature that selects its publisher, whether the build checks
arithmetic for overflow, the sizes of the elements that it reserves, and the sizes that the
allocator has memory for. -/
structure Target where
  feature : Feature
  overflow_checks : Bool
  size_of : Table → ℕ
  size_of_timestamp : ℕ
  allocates : ℕ → Bool

/-- `isize::MAX`. -/
def isizeMax : ℕ := 2 ^ 63 - 1

/-- `(end - start) as usize`, which wraps around in a build that does not check for overflow. -/
def numTx (target : Target) (start «end» : UInt64) : Outcome Empty UInt64 :=
  if target.overflow_checks = true ∧ «end» < start then
    .panic "attempt to subtract with overflow"
  else
    .ok («end» - start)

/-- `Vec::with_capacity`, for elements of a size. An allocation that fails aborts the process, which
is a panic here. -/
def withCapacity (target : Target) (num_tx size : ℕ) : Outcome Empty Unit :=
  if isizeMax < num_tx * size then
    .panic "capacity overflow"
  else if num_tx * size = 0 ∨ target.allocates (num_tx * size) = true then
    .ok ()
  else
    .panic ("memory allocation of " ++ toString (num_tx * size) ++ " bytes failed")

/-- The sizes of the elements of the vectors that are created with a capacity. -/
def Target.reserved (target : Target) : List ℕ :=
  [Table.Transactions, .Changes, .Events, .Resources].map target.size_of ++
    List.replicate 4 target.size_of_timestamp

/-- The reservations of `extract_range`. -/
def reserve (target : Target) (start «end» : UInt64) : Outcome Empty Unit :=
  (numTx target start «end»).bind fun num_tx =>
    (Outcome.tryMap (withCapacity target num_tx.toNat) target.reserved).bind fun _ => .ok ()

/-- The range can be reserved: it is not reversed, if the build checks that, and each of its vectors
is within the limit of a vector and has memory. -/
structure Reserves (target : Target) (start «end» : UInt64) : Prop where
  ordered : target.overflow_checks = true → start ≤ «end»
  fits : ∀ size ∈ target.reserved, («end» - start).toNat * size ≤ isizeMax
  allocated : ∀ size ∈ target.reserved, («end» - start).toNat * size ≠ 0 →
    target.allocates ((«end» - start).toNat * size) = true

/-- A vector is created exactly when its size is within the limit and has memory. -/
theorem withCapacity_settles_iff (target : Target) (num_tx size : ℕ) :
    (withCapacity target num_tx size).Settles ↔ num_tx * size ≤ isizeMax ∧
      (num_tx * size ≠ 0 → target.allocates (num_tx * size) = true) := by
  unfold withCapacity
  by_cases hfits : isizeMax < num_tx * size
  · rw [if_pos hfits]
    exact iff_of_false (Outcome.not_settles_panic _) fun h => absurd hfits (Nat.not_lt.2 h.1)
  · rw [if_neg hfits]
    have hle : num_tx * size ≤ isizeMax := Nat.not_lt.1 hfits
    by_cases hmemory : num_tx * size = 0 ∨ target.allocates (num_tx * size) = true
    · rw [if_pos hmemory]
      exact iff_of_true (Outcome.settles_ok _) ⟨hle, fun hne => hmemory.resolve_left hne⟩
    · rw [if_neg hmemory]
      refine iff_of_false (Outcome.not_settles_panic _) fun h => hmemory ?_
      by_cases hzero : num_tx * size = 0
      · exact .inl hzero
      · exact .inr (h.2 hzero)

/-- The reservations settle exactly when the range can be reserved. -/
theorem reserve_settles_iff (target : Target) (start «end» : UInt64) :
    (reserve target start «end»).Settles ↔ Reserves target start «end» := by
  have hvectors : ∀ num_tx : ℕ, (Outcome.tryMap (withCapacity target num_tx)
      target.reserved).Settles ↔ ∀ size ∈ target.reserved, num_tx * size ≤ isizeMax ∧
        (num_tx * size ≠ 0 → target.allocates (num_tx * size) = true) := by
    intro num_tx
    rw [Outcome.settles_tryMap_iff_forall]
    exact forall₂_congr fun size _ => withCapacity_settles_iff target num_tx size
  rw [reserve, numTx]
  by_cases hreversed : target.overflow_checks = true ∧ «end» < start
  · rw [if_pos hreversed, Outcome.panic_bind]
    refine iff_of_false (Outcome.not_settles_panic _) fun h => ?_
    exact absurd hreversed.2 (UInt64.not_lt.2 (h.ordered hreversed.1))
  · rw [if_neg hreversed, Outcome.ok_bind, Outcome.settles_bind_ok, hvectors]
    constructor
    · intro h
      have hordered : target.overflow_checks = true → start ≤ «end» :=
        fun hchecks => UInt64.not_lt.1 fun hlt => hreversed ⟨hchecks, hlt⟩
      exact ⟨hordered, fun size hsize => (h size hsize).1, fun size hsize => (h size hsize).2⟩
    · intro h size hsize
      exact ⟨h.fits size hsize, h.allocated size hsize⟩

/-- A range that can be reserved is. -/
theorem Reserves.reserve_eq {target : Target} {start «end» : UInt64}
    (h : Reserves target start «end») : reserve target start «end» = .ok () := by
  obtain ⟨u, hreserve⟩ :=
    Outcome.settles_iff_exists_ok.1 ((reserve_settles_iff target start «end»).2 h)
  exact hreserve

/-- A range that is reversed by at most half of the versions there are cannot be reserved, however
the worker is built. -/
theorem not_reserves_of_reversed {target : Target} {start «end» : UInt64} (hlt : «end» < start)
    (hhalf : start.toNat - «end».toNat ≤ 2 ^ 63) (hsize : 0 < target.size_of_timestamp) :
    ¬ Reserves target start «end» := by
  intro h
  have hmem : target.size_of_timestamp ∈ target.reserved :=
    List.mem_append_right _ (List.mem_replicate.2 ⟨by decide, rfl⟩)
  have hfits := h.fits _ hmem
  -- the difference wraps around to at least half of the versions there are
  have hwraps : 2 ^ 63 ≤ («end» - start).toNat := by
    have hnat : «end».toNat < start.toNat := UInt64.lt_iff_toNat_lt.1 hlt
    have hstart := start.toNat_lt
    rw [UInt64.toNat_sub]
    omega
  have hmul : 2 ^ 63 * 1 ≤ («end» - start).toNat * target.size_of_timestamp :=
    Nat.mul_le_mul hwraps hsize
  rw [isizeMax] at hfits
  omega

/-! ## Extracting a range on a target -/

/-- The calls of `publish_records`, one after another. -/
def publishCalls (publish : PublishCall → Outcome Empty Unit) (calls : List PublishCall) :
    Outcome Empty Unit :=
  (Outcome.tryMap publish calls).bind fun _ => .ok ()

/-- `extract_range` once the publisher is prepared, with what it reserves and publishes. -/
def extractPrepared (target : Target) (crates : Crates)
    (publish : PublishCall → Outcome Empty Unit) (start «end» : UInt64)
    (tableOptions : Option TableOptions) (stream : Stream) :
    Outcome ExtractionInteruptionError Unit :=
  let options := tableOptions.getD .newAll
  match stream with
  | .error error => .err ⟨.StreamCreationError error, start, «end», start⟩
  | .ok responses =>
    (reserve target start «end»).mapErr Empty.elim |>.bind fun _ =>
      (pullLoop crates options start «end» responses ⟨start, .new⟩).bind fun
        | none => .ok ()
        | some s =>
          (publishCalls publish (publishAll options s.acc (rangeName start «end»))).mapErr
            Empty.elim

/-- `extract_range`: the publisher is prepared before the stream is asked for. -/
def extractRangeOn (target : Target) (crates : Crates) (server : Table → RabbitMqAnswers)
    (publish : StreamPublisher → PublishCall → Outcome Empty Unit) (start «end» : UInt64)
    (tableOptions : Option TableOptions) (stream : Stream) :
    Outcome ExtractionInteruptionError Unit :=
  (prepare target.feature server .new).mapErr Empty.elim |>.bind fun publisher =>
    extractPrepared target crates (publish publisher) start «end» tableOptions stream

/-- On a range that can be reserved, what is published once the publisher is prepared are the calls
of `extractRange`. -/
theorem extractRangeOn_eq {target : Target} {crates : Crates} {server : Table → RabbitMqAnswers}
    {publish : StreamPublisher → PublishCall → Outcome Empty Unit} {start «end» : UInt64}
    {tableOptions : Option TableOptions} {stream : Stream} (hle : start ≤ «end»)
    (hprepares : Prepares target.feature server) (hreserves : Reserves target start «end») :
    extractRangeOn target crates server publish start «end» tableOptions stream =
      (extractRange crates start «end» tableOptions stream).bind fun calls =>
        (publishCalls (publish (.prepared target.feature)) calls).mapErr Empty.elim := by
  rw [extractRangeOn, prepare_eq_ok hprepares, Outcome.mapErr_ok, Outcome.ok_bind]
  cases stream with
  | error error => rfl
  | ok responses =>
    have hreserve := hreserves.reserve_eq
    have hlt : ¬ «end» < start := UInt64.not_lt.2 hle
    simp only [extractPrepared, extractRange, hreserve, Outcome.mapErr_ok, Outcome.ok_bind, hlt,
      if_false, Outcome.bind_assoc]
    congr 1
    funext s?
    cases s? with
    | none => rfl
    | some s => rfl

section Extraction

variable {target : Target} {crates : Crates} {publish : PublishCall → Outcome Empty Unit}
  {start «end» : UInt64}

/-- What a run publishes that reaches the end of its range. -/
def reachedCalls (crates : Crates) (options : TableOptions) (start «end» : UInt64)
    (responses : List (Except Status (List Input.Transaction))) : List PublishCall :=
  publishRows options (rangeName start «end») fun table =>
    (reads start «end» responses).1.flatMap fun tx => enabledRows crates options tx table

/-- A run on a stream does not panic: its range can be reserved, every event that it reaches is
readable, and if it reaches its end, every call of the publisher returns. -/
structure RunReturns (target : Target) (crates : Crates)
    (publish : PublishCall → Outcome Empty Unit) (start «end» : UInt64) (options : TableOptions)
    (responses : List (Except Status (List Input.Transaction))) : Prop where
  reserves : Reserves target start «end»
  readable : ∀ done tx rest, (reads start «end» responses).1 = done ++ tx :: rest →
    (∀ prior ∈ done, Transforms crates options prior) →
      ∀ event, StepReaches crates options tx event → Readable crates event
  publishes : (∀ tx ∈ (reads start «end» responses).1, Transforms crates options tx) →
    (reads start «end» responses).2 = .Reached →
      ∀ call ∈ reachedCalls crates options start «end» responses, (publish call).Settles

/-- The calls settle exactly when each of them does. -/
theorem publishCalls_settles_iff {calls : List PublishCall} :
    (publishCalls publish calls).Settles ↔ ∀ call ∈ calls, (publish call).Settles := by
  rw [publishCalls, Outcome.settles_bind_ok, Outcome.settles_tryMap_iff_forall]

/-- With a prepared publisher, `extract_range` panics on a stream exactly when its run does not
return. -/
theorem extractPrepared_settles_iff {tableOptions : Option TableOptions}
    {responses : List (Except Status (List Input.Transaction))} :
    (extractPrepared target crates publish start «end» tableOptions (.ok responses)).Settles ↔
      RunReturns target crates publish start «end» (tableOptions.getD .newAll) responses := by
  set options := tableOptions.getD .newAll with hoptions
  set first : LoopState := ⟨start, .new⟩
  -- what the loop has accumulated at its end is published as the rows of what it read
  have hpublish : ∀ s, Outcome.tryFold (step crates options start «end») first
      (reads start «end» responses).1 = .ok s →
        publishAll options s.acc (rangeName start «end») =
          reachedCalls crates options start «end» responses :=
    fun s hs => publishAll_of_appends (steps_spec hs).2 options _
  have hconclude : ∀ s, Outcome.tryFold (step crates options start «end») first
      (reads start «end» responses).1 = .ok s →
        (((conclude start «end» (reads start «end» responses).2 s).bind fun
          | none => .ok ()
          | some s => (publishCalls publish (publishAll options s.acc
              (rangeName start «end»))).mapErr Empty.elim).Settles ↔
          ((reads start «end» responses).2 = .Reached →
            ∀ call ∈ reachedCalls crates options start «end» responses,
              (publish call).Settles)) := by
    intro s hs
    cases hending : (reads start «end» responses).2 with
    | Exhausted => simp [conclude]
    | Failed status => simp [conclude]
    | Reached =>
      simp only [conclude, Outcome.ok_bind, Outcome.settles_mapErr, hpublish s hs,
        publishCalls_settles_iff, forall_const]
  have hpanics : (extractPrepared target crates publish start «end» tableOptions
      (.ok responses)).Settles ↔ Reserves target start «end» ∧
        (Outcome.tryFold (step crates options start «end») first
          (reads start «end» responses).1).Settles ∧
        ∀ s, Outcome.tryFold (step crates options start «end») first
            (reads start «end» responses).1 = .ok s →
          ((reads start «end» responses).2 = .Reached →
            ∀ call ∈ reachedCalls crates options start «end» responses,
              (publish call).Settles) := by
    rw [extractPrepared, Outcome.settles_bind_iff_and, Outcome.settles_mapErr, reserve_settles_iff]
    refine and_congr_right fun hreserves => ?_
    simp only [hreserves.reserve_eq, Outcome.mapErr_ok, forall_const, pullLoop_eq,
      Outcome.bind_assoc]
    rw [Outcome.settles_bind_iff_and]
    exact and_congr_right fun _ => forall₂_congr hconclude
  rw [hpanics, steps_settles_iff]
  constructor
  · rintro ⟨hreserves, hreadable, hpublishes⟩
    refine ⟨hreserves, hreadable, fun htransforms => ?_⟩
    obtain ⟨s, hs⟩ := (steps_eq_ok_iff start «end» first).2 htransforms
    exact hpublishes s hs
  · intro h
    refine ⟨h.reserves, h.readable, fun s hs => h.publishes ?_⟩
    exact (steps_eq_ok_iff start «end» first).1 ⟨s, hs⟩

/-- `extract_range` panics exactly when its publisher cannot be prepared, or it has a stream and the
run on it does not return. -/
theorem extractRangeOn_settles_iff {server : Table → RabbitMqAnswers}
    {publish : StreamPublisher → PublishCall → Outcome Empty Unit}
    {tableOptions : Option TableOptions} {stream : Stream} :
    (extractRangeOn target crates server publish start «end» tableOptions stream).Settles ↔
      Prepares target.feature server ∧ ∀ responses, stream = .ok responses →
        RunReturns target crates (publish (.prepared target.feature)) start «end»
          (tableOptions.getD .newAll) responses := by
  rw [extractRangeOn, Outcome.settles_bind_iff_and, Outcome.settles_mapErr, prepare_settles_iff]
  refine and_congr_right fun hprepares => ?_
  simp only [prepare_eq_ok hprepares, Outcome.mapErr_ok, Outcome.ok.injEq, forall_eq']
  cases stream with
  | error error => exact iff_of_true (Outcome.settles_err _) nofun
  | ok responses =>
    rw [extractPrepared_settles_iff]
    simp only [Except.ok.injEq, forall_eq']

end Extraction

/-! ## One iteration -/

/-- `IndexingRange`, of `pubsub_range.proto`. -/
structure IndexingRange where
  start : UInt64
  «end» : UInt64
  table : Option TableOptions

/-- The call that settles a message. -/
inductive Settlement where
  | Ack
  | Nack
  deriving DecidableEq, Repr

/-- A message that is delivered, and what the services do while it is worked on: how a RabbitMQ
server answers for each table, the stream, and what becomes of a call on a publisher. -/
structure Delivery where
  data : List UInt8
  server : Table → RabbitMqAnswers
  get_stream : UInt64 → UInt64 → Stream
  publish : StreamPublisher → PublishCall → Outcome Empty Unit

section Subscribe

variable (target : Target) (crates : Crates) (decode : List UInt8 → Except String IndexingRange)

/-- `extract_range` on the range of a message. -/
def extraction (message : Delivery) (cur_range : IndexingRange) :
    Outcome ExtractionInteruptionError Unit :=
  extractRangeOn target crates message.server message.publish cur_range.start cur_range.end
    cur_range.table (message.get_stream cur_range.start cur_range.end)

/-- An iteration of the loop of `subscribe_and_extract` on a message: the call that settles it, and
the error that the worker then returns, if any. A status that the call is answered with is only
logged. -/
def iteration (message : Delivery) :
    Outcome Empty (Settlement × Except ExtractionInteruptionError Unit) :=
  match decode message.data with
  | .error error =>
    .panic ("pub/sub message uses the IndexingRange protobuf format: " ++ error)
  | .ok cur_range =>
    match extraction target crates message cur_range with
    | .ok () => .ok (.Ack, .ok ())
    | .err extract_error => .ok (.Nack, .error extract_error)
    | .panic message => .panic message

/-- `extract_range` returned normally on the message. -/
def Processed (message : Delivery) : Prop :=
  ∃ cur_range, decode message.data = .ok cur_range ∧
    extraction target crates message cur_range = .ok ()

/-- The message is settled: the iteration returns, with an acknowledgement exactly when
`extract_range` returned normally, and a nack exactly when the message could not be processed. -/
def Settled (message : Delivery) : Prop :=
  ∃ settlement next, iteration target crates decode message = .ok (settlement, next) ∧
    (settlement = .Ack ↔ Processed target crates decode message) ∧
      (settlement = .Nack ↔ ¬ Processed target crates decode message)

/-- The payload decodes, the publisher can be prepared, and the run on the stream of the range, if
there is one, returns. -/
def Returns (message : Delivery) : Prop :=
  ∃ cur_range, decode message.data = .ok cur_range ∧ Prepares target.feature message.server ∧
    ∀ responses, message.get_stream cur_range.start cur_range.end = .ok responses →
      RunReturns target crates (message.publish (.prepared target.feature)) cur_range.start
        cur_range.end (cur_range.table.getD .newAll) responses

variable {target crates decode} {message : Delivery}

/-- A message whose payload decodes is settled exactly when `extract_range` does not panic on it. -/
theorem settled_iff_extraction_settles {cur_range : IndexingRange}
    (hdecode : decode message.data = .ok cur_range) :
    Settled target crates decode message ↔
      (extraction target crates message cur_range).Settles := by
  have hprocessed : Processed target crates decode message ↔
      extraction target crates message cur_range = .ok () := by
    simp [Processed, hdecode]
  have hiteration : iteration target crates decode message =
      match extraction target crates message cur_range with
      | .ok () => .ok (.Ack, .ok ())
      | .err extract_error => .ok (.Nack, .error extract_error)
      | .panic message => .panic message := by
    rw [iteration, hdecode]
  rw [Settled, hiteration, hprocessed]
  cases hextraction : extraction target crates message cur_range with
  | ok u =>
    refine iff_of_true ⟨.Ack, .ok (), rfl, ?_, ?_⟩ (Outcome.settles_ok _)
    · exact iff_of_true rfl rfl
    · exact iff_of_false nofun fun h => h rfl
  | err extract_error =>
    refine iff_of_true ⟨.Nack, .error extract_error, rfl, ?_, ?_⟩ (Outcome.settles_err _)
    · exact iff_of_false nofun nofun
    · exact iff_of_true rfl nofun
  | panic text =>
    refine iff_of_false ?_ (Outcome.not_settles_panic _)
    rintro ⟨settlement, next, hiteration, -⟩
    exact nomatch hiteration

/-- An iteration of the loop of `subscribe_and_extract`: a pull that gives no message is tried
again, and the error of a message that was nacked is returned. -/
def pullStep (target : Target) (crates : Crates) (decode : List UInt8 → Except String IndexingRange)
    (pulled : Option Delivery) : Outcome ExtractionInteruptionError Unit :=
  match pulled with
  | none => .ok ()
  | some message =>
    (iteration target crates decode message).mapErr Empty.elim |>.bind fun
      | (_, .ok ()) => .ok ()
      | (_, .error extract_error) => .err extract_error

/-- `subscribe_and_extract`, with what is pulled until the shutdown signal. -/
def subscribeAndExtract (target : Target) (crates : Crates)
    (decode : List UInt8 → Except String IndexingRange) (pulls : List (Option Delivery)) :
    Outcome ExtractionInteruptionError Unit :=
  (Outcome.tryMap (pullStep target crates decode) pulls).bind fun _ => .ok ()

/-- An iteration that returns settles its message. -/
theorem iteration_settles_iff :
    (iteration target crates decode message).Settles ↔ Settled target crates decode message := by
  constructor
  · intro h
    cases hdecode : decode message.data with
    | error error =>
      rw [iteration, hdecode] at h
      exact absurd h (Outcome.not_settles_panic _)
    | ok cur_range =>
      refine (settled_iff_extraction_settles hdecode).2 fun text hpanic => ?_
      simp only [iteration, hdecode, hpanic] at h
      exact Outcome.not_settles_panic _ h
  · rintro ⟨settlement, next, hiteration, -⟩
    rw [hiteration]
    exact Outcome.settles_ok _

/-- The worker goes on after a message exactly when it was processed. -/
theorem pullStep_eq_ok_iff :
    (∃ u, pullStep target crates decode (some message) = .ok u) ↔
      Processed target crates decode message := by
  cases hdecode : decode message.data with
  | error error => simp [pullStep, iteration, Processed, hdecode]
  | ok cur_range =>
    cases hextraction : extraction target crates message cur_range <;>
      simp [pullStep, iteration, Processed, hdecode, hextraction]

/-- A run of the worker panics exactly on a message that it pulls, after messages that were
processed, and that is not settled. -/
theorem subscribeAndExtract_settles_iff {pulls : List (Option Delivery)} :
    (subscribeAndExtract target crates decode pulls).Settles ↔
      ∀ done message rest, pulls = done ++ some message :: rest →
        (∀ prior, some prior ∈ done → Processed target crates decode prior) →
          Settled target crates decode message := by
  have hstep : ∀ message, (pullStep target crates decode (some message)).Settles ↔
      Settled target crates decode message := by
    intro message
    rw [← iteration_settles_iff]
    refine ⟨fun h => Outcome.settles_mapErr.1 h.of_bind, fun h => h.mapErr.bind ?_⟩
    rintro ⟨settlement, _ | _⟩ -
    · exact Outcome.settles_err _
    · exact Outcome.settles_ok _
  rw [subscribeAndExtract, Outcome.settles_bind_ok, Outcome.settles_tryMap_iff]
  constructor
  · intro h done message rest hsplit hdone
    refine (hstep message).1 (h done _ rest hsplit fun pulled hpulled => ?_)
    cases pulled with
    | none => exact ⟨(), rfl⟩
    | some prior => exact pullStep_eq_ok_iff.2 (hdone prior hpulled)
  · intro h done pulled rest hsplit hdone
    cases pulled with
    | none => exact Outcome.settles_ok _
    | some message =>
      refine (hstep message).2 (h done message rest hsplit fun prior hprior => ?_)
      exact pullStep_eq_ok_iff.1 (hdone _ hprior)

end Subscribe

/-! ## Publishing to Google Cloud Storage -/

/-- The publishers of a worker that is built for Google Cloud Storage, and which of their calls of
`upload_object` fail. -/
structure GcsPublishers where
  crates : (table : Table) → Output.GcsCrates table.Row
  queue_name : Table → String
  failures : Table → List Bool

/-- `publish_records`, with the features `PUBLISH_WITH_NAME` and `GOOGLE_CLOUD_STORAGE`. -/
def publishRecords (publishers : GcsPublishers) (call : PublishCall) : Outcome Empty Unit :=
  match call.name with
  | none => .ok ()
  | some output_name =>
    (Output.publishBatch (publishers.crates call.table) (publishers.queue_name call.table)
      output_name call.timestamps call.records (publishers.failures call.table)).bind
        fun _ => .ok ()

/-- A batch with a row that is not serialized panics. -/
theorem publishRecords_not_settles {publishers : GcsPublishers} {call : PublishCall}
    {output_name : String} {row : call.table.Row} (hname : call.name = some output_name)
    (hrow : row ∈ call.records) (hstring : (publishers.crates call.table).to_string row = none) :
    ¬ (publishRecords publishers call).Settles := by
  rw [publishRecords, hname, Outcome.settles_bind_ok, Output.publishBatch]
  split_ifs with hlength hempty
  · exact Outcome.not_settles_panic _
  · rw [hempty, not_not] at hlength
    have hnone : call.records = [] := List.eq_nil_of_length_eq_zero hlength.symm
    rw [hnone] at hrow
    exact absurd hrow List.not_mem_nil
  · intro h
    have hstrings := Outcome.settles_iff_exists_ok.1 h.of_bind
    obtain ⟨string, hsome⟩ := Outcome.exists_tryMap_iff.1 hstrings row hrow
    rw [Outcome.expect_eq_ok, hstring] at hsome
    cases hsome

/-- A message is not settled when its range is extracted as a whole, and a row that is published is
not serialized. -/
theorem not_settled_of_not_serialized {target : Target} {crates : Crates}
    {decode : List UInt8 → Except String IndexingRange} {message : Delivery}
    {cur_range : IndexingRange} {responses : List (Except Status (List Input.Transaction))}
    {publishers : GcsPublishers} {table : Table} {row : table.Row}
    (hdecode : decode message.data = .ok cur_range)
    (hstream : message.get_stream cur_range.start cur_range.end = .ok responses)
    (hpublish : ∀ publisher, message.publish publisher = publishRecords publishers)
    (htransforms : ∀ tx ∈ (reads cur_range.start cur_range.end responses).1,
      Transforms crates (cur_range.table.getD .newAll) tx)
    (hreached : (reads cur_range.start cur_range.end responses).2 = .Reached)
    (henabled : (cur_range.table.getD .newAll).enables table = true)
    (hrow : ∃ tx ∈ (reads cur_range.start cur_range.end responses).1,
      row ∈ rowsOf crates tx table)
    (hstring : (publishers.crates table).to_string row = none) :
    ¬ Settled target crates decode message := by
  intro h
  obtain ⟨-, hreturns⟩ :=
    extractRangeOn_settles_iff.1 ((settled_iff_extraction_settles hdecode).1 h)
  have hpublishes := (hreturns responses hstream).publishes htransforms hreached
  obtain ⟨tx, htx, hrow⟩ := hrow
  have hmem : row ∈ (reads cur_range.start cur_range.end responses).1.flatMap fun tx =>
      enabledRows crates (cur_range.table.getD .newAll) tx table := by
    refine List.mem_flatMap.2 ⟨tx, htx, ?_⟩
    rwa [enabledRows, if_pos henabled]
  have hall : table ∈ Table.all := by
    cases table <;> decide
  have hsettles := hpublishes _ (List.mem_map.2 ⟨table, List.mem_filter.2 ⟨hall, henabled⟩, rfl⟩)
  rw [hpublish] at hsettles
  exact publishRecords_not_settles rfl hmem hstring hsettles

/-- The empty payload is the range from 0 to 0, and a payload of one byte with its high bit set is
cut off in the middle of a number. -/
def sampleDecode (data : List UInt8) : Except String IndexingRange :=
  if data = [] then
    .ok ⟨0, 0, none⟩
  else
    .error "failed to decode Protobuf message: invalid varint"

end AptosEtl.Worker
