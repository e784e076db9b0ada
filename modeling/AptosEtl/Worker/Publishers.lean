import AptosEtl.Lib.Traced
import AptosEtl.Output.Files
import AptosEtl.Worker.ExtractRange

/-!
# Publishers

`publish_records` of `aptos_config/mod.rs`, and the publishers of `streampublisher.rs` that it
calls. What reaches a publisher depends on the feature that the worker is built with: the publishers
of objects and files publish under a name, and nothing without one.

The publishers of Kafka and of RabbitMQ's queues cannot publish as they are connected. They need a
producer or a channel, which `extract_range` creates before anything else (`prepare`), and a channel
is created by calls to a server that may fail. A publisher without them panics at its first row.
-/

namespace AptosEtl.Worker

open Rust Tables

/-! ## Features -/

/-- The features that select a publisher. -/
inductive Feature where
  | APACHE_KAFKA
  | GOOGLE_PUBSUB
  | GOOGLE_CLOUD_STORAGE
  | RABBITMQ_STREAM
  | RABBITMQ_CLASSIC
  | JSONL
  | JSON
  deriving DecidableEq, Repr

/-- The features that imply `PUBLISH_WITH_NAME`. -/
def Feature.publishWithName : Feature → Bool
  | GOOGLE_CLOUD_STORAGE => true
  | JSONL => true
  | JSON => true
  | _ => false

/-- A call of a publisher: `publish` or `publish_batch`, with the arguments that it has under the
feature. -/
inductive Publication (Row : Type) where
  | Publish (name : Option String) (record : Row)
  | Batch (name : Option String) (timestamps : Option (List Rows.UnixTimestamp))
      (records : List Row)

/-- The rows of a call. -/
def Publication.rows {Row : Type} : Publication Row → List Row
  | Publish _ record => [record]
  | Batch _ _ records => records

/-- The calls of a publisher that `publish_records` makes. -/
def publications {Row : Type} (feature : Feature) (records : List Row) (name : Option String)
    (timestamps : List Rows.UnixTimestamp) : List (Publication Row) :=
  if feature.publishWithName then
    match name with
    | none => []
    | some outputName =>
      match feature with
      | .JSON => records.mapIdx fun i record =>
        .Publish (some (outputName ++ "_" ++ toString i)) record
      | .JSONL => [.Batch (some outputName) none records]
      | .GOOGLE_CLOUD_STORAGE => [.Batch (some outputName) (some timestamps) records]
      | _ => []
  else
    match feature with
    | .GOOGLE_PUBSUB => [.Batch none none records]
    | _ => records.map (.Publish none)

/-- Under `JSON` each record is a file of its own. -/
theorem publications_json {Row : Type} (records : List Row) (outputName : String)
    (timestamps : List Rows.UnixTimestamp) :
    publications .JSON records (some outputName) timestamps =
      (Output.recordCalls outputName records).map fun call => .Publish (some call.1) call.2 := by
  simp only [publications, Feature.publishWithName, Output.recordCalls, if_true,
    List.mapIdx_eq_zipIdx_map, List.map_map]
  rfl

/-- All rows of a call of `publish_records` are published, in order, except under a feature that
needs a name when there is none. -/
theorem rows_publications {Row : Type} (feature : Feature) (records : List Row)
    (name : Option String) (timestamps : List Rows.UnixTimestamp) :
    (publications feature records name timestamps).flatMap Publication.rows =
      if feature.publishWithName = true ∧ name = none then [] else records := by
  have heach : ∀ records : List Row, (records.map (.Publish none)).flatMap Publication.rows =
      records := fun records => by
    simp [List.flatMap_map, Publication.rows]
  have hindexed : ∀ f : ℕ → String, (records.mapIdx fun i record =>
      Publication.Publish (some (f i)) record).flatMap Publication.rows = records := fun f => by
    simp only [List.mapIdx_eq_zipIdx_map, List.flatMap_map, Publication.rows]
    rw [← List.map_eq_flatMap, List.zipIdx_map_fst]
  cases feature <;> cases name <;>
    simp [publications, Feature.publishWithName, Publication.rows, heach, hindexed]

/-! ## Connections -/

/-- The answers of a RabbitMQ server to the calls that open a channel for a queue. An error is its
text, and a declaration has no details when the client asked for no answer. -/
structure RabbitMqAnswers where
  open_channel : Except String Unit
  register_callback : Except String Unit
  queue_declare : Except String (Option Unit)

/-- `Result::unwrap`. -/
def unwrapResult {α : Type} : Except String α → Outcome Empty α
  | .ok a => .ok a
  | .error error => .panic ("called `Result::unwrap()` on an `Err` value: " ++ error)

/-- `Option::unwrap`. -/
def unwrapOption {α : Type} (x : Option α) : Outcome Empty α :=
  .expect x "called `Option::unwrap()` on a `None` value"

/-- `StreamPublisherConnectionClient::establish_connection`. -/
def establishConnection (answers : RabbitMqAnswers) : Outcome Empty Unit :=
  (unwrapResult answers.open_channel).bind fun _ =>
    (unwrapResult answers.register_callback).bind fun _ =>
      (unwrapResult answers.queue_declare).bind fun details =>
        (unwrapOption details).bind fun _ => .ok ()

/-- A channel is opened: no call is answered with an error, and the declaration has details. -/
structure RabbitMqAnswers.Opens (answers : RabbitMqAnswers) : Prop where
  open_channel : answers.open_channel = .ok ()
  register_callback : answers.register_callback = .ok ()
  queue_declare : answers.queue_declare = .ok (some ())

/-- Establishing a connection panics unless its channel is opened. -/
theorem establishConnection_settles_iff {answers : RabbitMqAnswers} :
    (establishConnection answers).Settles ↔ answers.Opens := by
  obtain ⟨opened, registered, declared⟩ := answers
  have hopens : ∀ opened registered declared,
      (RabbitMqAnswers.mk opened registered declared).Opens ↔
        opened = .ok () ∧ registered = .ok () ∧ declared = .ok (some ()) := by
    intro opened registered declared
    exact ⟨fun h => ⟨h.open_channel, h.register_callback, h.queue_declare⟩,
      fun h => ⟨h.1, h.2.1, h.2.2⟩⟩
  rw [hopens]
  cases opened with
  | error error => simp [establishConnection, unwrapResult]
  | ok u =>
    cases registered with
    | error error => simp [establishConnection, unwrapResult]
    | ok u =>
      cases declared with
      | error error => simp [establishConnection, unwrapResult]
      | ok details => cases details <;> simp [establishConnection, unwrapResult, unwrapOption,
          Outcome.expect]

/-- `StreamPublisherConnection`, with the fields that publishing depends on: the channel that it has
under `RABBITMQ_CLASSIC`, and the producer that it has under `APACHE_KAFKA`. -/
structure StreamPublisherConnection where
  channel : Option Unit
  producer : Option Unit
  deriving DecidableEq

/-- `connect`, under every feature. -/
def connect : StreamPublisherConnection := ⟨none, none⟩

/-- `StreamPublisher`: a connection for each table. -/
abbrev StreamPublisher := Table → StreamPublisherConnection

/-- `StreamPublisher::new`. A clone has no channel and no producer either. -/
def StreamPublisher.new : StreamPublisher := fun _ => connect

/-- The fields of `StreamPublisher`, in order. -/
def publisherFields : List Table :=
  [.Blocks, .Transactions, .Changes, .Events, .Modules, .Resources, .Signatures, .TableItems]

/-- `StreamPublisher::with_channel`. -/
def StreamPublisher.withChannel (self : StreamPublisher) (server : Table → RabbitMqAnswers) :
    Outcome Empty StreamPublisher :=
  (Outcome.tryMap (fun table => establishConnection (server table)) publisherFields).bind fun _ =>
    .ok fun table => { self table with channel := some () }

/-- `StreamPublisher::with_producer`. -/
def StreamPublisher.withProducer (self : StreamPublisher) : StreamPublisher :=
  fun table => { self table with producer := some () }

/-- The first step of `extract_range`, which prepares the publisher if necessary. -/
def prepare (feature : Feature) (server : Table → RabbitMqAnswers) (self : StreamPublisher) :
    Outcome Empty StreamPublisher :=
  match feature with
  | .RABBITMQ_CLASSIC => self.withChannel server
  | .APACHE_KAFKA => .ok self.withProducer
  | _ => .ok self

/-- The server lets the publisher be prepared: under `RABBITMQ_CLASSIC`, each table gets a
channel. -/
def Prepares (feature : Feature) (server : Table → RabbitMqAnswers) : Prop :=
  feature = .RABBITMQ_CLASSIC → ∀ table, (server table).Opens

/-- The publisher that `extract_range` publishes with. -/
def StreamPublisher.prepared (feature : Feature) : StreamPublisher :=
  match feature with
  | .RABBITMQ_CLASSIC => fun _ => ⟨some (), none⟩
  | .APACHE_KAFKA => fun _ => ⟨none, some ()⟩
  | _ => .new

/-- Where the server lets it, a new publisher is prepared. -/
theorem prepare_eq_ok {feature : Feature} {server : Table → RabbitMqAnswers}
    (h : Prepares feature server) : prepare feature server .new = .ok (.prepared feature) := by
  cases feature
  case RABBITMQ_CLASSIC =>
    have hopened : (Outcome.tryMap (fun table => establishConnection (server table))
        publisherFields).Settles := by
      rw [Outcome.settles_tryMap_iff_forall]
      exact fun table _ => establishConnection_settles_iff.2 (h rfl table)
    obtain ⟨us, hus⟩ := Outcome.settles_iff_exists_ok.1 hopened
    rw [prepare, StreamPublisher.withChannel, hus, Outcome.ok_bind]
    rfl
  all_goals rfl

/-- Preparing a publisher panics unless the server lets it. -/
theorem prepare_settles_iff {feature : Feature} {server : Table → RabbitMqAnswers}
    {publisher : StreamPublisher} :
    (prepare feature server publisher).Settles ↔ Prepares feature server := by
  have hfields : ∀ table, table ∈ publisherFields := by
    intro table
    cases table <;> decide
  cases feature
  case RABBITMQ_CLASSIC =>
    rw [prepare, StreamPublisher.withChannel, Outcome.settles_bind_ok,
      Outcome.settles_tryMap_iff_forall]
    simp only [establishConnection_settles_iff, hfields, forall_const, Prepares]
  all_goals exact iff_of_true (Outcome.settles_ok _) nofun

/-! ## Publishing -/

/-- A call of the publisher of a table. -/
abbrev Sent := (table : Table) × Publication table.Row

/-- The rows that reach the publisher of a table. -/
def received (table : Table) (sent : List Sent) : List table.Row :=
  sent.flatMap fun s => if h : s.1 = table then h ▸ s.2.rows else []

/-- What `publish` takes from its connection before it hands a record over. -/
def StreamPublisherConnection.handle (self : StreamPublisherConnection) (feature : Feature) :
    Outcome Empty Unit :=
  match feature with
  | .RABBITMQ_CLASSIC => unwrapOption self.channel
  | .APACHE_KAFKA => .expect self.producer
    "producer should have been constructed with StreamPublisherConnection.with_producer()"
  | _ => .ok ()

/-- `publish` and `publish_batch`, of services that take what they are given. -/
def publishOn (feature : Feature) (publisher : StreamPublisher) (sent : Sent) :
    Traced Sent Empty Unit :=
  (Traced.lift ((publisher sent.1).handle feature)).bind fun _ => .after [sent] (.ok ())

/-- The calls of a publisher that a call of `publish_records` makes. -/
def sends (feature : Feature) (call : PublishCall) : List Sent :=
  (publications feature call.records call.name call.timestamps).map (Sigma.mk call.table)

/-- `publish_records`, on a publisher. -/
def publishRecordsOn (feature : Feature) (publisher : StreamPublisher) (call : PublishCall) :
    Traced Sent Empty Unit :=
  Traced.tryFold (fun _ sent => publishOn feature publisher sent) () (sends feature call)

/-- Calls of `publish_records`, one after another. -/
def publishEach {ω : Type} (publish : PublishCall → Traced ω Empty Unit)
    (calls : List PublishCall) : Traced ω Empty Unit :=
  Traced.tryFold (fun _ call => publish call) () calls

/-- The features whose publishers publish as they are connected. -/
def Feature.publishesConnected : Feature → Bool
  | APACHE_KAFKA => false
  | RABBITMQ_CLASSIC => false
  | _ => true

/-- Under them, a publisher has what it needs as it is connected. -/
theorem handle_new {feature : Feature} (h : feature.publishesConnected = true) (table : Table) :
    (StreamPublisher.new table).handle feature = .ok () := by
  cases feature <;> first | rfl | cases h

/-- Under the others, a publisher panics as it is connected. -/
theorem handle_new_panics {feature : Feature} (h : feature.publishesConnected = false) :
    ∃ message, ∀ table, (StreamPublisher.new table).handle feature = .panic message := by
  cases feature
  case APACHE_KAFKA => exact ⟨_, fun _ => rfl⟩
  case RABBITMQ_CLASSIC => exact ⟨_, fun _ => rfl⟩
  all_goals cases h

/-- A publisher that is prepared has what it needs. -/
theorem handle_prepared (feature : Feature) (table : Table) :
    (StreamPublisher.prepared feature table).handle feature = .ok () := by
  cases feature <;> rfl

section PublishOn

variable {feature : Feature} {publisher : StreamPublisher}

/-- A publisher that has what it needs is handed everything. -/
theorem publishEach_of_handle (h : ∀ table, (publisher table).handle feature = .ok ())
    (calls : List PublishCall) :
    publishEach (publishRecordsOn feature publisher) calls =
      ⟨calls.flatMap (sends feature), .ok ()⟩ := by
  refine Traced.tryFold_of_ok fun call _ => ?_
  have hsent : ∀ sent ∈ sends feature call,
      publishOn feature publisher sent = ⟨[sent], .ok ()⟩ := by
    intro sent _
    rw [publishOn, h]
    rfl
  rw [publishRecordsOn, Traced.tryFold_of_ok hsent, List.flatMap_singleton']

/-- A publisher that panics is handed nothing. -/
theorem actions_publishEach_of_panic {message : String}
    (h : ∀ table, (publisher table).handle feature = .panic message) (calls : List PublishCall) :
    (publishEach (publishRecordsOn feature publisher) calls).actions = [] := by
  refine Traced.actions_tryFold_eq_nil (fun _ call => ?_) () calls
  refine Traced.actions_tryFold_eq_nil (fun _ sent => ?_) () (sends feature call)
  rw [publishOn, h]
  rfl

/-- It panics at the first call that hands something to it. -/
theorem publishEach_panics {message : String}
    (h : ∀ table, (publisher table).handle feature = .panic message) {call : PublishCall}
    (hsends : sends feature call ≠ []) (calls : List PublishCall) :
    (publishEach (publishRecordsOn feature publisher) (call :: calls)).outcome =
      .panic message := by
  obtain ⟨sent, rest, hcall⟩ := List.exists_cons_of_ne_nil hsends
  have hfirst : (publishOn feature publisher sent).outcome = .panic message := by
    rw [publishOn, h]
    rfl
  rw [publishEach, Traced.tryFold, Traced.outcome_bind, publishRecordsOn, hcall, Traced.tryFold,
    Traced.outcome_bind, hfirst]
  rfl

end PublishOn

end AptosEtl.Worker
