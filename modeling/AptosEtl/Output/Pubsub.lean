import AptosEtl.Lib.Retry

/-!
# Publishing a batch to Google Cloud Pub/Sub

`output/google_pubsub.rs`, `publish_batch`. The messages are published in chunks of 900. The
messages of a chunk are published together, and then each of them whose result is an error is
published alone, again and again until it succeeds.

The publishes are numbered in the order in which they are made, and a publish fails or succeeds by
its number. The loop of `publish_with_backoff` gets fuel, and `publishBatch_delivers` says that, if
only finitely many publishes fail, then there is enough for any batch.
-/

namespace AptosEtl.Output

open Retry

/-- A `PubsubMessage`, whose other fields have their default. -/
structure PubsubMessage where
  data : List UInt8
  deriving DecidableEq, Repr

/-- What was done: the publishes, each with its result, and the seconds slept between them. -/
structure PubsubState where
  attempts : List (Attempt PubsubMessage)
  slept : List UInt64
  deriving DecidableEq, Repr

/-- `prepare_message`. -/
def prepareMessage (serialized_block : List UInt8) : PubsubMessage := ⟨serialized_block⟩

/-- `publish` and `get`, of one message: whether it succeeds. -/
def PubsubState.publish (fails : ℕ → Bool) (message : PubsubMessage) (s : PubsubState) :
    Bool × PubsubState :=
  let ok := !fails s.attempts.length
  (ok, { s with attempts := s.attempts ++ [⟨message, ok⟩] })

/-- `publish_bulk` and `get`, of several messages: whether each succeeds, in order. -/
def PubsubState.publishBulk (fails : ℕ → Bool) :
    List PubsubMessage → PubsubState → List Bool × PubsubState
  | [], s => ([], s)
  | message :: messages, s =>
    let (ok, s) := s.publish fails message
    let (results, s) := s.publishBulk fails messages
    (ok :: results, s)

/-- The loop of `publish_with_backoff`, and `none` without fuel. -/
def retryLoop (fails : ℕ → Bool) (message : PubsubMessage) :
    ℕ → UInt64 → Bool → PubsubState → Option PubsubState
  | 0, _, _, _ => none
  | fuel + 1, backoff, res, s =>
    if res then
      some s
    else
      let s := { s with slept := s.slept ++ [backoff] }
      let (res, s) := s.publish fails message
      retryLoop fails message fuel (backoff + 1) res s

/-- `publish_with_backoff`. -/
def publishWithBackoff (fails : ℕ → Bool) (fuel : ℕ) (message : PubsubMessage) (s : PubsubState) :
    Option PubsubState :=
  let (res, s) := s.publish fails message
  retryLoop fails message fuel 0 res s

/-- The loop of `publish_batch_with_backoff` over the results and their positions. An index out of
range would be a panic. -/
def resendFailed (fails : ℕ → Bool) (fuel : ℕ) (messages : List PubsubMessage) :
    List (Bool × ℕ) → PubsubState → Option PubsubState
  | [], s => some s
  | (true, _) :: awaiters, s => resendFailed fails fuel messages awaiters s
  | (false, i) :: awaiters, s =>
    messages[i]?.bind fun msg =>
      (publishWithBackoff fails fuel msg s).bind (resendFailed fails fuel messages awaiters)

/-- `publish_batch_with_backoff`. -/
def publishBatchWithBackoff (fails : ℕ → Bool) (fuel : ℕ) (s : PubsubState)
    (messages : List PubsubMessage) : Option PubsubState :=
  let (results, s) := s.publishBulk fails messages
  resendFailed fails fuel messages results.zipIdx s

/-- `publish_batch` of the client: what is done for a batch of encoded rows. -/
def publishMessages (fails : ℕ → Bool) (fuel : ℕ) (msg_batch : List (List UInt8)) :
    Option PubsubState :=
  ((msg_batch.map prepareMessage).toChunks 900).foldlM (publishBatchWithBackoff fails fuel) ⟨[], []⟩

/-- `publish_batch` of the connection, with the encoding of a row. -/
def publishRowBatch {α : Type} (encode_to_vec : α → List UInt8) (fails : ℕ → Bool) (fuel : ℕ)
    (msgs : List α) : Option PubsubState :=
  publishMessages fails fuel (msgs.map encode_to_vec)

variable {fails : ℕ → Bool} {bound fuel : ℕ}

/-! ## One message -/

/-- With fuel beyond the last publish that fails, the loop ends when the message succeeds. It sleeps
a second longer each time. -/
theorem retryLoop_spec (hfails : ∀ n, bound ≤ n → fails n = false) (message : PubsubMessage)
    (seconds : ℕ) (s : PubsubState) (hfuel : bound + 2 ≤ s.attempts.length + fuel)
    (htwo : 2 ≤ fuel) :
    ∃ failures s', retryLoop fails message fuel (UInt64.ofNat seconds) false s = some s' ∧
      s'.attempts = s.attempts ++ untilSuccess message failures ∧
      s'.slept = s.slept ++ (List.range' seconds (failures + 1)).map UInt64.ofNat := by
  induction fuel generalizing s seconds with
  | zero => omega
  | succ fuel ih =>
    have hbackoff : UInt64.ofNat seconds + 1 = UInt64.ofNat (seconds + 1) :=
      (UInt64.ofNat_add seconds 1).symm
    simp only [retryLoop, Bool.false_eq_true, if_false, PubsubState.publish, hbackoff]
    cases hres : fails s.attempts.length with
    | false =>
      obtain ⟨fuel, rfl⟩ : ∃ n, fuel = n + 1 := ⟨fuel - 1, by omega⟩
      exact ⟨0, _, rfl, rfl, rfl⟩
    | true =>
      -- the publish is one of those that fail, so there is fuel for those after it
      have hlt : s.attempts.length < bound := by
        refine Nat.lt_of_not_le fun hge => ?_
        rw [hfails _ hge] at hres
        exact absurd hres Bool.false_ne_true
      have hlength : (s.attempts ++ [Attempt.mk message false]).length = s.attempts.length + 1 :=
        List.length_append
      obtain ⟨failures, s', hrun, hattempts, hslept⟩ := ih (seconds + 1)
        ⟨s.attempts ++ [⟨message, false⟩], s.slept ++ [UInt64.ofNat seconds]⟩
        (by rw [hlength]; omega) (by omega)
      refine ⟨failures + 1, s', hrun, ?_, ?_⟩
      · rw [hattempts, untilSuccess_succ, List.append_assoc, List.singleton_append]
      · rw [hslept, List.range'_succ (s := seconds), List.map_cons, List.append_assoc,
          List.singleton_append]

/-- A message is published until it succeeds. -/
theorem publishWithBackoff_spec (hfails : ∀ n, bound ≤ n → fails n = false)
    (hfuel : bound + 2 ≤ fuel) (message : PubsubMessage) (s : PubsubState) :
    ∃ failures s', publishWithBackoff fails fuel message s = some s' ∧
      s'.attempts = s.attempts ++ untilSuccess message failures ∧
      s'.slept = s.slept ++ (List.range failures).map UInt64.ofNat := by
  simp only [publishWithBackoff, PubsubState.publish]
  cases fails s.attempts.length with
  | false =>
    obtain ⟨fuel, rfl⟩ : ∃ n, fuel = n + 1 := ⟨fuel - 1, by omega⟩
    exact ⟨0, _, rfl, rfl, (List.append_nil _).symm⟩
  | true =>
    obtain ⟨failures, s', hrun, hattempts, hslept⟩ := retryLoop_spec hfails message 0
      ⟨s.attempts ++ [⟨message, false⟩], s.slept⟩ (by omega) (by omega : 2 ≤ fuel)
    refine ⟨failures + 1, s', hrun, ?_, ?_⟩
    · rw [hattempts, untilSuccess_succ, List.append_assoc, List.singleton_append]
    · rw [hslept, List.range_eq_range']

/-! ## A chunk -/

/-- The messages of a chunk are published once each, in order. -/
theorem publishBulk_spec (fails : ℕ → Bool) (messages : List PubsubMessage) (s : PubsubState) :
    ∃ firsts : List (Attempt PubsubMessage), firsts.map (·.message) = messages ∧
      s.publishBulk fails messages =
        (firsts.map (·.ok), { s with attempts := s.attempts ++ firsts }) := by
  induction messages generalizing s with
  | nil => exact ⟨[], rfl, by simp [PubsubState.publishBulk]⟩
  | cons message messages ih =>
    obtain ⟨firsts, hmessages, hrun⟩ := ih (s.publish fails message).2
    refine ⟨⟨message, !fails s.attempts.length⟩ :: firsts, by rw [List.map_cons, hmessages], ?_⟩
    simp only [PubsubState.publishBulk, hrun]
    simp [PubsubState.publish]

/-- Those of them that failed are sent again until they succeed. The results from a position on are
those of the messages from this position on. -/
theorem resendFailed_spec (hfails : ∀ n, bound ≤ n → fails n = false) (hfuel : bound + 2 ≤ fuel)
    {messages : List PubsubMessage} {firsts : List (Attempt PubsubMessage)} {i : ℕ}
    (hmessages : firsts.map (·.message) = messages.drop i) (s : PubsubState) :
    ∃ resends s', resendFailed fails fuel messages ((firsts.map (·.ok)).zipIdx i) s = some s' ∧
      Resent firsts resends ∧ s'.attempts = s.attempts ++ resends := by
  induction firsts generalizing i s with
  | nil => exact ⟨[], s, rfl, .nil, (List.append_nil _).symm⟩
  | cons first firsts ih =>
    obtain ⟨message, ok⟩ := first
    have hget : messages[i]? = some message := by
      rw [← List.head?_drop, ← hmessages]
      rfl
    have hrest : firsts.map (·.message) = messages.drop (i + 1) := by
      rw [← List.tail_drop, ← hmessages]
      rfl
    cases ok with
    | true =>
      obtain ⟨resends, s', hrun, hresent, hattempts⟩ := ih hrest s
      exact ⟨resends, s', hrun, .ok hresent, hattempts⟩
    | false =>
      obtain ⟨failures, s₁, hretry, hattempts₁, -⟩ :=
        publishWithBackoff_spec hfails hfuel message s
      obtain ⟨resends, s', hrun, hresent, hattempts⟩ := ih hrest s₁
      refine ⟨untilSuccess message failures ++ resends, s', ?_, .failed hresent, ?_⟩
      · simp only [List.map_cons, List.zipIdx_cons, resendFailed, hget, hretry, Option.bind_some]
        exact hrun
      · rw [hattempts, hattempts₁, List.append_assoc]

/-- The attempts of a chunk are those of a batch of its messages. -/
theorem publishBatchWithBackoff_spec (hfails : ∀ n, bound ≤ n → fails n = false)
    (hfuel : bound + 2 ≤ fuel) (messages : List PubsubMessage) (s : PubsubState) :
    ∃ attempts s', publishBatchWithBackoff fails fuel s messages = some s' ∧
      Batch messages attempts ∧ s'.attempts = s.attempts ++ attempts := by
  obtain ⟨firsts, hmessages, hbulk⟩ := publishBulk_spec fails messages s
  obtain ⟨resends, s', hrun, hresent, hattempts⟩ := resendFailed_spec (i := 0) hfails hfuel
    hmessages { s with attempts := s.attempts ++ firsts }
  refine ⟨firsts ++ resends, s', ?_, ⟨firsts, resends, hmessages, hresent, rfl⟩, ?_⟩
  · simp only [publishBatchWithBackoff, hbulk]
    exact hrun
  · rw [hattempts, List.append_assoc]

/-! ## A batch -/

/-- The attempts of several chunks are those of a batch for each, one after the other. -/
theorem foldlM_publishBatchWithBackoff (hfails : ∀ n, bound ≤ n → fails n = false)
    (hfuel : bound + 2 ≤ fuel) (chunks : List (List PubsubMessage)) (s : PubsubState) :
    ∃ attempts s', chunks.foldlM (publishBatchWithBackoff fails fuel) s = some s' ∧
      List.Forall₂ Batch chunks attempts ∧ s'.attempts = s.attempts ++ attempts.flatten := by
  induction chunks generalizing s with
  | nil => exact ⟨[], s, rfl, .nil, (List.append_nil _).symm⟩
  | cons messages chunks ih =>
    obtain ⟨attempts₁, s₁, hchunk, hbatch, hattempts₁⟩ :=
      publishBatchWithBackoff_spec hfails hfuel messages s
    obtain ⟨attempts, s', hrun, hbatches, hattempts⟩ := ih s₁
    refine ⟨attempts₁ :: attempts, s', ?_, .cons hbatch hbatches, ?_⟩
    · rw [List.foldlM_cons, hchunk]
      exact hrun
    · rw [hattempts, hattempts₁, List.flatten_cons, List.append_assoc]

/-- If only finitely many publishes fail, then a batch ends with every message delivered once: the
attempts are those of its chunks of 900, each of which is attempted as a whole, and then each
message that failed is attempted until it succeeds. -/
theorem publishBatch_delivers {α : Type} (encode_to_vec : α → List UInt8) (msgs : List α)
    (hfinite : FinitelyMany fails) :
    ∃ bound, ∀ fuel ≥ bound, ∃ s, publishRowBatch encode_to_vec fails fuel msgs = some s ∧
      (delivered s.attempts).Perm (msgs.map fun msg => ⟨encode_to_vec msg⟩) ∧
      ∃ attempts, s.attempts = attempts.flatten ∧ List.Forall₂ Batch
        ((msgs.map fun msg => ⟨encode_to_vec msg⟩).toChunks 900) attempts := by
  obtain ⟨bound, hfails⟩ := hfinite
  refine ⟨bound + 2, fun fuel hfuel => ?_⟩
  obtain ⟨attempts, s, hrun, hbatches, hattempts⟩ := foldlM_publishBatchWithBackoff hfails hfuel
    ((msgs.map fun msg => ⟨encode_to_vec msg⟩).toChunks 900) ⟨[], []⟩
  have hflatten : s.attempts = attempts.flatten := by rw [hattempts, List.nil_append]
  refine ⟨s, ?_, ?_, attempts, hflatten, hbatches⟩
  · rw [publishRowBatch, publishMessages, List.map_map]
    exact hrun
  · have hperm := delivered_flatten_perm hbatches
    rwa [flatten_toChunks, ← hflatten] at hperm

/-- Two rows, the second of which fails three times. -/
theorem publishBatch_delivers_retried :
    ∃ bound, ∀ fuel ≥ bound, ∃ s, publishRowBatch (fun b : UInt8 => [b])
        (fun n => decide (1 ≤ n ∧ n ≤ 3)) fuel [7, 8] = some s ∧
      (delivered s.attempts).Perm (([7, 8] : List UInt8).map fun b => ⟨[b]⟩) ∧
      ∃ attempts, s.attempts = attempts.flatten ∧ List.Forall₂ Batch
        ((([7, 8] : List UInt8).map fun b => ⟨[b]⟩).toChunks 900) attempts :=
  publishBatch_delivers (fun b : UInt8 => [b]) [7, 8] ⟨4, fun n hn => decide_eq_false (by omega)⟩

end AptosEtl.Output
