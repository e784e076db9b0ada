import AptosEtl.Lib.Machine
import Mathlib.Logic.Function.Basic
import Mathlib.Tactic.Common

/-!
# Consumers of a queue

A queue that delivers every message at least once, and any number of consumers. A message that was
published may be delivered at any time and to any consumer, also while another one works on it, and
also after it was acknowledged. The work on a message is a list of effects, which a consumer has one
after another, and it may be abandoned in the middle of them. A message is acknowledged only after
all of its effects, and only where the work asks for it.

What the effects of a message can be is a relation. The invariant (`Invariant`) then says of every
state that is reached that nothing else has had an effect, and that the effects of a message that
was acknowledged are there. `mem_log_iff` draws the conclusion: once every message is acknowledged,
the effects are those that the messages call for, whatever the consumers did in which order.
-/

universe u v w

namespace Consumers

/-- What a consumer does with a message: its effects, and whether it then acknowledges it. -/
structure Work (ω : Type w) where
  effects : List ω
  acks : Bool

/-- The work that a consumer is at: the message, the effects that it has had, and those that are
left. -/
structure Job (μ : Type v) (ω : Type w) where
  message : μ
  done : List ω
  rest : List ω
  acks : Bool

/-- The messages that were published, those that were acknowledged, the effects in the order in
which they were had, and what each consumer is at. -/
structure State (ι : Type u) (μ : Type v) (ω : Type w) where
  topic : List μ
  acked : List μ
  log : List ω
  job : ι → Option (Job μ ω)

/-- What happens next. -/
inductive Event (ι : Type u) (μ : Type v) (ω : Type w) where
  | publish (message : μ)
  | deliver (i : ι) (message : μ) (work : Work ω)
  | act (i : ι)
  | settle (i : ι)
  | abandon (i : ι)

variable {ι : Type u} {μ : Type v} {ω : Type w}

/-- Nothing is published. -/
def State.new : State ι μ ω := ⟨[], [], [], fun _ => none⟩

section Step

variable [DecidableEq ι]

/-- A consumer goes on to another job, or to none. -/
def State.goto (s : State ι μ ω) (i : ι) (job : Option (Job μ ω)) : State ι μ ω :=
  { s with job := Function.update s.job i job }

variable [DecidableEq μ]

/-- One step of the queue or of a consumer. A consumer that is delivered a message leaves the one
that it is at. -/
def step (s : State ι μ ω) : Event ι μ ω → Option (State ι μ ω)
  | .publish message => some { s with topic := s.topic ++ [message] }
  | .deliver i message work =>
    if message ∈ s.topic then
      some (s.goto i (some ⟨message, [], work.effects, work.acks⟩))
    else
      none
  | .act i =>
    match s.job i with
    | some ⟨message, done, effect :: rest, acks⟩ =>
      some ({ s with log := s.log ++ [effect] }.goto i
        (some ⟨message, done ++ [effect], rest, acks⟩))
    | _ => none
  | .settle i =>
    match s.job i with
    | some ⟨message, _, [], true⟩ => some ({ s with acked := s.acked ++ [message] }.goto i none)
    | _ => none
  | .abandon i => some (s.goto i none)

end Step

/-- The events of consumers that work on a message as a relation says. -/
def Allowed (works : μ → Work ω → Prop) (_ : State ι μ ω) : Event ι μ ω → Prop
  | .deliver _ message work => works message work
  | _ => True

/-! ## The invariant -/

/-- A job is work on a message that was published, and what is done of it is in the log. -/
structure Underway (works : μ → Work ω → Prop) (s : State ι μ ω) (job : Job μ ω) : Prop where
  published : job.message ∈ s.topic
  works : works job.message ⟨job.done ++ job.rest, job.acks⟩
  logged : ∀ effect ∈ job.done, effect ∈ s.log

/-- What holds of every state that is reached. -/
structure Invariant (works : μ → Work ω → Prop) (s : State ι μ ω) : Prop where
  /-- The consumers are at work on messages. -/
  jobs : ∀ i, ∀ job ∈ s.job i, Underway works s job
  /-- A message that was acknowledged was published, and its effects are there. -/
  acked : ∀ message ∈ s.acked, message ∈ s.topic ∧ ∃ effects, works message ⟨effects, true⟩ ∧
    ∀ effect ∈ effects, effect ∈ s.log
  /-- Every effect is one of the work on a message. -/
  log : ∀ effect ∈ s.log, ∃ message ∈ s.topic, ∃ work, works message work ∧ effect ∈ work.effects

section Keep

variable {works : μ → Work ω → Prop} {s t : State ι μ ω}

/-- A job stays underway when messages and effects are added. -/
theorem Underway.mono {job : Job μ ω} (h : Underway works s job)
    (htopic : ∀ message ∈ s.topic, message ∈ t.topic)
    (hlog : ∀ effect ∈ s.log, effect ∈ t.log) : Underway works t job where
  published := htopic _ h.published
  works := h.works
  logged effect heffect := hlog effect (h.logged effect heffect)

/-- Where messages are added, but no effect and no acknowledgement, only the jobs are to be shown
underway. -/
theorem Invariant.of_jobs (h : Invariant works s) (htopic : ∀ message ∈ s.topic, message ∈ t.topic)
    (hacked : t.acked = s.acked) (hlog : t.log = s.log)
    (hjobs : ∀ i, ∀ job ∈ t.job i, Underway works t job) : Invariant works t where
  jobs := hjobs
  acked message hmessage := by
    rw [hacked] at hmessage
    obtain ⟨hpublished, effects, hworks, hlogged⟩ := h.acked message hmessage
    exact ⟨htopic message hpublished, effects, hworks, by rwa [hlog]⟩
  log effect heffect := by
    rw [hlog] at heffect
    obtain ⟨message, hpublished, hwork⟩ := h.log effect heffect
    exact ⟨message, htopic message hpublished, hwork⟩

/-- An effect of a job that is underway keeps the invariant. -/
theorem Invariant.logged (h : Invariant works s) {message : μ} {done rest : List ω} {effect : ω}
    {acks : Bool} (hjob : Underway works s ⟨message, done, effect :: rest, acks⟩) :
    Invariant works { s with log := s.log ++ [effect] } where
  jobs i job hjob' := (h.jobs i job hjob').mono (fun _ hmessage => hmessage) fun _ hold =>
    List.mem_append_left _ hold
  acked message' hmessage := by
    obtain ⟨hpublished, effects, hworks, hlogged⟩ := h.acked message' hmessage
    exact ⟨hpublished, effects, hworks, fun e he => List.mem_append_left _ (hlogged e he)⟩
  log e he := by
    rcases List.mem_append.1 he with he | he
    · exact h.log e he
    · obtain rfl := List.mem_singleton.1 he
      exact ⟨message, hjob.published, _, hjob.works,
        List.mem_append_right _ List.mem_cons_self⟩

/-- Acknowledging a message all of whose effects were had keeps the invariant. -/
theorem Invariant.settled (h : Invariant works s) {message : μ} {done : List ω}
    (hjob : Underway works s ⟨message, done, [], true⟩) :
    Invariant works { s with acked := s.acked ++ [message] } where
  jobs i job hjob' := (h.jobs i job hjob').mono (fun _ hmessage => hmessage) fun _ hold => hold
  acked message' hmessage := by
    rcases List.mem_append.1 hmessage with hmessage | hmessage
    · exact h.acked message' hmessage
    · obtain rfl := List.mem_singleton.1 hmessage
      have hworks := hjob.works
      rw [List.append_nil] at hworks
      exact ⟨hjob.published, done, hworks, hjob.logged⟩
  log := h.log

variable [DecidableEq ι]

/-- The jobs after a consumer has gone on. -/
theorem goto_job (s : State ι μ ω) (i : ι) (next : Option (Job μ ω)) :
    (s.goto i next).job = Function.update s.job i next := rfl

/-- A consumer that goes on to the job that it is at changes nothing. -/
theorem goto_self (s : State ι μ ω) (i : ι) : s.goto i (s.job i) = s := by
  rw [State.goto, Function.update_eq_self]

/-- The job of a consumer is the one that it went on to, or one from before. -/
theorem mem_goto {i j : ι} {next : Option (Job μ ω)} {job : Job μ ω}
    (h : job ∈ (s.goto i next).job j) : job ∈ next ∨ job ∈ s.job j := by
  by_cases hij : j = i
  · subst hij
    rw [goto_job, Function.update_self] at h
    exact .inl h
  · rw [goto_job, Function.update_of_ne hij] at h
    exact .inr h

/-- Going on to a job that is underway keeps the invariant. -/
theorem Invariant.goto (h : Invariant works s) {i : ι} {next : Option (Job μ ω)}
    (hnext : ∀ job ∈ next, Underway works s job) : Invariant works (s.goto i next) := by
  refine h.of_jobs (fun _ hmessage => hmessage) rfl rfl fun j job hjob => ?_
  rcases mem_goto hjob with hjob | hjob
  · exact (hnext job hjob).mono (fun _ hmessage => hmessage) fun _ heffect => heffect
  · exact (h.jobs j job hjob).mono (fun _ hmessage => hmessage) fun _ heffect => heffect

variable [DecidableEq μ]

/-- Every step that is allowed keeps the invariant. -/
theorem step_invariant {e : Event ι μ ω} (h : Invariant works s) (hallowed : Allowed works s e)
    (hstep : step s e = some t) : Invariant works t := by
  cases e with
  | publish message =>
    obtain rfl := Option.some.inj hstep
    have htopic : ∀ m ∈ s.topic, m ∈ s.topic ++ [message] :=
      fun _ hm => List.mem_append_left _ hm
    exact h.of_jobs htopic rfl rfl fun i job hjob =>
      (h.jobs i job hjob).mono htopic fun _ heffect => heffect
  | deliver i message work =>
    rw [step, Option.ite_none_right_eq_some] at hstep
    obtain ⟨hpublished, hstep⟩ := hstep
    obtain rfl := Option.some.inj hstep
    refine h.goto fun job hjob => ?_
    obtain rfl := Option.mem_some.1 hjob
    exact ⟨hpublished, hallowed, nofun⟩
  | act i =>
    rw [step] at hstep
    split at hstep
    case h_2 => exact nomatch hstep
    case h_1 message done effect rest acks hjob =>
      obtain rfl := Option.some.inj hstep
      have hunderway := h.jobs i _ hjob
      refine (h.logged hunderway).goto fun job hjob => ?_
      obtain rfl := Option.mem_some.1 hjob
      refine ⟨hunderway.published, by simpa using hunderway.works, fun e he => ?_⟩
      rcases List.mem_append.1 he with he | he
      · exact List.mem_append_left _ (hunderway.logged e he)
      · exact List.mem_append_right _ he
  | settle i =>
    rw [step] at hstep
    split at hstep
    case h_2 => exact nomatch hstep
    case h_1 message done hjob =>
      obtain rfl := Option.some.inj hstep
      exact (h.settled (h.jobs i _ hjob)).goto nofun
  | abandon i =>
    obtain rfl := Option.some.inj hstep
    exact h.goto nofun

/-- The invariant holds wherever consumers get that work as the relation says. -/
theorem invariant_of_reaches (h : Machine.Reaches step (Allowed works) .new s) :
    Invariant works s := by
  have hnew : Invariant works (State.new : State ι μ ω) :=
    ⟨fun _ _ => nofun, nofun, nofun⟩
  exact h.invariant hnew fun _ _ _ hs hallowed hstep => step_invariant hs hallowed hstep

/-- Once every message is acknowledged, the effects are those that the messages call for: where the
work on a message has no other effects than these, and has all of them if it acknowledges it. -/
theorem mem_log_iff {needs : μ → ω → Prop} (h : Machine.Reaches step (Allowed works) .new s)
    (honly : ∀ message ∈ s.topic, ∀ work, works message work →
      ∀ effect ∈ work.effects, needs message effect)
    (hall : ∀ message ∈ s.topic, ∀ effects, works message ⟨effects, true⟩ →
      ∀ effect, needs message effect → effect ∈ effects)
    (hacked : ∀ message ∈ s.topic, message ∈ s.acked) (effect : ω) :
    effect ∈ s.log ↔ ∃ message ∈ s.topic, needs message effect := by
  have hs := invariant_of_reaches h
  constructor
  · intro heffect
    obtain ⟨message, hpublished, work, hworks, heffect⟩ := hs.log effect heffect
    exact ⟨message, hpublished, honly message hpublished work hworks effect heffect⟩
  · rintro ⟨message, hpublished, hneeds⟩
    obtain ⟨-, effects, hworks, hlogged⟩ := hs.acked message (hacked message hpublished)
    exact hlogged effect (hall message hpublished effects hworks effect hneeds)

end Keep

end Consumers
