import Mathlib
import NodeTelemetry.Aggregator.Loop
import NodeTelemetry.Proofs.EventAccounting
import NodeTelemetry.Proofs.TickLoop

/-!
# The aggregation loop delivers whole ticks

A run of the loop is a run of its pipeline: each turn is a list of steps, of which one is a tick if
a tick is due, and of which the last one is the drain (`AggregationLoop.steps`).  What a turn does
is said once (`AggregationLoop.turn_cases`), and the rest is induction over the turns.  The exports
of a run are the answers of its ticks, in order (`AggregationLoop.exports_run`), and the exporter's
answers decide nothing but when the loop is cancelled (`AggregationLoop.run_of_sameCancels`).  A
loop that is cancelled by an export still drains the channel once and then stops
(`AggregationLoop.endsAfter_run`), unless the next tick would be due at an instant that the clock
cannot hold: then the loop breaks off between the export and the drain, and what waits in the
channel is lost.
-/

namespace NodeTelemetry

namespace Pipeline

/-! ## Runs of a pipeline -/

/-- A step is a tick. -/
def Step.isTick : Step → Bool
  | .tick _ _ => true
  | _ => false

/-- A run goes on from where a first part of it ends. -/
lemma run_append (p : Pipeline) (steps more : List Step) :
    p.run (steps ++ more) =
      ((p.run steps).1 ++ ((p.run steps).2.run more).1, ((p.run steps).2.run more).2) := by
  induction steps generalizing p with
  | nil => rfl
  | cons s steps ih =>
    have hcons : ∀ rest, p.run (s :: rest) =
        ((p.step s).1.toList ++ ((p.step s).2.run rest).1, ((p.step s).2.run rest).2) :=
      fun rest => rfl
    rw [List.cons_append, hcons, hcons, ih, List.append_assoc]

/-- What producers do has no answer. -/
lemma run_map_act (p : Pipeline) (activities : List Activity) :
    p.run (activities.map .act) = ([], p.actAll activities) := by
  induction activities generalizing p with
  | nil => rfl
  | cons a activities ih =>
    have hcons : p.run ((a :: activities).map .act) = (p.act a).run (activities.map .act) := rfl
    rw [hcons, ih]
    rfl

/-- A run has an answer for each of its ticks. -/
lemma length_run_fst (p : Pipeline) (steps : List Step) :
    (p.run steps).1.length = steps.countP Step.isTick := by
  induction steps generalizing p with
  | nil => rfl
  | cons s steps ih =>
    have hcons : (p.run (s :: steps)).1 = (p.step s).1.toList ++ ((p.step s).2.run steps).1 := rfl
    rw [hcons, List.length_append, ih, List.countP_cons]
    cases s <;> simp [step, Step.isTick, Nat.add_comm]

/-- The answer of a tick stands behind the answers of the ticks before it. -/
lemma run_fst_getElem?_of_tick (p : Pipeline) (before after : List Step) (now : Instant)
    (kernelText : Option (List Char)) :
    (p.run (before ++ .tick now kernelText :: after)).1[before.countP Step.isTick]? =
      some ((p.run before).2.tick now kernelText).1 := by
  have htick : ((p.run before).2.run (.tick now kernelText :: after)).1 =
      ((p.run before).2.tick now kernelText).1 ::
        (((p.run before).2.tick now kernelText).2.run after).1 := rfl
  rw [run_append, ← length_run_fst p before, List.getElem?_append_right le_rfl, Nat.sub_self, htick,
    List.getElem?_cons_zero]

/-- The aggregator counts its ticks in 64 bits. -/
lemma ticks_run (p : Pipeline) (steps : List Step) :
    (p.run steps).2.aggregator.ticks =
      p.aggregator.ticks + UInt64.ofNat (steps.countP Step.isTick) := by
  induction steps generalizing p with
  | nil => exact (UInt64.add_zero _).symm
  | cons s steps ih =>
    rw [run_snd_cons, ih, List.countP_cons]
    rcases s with ⟨c | u | e⟩ | _ | ⟨now, kernelText⟩
    · change (p.call c).aggregator.ticks + _ = _
      rw [aggregator_call]
      rfl
    · rfl
    · rfl
    · rfl
    · change p.aggregator.ticks + 1 + UInt64.ofNat (steps.countP Step.isTick) =
        p.aggregator.ticks + UInt64.ofNat (steps.countP Step.isTick + 1)
      rw [UInt64.ofNat_add, UInt64.add_comm (UInt64.ofNat _), UInt64.add_assoc]
      rfl

/-- A tick reports exactly the nodes with counters, in ascending order. -/
lemma nodes_of_tick (p : Pipeline) (now : Instant) (kernelText : Option (List Char)) :
    ((p.tick now kernelText).1.map Snapshot.nodeId).Pairwise (· < ·) ∧
      ∀ node, node ∈ (p.tick now kernelText).1.map Snapshot.nodeId ↔
        (p.tables.counters.get? node).isSome := by
  have hnodes : (p.tick now kernelText).1.map Snapshot.nodeId =
      p.tables.trackedNodes.filter fun n => (p.tables.counters.get? n).isSome :=
    Aggregator.map_nodeId_snapshots _ _ _ _ _ _
  rw [hnodes]
  refine ⟨(KeyMap.pairwise_unionKeys _ _).filter _, fun node => ?_⟩
  rw [List.mem_filter]
  exact ⟨And.right, fun hsome => ⟨KeyMap.mem_unionKeys.mpr (.inl hsome), hsome⟩⟩

/-- After a drain nothing waits, and all that waited before a run or was accepted in it has been
counted, each event once and under its own kind. -/
lemma processed_run_drain (p : Pipeline) (hroom : p.channel.queue.size ≤ p.channel.capacity)
    (before : List Step) :
    let steps := before ++ [.drain]
    (p.run steps).2.channel.queue = #[] ∧
      ∀ kind, (p.run steps).2.aggregator.processed.get kind = p.aggregator.processed.get kind +
        UInt64.ofNat ((p.channel.queue.toList ++ p.acceptedEvents steps).countP
          fun e => e.eventType = kind) := by
  intro steps
  have hqueue : (p.run steps).2.channel.queue = #[] := by
    have hdrain : (p.run steps).2.channel = (p.run before).2.channel.poll.2 := by
      rw [run_append]
      rfl
    have hsize : (p.run before).2.channel.queue.size ≤ (p.run before).2.channel.capacity := by
      rw [channel_run, EventChannel.capacity_run]
      exact EventChannel.size_run_le hroom _
    rw [hdrain, EventChannel.poll_of_size_le hsize]
  have hconserved : p.channel.queue.toList ++ p.acceptedEvents steps = p.drainedEvents steps := by
    have halive := p.dropReceiver_notMem_channelSteps steps
    have hkept := EventChannel.queue_append_accepted hroom halive
    rw [← channel_run, hqueue] at hkept
    exact hkept.trans (List.append_nil _)
  refine ⟨hqueue, fun kind => ?_⟩
  rw [processed_run, EventCounts.get_countAll, hconserved]

end Pipeline

namespace AggregationLoop

/-! ## The steps of a run -/

/-- The steps of a turn up to the export: what the producers do, and the tick if one is due. -/
def opening (loop : AggregationLoop) (t : Turn) : List Pipeline.Step :=
  t.early.map .act ++
    if loop.due.nanos ≤ t.now.nanos then [.tick t.now t.kernelText] else []

/-- The steps of a turn after the export: what the producers do, and the drain. -/
def closing (t : Turn) : List Pipeline.Step := t.late.map .act ++ [.drain]

/-- The steps of a run, turn by turn until it is cancelled or breaks off. -/
def steps (loop : AggregationLoop) : List Turn → List Pipeline.Step
  | [] => []
  | t :: rest =>
    if loop.cancelled then []
    else
      match loop.turn t with
      | (_, none) => loop.opening t
      | (_, some after) => loop.opening t ++ (closing t ++ steps after rest)

lemma steps_of_cancelled {loop : AggregationLoop} (h : loop.cancelled = true)
    (turns : List Turn) : loop.steps turns = [] := by
  cases turns <;> simp [steps, h]

/-! ## One turn -/

/-- The pipeline after a whole turn is the pipeline after its steps. -/
def pipelineAfter (loop : AggregationLoop) (t : Turn) : Pipeline :=
  (loop.pipeline.run (loop.opening t ++ closing t)).2

/-- Where no tick is due, a turn is what the producers do and the drain. -/
lemma pipelineAfter_of_not_due {loop : AggregationLoop} {t : Turn}
    (h : ¬ loop.due.nanos ≤ t.now.nanos) :
    loop.pipelineAfter t = ((loop.pipeline.actAll t.early).actAll t.late).drain.2 := by
  simp only [pipelineAfter, opening, closing, h, if_false, List.append_nil,
    Pipeline.run_append, Pipeline.run_map_act]
  rfl

/-- Where a tick is due, it stands between what the producers do. -/
lemma pipelineAfter_of_due {loop : AggregationLoop} {t : Turn}
    (h : loop.due.nanos ≤ t.now.nanos) :
    loop.pipelineAfter t =
      ((((loop.pipeline.actAll t.early).tick t.now t.kernelText).2).actAll t.late).drain.2 := by
  simp only [pipelineAfter, opening, closing, h, if_true, Pipeline.run_append,
    Pipeline.run_map_act]
  rfl

/-- What a turn comes to: no tick is due; or a tick is made and exported, and then either the clock
cannot hold the next due instant, or the turn goes on to the drain. -/
lemma turn_cases (loop : AggregationLoop) (t : Turn) :
    (∃ record after, loop.turn t = (record, some after) ∧
        after = { loop with
          pipeline := loop.pipelineAfter t, cancelled := loop.cancelled || t.cancels } ∧
        record.exported = none ∧ (loop.pipeline.run (loop.opening t)).1 = []) ∨
      ∃ record made, record.exported = some made ∧
        (loop.pipeline.run (loop.opening t)).1 = [made] ∧
        record.failure = loop.replies.head?.bind ExportReply.failure ∧
        loop.opening t = t.early.map .act ++ [.tick t.now t.kernelText] ∧
        loop.due.nanos ≤ t.now.nanos ∧
        (nextDue loop.interval loop.due t.now = none ∧ loop.turn t = (record, none) ∨
          ∃ due after, nextDue loop.interval loop.due t.now = some due ∧
            loop.turn t = (record, some after) ∧
            after = { loop with
              pipeline := loop.pipelineAfter t
              due := due
              cancelled :=
                loop.cancelled || loop.replies.head?.any ExportReply.cancels || t.cancels
              replies := loop.replies.drop 1 }) := by
  by_cases hdue : loop.due.nanos ≤ t.now.nanos
  · right
    have hopening : loop.opening t = t.early.map .act ++ [.tick t.now t.kernelText] := by
      rw [opening, if_pos hdue]
    have hmade : (loop.pipeline.run (loop.opening t)).1 =
        [((loop.pipeline.actAll t.early).tick t.now t.kernelText).1] := by
      rw [hopening, Pipeline.run_append, Pipeline.run_map_act]
      rfl
    rw [pipelineAfter_of_due hdue]
    cases hnext : nextDue loop.interval loop.due t.now with
    | none =>
      refine ⟨(loop.turn t).1, _, ?_, hmade, ?_, hopening, hdue, .inl ⟨rfl, ?_⟩⟩ <;>
        simp only [turn, hdue, if_true, hnext]
    | some due =>
      refine ⟨(loop.turn t).1, _, ?_, hmade, ?_, hopening, hdue, .inr ⟨due, _, rfl, ?_, rfl⟩⟩ <;>
        simp only [turn, hdue, if_true, hnext, finishTurn]
  · left
    have hnone : (loop.pipeline.run (loop.opening t)).1 = [] := by
      rw [opening, if_neg hdue, List.append_nil, Pipeline.run_map_act]
    rw [pipelineAfter_of_not_due hdue]
    refine ⟨(loop.turn t).1, _, ?_, rfl, ?_, hnone⟩ <;>
      simp only [turn, hdue, if_false, finishTurn]

/-! ## From turn to turn -/

section Turn

variable {loop after : AggregationLoop} {t : Turn} {record : TurnRecord}

/-- A run is its first turn, and the run from the loop after it. -/
lemma run_of_whole_turn (hcancelled : loop.cancelled = false)
    (hturn : loop.turn t = (record, some after)) (rest : List Turn) :
    loop.run (t :: rest) = { after.run rest with records := record :: (after.run rest).records } ∧
      loop.steps (t :: rest) = loop.opening t ++ (closing t ++ after.steps rest) := by
  simp only [run, steps, hcancelled, Bool.false_eq_true, if_false, hturn, and_self]

/-- A run breaks off in a turn that is not whole. -/
lemma run_of_cut_turn (hcancelled : loop.cancelled = false)
    (hturn : loop.turn t = (record, none)) (rest : List Turn) :
    loop.run (t :: rest) = ⟨[record], .beyondClock, loop⟩ ∧
      loop.steps (t :: rest) = loop.opening t := by
  simp only [run, steps, hcancelled, Bool.false_eq_true, if_false, hturn, and_self]

/-- The export of a whole turn, if there is one, comes before those of the turns that follow. -/
lemma exports_of_whole_turn (hcancelled : loop.cancelled = false)
    (hturn : loop.turn t = (record, some after)) (rest : List Turn) :
    (loop.run (t :: rest)).exports = record.exported.toList ++ (after.run rest).exports := by
  rw [(run_of_whole_turn hcancelled hturn rest).1, Run.exports, List.filterMap_cons]
  cases record.exported <;> rfl

/-- A loop that exports something was not cancelled before. -/
lemma cancelled_eq_false_of_exports {turns : List Turn} {k : ℕ}
    (h : k < (loop.run turns).exports.length) : loop.cancelled = false := by
  by_contra hcon
  rw [run_of_cancelled (by simpa using hcon)] at h
  exact Nat.not_lt_zero k h

/-- After a whole turn the pipeline goes on with the steps that follow, and only the tick of the
turn has an answer. -/
lemma run_opening_append (loop : AggregationLoop) (t : Turn) (more : List Pipeline.Step) :
    loop.pipeline.run (loop.opening t ++ (closing t ++ more)) =
      ((loop.pipeline.run (loop.opening t)).1 ++ ((loop.pipelineAfter t).run more).1,
        ((loop.pipelineAfter t).run more).2) := by
  have hclosing : ∀ p : Pipeline, (p.run (closing t)).1 = [] := fun p => by
    rw [closing, Pipeline.run_append, Pipeline.run_map_act]
    rfl
  have hafter : ((loop.pipeline.run (loop.opening t)).2.run (closing t)).2 =
      loop.pipelineAfter t := by
    rw [pipelineAfter, Pipeline.run_append]
  rw [Pipeline.run_append, Pipeline.run_append, hclosing, hafter]
  rfl

end Turn

/-! ## The run as a run of the pipeline -/

/-- The exports of a run are the answers of its ticks, in order. -/
lemma exports_run (loop : AggregationLoop) (turns : List Turn) :
    (loop.run turns).exports = (loop.pipeline.run (loop.steps turns)).1 := by
  induction turns generalizing loop with
  | nil => rfl
  | cons t rest ih =>
    cases hcancelled : loop.cancelled with
    | true =>
      rw [run_of_cancelled hcancelled, steps_of_cancelled hcancelled]
      rfl
    | false =>
      rcases loop.turn_cases t with ⟨record, after, hturn, rfl, hnone, hrun⟩ |
        ⟨record, made, hmade, hrun, -, -, -, ⟨-, hturn⟩ | ⟨due, after, -, hturn, rfl⟩⟩
      · obtain ⟨hrest, hsteps⟩ := run_of_whole_turn hcancelled hturn rest
        rw [hrest, hsteps, run_opening_append, hrun, Run.exports, List.filterMap_cons, hnone]
        exact ih _
      · obtain ⟨hrest, hsteps⟩ := run_of_cut_turn hcancelled hturn rest
        rw [hrest, hsteps, hrun, Run.exports, List.filterMap_cons, hmade, List.filterMap_nil]
      · obtain ⟨hrest, hsteps⟩ := run_of_whole_turn hcancelled hturn rest
        rw [hrest, hsteps, run_opening_append, hrun, Run.exports, List.filterMap_cons, hmade]
        exact congrArg (made :: ·) (ih _)

/-- Unless the run breaks off, its steps lead to the pipeline after it. -/
lemma pipeline_run {loop : AggregationLoop} {turns : List Turn}
    (hwhole : (loop.run turns).ending ≠ .beyondClock) :
    (loop.run turns).loop.pipeline = (loop.pipeline.run (loop.steps turns)).2 := by
  induction turns generalizing loop with
  | nil => rfl
  | cons t rest ih =>
    cases hcancelled : loop.cancelled with
    | true =>
      rw [run_of_cancelled hcancelled, steps_of_cancelled hcancelled]
      rfl
    | false =>
      rcases loop.turn_cases t with ⟨record, after, hturn, rfl, -⟩ |
        ⟨record, made, -, -, -, -, -, ⟨-, hturn⟩ | ⟨due, after, -, hturn, rfl⟩⟩
      · obtain ⟨hrest, hsteps⟩ := run_of_whole_turn hcancelled hturn rest
        rw [hrest] at hwhole
        rw [hrest, hsteps, run_opening_append]
        exact ih hwhole
      · obtain ⟨hrest, -⟩ := run_of_cut_turn hcancelled hturn rest
        rw [hrest] at hwhole
        exact absurd rfl hwhole
      · obtain ⟨hrest, hsteps⟩ := run_of_whole_turn hcancelled hturn rest
        rw [hrest] at hwhole
        rw [hrest, hsteps, run_opening_append]
        exact ih hwhole

/-- The failures of the exports of a run, in order. -/
def Run.failures (r : Run) : List (Option AgentError) :=
  (r.records.filter fun record => record.exported.isSome).map TurnRecord.failure

/-- The exports of a run meet the exporter's answers one after another. -/
lemma failures_run (loop : AggregationLoop) (turns : List Turn) :
    (loop.run turns).failures = (List.range (loop.run turns).exports.length).map fun i =>
      loop.replies[i]?.bind ExportReply.failure := by
  induction turns generalizing loop with
  | nil => rfl
  | cons t rest ih =>
    cases hcancelled : loop.cancelled with
    | true =>
      rw [run_of_cancelled hcancelled]
      rfl
    | false =>
      rcases loop.turn_cases t with ⟨record, after, hturn, rfl, hnone, -⟩ |
        ⟨record, made, hmade, -, hfailure, -, -, ⟨-, hturn⟩ | ⟨due, after, -, hturn, hafter⟩⟩
      · obtain ⟨hrest, -⟩ := run_of_whole_turn hcancelled hturn rest
        rw [hrest, Run.failures, Run.exports, List.filterMap_cons, hnone, List.filter_cons, hnone]
        exact ih _
      · obtain ⟨hrest, -⟩ := run_of_cut_turn hcancelled hturn rest
        rw [hrest]
        simp only [Run.failures, Run.exports, List.filterMap_cons, hmade, List.filter_cons,
          Option.isSome_some, if_true, List.filter_nil, List.filterMap_nil, List.map_cons,
          List.map_nil, hfailure, List.length_singleton, List.range_one, List.head?_eq_getElem?]
      · obtain ⟨hrest, -⟩ := run_of_whole_turn hcancelled hturn rest
        have hreplies : ∀ i : ℕ, after.replies[i]? = loop.replies[i + 1]? := fun i => by
          rw [hafter, List.getElem?_drop, Nat.add_comm]
        have hlater := ih after
        simp only [hreplies] at hlater
        rw [hrest]
        simp only [Run.failures, Run.exports, List.filterMap_cons, hmade, List.filter_cons,
          Option.isSome_some, if_true, List.map_cons, List.length_cons, List.range_succ_eq_map,
          List.map_map] at hlater ⊢
        rw [hlater, hfailure, List.head?_eq_getElem?]
        rfl

/-! ## What the exporter's answers decide -/

/-- The export with a number, counted from zero, cancels the loop. -/
def cancelsAt (replies : List ExportReply) (k : ℕ) : Bool := replies[k]?.any ExportReply.cancels

/-- A record less the failure of its export. -/
def forgetFailure (r : TurnRecord) : TurnRecord := { r with failure := none }

/-- A loop less the answers of its exporter. -/
def forgetReplies (loop : AggregationLoop) : AggregationLoop := { loop with replies := [] }

/-- Two runs differ in the failures of their exports at most. -/
structure SameButFailures (r r' : Run) : Prop where
  records : r.records.map forgetFailure = r'.records.map forgetFailure
  ending : r.ending = r'.ending
  loop : r.loop.forgetReplies = r'.loop.forgetReplies

/-- A turn is the same whatever the exporter answers, if it cancels the loop in both cases or in
none; the answers that are left are those after the first one, if there was an export. -/
lemma turn_of_sameCancels (loop : AggregationLoop) (t : Turn) {replies : List ExportReply}
    (hcancels : cancelsAt replies 0 = cancelsAt loop.replies 0) :
    let loop' := { loop with replies := replies }
    forgetFailure (loop'.turn t).1 = forgetFailure (loop.turn t).1 ∧
      ((loop.turn t).2 = none ∧ (loop'.turn t).2 = none ∨
        ∃ (after : AggregationLoop) (n : ℕ),
          (loop.turn t).2 = some { after with replies := loop.replies.drop n } ∧
            (loop'.turn t).2 = some { after with replies := replies.drop n }) := by
  simp only [cancelsAt, ← List.head?_eq_getElem?] at hcancels
  by_cases hdue : loop.due.nanos ≤ t.now.nanos
  · simp only [turn, hdue, if_true, hcancels]
    cases nextDue loop.interval loop.due t.now with
    | none => exact ⟨rfl, .inl ⟨rfl, rfl⟩⟩
    | some due =>
      let ticked : AggregationLoop := { loop with
        pipeline := ((loop.pipeline.actAll t.early).tick t.now t.kernelText).2
        due := due
        cancelled := loop.cancelled || loop.replies.head?.any ExportReply.cancels }
      exact ⟨rfl, .inr ⟨(ticked.finishTurn t).2.2, 1, rfl, rfl⟩⟩
  · let waiting : AggregationLoop := { loop with pipeline := loop.pipeline.actAll t.early }
    simp only [turn, hdue, if_false]
    exact ⟨rfl, .inr ⟨(waiting.finishTurn t).2.2, 0, rfl, rfl⟩⟩

/-- Two exporters that cancel the loop in the same calls see the same run, whatever fails. -/
lemma run_of_sameCancels (loop : AggregationLoop) {replies : List ExportReply}
    (hcancels : ∀ k, cancelsAt replies k = cancelsAt loop.replies k) (turns : List Turn) :
    let loop' := { loop with replies := replies }
    SameButFailures (loop'.run turns) (loop.run turns) ∧ loop'.steps turns = loop.steps turns := by
  intro loop'
  induction turns generalizing loop replies with
  | nil => exact ⟨⟨rfl, rfl, rfl⟩, rfl⟩
  | cons t rest ih =>
    cases hcancelled : loop.cancelled with
    | true =>
      have hcancelled' : loop'.cancelled = true := hcancelled
      rw [run_of_cancelled hcancelled, run_of_cancelled hcancelled',
        steps_of_cancelled hcancelled, steps_of_cancelled hcancelled']
      exact ⟨⟨rfl, rfl, rfl⟩, rfl⟩
    | false =>
      have hcancelled' : loop'.cancelled = false := hcancelled
      obtain ⟨hrecord, hafter⟩ := loop.turn_of_sameCancels t (hcancels 0)
      rcases hafter with ⟨hnone, hnone'⟩ | ⟨after, n, hsome, hsome'⟩
      · obtain ⟨hrun, hsteps⟩ := run_of_cut_turn hcancelled (Prod.ext rfl hnone) rest
        obtain ⟨hrun', hsteps'⟩ := run_of_cut_turn hcancelled' (Prod.ext rfl hnone') rest
        rw [hrun, hrun', hsteps, hsteps']
        exact ⟨⟨congrArg (· :: []) hrecord, rfl, rfl⟩, rfl⟩
      · obtain ⟨hrun, hsteps⟩ := run_of_whole_turn hcancelled (Prod.ext rfl hsome) rest
        obtain ⟨hrun', hsteps'⟩ := run_of_whole_turn hcancelled' (Prod.ext rfl hsome') rest
        have hlater : ∀ k, cancelsAt (replies.drop n) k = cancelsAt (loop.replies.drop n) k := by
          intro k
          simp only [cancelsAt, List.getElem?_drop]
          exact hcancels (n + k)
        obtain ⟨hsame, hmore⟩ := ih { after with replies := loop.replies.drop n } hlater
        rw [hrun, hrun', hsteps, hsteps', hmore]
        exact ⟨⟨congrArg₂ List.cons hrecord hsame.records, hsame.ending, hsame.loop⟩, rfl⟩

/-- Runs that differ in failures only have the same exports. -/
lemma SameButFailures.exports_eq {r r' : Run} (h : SameButFailures r r') :
    r.exports = r'.exports := by
  have hforget : ∀ r : Run, r.exports = (r.records.map forgetFailure).filterMap
      TurnRecord.exported := fun r => by
    rw [Run.exports, List.filterMap_map]
    rfl
  rw [hforget r, hforget r', h.records]

/-! ## How a run ends -/

/-- What the producers do is no tick. -/
lemma countP_isTick_map_act (activities : List Activity) :
    (activities.map Pipeline.Step.act).countP Pipeline.Step.isTick = 0 := by
  rw [List.countP_map]
  exact List.countP_eq_zero.mpr fun _ _ => by simp [Pipeline.Step.isTick]

/-- What the producers do and the drain are no ticks. -/
lemma countP_isTick_closing (t : Turn) : (closing t).countP Pipeline.Step.isTick = 0 := by
  rw [closing, List.countP_append, countP_isTick_map_act]
  rfl

/-- The end of a run that is cancelled by the export with a number, counted from zero: it is the
last export, and the channel is drained once more, unless the clock cannot hold the next due
instant. -/
structure EndsAfter (loop : AggregationLoop) (k : ℕ) (turns : List Turn) : Prop where
  length_exports : (loop.run turns).exports.length = k + 1
  ending : (loop.run turns).ending = .cancelled ∨ (loop.run turns).ending = .beyondClock
  /-- The last tick is followed by a single drain. -/
  drained : (loop.run turns).ending = .cancelled → ∃ before now kernelText late,
    before.countP Pipeline.Step.isTick = k ∧
      loop.steps turns = before ++ .tick now kernelText :: (List.map .act late ++ [.drain])
  /-- Nothing follows the last tick, since the clock cannot hold the next due instant. -/
  cut : (loop.run turns).ending = .beyondClock → ∃ before now kernelText due,
    before.countP Pipeline.Step.isTick = k ∧
      loop.steps turns = before ++ [.tick now kernelText] ∧
      nextDue loop.interval due now = none

namespace EndsAfter

variable {loop after : AggregationLoop} {t : Turn} {record : TurnRecord} {rest : List Turn} {k : ℕ}

/-- A whole turn in front puts off the end of a run by its ticks. -/
lemma of_whole_turn (h : after.EndsAfter k rest) (hcancelled : loop.cancelled = false)
    (hturn : loop.turn t = (record, some after)) (hinterval : after.interval = loop.interval) :
    loop.EndsAfter (record.exported.toList.length + k) (t :: rest) := by
  obtain ⟨hrun, hsteps⟩ := run_of_whole_turn hcancelled hturn rest
  have hexports := exports_of_whole_turn hcancelled hturn rest
  have hticks : (loop.opening t).countP Pipeline.Step.isTick =
      record.exported.toList.length := by
    rw [← Pipeline.length_run_fst loop.pipeline]
    rcases loop.turn_cases t with ⟨record', _, hturn', -, hnone, hmade⟩ |
      ⟨record', made, hmade', hmade, -, -, -, ⟨-, hturn'⟩ | ⟨_, _, -, hturn', -⟩⟩
    · obtain rfl : record = record' := congrArg Prod.fst (hturn.symm.trans hturn')
      rw [hmade, hnone]
      rfl
    · obtain rfl : record = record' := congrArg Prod.fst (hturn.symm.trans hturn')
      rw [hmade, hmade']
      rfl
    · obtain rfl : record = record' := congrArg Prod.fst (hturn.symm.trans hturn')
      rw [hmade, hmade']
      rfl
  have hbefore : ∀ before : List Pipeline.Step, before.countP Pipeline.Step.isTick = k →
      (loop.opening t ++ (closing t ++ before)).countP Pipeline.Step.isTick =
        record.exported.toList.length + k := fun before hk => by
    rw [List.countP_append, List.countP_append, hticks, countP_isTick_closing, hk, Nat.zero_add]
  refine ⟨?_, by rw [hrun]; exact h.ending, fun hend => ?_, fun hend => ?_⟩
  · rw [hexports, List.length_append, h.length_exports]
    rfl
  · rw [hrun] at hend
    obtain ⟨before, now, kernelText, late, hk, hmore⟩ := h.drained hend
    refine ⟨loop.opening t ++ (closing t ++ before), now, kernelText, late, hbefore before hk, ?_⟩
    rw [hsteps, hmore, List.append_assoc, List.append_assoc]
  · rw [hrun] at hend
    obtain ⟨before, now, kernelText, due, hk, hmore, hnext⟩ := h.cut hend
    refine ⟨loop.opening t ++ (closing t ++ before), now, kernelText, due, hbefore before hk, ?_,
      hinterval ▸ hnext⟩
    rw [hsteps, hmore, List.append_assoc, List.append_assoc]

/-- A run breaks off behind a tick if the next one would be due beyond the clock. -/
lemma of_cut_turn (hcancelled : loop.cancelled = false) (hturn : loop.turn t = (record, none))
    {made : List Snapshot} (hmade : record.exported = some made)
    (hopening : loop.opening t = t.early.map .act ++ [.tick t.now t.kernelText])
    (hnext : nextDue loop.interval loop.due t.now = none) : loop.EndsAfter 0 (t :: rest) := by
  obtain ⟨hrun, hsteps⟩ := run_of_cut_turn hcancelled hturn rest
  refine ⟨?_, .inr (by rw [hrun]), fun hend => ?_, fun _ => ?_⟩
  · rw [hrun, Run.exports, List.filterMap_cons, hmade]
    rfl
  · rw [hrun] at hend
    cases hend
  · exact ⟨t.early.map .act, t.now, t.kernelText, loop.due, countP_isTick_map_act _,
      hsteps.trans hopening, hnext⟩

/-- A run ends with the turn the export of which cancels the loop. -/
lemma of_last_turn (hcancelled : loop.cancelled = false)
    (hturn : loop.turn t = (record, some after)) {made : List Snapshot}
    (hmade : record.exported = some made)
    (hopening : loop.opening t = t.early.map .act ++ [.tick t.now t.kernelText])
    (hends : after.cancelled = true) : loop.EndsAfter 0 (t :: rest) := by
  obtain ⟨hrun, hsteps⟩ := run_of_whole_turn hcancelled hturn rest
  refine ⟨?_, .inl ?_, fun _ => ?_, fun hend => ?_⟩
  · rw [exports_of_whole_turn hcancelled hturn, run_of_cancelled hends, hmade]
    rfl
  · rw [hrun, run_of_cancelled hends]
  · refine ⟨t.early.map .act, t.now, t.kernelText, t.late, countP_isTick_map_act _, ?_⟩
    rw [hsteps, hopening, steps_of_cancelled hends, List.append_nil, List.append_assoc]
    rfl
  · rw [hrun, run_of_cancelled hends] at hend
    cases hend

end EndsAfter

/-- A run in which an export cancels the loop ends after that export, if it gets there. -/
lemma endsAfter_run {loop : AggregationLoop} {turns : List Turn} {k : ℕ}
    (hcancelled : loop.cancelled = false) (hat : cancelsAt loop.replies k = true)
    (hbefore : ∀ i < k, cancelsAt loop.replies i = false)
    (hreached : k < (loop.run turns).exports.length) : loop.EndsAfter k turns := by
  induction turns generalizing loop k with
  | nil => exact absurd hreached (Nat.not_lt_zero k)
  | cons t rest ih =>
    rcases loop.turn_cases t with ⟨record, after, hturn, hafter, hnone, -⟩ |
      ⟨record, made, hmade, -, -, hopening, -, ⟨hnext, hturn⟩ | ⟨due, after, -, hturn, hafter⟩⟩
    · -- a turn without a tick
      rw [exports_of_whole_turn hcancelled hturn, hnone, Option.toList_none, List.nil_append]
        at hreached
      have hreplies : after.replies = loop.replies := by rw [hafter]
      have hlater := ih (cancelled_eq_false_of_exports hreached) (hreplies ▸ hat)
        (hreplies ▸ hbefore) hreached
      have hwhole := hlater.of_whole_turn hcancelled hturn (by rw [hafter])
      rw [hnone] at hwhole
      simpa using hwhole
    · -- the run breaks off behind the tick
      rw [(run_of_cut_turn hcancelled hturn rest).1, Run.exports, List.filterMap_cons, hmade]
        at hreached
      obtain rfl : k = 0 := Nat.lt_one_iff.mp hreached
      exact .of_cut_turn hcancelled hturn hmade hopening hnext
    · cases k with
      | zero =>
        have hends : after.cancelled = true := by
          simp only [cancelsAt, ← List.head?_eq_getElem?] at hat
          rw [hafter]
          simp only [hat, Bool.or_true, Bool.true_or]
        exact .of_last_turn hcancelled hturn hmade hopening hends
      | succ k =>
        rw [exports_of_whole_turn hcancelled hturn, hmade, Option.toList_some,
          List.singleton_append, List.length_cons, Nat.succ_lt_succ_iff] at hreached
        have hreplies : ∀ i, cancelsAt after.replies i = cancelsAt loop.replies (i + 1) := by
          intro i
          rw [hafter, cancelsAt, cancelsAt, List.getElem?_drop, Nat.add_comm]
        have hlater := ih (cancelled_eq_false_of_exports hreached) (by rwa [hreplies])
          (fun i hi => by rw [hreplies]; exact hbefore (i + 1) (Nat.succ_lt_succ hi)) hreached
        have hwhole := hlater.of_whole_turn hcancelled hturn (by rw [hafter])
        rw [hmade] at hwhole
        simpa [Nat.add_comm] using hwhole

/-- The clock can hold the next due instant if it can hold the instant an interval from now. -/
lemma exists_nextDue {interval : Duration} {due now : Instant}
    (hlow : -(Instant.reach : ℤ) ≤ due.nanos) (hdue : due.nanos ≤ now.nanos)
    (hhigh : now.nanos + interval.nanos < Instant.reach) :
    ∃ next, nextDue interval due now = some next ∧ -(Instant.reach : ℤ) ≤ next.nanos := by
  have hfrom : ∀ t : Instant, -(Instant.reach : ℤ) ≤ t.nanos → t.nanos ≤ now.nanos →
      t.add? interval = some ⟨t.nanos + interval.nanos⟩ := by
    intro t hlow hle
    have hholds : (⟨t.nanos + interval.nanos⟩ : Instant).Representable := by
      constructor <;> simp only <;> omega
    simp only [Instant.add?, hholds, if_true]
  rw [nextDue, hfrom due hlow hdue, Option.bind_some]
  split
  · exact ⟨_, hfrom now (hlow.trans hdue) le_rfl, by simp only; omega⟩
  · exact ⟨_, rfl, by simp only; omega⟩

/-- A run does not break off while the clock can hold the instant an interval from each reading. -/
lemma ending_ne_beyondClock {loop : AggregationLoop} {turns : List Turn}
    (hlow : -(Instant.reach : ℤ) ≤ loop.due.nanos)
    (hhigh : ∀ t ∈ turns, t.now.nanos + loop.interval.nanos < (Instant.reach : ℤ)) :
    (loop.run turns).ending ≠ .beyondClock := by
  induction turns generalizing loop with
  | nil =>
    simp only [run]
    split <;> simp
  | cons t rest ih =>
    cases hcancelled : loop.cancelled with
    | true =>
      rw [run_of_cancelled hcancelled]
      simp
    | false =>
      have hrest : ∀ t' ∈ rest, t'.now.nanos + loop.interval.nanos < (Instant.reach : ℤ) :=
        fun t' ht' => hhigh t' (List.mem_cons_of_mem _ ht')
      rcases loop.turn_cases t with ⟨record, after, hturn, hafter, -⟩ |
        ⟨record, made, -, -, -, -, hdue, ⟨hnext, hturn⟩ | ⟨due, after, hnext, hturn, hafter⟩⟩
      · rw [(run_of_whole_turn hcancelled hturn rest).1]
        exact ih (by rw [hafter]; exact hlow) (by rw [hafter]; exact hrest)
      · obtain ⟨next, hsome, -⟩ := exists_nextDue hlow hdue (hhigh t List.mem_cons_self)
        rw [hnext] at hsome
        cases hsome
      · obtain ⟨next, hsome, hnextLow⟩ := exists_nextDue hlow hdue (hhigh t List.mem_cons_self)
        obtain rfl : due = next := Option.some.inj (hnext.symm.trans hsome)
        rw [(run_of_whole_turn hcancelled hturn rest).1]
        exact ih (by rw [hafter]; exact hnextLow) (by rw [hafter]; exact hrest)

/-! ## Whole ticks -/

/-- The exports of a run are its ticks: there are as many, and each export gets what its tick made,
which is a snapshot of each node with counters, in ascending order. -/
structure WholeTicks (loop : AggregationLoop) (turns : List Turn) : Prop where
  length_exports :
    (loop.run turns).exports.length = (loop.steps turns).countP Pipeline.Step.isTick
  export_of_tick : ∀ before now kernelText after,
    loop.steps turns = before ++ .tick now kernelText :: after →
      let p := (loop.pipeline.run before).2
      let made := (p.tick now kernelText).1
      (loop.run turns).exports[before.countP Pipeline.Step.isTick]? = some made ∧
        (made.map Snapshot.nodeId).Pairwise (· < ·) ∧
        ∀ node, node ∈ made.map Snapshot.nodeId ↔ (p.tables.counters.get? node).isSome
  /-- Each export meets the next answer of the exporter. -/
  failures_eq : (loop.run turns).failures =
    (List.range (loop.run turns).exports.length).map fun i =>
      loop.replies[i]?.bind ExportReply.failure
  /-- The steps lead to the pipeline after the run, unless it broke off in its last turn. -/
  pipeline_eq : (loop.run turns).ending ≠ .beyondClock →
    (loop.run turns).loop.pipeline = (loop.pipeline.run (loop.steps turns)).2
  /-- The ticks are counted in 64 bits, unless the run broke off. -/
  ticks_eq : (loop.run turns).ending ≠ .beyondClock →
    let ticks := (loop.run turns).loop.pipeline.aggregator.ticks
    let exported := (loop.run turns).exports.length
    ticks = loop.pipeline.aggregator.ticks + UInt64.ofNat exported ∧
      ticks.toNat = (loop.pipeline.aggregator.ticks.toNat + exported) % UInt64.size

/-- Every run delivers whole ticks. -/
lemma wholeTicks_run (loop : AggregationLoop) (turns : List Turn) : loop.WholeTicks turns := by
  have hlength : (loop.run turns).exports.length =
      (loop.steps turns).countP Pipeline.Step.isTick := by
    rw [exports_run, Pipeline.length_run_fst]
  refine ⟨hlength, fun before now kernelText after hsteps => ?_, failures_run loop turns,
    pipeline_run, fun hwhole => ?_⟩
  · intro p made
    refine ⟨?_, p.nodes_of_tick now kernelText⟩
    rw [exports_run, hsteps]
    exact Pipeline.run_fst_getElem?_of_tick _ _ _ _ _
  · intro ticks exported
    have hticks : ticks = loop.pipeline.aggregator.ticks + UInt64.ofNat exported := by
      rw [show ticks = _ from congrArg (·.aggregator.ticks) (pipeline_run hwhole),
        Pipeline.ticks_run, ← hlength]
    refine ⟨hticks, ?_⟩
    rw [hticks, UInt64.toNat_add, UInt64.toNat_ofNat']
    exact Nat.add_mod_mod _ _ _

/-- **The loop delivers whole ticks.**  Whatever the tables, the waiting events, the interval, the
clock, the producers and the exporter, the exports of a run are its ticks, failures of exports
change nothing, and a run that is cancelled before its start does nothing.  If an export cancels the
loop it is the last one, and exactly if the clock can hold the next due instant a last drain
follows, after which every event that waited or was accepted has been counted once. -/
theorem wholeTicks_and_endsAfter_of_start (p : Pipeline)
    (hroom : p.channel.queue.size ≤ p.channel.capacity) (interval pollTimeout : Duration)
    (started : Instant) (replies : List ExportReply) (turns : List Turn) :
    let loop := start p interval pollTimeout started false replies
    loop.WholeTicks turns ∧
      (∀ replies' : List ExportReply, (∀ k, cancelsAt replies' k = cancelsAt replies k) →
        let loop' := start p interval pollTimeout started false replies'
        SameButFailures (loop'.run turns) (loop.run turns) ∧
          (loop'.run turns).exports = (loop.run turns).exports ∧
          loop'.steps turns = loop.steps turns) ∧
      (let stopped := start p interval pollTimeout started true replies
       stopped.run turns = ⟨[], .cancelled, stopped⟩ ∧ stopped.steps turns = []) ∧
      (∀ k, cancelsAt replies k = true → (∀ i < k, cancelsAt replies i = false) →
        k < (loop.run turns).exports.length → loop.EndsAfter k turns ∧
          ((loop.run turns).ending = .cancelled →
            let q := (loop.run turns).loop.pipeline
            q.channel.queue = #[] ∧
              ∀ kind, q.aggregator.processed.get kind = p.aggregator.processed.get kind +
                UInt64.ofNat ((p.channel.queue.toList ++ p.acceptedEvents (loop.steps turns)).countP
                  fun e => e.eventType = kind))) ∧
      (-(Instant.reach : ℤ) ≤ started.nanos →
        (∀ t ∈ turns, t.now.nanos + interval.nanos < (Instant.reach : ℤ)) →
        (loop.run turns).ending ≠ .beyondClock) := by
  intro loop
  refine ⟨loop.wholeTicks_run turns, fun replies' hcancels => ?_, ?_,
    fun k hat hbefore hreached => ?_, fun hlow hhigh => ending_ne_beyondClock hlow hhigh⟩
  · obtain ⟨hsame, hsteps⟩ := loop.run_of_sameCancels hcancels turns
    exact ⟨hsame, hsame.exports_eq, hsteps⟩
  · exact ⟨run_of_cancelled rfl turns, steps_of_cancelled rfl turns⟩
  · have hends : loop.EndsAfter k turns := endsAfter_run rfl hat hbefore hreached
    refine ⟨hends, fun hcancelled => ?_⟩
    obtain ⟨before, now, kernelText, late, -, hsteps⟩ := hends.drained hcancelled
    have hdrain : loop.steps turns =
        (before ++ .tick now kernelText :: List.map .act late) ++ [.drain] := by
      rw [hsteps, List.append_assoc, List.cons_append]
    have hpipeline : (loop.run turns).loop.pipeline = (p.run (loop.steps turns)).2 :=
      pipeline_run (by rw [hcancelled]; simp)
    simp only [hpipeline, hdrain]
    exact p.processed_run_drain hroom _

/-- The first export fails and the second one, which fails too, cancels the loop; two events wait at
the start, one is published before the second tick and one after it. -/
theorem endsAfter_of_failing_exports :
    let rtt : Event := ⟨0, .rtt, 1, 3, 0⟩
    let p := (Pipeline.initial (.ofCapacities 2 1 1) 4 ⟨1, 1, 1, 1⟩ [] "web" .unread).actAll
      [.update (.increment 1 .rttCount 1), .publish rtt, .publish rtt]
    let replies : List ExportReply := [⟨some (.writing "refused"), false⟩,
      ⟨some (.writing "refused"), true⟩]
    let turns : List Turn := [⟨⟨7⟩, none, [], [], ⟨8⟩, false⟩, ⟨⟨9⟩, none, [], [], ⟨9⟩, false⟩,
      ⟨⟨12⟩, none, [.publish rtt], [.publish rtt], ⟨12⟩, false⟩, ⟨⟨20⟩, none, [], [], ⟨20⟩, false⟩]
    let loop := start p ⟨5⟩ ⟨1⟩ ⟨7⟩ false replies
    p.channel.queue.size ≤ p.channel.capacity ∧ loop.EndsAfter 1 turns ∧
      (loop.run turns).ending = .cancelled ∧
      (loop.run turns).exports.length = 2 ∧
      (loop.run turns).loop.pipeline.channel.queue = #[] ∧
      (loop.run turns).loop.pipeline.aggregator.processed.get .rtt = 4 := by
  intro rtt p replies turns loop
  have hroom : p.channel.queue.size ≤ p.channel.capacity := by decide +kernel
  have hat : cancelsAt replies 1 = true := rfl
  have hbefore : ∀ i < 1, cancelsAt replies i = false := by decide
  have hreached : 1 < (loop.run turns).exports.length := by decide +kernel
  have hending : (loop.run turns).ending = .cancelled := by decide +kernel
  have haccepted : (p.channel.queue.toList ++ p.acceptedEvents (loop.steps turns)).countP
      (fun e => e.eventType = .rtt) = 4 := by decide +kernel
  obtain ⟨-, -, -, hends, -⟩ :=
    wholeTicks_and_endsAfter_of_start p hroom ⟨5⟩ ⟨1⟩ ⟨7⟩ replies turns
  obtain ⟨hafter, hcounted⟩ := hends 1 hat hbefore hreached
  have hloop : loop = start p ⟨5⟩ ⟨1⟩ ⟨7⟩ false replies := rfl
  rw [hloop] at hending haccepted ⊢
  obtain ⟨hqueue, hprocessed⟩ := hcounted hending
  refine ⟨hroom, hafter, hending, hafter.length_exports, hqueue, ?_⟩
  rw [hprocessed, haccepted]
  rfl

/-- An interval that `Config.validate` accepts and that the clock cannot hold: the first export
cancels the loop, and the event that waits is never drained. -/
theorem not_drained_of_interval_beyond_clock :
    let c : Config := { Config.standard with intervalSecs := 0xffffffffffffffff }
    let p := (Pipeline.initial c.tables c.channelCapacity.toNat c.sampling [] "web" .unread).act
      (.publish ⟨0, .rtt, 1, 3, 0⟩)
    let replies : List ExportReply := [⟨none, true⟩]
    let turn : Turn := ⟨⟨0⟩, none, [], [], ⟨0⟩, false⟩
    let loop := start p c.interval c.pollTimeout ⟨0⟩ false replies
    c.validate = .ok () ∧ cancelsAt replies 0 = true ∧
      (loop.run [turn, turn]).exports.length = 1 ∧
      (loop.run [turn, turn]).ending = .beyondClock ∧
      .drain ∉ loop.steps [turn, turn] ∧
      (p.run (loop.steps [turn, turn])).2.channel.queue.size = 1 ∧
      (p.run (loop.steps [turn, turn])).2.aggregator.processed.get .rtt = 0 := by
  decide +kernel

end AggregationLoop

end NodeTelemetry
