import Mathlib
import NodeTelemetry.Pipeline

/-!
# The metrics do not depend on the event stream

Events are informational: the tables carry the effect of a handler before its event is offered to
the channel, and the aggregator only counts what it drains.  This file makes that precise for two
runs at once.

The metrics are a machine of their own (`MetricsState`): the tables, the host name and the rate
baselines, driven by handler calls, table updates and ticks with a reading of the processor.  A
pipeline simulates that machine (`Pipeline.commonTrace_eq_trace`).  A direct publish and a drain are
hidden from it, and neither the policy, nor the random words, nor the channel, nor the counts of
drained events are part of its state.  Hence two pipelines that are given the same common inputs go
through the same tables and report the same snapshots, whatever else they do in between.
-/

namespace NodeTelemetry

/-! ## The machine behind the metrics -/

/-- A step as the metrics see it; a tick comes with the reading of the processor. -/
inductive MetricsInput where
  | call (c : ProbeCall)
  | update (u : TableUpdate)
  | tick (now : Instant) (percent : Float)

/-- The part of a pipeline from which snapshots are made. -/
structure MetricsState where
  tables : Tables
  host : String
  rates : KeyMap RateState

namespace MetricsState

/-- One step of the metrics; the answer starts with the snapshots, if the step is a tick. -/
def step (m : MetricsState) : MetricsInput → Option (List Snapshot) × MetricsState
  | .call c => (none, { m with tables := (c.run m.tables).1 })
  | .update u => (none, { m with tables := m.tables.apply u })
  | .tick now percent =>
    let (made, rates) :=
      Aggregator.snapshots m.host percent now m.tables m.tables.trackedNodes m.rates
    (some made, { m with rates := rates })

/-- What is seen of the metrics after each input: the snapshots of a tick, and the tables. -/
def trace (m : MetricsState) : List MetricsInput → List (Option (List Snapshot) × Tables)
  | [] => []
  | i :: rest => ((m.step i).1, (m.step i).2.tables) :: (m.step i).2.trace rest

end MetricsState

namespace Pipeline

/-! ## Common and hidden steps -/

/-- Direct publishes and drains are hidden; handler calls, table updates and ticks are common. -/
def Step.isCommon : Step → Bool
  | .act (.publish _) => false
  | .drain => false
  | _ => true

/-- What the metrics are given by a list of steps, when the processor is read from a source. -/
def commonInputs (cpu : CpuSource) : List Step → List MetricsInput
  | [] => []
  | .act (.call c) :: rest => .call c :: commonInputs cpu rest
  | .act (.update u) :: rest => .update u :: commonInputs cpu rest
  | .act (.publish _) :: rest => commonInputs cpu rest
  | .drain :: rest => commonInputs cpu rest
  | .tick now kernelText :: rest =>
    .tick now (cpu.sample kernelText).1 :: commonInputs (cpu.sample kernelText).2 rest

/-- What is seen of a pipeline after each common step of a run: the snapshots of a tick, and the
tables. -/
def commonTrace (p : Pipeline) : List Step → List (Option (List Snapshot) × Tables)
  | [] => []
  | s :: rest =>
    let later := (p.step s).2.commonTrace rest
    if s.isCommon then ((p.step s).1, (p.step s).2.tables) :: later else later

/-- The metrics of a pipeline. -/
def metrics (p : Pipeline) : MetricsState := ⟨p.tables, p.aggregator.host, p.aggregator.rates⟩

/-! ## One step of a pipeline -/

/-- Reporting an event leaves the aggregator alone. -/
@[simp] lemma aggregator_emit (p : Pipeline) (e : Event) :
    (p.emit e).aggregator = p.aggregator := by
  unfold emit
  split
  split <;> rfl

/-- A handler leaves the aggregator alone, whether its event is sampled, refused or taken. -/
@[simp] lemma aggregator_call (p : Pipeline) (c : ProbeCall) :
    (p.call c).aggregator = p.aggregator := by
  unfold call
  simp only
  split <;> simp

/-- A drain changes the counts of events and no other part of the aggregator. -/
lemma metrics_drain (p : Pipeline) : p.drain.2.metrics = p.metrics := rfl

/-- A direct publish is not seen by the metrics. -/
lemma metrics_publish (p : Pipeline) (e : Event) : (p.publish e).2.metrics = p.metrics := rfl

/-- A handler call does to the metrics what it does to the tables, and nothing else. -/
lemma metrics_call (p : Pipeline) (c : ProbeCall) :
    (p.call c).metrics = (p.metrics.step (.call c)).2 := by
  simp [metrics, MetricsState.step]

/-! ## The pipeline simulates the metrics -/

/-- Seen after its common steps only, a run of a pipeline is the run of its metrics on the common
inputs.  The channel, the policy and the random words do not occur on the right. -/
lemma commonTrace_eq_trace (p : Pipeline) (steps : List Step) :
    p.commonTrace steps = p.metrics.trace (commonInputs p.aggregator.cpu steps) := by
  induction steps generalizing p with
  | nil => rfl
  | cons s rest ih =>
    -- the two hidden steps leave the metrics as they are; the others move both machines
    rcases s with ⟨c | u | e⟩ | _ | ⟨now, kernelText⟩
    · have hcpu : (p.call c).aggregator.cpu = p.aggregator.cpu := by rw [aggregator_call]
      have htables : (p.call c).tables = (c.run p.tables).1 := tables_call p c
      have hrest := ih (p.call c)
      rw [hcpu, metrics_call] at hrest
      change (none, (p.call c).tables) :: (p.call c).commonTrace rest = _
      rw [hrest, htables]
      rfl
    · exact congrArg (_ :: ·) (ih { p with tables := p.tables.apply u })
    · have hrest := ih (p.publish e).2
      rw [metrics_publish] at hrest
      exact hrest
    · have hrest := ih p.drain.2
      rw [metrics_drain] at hrest
      exact hrest
    · exact congrArg (_ :: ·) (ih (p.tick now kernelText).2)

/-- The snapshots of a run are those seen at its common steps. -/
lemma run_fst_eq_filterMap_commonTrace (p : Pipeline) (steps : List Step) :
    (p.run steps).1 = (p.commonTrace steps).filterMap Prod.fst := by
  induction steps generalizing p with
  | nil => rfl
  | cons s rest ih =>
    have hrun : (p.run (s :: rest)).1 = (p.step s).1.toList ++ ((p.step s).2.run rest).1 := rfl
    rw [hrun, ih]
    rcases s with ⟨c | u | e⟩ | _ | ⟨now, kernelText⟩ <;> rfl

/-- **Non-interference.**  Two pipelines start empty with tables of the same capacities, but with
any policies, random words, channel capacities and processor sources.  If they are given the same
handler calls, table updates and ticks with the same readings, then after each of these steps their
tables are equal, and each tick reports the same snapshots, whatever is published and drained in
between. -/
theorem metrics_eq_of_commonInputs_eq (maxNodes maxDropReasons maxInflight : UInt64)
    (host : String) (capacity₁ capacity₂ : ℕ) (policy₁ policy₂ : SamplingPolicy)
    (words₁ words₂ : List UInt32) (cpu₁ cpu₂ : CpuSource) (steps₁ steps₂ : List Step)
    (hinputs : commonInputs cpu₁ steps₁ = commonInputs cpu₂ steps₂) :
    let tables := Tables.ofCapacities maxNodes maxDropReasons maxInflight
    let p₁ := initial tables capacity₁ policy₁ words₁ host cpu₁
    let p₂ := initial tables capacity₂ policy₂ words₂ host cpu₂
    p₁.commonTrace steps₁ = p₂.commonTrace steps₂ ∧ (p₁.run steps₁).1 = (p₂.run steps₂).1 := by
  intro tables p₁ p₂
  have hmetrics : p₁.metrics = p₂.metrics := rfl
  have htrace : p₁.commonTrace steps₁ = p₂.commonTrace steps₂ := by
    calc p₁.commonTrace steps₁ = p₁.metrics.trace (commonInputs cpu₁ steps₁) :=
          commonTrace_eq_trace p₁ steps₁
      _ = p₂.metrics.trace (commonInputs cpu₂ steps₂) := by rw [hmetrics, hinputs]
      _ = p₂.commonTrace steps₂ := (commonTrace_eq_trace p₂ steps₂).symm
  refine ⟨htrace, ?_⟩
  rw [run_fst_eq_filterMap_commonTrace, run_fst_eq_filterMap_commonTrace, htrace]

/-- A pipeline that offers every event to a channel of capacity 0 and is disturbed by a direct
publish reports the same as one that samples nothing, drains twice and reads an absent kernel text
as zero. -/
theorem metrics_eq_of_refused_and_unsampled_events :
    let lost : ProbeCall := ⟨.packetDrop 3, 1, 10⟩
    let direct : Event := ⟨7, .rtt, 1, 2, 0⟩
    let steps₁ : List Step := [.act (.call lost), .act (.publish direct), .tick ⟨5⟩ none]
    let steps₂ : List Step := [.drain, .act (.call lost), .drain, .tick ⟨5⟩ none]
    let cpu₁ : CpuSource := .fixed (0 : UInt64).toFloat
    let tables := Tables.ofCapacities 4 8 2
    let p₁ := initial tables 0 .unsampled [] "web" cpu₁
    let p₂ := initial tables 2 ⟨0, 0, 0, 0⟩ [9, 4] "web" .unread
    commonInputs cpu₁ steps₁ = commonInputs .unread steps₂ ∧
      p₁.commonTrace steps₁ = p₂.commonTrace steps₂ ∧ (p₁.run steps₁).1 = (p₂.run steps₂).1 :=
  ⟨rfl, metrics_eq_of_commonInputs_eq 4 8 2 "web" 0 2 .unsampled ⟨0, 0, 0, 0⟩ [] [9, 4] _ .unread
    _ _ rfl⟩

end Pipeline

end NodeTelemetry
