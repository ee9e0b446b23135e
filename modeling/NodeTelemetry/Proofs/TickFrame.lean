import Mathlib
import NodeTelemetry.Proofs.HandlerAccounts
import NodeTelemetry.Proofs.LoopRun
import NodeTelemetry.Proofs.RateHistory

/-!
# What a tick reads and what it changes

A tick goes through the tracked nodes, each once, so its snapshots can be made node by node from
what was there before it (`Aggregator.snapshots_eq_filterMap`), and each node has the rates after it
that a tick of that node alone would leave (`Pipeline.get?_rates_tick`).  A reading of the rates at
an instant that is not later than the last one changes nothing (`RateState.update_update`), and so a
tick that is repeated before anything was recorded repeats its snapshots.  For this the instants of
earlier ticks must lie within the clock, which a run keeps (`Pipeline.RatesFollow`).
-/

namespace NodeTelemetry

/-! ## Rates read twice -/

/-- Every baseline is that of a reading. -/
lemma RateBaseline.exists_reading (b : RateBaseline) : ∃ r : CounterReading, r.baseline = b :=
  ⟨⟨{ NodeCounters.zero with retransCount := b.retrans, dropCount := b.drops }, b.instant⟩, rfl⟩

namespace RateState

variable {s : RateState} {now : Instant}

/-- The last instant that counted is one that the clock can hold. -/
def IsWithinClock (s : RateState) : Prop := ∀ b, s.baseline = some b → b.instant.Representable

lemma isWithinClock_initial : initial.IsWithinClock := by
  intro b hb
  cases hb

/-- After a reading the last instant that counted is that of the reading, or a later one. -/
lemma exists_baseline_update (hs : s.IsWithinClock) (hnow : now.Representable)
    (counters : NodeCounters) :
    (s.update counters now).IsWithinClock ∧
      ∃ b, (s.update counters now).baseline = some b ∧ now.nanos ≤ b.instant.nanos := by
  let r : CounterReading := ⟨counters, now⟩
  change (s.read r).IsWithinClock ∧ ∃ b, (s.read r).baseline = some b ∧ _
  cases hbaseline : s.baseline with
  | none =>
    rw [read_of_baseline_eq_none hbaseline]
    refine ⟨fun b hb => ?_, r.baseline, rfl, le_rfl⟩
    cases hb
    exact hnow
  | some b =>
    obtain ⟨previous, rfl⟩ := b.exists_reading
    rcases le_or_gt now.nanos previous.instant.nanos with hle | hlt
    · rw [read_of_le hbaseline hle]
      exact ⟨hs, previous.baseline, hbaseline, hle⟩
    · rw [read_of_lt hbaseline hlt (hs _ hbaseline) hnow]
      refine ⟨fun b hb => ?_, r.baseline, rfl, le_rfl⟩
      cases hb
      exact hnow

/-- Reading again at an instant that is not later changes nothing. -/
lemma update_update (hs : s.IsWithinClock) (hnow : now.Representable)
    (counters counters' : NodeCounters) {again : Instant} (hagain : again.nanos ≤ now.nanos) :
    (s.update counters now).update counters' again = s.update counters now := by
  obtain ⟨-, b, hb, hle⟩ := exists_baseline_update hs hnow counters
  obtain ⟨previous, rfl⟩ := b.exists_reading
  exact read_of_le (r := ⟨counters', again⟩) hb (hagain.trans hle)

end RateState

/-! ## A tick node by node -/

/-- The snapshots of a loop that comes to each node once are those of the nodes alone. -/
lemma Aggregator.snapshots_eq_filterMap (host : String) (cpu : Float) (now : Instant)
    (tables : Tables) {nodes : List UInt32} (hnodup : nodes.Nodup) (rates : KeyMap RateState) :
    (snapshots host cpu now tables nodes rates).1 =
      nodes.filterMap fun node =>
        (nodeTick host cpu now tables node (rates.get? node)).map Prod.fst := by
  induction nodes generalizing rates with
  | nil => rfl
  | cons n nodes ih =>
    obtain ⟨hn, hnodup⟩ := List.nodup_cons.mp hnodup
    -- the round of `n` leaves the rates of the nodes behind it
    have hrest : ∀ node ∈ nodes, ((nodeTick host cpu now tables n (rates.get? n)).elim rates
        fun m => rates.insert n m.2).get? node = rates.get? node := by
      intro node hnode
      rw [get?_rates_of_round, if_neg (ne_of_mem_of_not_mem hnode hn)]
    rw [snapshots_cons, ih hnodup]
    have hlater := List.filterMap_congr fun node hnode =>
      congrArg (fun state => (nodeTick host cpu now tables node state).map Prod.fst)
        (hrest node hnode)
    rw [hlater]
    cases hmade : nodeTick host cpu now tables n (rates.get? n) <;> simp [hmade]

lemma toFloat_zero : (0 : UInt64).toFloat = 0 := by decide

/-- No sample has the percentile zero. -/
lemma Histogram.percentile_empty (p : Float) : Histogram.empty.percentile p = 0 := by
  have htotal : Histogram.empty.total = 0 := by decide +kernel
  rw [percentile, if_pos htotal, toFloat_zero]

/-- The snapshot of a node, with its name and the mean of its run-queue latency written out. -/
lemma Aggregator.snapshotOf_eq (host : String) (cpu : Float) (node : UInt32)
    (counters : NodeCounters) (histogram : Histogram) (rates : Rates) :
    snapshotOf host cpu node counters histogram rates =
      { nodeId := node
        nodeName := if node = 0 then host else host ++ "-" ++ toString node.toNat
        rttP50 := histogram.percentile (50 : UInt64).toFloat
        rttP99 := histogram.percentile (99 : UInt64).toFloat
        retransRate := rates.retrans
        dropRate := rates.drop
        runqlat := if counters.runqlatCount = 0 then 0
          else counters.runqlatSum.toFloat / counters.runqlatCount.toFloat
        cpu := cpu } := by
  rw [snapshotOf, NodeCounters.runqlatMean, toFloat_zero, nodeName]

namespace Tables

/-! ## Records stay -/

lemma isSome_get?_counters_apply {t : Tables} {node : UInt32}
    (h : (t.counters.get? node).isSome) (u : TableUpdate) :
    ((t.apply u).counters.get? node).isSome := by
  have hupdate : ∀ key change,
      ((t.counters.update key NodeCounters.zero change).get? node).isSome := by
    intro key change
    rw [SlotTable.get?_update_eq_ite]
    split
    · rfl
    · exact h
  cases u with
  | increment key field delta => exact hupdate key _
  | touch key time => exact hupdate key _
  | _ => exact h

/-- A node keeps its counters. -/
lemma isSome_get?_counters_run {t : Tables} {node : UInt32}
    (h : (t.counters.get? node).isSome) (c : ProbeCall) :
    ((c.run t).1.counters.get? node).isSome := by
  rw [(sameRecords_run t c).get?_counters]
  induction c.updates (c.woken? t.wakeups) generalizing t with
  | nil => exact h
  | cons u us ih => exact ih (isSome_get?_counters_apply h u)

end Tables

namespace Pipeline

/-! ## The rates of a run -/

/-- Each state of rates is one of a node with counters, read within the clock. -/
structure RatesFollow (p : Pipeline) : Prop where
  isSome_counters : ∀ node, (p.aggregator.rates.get? node).isSome →
    (p.tables.counters.get? node).isSome
  isWithinClock : ∀ node state, p.aggregator.rates.get? node = some state → state.IsWithinClock

lemma RatesFollow.getD {p : Pipeline} (h : p.RatesFollow) (node : UInt32) :
    ((p.aggregator.rates.get? node).getD .initial).IsWithinClock := by
  cases hstate : p.aggregator.rates.get? node with
  | none => exact RateState.isWithinClock_initial
  | some state => exact h.isWithinClock node state hstate

/-- A tick reads the counters of each node that has some, and leaves the rates of the others. -/
lemma get?_rates_tick (p : Pipeline) (now : Instant) (kernelText : Option (List Char))
    (node : UInt32) :
    (p.tick now kernelText).2.aggregator.rates.get? node =
      match p.tables.counters.get? node with
      | none => p.aggregator.rates.get? node
      | some counters =>
        some (((p.aggregator.rates.get? node).getD .initial).update counters now) := by
  have hrates := (Aggregator.snapshots_trackedNodes p.aggregator.host
    (p.aggregator.cpu.sample kernelText).1 now p.tables node p.aggregator.rates).2
  refine hrates.trans ?_
  unfold Aggregator.nodeTick Tables.snapshot
  cases p.tables.counters.get? node <;> rfl

/-- The instant of a tick. -/
def Step.instant? : Step → Option Instant
  | .tick now _ => some now
  | _ => none

lemma RatesFollow.step {p : Pipeline} (h : p.RatesFollow) {s : Step}
    (hs : ∀ now, s.instant? = some now → now.Representable) : (p.step s).2.RatesFollow := by
  obtain ⟨hcounters, hclock⟩ := h
  rcases s with ⟨c | u | e⟩ | _ | ⟨now, kernelText⟩
  · refine ⟨fun node hnode => ?_, fun node state hstate => ?_⟩
    · change ((p.call c).tables.counters.get? node).isSome
      change ((p.call c).aggregator.rates.get? node).isSome at hnode
      rw [aggregator_call] at hnode
      rw [tables_call]
      exact Tables.isSome_get?_counters_run (hcounters node hnode) c
    · change (p.call c).aggregator.rates.get? node = some state at hstate
      rw [aggregator_call] at hstate
      exact hclock node state hstate
  · exact ⟨fun node hnode => Tables.isSome_get?_counters_apply (hcounters node hnode) u, hclock⟩
  · exact ⟨hcounters, hclock⟩
  · exact ⟨hcounters, hclock⟩
  · refine ⟨fun node hnode => ?_, fun node state hstate => ?_⟩
    · change ((p.tick now kernelText).2.aggregator.rates.get? node).isSome at hnode
      change (p.tables.counters.get? node).isSome
      rw [get?_rates_tick] at hnode
      cases hsome : p.tables.counters.get? node with
      | none =>
        rw [hsome] at hnode
        have hold := hcounters node hnode
        rwa [hsome] at hold
      | some counters => rfl
    · change (p.tick now kernelText).2.aggregator.rates.get? node = some state at hstate
      rw [get?_rates_tick] at hstate
      split at hstate
      · exact hclock node state hstate
      · next counters _ =>
        cases hstate
        exact (RateState.exists_baseline_update (RatesFollow.getD ⟨hcounters, hclock⟩ node)
          (hs now rfl) counters).1

lemma RatesFollow.run {p : Pipeline} (h : p.RatesFollow) {steps : List Step}
    (hsteps : ∀ now ∈ steps.filterMap Step.instant?, now.Representable) :
    (p.run steps).2.RatesFollow := by
  induction steps generalizing p with
  | nil => exact h
  | cons s steps ih =>
    rw [run_snd_cons]
    refine ih (h.step fun now hnow => ?_) fun now hnow => ?_
    · exact hsteps now (List.mem_filterMap.mpr ⟨s, List.mem_cons_self, hnow⟩)
    · obtain ⟨s', hs', hnow⟩ := List.mem_filterMap.mp hnow
      exact hsteps now (List.mem_filterMap.mpr ⟨s', List.mem_cons_of_mem _ hs', hnow⟩)

lemma ratesFollow_initial (tables : Tables) (channelCapacity : ℕ) (policy : SamplingPolicy)
    (words : List UInt32) (host : String) (cpu : CpuSource) :
    (initial tables channelCapacity policy words host cpu).RatesFollow := by
  constructor
  · intro node hnode
    cases hnode
  · intro node state hstate
    cases hstate

/-- The host keeps its name. -/
lemma host_run (p : Pipeline) (steps : List Step) :
    (p.run steps).2.aggregator.host = p.aggregator.host := by
  induction steps generalizing p with
  | nil => rfl
  | cons s steps ih =>
    rw [run_snd_cons, ih]
    rcases s with ⟨c | u | e⟩ | _ | ⟨now, kernelText⟩
    · exact congrArg Aggregator.host (aggregator_call p c)
    all_goals rfl

/-! ## Exact ticks -/

/-- Direct publishes and drains leave alone what snapshots are made from. -/
lemma metrics_run_of_hidden {p : Pipeline} {between : List Step}
    (h : ∀ s ∈ between, s.isCommon = false) :
    (p.run between).2.metrics = p.metrics ∧
      (p.run between).2.aggregator.cpu = p.aggregator.cpu := by
  induction between generalizing p with
  | nil => exact ⟨rfl, rfl⟩
  | cons s between ih =>
    obtain ⟨hs, hbetween⟩ := List.forall_mem_cons.mp h
    rw [run_snd_cons]
    rcases s with ⟨c | u | e⟩ | _ | ⟨now, kernelText⟩
    · cases hs
    · cases hs
    · exact ih hbetween
    · exact ih hbetween
    · cases hs

/-- A snapshot of a tick is made from the records and the rates of its own node. -/
lemma exists_of_mem_tick {p : Pipeline} {now : Instant} {kernelText : Option (List Char)}
    {s : Snapshot} (hs : s ∈ (p.tick now kernelText).1) :
    ∃ counters, p.tables.counters.get? s.nodeId = some counters ∧
      s = Aggregator.snapshotOf p.aggregator.host (p.aggregator.cpu.sample kernelText).1 s.nodeId
        counters (p.tables.histogramOf s.nodeId)
        (((p.aggregator.rates.get? s.nodeId).getD .initial).update counters now).rates := by
  have hown : s ∈ (p.tick now kernelText).1.filter (·.nodeId = s.nodeId) :=
    List.mem_filter.mpr ⟨hs, decide_eq_true rfl⟩
  have halone := (Aggregator.snapshots_trackedNodes p.aggregator.host
    (p.aggregator.cpu.sample kernelText).1 now p.tables s.nodeId p.aggregator.rates).1
  rw [show (p.tick now kernelText).1.filter (·.nodeId = s.nodeId) = _ from halone,
    Option.mem_toList, Aggregator.nodeTick, Tables.snapshot] at hown
  cases hcounters : p.tables.counters.get? s.nodeId with
  | none =>
    rw [hcounters] at hown
    cases hown
  | some counters =>
    rw [hcounters] at hown
    exact ⟨counters, rfl, (Option.some.inj hown).symm⟩

/-- A tick that is repeated at the same instant or at an earlier one, before anything else was
recorded and with the same reading of the processor, makes the same snapshots. -/
lemma tick_again {p : Pipeline} (h : p.RatesFollow) {now again : Instant}
    (hnow : now.Representable) (hagain : again.nanos ≤ now.nanos)
    {kernelText kernelText' : Option (List Char)} {between : List Step}
    (hbetween : ∀ s ∈ between, s.isCommon = false)
    (hcpu : ((p.tick now kernelText).2.aggregator.cpu.sample kernelText').1 =
      (p.aggregator.cpu.sample kernelText).1) :
    ((((p.tick now kernelText).2).run between).2.tick again kernelText').1 =
      (p.tick now kernelText).1 := by
  have hmade : ∀ (q : Pipeline) (now : Instant) (kernelText : Option (List Char)),
      (q.tick now kernelText).1 = q.metrics.tables.trackedNodes.filterMap fun node =>
        (Aggregator.nodeTick q.metrics.host (q.aggregator.cpu.sample kernelText).1 now
          q.metrics.tables node (q.metrics.rates.get? node)).map Prod.fst := fun q now kernelText =>
    Aggregator.snapshots_eq_filterMap _ _ _ _ q.tables.nodup_trackedNodes _
  obtain ⟨hmetrics, hsource⟩ := metrics_run_of_hidden (p := (p.tick now kernelText).2) hbetween
  rw [hmade, hmade, hmetrics, hsource, hcpu]
  refine List.filterMap_congr fun node _ => ?_
  change (Aggregator.nodeTick _ _ again p.tables node
    ((p.tick now kernelText).2.aggregator.rates.get? node)).map Prod.fst = _
  rw [get?_rates_tick]
  change _ = (Aggregator.nodeTick _ _ now p.tables node
    (p.aggregator.rates.get? node)).map Prod.fst
  unfold Aggregator.nodeTick Tables.snapshot
  cases p.tables.counters.get? node with
  | none => rfl
  | some counters =>
    simp only [Option.map_some, Option.getD_some,
      RateState.update_update (h.getD node) hnow counters counters hagain]
    rfl

/-- What a tick of a pipeline makes and leaves. -/
structure IsExactTick (host : String) (p : Pipeline) (now : Instant)
    (kernelText : Option (List Char)) (made : List Snapshot) (q : Pipeline) : Prop where
  /-- The snapshots are in ascending order of their nodes, which are those with counters. -/
  ascending : (made.map Snapshot.nodeId).Pairwise (· < ·)
  mem_iff : ∀ node, node ∈ made.map Snapshot.nodeId ↔ (p.tables.counters.get? node).isSome
  /-- A snapshot is made from the records and the rates of its own node, and from the one reading of
  the processor.  Node 0 has the name of the host, and the others are numbered after it; the
  run-queue latency is the mean of its samples, or zero if there is none. -/
  values : ∀ s ∈ made, ∃ counters state,
    p.tables.counters.get? s.nodeId = some counters ∧
    q.aggregator.rates.get? s.nodeId = some state ∧
    state = ((p.aggregator.rates.get? s.nodeId).getD .initial).update counters now ∧
    s = { nodeId := s.nodeId
          nodeName := if s.nodeId = 0 then host else host ++ "-" ++ toString s.nodeId.toNat
          rttP50 := (p.tables.histogramOf s.nodeId).percentile (50 : UInt64).toFloat
          rttP99 := (p.tables.histogramOf s.nodeId).percentile (99 : UInt64).toFloat
          retransRate := state.rates.retrans
          dropRate := state.rates.drop
          runqlat := if counters.runqlatCount = 0 then 0
            else counters.runqlatSum.toFloat / counters.runqlatCount.toFloat
          cpu := (p.aggregator.cpu.sample kernelText).1 }
  /-- The percentiles of a missing histogram are zero. -/
  percentiles_of_missing : ∀ s ∈ made, p.tables.histograms.get? s.nodeId = none →
    s.rttP50 = 0 ∧ s.rttP99 = 0
  /-- A fixed utilization is reported as it is, and stays. -/
  cpu_of_fixed : ∀ percent, p.aggregator.cpu = .fixed percent →
    (∀ s ∈ made, s.cpu = percent) ∧ q.aggregator.cpu = .fixed percent
  /-- The processor is read once, the tick is counted, and nothing else changes but the rates. -/
  frame : q = { p with aggregator := { p.aggregator with
    cpu := (p.aggregator.cpu.sample kernelText).2
    rates := q.aggregator.rates
    ticks := p.aggregator.ticks + 1 } }
  /-- The ticks are counted in 64 bits. -/
  toNat_ticks : q.aggregator.ticks.toNat = (p.aggregator.ticks.toNat + 1) % UInt64.size
  /-- The rates of a node without a snapshot stay as they are: it has none. -/
  rates_of_absent : ∀ node, node ∉ made.map Snapshot.nodeId →
    q.aggregator.rates.get? node = p.aggregator.rates.get? node ∧
      q.aggregator.rates.get? node = none
  /-- With the same reading of the processor, a tick at the same instant or at an earlier one makes
  the same snapshots, as long as nothing was recorded in between. -/
  again : ∀ between : List Step, (∀ s ∈ between, s.isCommon = false) →
    ∀ (later : Instant) (laterText : Option (List Char)), later.nanos ≤ now.nanos →
      (q.aggregator.cpu.sample laterText).1 = (p.aggregator.cpu.sample kernelText).1 →
      ((q.run between).2.tick later laterText).1 = made

/-- **Ticks are exact.**  Whatever was done before, a tick within the clock makes one snapshot of
each node with counters, from the records of that node, and changes nothing but its own books. -/
theorem isExactTick_of_run (maxNodes maxDropReasons maxInflight : UInt64) (channelCapacity : ℕ)
    (policy : SamplingPolicy) (words : List UInt32) (host : String) (cpu : CpuSource)
    (steps : List Step) (hsteps : ∀ now ∈ steps.filterMap Step.instant?, now.Representable)
    (now : Instant) (hnow : now.Representable) (kernelText : Option (List Char)) :
    let fresh := Tables.ofCapacities maxNodes maxDropReasons maxInflight
    let p := ((initial fresh channelCapacity policy words host cpu).run steps).2
    IsExactTick host p now kernelText (p.tick now kernelText).1 (p.tick now kernelText).2 := by
  intro fresh p
  have hfollow : p.RatesFollow := (ratesFollow_initial fresh _ _ _ _ _).run hsteps
  have hhost : p.aggregator.host = host := host_run _ steps
  have hnodes := p.nodes_of_tick now kernelText
  constructor
  case ascending => exact hnodes.1
  case mem_iff => exact hnodes.2
  case values =>
    intro s hs
    obtain ⟨counters, hcounters, heq⟩ := exists_of_mem_tick hs
    rw [hhost, Aggregator.snapshotOf_eq] at heq
    refine ⟨counters, _, hcounters, ?_, rfl, heq⟩
    rw [get?_rates_tick, hcounters]
  case percentiles_of_missing =>
    intro s hs hmissing
    obtain ⟨counters, -, heq⟩ := exists_of_mem_tick hs
    have hempty : p.tables.histogramOf s.nodeId = .empty := by
      rw [Tables.histogramOf, hmissing]
      rfl
    rw [hempty] at heq
    rw [heq]
    simp only [Aggregator.snapshotOf, Histogram.percentile_empty, and_self]
  case cpu_of_fixed =>
    intro percent hfixed
    have hsample : p.aggregator.cpu.sample kernelText = (percent, .fixed percent) := by
      rw [hfixed, CpuSource.sample]
    refine ⟨fun s hs => ?_, congrArg Prod.snd hsample⟩
    obtain ⟨counters, -, heq⟩ := exists_of_mem_tick hs
    rw [heq, hsample]
    rfl
  case frame => rfl
  case toNat_ticks => exact UInt64.toNat_add _ _
  case rates_of_absent =>
    intro node hnode
    rw [hnodes.2, Option.not_isSome_iff_eq_none] at hnode
    have hkept : (p.tick now kernelText).2.aggregator.rates.get? node =
        p.aggregator.rates.get? node := by
      rw [get?_rates_tick, hnode]
    refine ⟨hkept, ?_⟩
    rw [hkept, ← Option.not_isSome_iff_eq_none]
    intro hsome
    have hcounters := hfollow.isSome_counters node hsome
    rw [hnode] at hcounters
    cases hcounters
  case again =>
    intro between hbetween later laterText hlater hcpu
    exact tick_again hfollow hnow hlater hbetween hcpu

/-- A tick two seconds after the last one: node 3 has a histogram only, and node 1 sent a segment
again and waited twice for a processor in between. -/
theorem isExactTick_of_histogram_without_counters :
    let steps : List Step := [.act (.call ⟨.roundTrip 5, 1, 10⟩), .act (.update (.observe 3 7)),
      .tick ⟨5⟩ none, .act (.call ⟨.retransmit, 1, 20⟩), .act (.update (.touch 0 30)),
      .act (.update (.increment 1 .runqlatSum 9)), .act (.update (.increment 1 .runqlatCount 2)),
      .drain]
    let p := ((initial (.ofCapacities 4 1 1) 0 .unsampled [] "web" (.fixed 12)).run steps).2
    let made := (p.tick ⟨2000000005⟩ none).1
    (∀ now ∈ steps.filterMap Step.instant?, now.Representable) ∧
      (⟨2000000005⟩ : Instant).Representable ∧
      IsExactTick "web" p ⟨2000000005⟩ none made (p.tick ⟨2000000005⟩ none).2 ∧
      p.tables.trackedNodes = [0, 1, 3] ∧ made.map Snapshot.nodeName = ["web", "web-1"] ∧
      made.map Snapshot.retransRate = [0, 0.5] ∧ made.map Snapshot.runqlat = [0, 4.5] :=
  ⟨by decide, by decide, isExactTick_of_run 4 1 1 0 .unsampled [] "web" (.fixed 12) _ (by decide) _
    (by decide) none, by decide +kernel, by decide +kernel, by decide +kernel, by decide +kernel⟩

end Pipeline

end NodeTelemetry
