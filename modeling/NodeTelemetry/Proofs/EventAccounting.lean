import Mathlib
import NodeTelemetry.Pipeline
import NodeTelemetry.Proofs.ChannelRun
import NodeTelemetry.Proofs.EventIndependence
import NodeTelemetry.Proofs.UpdateTotals

/-!
# Every event is accounted for

An event is offered by a handler or directly, and then it is refused, waits, or was counted by the
aggregator under its kind.  The channel of a pipeline goes through a run of its own
(`Pipeline.channel_run`), in which the aggregator is the receiver, and what it polls is what it
counts (`Pipeline.processed_run`).  So the conservation of the channel becomes an account of events
by kind, and its two counts become the number of offers, which a policy of rates 0 and 1 makes a
number of handler calls (`Pipeline.countP_isPublish_channelSteps`).
-/

namespace NodeTelemetry

/-! ## Counts by kind -/

namespace EventCounts

/-- Counting a list adds to each kind the number of its events of that kind. -/
lemma get_countAll (c : EventCounts) (events : List Event) (t : EventType) :
    (c.countAll events).get t =
      c.get t + UInt64.ofNat (events.countP fun e => e.eventType = t) := by
  induction events generalizing c with
  | nil => simp [countAll]
  | cons e events ih =>
    have hcons : c.countAll (e :: events) = (c.count e.eventType).countAll events := rfl
    rw [hcons, ih, get_count, List.countP_cons]
    by_cases ht : e.eventType = t
    · simp only [ht, if_true, decide_true, UInt64.ofNat_add]
      rw [UInt64.add_assoc, UInt64.add_comm 1]
      rfl
    · simp [ht]

/-- The events of all kinds. -/
def total (c : EventCounts) : UInt64 := c.rtt + c.retrans + c.drop + c.runqlat

/-- Counting an event adds one to the events of all kinds. -/
lemma total_count (c : EventCounts) (t : EventType) : (c.count t).total = c.total + 1 := by
  cases t <;> simp only [count, total] <;> ac_rfl

/-- Counting a list adds its length to the events of all kinds. -/
lemma total_countAll (c : EventCounts) (events : List Event) :
    (c.countAll events).total = c.total + UInt64.ofNat events.length := by
  induction events generalizing c with
  | nil => simp [countAll]
  | cons e events ih =>
    have hcons : c.countAll (e :: events) = (c.count e.eventType).countAll events := rfl
    rw [hcons, ih, total_count, List.length_cons, UInt64.ofNat_add, UInt64.add_assoc,
      UInt64.add_comm 1]
    rfl

end EventCounts

/-- The kind of event that a handler reports, given the pending wakeups.  The node plays no part. -/
def Callback.kind? (wakeups : WakeupTable) : Callback → Option EventType
  | .roundTrip _ => some .rtt
  | .ack _ => some .rtt
  | .retransmit => some .retrans
  | .packetDrop _ => some .drop
  | .wakeup _ => none
  | .switch pid => if (wakeups.pending.get? pid).isSome then some .runqlat else none

/-- A handler reports an event of its kind, or none if it has none. -/
lemma ProbeCall.map_eventType_run (c : ProbeCall) (t : Tables) :
    (c.run t).2.map Event.eventType = c.callback.kind? t.wakeups := by
  obtain ⟨callback, node, now⟩ := c
  cases callback with
  | switch pid =>
    cases hpending : t.wakeups.pending.get? pid with
    | none => simp [run, Callback.kind?, WakeupTable.take_of_get?_eq_none hpending, hpending]
    | some woken => simp [run, Callback.kind?, WakeupTable.take_of_get?_eq_some hpending, hpending]
  | _ => rfl

namespace Pipeline

/-! ## The channel of a pipeline -/

/-- A step is a publish that does not come from a handler. -/
def Step.isDirectPublish : Step → Bool
  | .act (.publish _) => true
  | _ => false

/-- The kind of event that a step reports through a handler. -/
def handlerKind? (p : Pipeline) : Step → Option EventType
  | .act (.call c) => c.callback.kind? p.tables.wakeups
  | _ => none

/-- The event that a step offers to the channel: that of a handler if it is sampled, and that of a
direct publish always. -/
def offered? (p : Pipeline) : Step → Option Event
  | .act (.call c) =>
    (c.run p.tables).2.filter fun e => (p.policy.shouldPublish e.eventType p.words).1
  | .act (.publish e) => some e
  | _ => none

/-- What a step does to the channel, if anything. -/
def channelStep? (p : Pipeline) : Step → Option ChannelStep
  | .drain => some .poll
  | s => (p.offered? s).map (.publish 0)

/-- What a list of steps does to the channel. -/
def channelSteps (p : Pipeline) : List Step → List ChannelStep
  | [] => []
  | s :: rest => (p.channelStep? s).toList ++ channelSteps (p.step s).2 rest

/-- The kinds of event that a list of steps reports through handlers, in order. -/
def handlerKinds (p : Pipeline) : List Step → List EventType
  | [] => []
  | s :: rest => (p.handlerKind? s).toList ++ handlerKinds (p.step s).2 rest

/-- The events accepted by the channel in a run, in order. -/
def acceptedEvents (p : Pipeline) (steps : List Step) : List Event :=
  (p.channel.accepted (p.channelSteps steps)).map Prod.snd

/-- The events that the aggregator drained in a run, in order. -/
def drainedEvents (p : Pipeline) (steps : List Step) : List Event :=
  p.channel.polled (p.channelSteps steps)

/-- Reporting an event offers it to the channel if it is sampled. -/
lemma channel_emit (p : Pipeline) (e : Event) :
    (p.emit e).channel =
      if (p.policy.shouldPublish e.eventType p.words).1 then (p.channel.publish e).2
      else p.channel := by
  unfold emit
  simp only
  split <;> rfl

/-- A step of a pipeline does to the channel what it is said to do. -/
lemma channel_step (p : Pipeline) (s : Step) :
    (p.step s).2.channel = p.channel.run (p.channelStep? s).toList := by
  rcases s with ⟨c | u | e⟩ | _ | ⟨now, kernelText⟩
  · change (p.call c).channel = _
    unfold call
    simp only [channelStep?, offered?]
    cases (c.run p.tables).2 with
    | none => rfl
    | some e =>
      simp only [channel_emit, Option.filter_some]
      split <;> rfl
  all_goals rfl

/-- A step counts what it takes out of the channel. -/
lemma processed_step (p : Pipeline) (s : Step) :
    (p.step s).2.aggregator.processed =
      p.aggregator.processed.countAll (p.channel.polled (p.channelStep? s).toList) := by
  rcases s with ⟨c | u | e⟩ | _ | ⟨now, kernelText⟩
  · change (p.call c).aggregator.processed = _
    rw [aggregator_call]
    simp only [channelStep?]
    cases p.offered? (.act (.call c)) <;> rfl
  · rfl
  · rfl
  · change _ = p.aggregator.processed.countAll (p.channel.poll.1 ++ [])
    rw [List.append_nil]
    rfl
  · rfl

/-- The policy stays what it is. -/
lemma policy_step (p : Pipeline) (s : Step) : (p.step s).2.policy = p.policy := by
  rcases s with ⟨c | u | e⟩ | _ | ⟨now, kernelText⟩
  · change (p.call c).policy = _
    unfold call
    simp only
    split
    · unfold emit
      simp only
      split <;> rfl
    · rfl
  all_goals rfl

/-- The channel goes through its own run. -/
lemma channel_run (p : Pipeline) (steps : List Step) :
    (p.run steps).2.channel = p.channel.run (p.channelSteps steps) := by
  induction steps generalizing p with
  | nil => rfl
  | cons s steps ih =>
    rw [run_snd_cons, ih, channel_step, channelSteps]
    exact List.foldl_append.symm

/-- The aggregator counts the events that it drains, and each under its kind. -/
lemma processed_run (p : Pipeline) (steps : List Step) :
    (p.run steps).2.aggregator.processed =
      p.aggregator.processed.countAll (p.drainedEvents steps) := by
  induction steps generalizing p with
  | nil => rfl
  | cons s steps ih =>
    have hdrained : p.drainedEvents (s :: steps) =
        p.channel.polled (p.channelStep? s).toList ++ (p.step s).2.drainedEvents steps := by
      rw [drainedEvents, drainedEvents, channel_step]
      exact EventChannel.history_append _ _ _ _
    rw [run_snd_cons, ih, processed_step, hdrained]
    exact List.foldl_append.symm

/-- The aggregator keeps its receiver. -/
lemma dropReceiver_notMem_channelSteps (p : Pipeline) (steps : List Step) :
    .dropReceiver ∉ p.channelSteps steps := by
  induction steps generalizing p with
  | nil => exact List.not_mem_nil
  | cons s steps ih =>
    rw [channelSteps, List.mem_append, not_or]
    refine ⟨?_, ih _⟩
    rcases s with ⟨c | u | e⟩ | _ | ⟨now, kernelText⟩ <;> simp [channelStep?, offered?]

/-! ## Offers -/

/-- With rate 0 no event is sampled, and with rate 1 every event is. -/
lemma shouldPublish_fst_of_rate {policy : SamplingPolicy} {t : EventType}
    (hrate : policy.oneIn t = 0 ∨ policy.oneIn t = 1) (words : WordStream) :
    (policy.shouldPublish t words).1 = decide (policy.oneIn t = 1) := by
  rcases hrate with h | h
  · rw [SamplingPolicy.shouldPublish_of_zero h, h]
    rfl
  · rw [SamplingPolicy.shouldPublish_of_one h, h]
    rfl

/-- With rates 0 and 1, a step offers an event if it is a direct publish or reports a kind with
rate 1. -/
lemma countP_isPublish_channelStep? {p : Pipeline}
    (hrates : ∀ t, p.policy.oneIn t = 0 ∨ p.policy.oneIn t = 1) (s : Step) :
    (p.channelStep? s).toList.countP ChannelStep.isPublish =
      (if s.isDirectPublish then 1 else 0) +
        (p.handlerKind? s).toList.countP fun t => p.policy.oneIn t = 1 := by
  rcases s with ⟨c | u | e⟩ | _ | ⟨now, kernelText⟩
  · have hkind : p.handlerKind? (.act (.call c)) = (c.run p.tables).2.map Event.eventType :=
      (c.map_eventType_run p.tables).symm
    rw [hkind]
    simp only [channelStep?, offered?]
    cases (c.run p.tables).2 with
    | none => rfl
    | some e =>
      rw [Option.filter_some, shouldPublish_fst_of_rate (hrates e.eventType)]
      by_cases hone : p.policy.oneIn e.eventType = 1 <;>
        simp [hone, ChannelStep.isPublish, Step.isDirectPublish]
  all_goals rfl

/-- With rates 0 and 1, the offers of a run are its direct publishes and its handler reports of
kinds with rate 1. -/
lemma countP_isPublish_channelSteps {p : Pipeline}
    (hrates : ∀ t, p.policy.oneIn t = 0 ∨ p.policy.oneIn t = 1) (steps : List Step) :
    (p.channelSteps steps).countP ChannelStep.isPublish =
      steps.countP Step.isDirectPublish +
        ((EventType.all.filter fun t => p.policy.oneIn t = 1).map
          fun t => (p.handlerKinds steps).count t).sum := by
  have hnodup : (EventType.all.filter fun t => p.policy.oneIn t = 1).Nodup :=
    List.Nodup.filter _ (by decide)
  have hkinds : ∀ t, t ∈ EventType.all.filter (fun t => p.policy.oneIn t = 1) ↔
      p.policy.oneIn t = 1 := by
    intro t
    cases t <;> simp [EventType.all]
  rw [sum_count_of_nodup hnodup]
  simp only [hkinds]
  clear hnodup hkinds
  induction steps generalizing p with
  | nil => rfl
  | cons s steps ih =>
    have hpolicy := policy_step p s
    have hrest := ih (p := (p.step s).2) (by rwa [hpolicy])
    rw [hpolicy] at hrest
    rw [channelSteps, handlerKinds, List.countP_append, List.countP_append, List.countP_cons,
      countP_isPublish_channelStep? hrates, hrest]
    omega

/-! ## The accounts -/

/-- What the counts of a pipeline say of the events of a run. -/
structure EventAccounts (p : Pipeline) (steps : List Step) (q : Pipeline) : Prop where
  /-- The channel goes through the offers and the polls of the run. -/
  channel_eq : q.channel = p.channel.run (p.channelSteps steps)
  /-- An accepted event was drained or waits. -/
  accepted_eq : p.acceptedEvents steps = p.drainedEvents steps ++ q.channel.queue.toList
  published_eq : q.channel.published =
    q.aggregator.processed.total + UInt64.ofNat q.channel.len
  /-- Each kind is accounted for on its own. -/
  accepted_kind : ∀ t, UInt64.ofNat ((p.acceptedEvents steps).countP fun e => e.eventType = t) =
    q.aggregator.processed.get t +
      UInt64.ofNat (q.channel.queue.toList.countP fun e => e.eventType = t)
  /-- What was published or dropped was offered directly or by a handler of a kind with rate 1. -/
  offers_eq : q.channel.published + q.channel.dropped =
    UInt64.ofNat (steps.countP Step.isDirectPublish +
      ((EventType.all.filter fun t => p.policy.oneIn t = 1).map
        fun t => (p.handlerKinds steps).count t).sum)

/-- **Every event is accounted for.**  A pipeline that starts with an empty channel of any capacity
and samples each kind with rate 0 or 1 accounts, modulo `2 ^ 64`, for all events of any run. -/
theorem eventAccounts_run (tables : Tables) (channelCapacity : ℕ) (policy : SamplingPolicy)
    (words : List UInt32) (host : String) (cpu : CpuSource) (steps : List Step)
    (hrates : ∀ t, policy.oneIn t = 0 ∨ policy.oneIn t = 1) :
    let p := initial tables channelCapacity policy words host cpu
    EventAccounts p steps (p.run steps).2 := by
  intro p
  have hchannel := channel_run p steps
  have hprocessed := processed_run p steps
  have haccepted : p.acceptedEvents steps =
      p.drainedEvents steps ++ (p.run steps).2.channel.queue.toList := by
    have hempty : p.channel.queue.size ≤ p.channel.capacity := Nat.zero_le _
    rw [hchannel]
    exact EventChannel.queue_append_accepted hempty (p.dropReceiver_notMem_channelSteps steps)
  have hpublished : (p.run steps).2.channel.published =
      UInt64.ofNat (p.acceptedEvents steps).length := by
    rw [hchannel, EventChannel.published_run, acceptedEvents, List.length_map]
    exact UInt64.zero_add _
  have hdropped : (p.run steps).2.channel.dropped =
      UInt64.ofNat (p.channel.refused (p.channelSteps steps)).length := by
    rw [hchannel, EventChannel.dropped_run]
    exact UInt64.zero_add _
  refine ⟨hchannel, haccepted, ?_, fun t => ?_, ?_⟩
  · rw [hpublished, haccepted, hprocessed, EventCounts.total_countAll, List.length_append,
      UInt64.ofNat_add]
    exact congrArg (· + _) (UInt64.zero_add _).symm
  · rw [haccepted, hprocessed, EventCounts.get_countAll, List.countP_append, UInt64.ofNat_add]
    cases t <;> exact congrArg (· + _) (UInt64.zero_add _).symm
  · rw [hpublished, hdropped, ← UInt64.ofNat_add, acceptedEvents, List.length_map,
      EventChannel.length_accepted_add_length_refused, countP_isPublish_channelSteps hrates]

/-- Into a channel of capacity 2 that never hears of retransmissions: a round trip of an unknown
node, a retransmission, a direct event, one refused for lack of room, a switch to a process that
nobody woke, and after a drain a switch to one that was woken. -/
theorem eventAccounts_of_full_channel :
    let policy : SamplingPolicy := ⟨1, 0, 1, 1⟩
    let steps : List Step := [.act (.call ⟨.roundTrip 5, 9, 1⟩), .act (.call ⟨.retransmit, 0, 2⟩),
      .act (.publish ⟨0, .retrans, 1, 3, 0⟩), .act (.call ⟨.packetDrop 7, 0, 4⟩),
      .act (.call ⟨.switch 3, 0, 5⟩), .tick ⟨6⟩ none, .drain, .act (.call ⟨.wakeup 3, 0, 7⟩),
      .act (.call ⟨.switch 3, 1, 8⟩)]
    let p := initial (.ofCapacities 2 1 1) 2 policy [] "web" .unread
    (∀ t, policy.oneIn t = 0 ∨ policy.oneIn t = 1) ∧ EventAccounts p steps (p.run steps).2 ∧
      (p.run steps).2.channel.published = 3 ∧ (p.run steps).2.channel.dropped = 1 ∧
      (p.run steps).2.aggregator.processed = ⟨1, 1, 0, 0⟩ ∧
      (p.acceptedEvents steps).map Event.eventType = [.rtt, .retrans, .runqlat] := by
  intro policy steps p
  have hrates : ∀ t, policy.oneIn t = 0 ∨ policy.oneIn t = 1 := fun t => by cases t <;> decide
  exact ⟨hrates, eventAccounts_run (.ofCapacities 2 1 1) 2 policy [] "web" .unread steps hrates,
    by decide +kernel, by decide +kernel, by decide +kernel, by decide +kernel⟩

end Pipeline

end NodeTelemetry
