import Mathlib
import NodeTelemetry.EventChannel

/-!
# Runs of the event channel

The channel is a bounded queue that refuses the newest event.  A run is any list of publishes,
polls, clones of a publisher and removals of either side, taken one at a time.  As long as the
receiver is there no step loses, doubles or moves an event: what waited before a run, followed by
what the run accepted, is what it handed out, followed by what waits after it
(`queue_append_accepted`).  With the bound on the queue (`size_run_le`) and the counts of answers
(`published_run`, `dropped_run`) this describes every answer of a channel.
-/

namespace NodeTelemetry

open scoped List

/-- What is done to a channel.  An event comes with the number of the publisher that offers it; a
channel treats all publishers alike, so a step may give any number. -/
inductive ChannelStep where
  | publish (publisher : ℕ) (e : Event)
  | poll
  | clonePublisher
  | dropPublishers
  | dropReceiver
  deriving DecidableEq, Repr

/-- A step offers an event. -/
def ChannelStep.isPublish : ChannelStep → Bool
  | .publish _ _ => true
  | _ => false

/-- The event that a step offers, if it is a publish of the given publisher. -/
def ChannelStep.offeredBy? (publisher : ℕ) : ChannelStep → Option Event
  | .publish k e => if k = publisher then some e else none
  | _ => none

namespace EventChannel

/-! ## Steps and what they show -/

/-- The channel after a step. -/
def step (c : EventChannel) : ChannelStep → EventChannel
  | .publish _ e => (c.publish e).2
  | .poll => c.poll.2
  | .clonePublisher => c.clonePublisher
  | .dropPublishers => c.dropPublishers
  | .dropReceiver => c.dropReceiver

/-- The channel after a list of steps, the first one first. -/
def run (c : EventChannel) (steps : List ChannelStep) : EventChannel := steps.foldl step c

/-- The event that a step puts into the channel, with its publisher. -/
def taken (c : EventChannel) : ChannelStep → List (ℕ × Event)
  | .publish k e => if (c.publish e).1 then [(k, e)] else []
  | _ => []

/-- The event that a step offers in vain, with its publisher. -/
def turnedAway (c : EventChannel) : ChannelStep → List (ℕ × Event)
  | .publish k e => if (c.publish e).1 then [] else [(k, e)]
  | _ => []

/-- The batch that a step hands to the receiver. -/
def batch (c : EventChannel) : ChannelStep → List Event
  | .poll => c.poll.1
  | _ => []

section History

variable {α : Type}

/-- What is seen of the steps of a run, in order, if each step is seen in the channel before it. -/
def history (observe : EventChannel → ChannelStep → List α) (c : EventChannel) :
    List ChannelStep → List α
  | [] => []
  | s :: rest => observe c s ++ history observe (c.step s) rest

@[simp] lemma history_nil (observe : EventChannel → ChannelStep → List α) (c : EventChannel) :
    history observe c [] = [] := rfl

@[simp] lemma history_cons (observe : EventChannel → ChannelStep → List α) (c : EventChannel)
    (s : ChannelStep) (rest : List ChannelStep) :
    history observe c (s :: rest) = observe c s ++ history observe (c.step s) rest := rfl

lemma history_append (observe : EventChannel → ChannelStep → List α) (c : EventChannel)
    (steps steps' : List ChannelStep) :
    history observe c (steps ++ steps') =
      history observe c steps ++ history observe (steps.foldl step c) steps' := by
  induction steps generalizing c with
  | nil => rfl
  | cons s steps ih =>
    rw [List.cons_append, history_cons, ih, history_cons, List.append_assoc, List.foldl_cons]

end History

/-- The events accepted in a run with their publishers, in order of acceptance: those of the
publishes that were answered with true. -/
def accepted (c : EventChannel) (steps : List ChannelStep) : List (ℕ × Event) :=
  history taken c steps

/-- The events refused in a run with their publishers: those of the publishes that were answered
with false. -/
def refused (c : EventChannel) (steps : List ChannelStep) : List (ℕ × Event) :=
  history turnedAway c steps

/-- The batches of all polls of a run, one after another. -/
def polled (c : EventChannel) (steps : List ChannelStep) : List Event := history batch c steps

@[simp] lemma run_nil (c : EventChannel) : c.run [] = c := rfl

@[simp] lemma run_cons (c : EventChannel) (s : ChannelStep) (steps : List ChannelStep) :
    c.run (s :: steps) = (c.step s).run steps := rfl

/-! ## One step -/

/-- The answer of a publish is whether the channel accepts. -/
lemma publish_fst (c : EventChannel) (e : Event) : (c.publish e).1 = c.accepts := by
  cases h : c.accepts with
  | true => rw [publish_of_accepts h]
  | false => rw [publish_of_not_accepts h]

/-- A channel accepts exactly while its receiver is there and its queue is below the capacity. -/
lemma accepts_iff {c : EventChannel} :
    c.accepts = true ↔ c.receiving = true ∧ c.queue.size < c.capacity := by
  rw [accepts, Bool.and_eq_true, decide_eq_true_iff]

/-- A poll changes the queue only. -/
lemma poll_snd (c : EventChannel) : c.poll.2 = { c with queue := c.poll.2.queue } := by
  unfold poll
  split <;> rfl

/-- No step changes the capacity. -/
@[simp] lemma capacity_step (c : EventChannel) (s : ChannelStep) :
    (c.step s).capacity = c.capacity := by
  cases s with
  | publish k e => cases h : c.accepts <;> simp [step, publish, h]
  | poll => rw [step, poll_snd]
  | _ => rfl

/-- Only its removal takes the receiver away. -/
lemma receiving_step (c : EventChannel) (s : ChannelStep) :
    (c.step s).receiving = true ↔ c.receiving = true ∧ s ≠ .dropReceiver := by
  cases s with
  | publish k e => cases h : c.accepts <;> simp [step, publish, h]
  | poll =>
    rw [step, poll_snd]
    simp
  | dropReceiver => simp [step, dropReceiver]
  | _ => simp [step, clonePublisher, dropPublishers]

/-- A queue within its capacity stays there. -/
lemma size_step_le {c : EventChannel} (h : c.queue.size ≤ c.capacity) (s : ChannelStep) :
    (c.step s).queue.size ≤ c.capacity := by
  cases s with
  | publish k e =>
    cases ha : c.accepts with
    | true =>
      have hroom := (accepts_iff.mp ha).2
      simp only [step, publish_of_accepts ha, Array.size_push]
      omega
    | false => simpa only [step, publish_of_not_accepts ha] using h
  | poll => simp [step, poll_of_size_le h]
  | dropReceiver => exact Nat.zero_le _
  | _ => exact h

/-- A step that leaves the receiver hands out the front of what waited and appends what it takes. -/
lemma queue_append_taken {c : EventChannel} (h : c.queue.size ≤ c.capacity) {s : ChannelStep}
    (hs : s ≠ .dropReceiver) :
    c.queue.toList ++ (c.taken s).map Prod.snd = c.batch s ++ (c.step s).queue.toList := by
  cases s with
  | publish k e => cases ha : c.accepts <;> simp [taken, batch, step, publish, ha]
  | poll => simp [taken, batch, step, poll_of_size_le h]
  | dropReceiver => exact absurd rfl hs
  | _ => simp [taken, batch, step, clonePublisher, dropPublishers]

/-- A step counts the event that it takes. -/
lemma published_step (c : EventChannel) (s : ChannelStep) :
    (c.step s).published = c.published + UInt64.ofNat (c.taken s).length := by
  cases s with
  | publish k e => cases h : c.accepts <;> simp [taken, step, publish, h]
  | poll =>
    rw [step, poll_snd]
    simp [taken]
  | _ => simp [taken, step, clonePublisher, dropPublishers, dropReceiver]

/-- A step counts the event that it turns away, whether the channel is full or its receiver gone. -/
lemma dropped_step (c : EventChannel) (s : ChannelStep) :
    (c.step s).dropped = c.dropped + UInt64.ofNat (c.turnedAway s).length := by
  cases s with
  | publish k e => cases h : c.accepts <;> simp [turnedAway, step, publish, h]
  | poll =>
    rw [step, poll_snd]
    simp [turnedAway]
  | _ => simp [turnedAway, step, clonePublisher, dropPublishers, dropReceiver]

/-- What a step takes of a publisher is what that publisher offers, or nothing. -/
lemma taken_sublist (c : EventChannel) (k : ℕ) (s : ChannelStep) :
    ((c.taken s).filter (·.1 = k)).map Prod.snd <+ (s.offeredBy? k).toList := by
  cases s with
  | publish k' e =>
    by_cases hk : k' = k <;> cases ha : (c.publish e).1 <;>
      simp [taken, ChannelStep.offeredBy?, hk, ha]
  | _ => exact List.nil_sublist _

/-! ## Runs -/

lemma capacity_run (c : EventChannel) (steps : List ChannelStep) :
    (c.run steps).capacity = c.capacity := by
  induction steps generalizing c with
  | nil => rfl
  | cons s steps ih => rw [run_cons, ih, capacity_step]

/-- The receiver is there as long as no step removed it. -/
lemma receiving_run (c : EventChannel) (steps : List ChannelStep) :
    (c.run steps).receiving = true ↔ c.receiving = true ∧ .dropReceiver ∉ steps := by
  induction steps generalizing c with
  | nil => simp
  | cons s steps ih => rw [run_cons, ih, receiving_step, List.mem_cons, not_or, and_assoc, ne_comm]

/-- The queue never holds more than the capacity. -/
lemma size_run_le {c : EventChannel} (h : c.queue.size ≤ c.capacity) (steps : List ChannelStep) :
    (c.run steps).queue.size ≤ c.capacity := by
  induction steps generalizing c with
  | nil => exact h
  | cons s steps ih =>
    have hs : (c.step s).queue.size ≤ (c.step s).capacity := by
      rw [capacity_step]
      exact size_step_le h s
    rw [run_cons, ← capacity_step c s]
    exact ih hs

/-- **Conservation.**  What waited before a run, followed by what it accepted, is what it handed
out, followed by what waits after it. -/
lemma queue_append_accepted {c : EventChannel} (h : c.queue.size ≤ c.capacity)
    {steps : List ChannelStep} (halive : .dropReceiver ∉ steps) :
    c.queue.toList ++ (c.accepted steps).map Prod.snd =
      c.polled steps ++ (c.run steps).queue.toList := by
  induction steps generalizing c with
  | nil => simp [accepted, polled]
  | cons s steps ih =>
    obtain ⟨hs, hrest⟩ := not_or.mp (mt List.mem_cons.mpr halive)
    have hsize : (c.step s).queue.size ≤ (c.step s).capacity := by
      rw [capacity_step]
      exact size_step_le h s
    calc c.queue.toList ++ (c.accepted (s :: steps)).map Prod.snd
        = (c.queue.toList ++ (c.taken s).map Prod.snd)
            ++ ((c.step s).accepted steps).map Prod.snd := by
          simp [accepted]
      _ = c.batch s ++ ((c.step s).queue.toList
            ++ ((c.step s).accepted steps).map Prod.snd) := by
          rw [queue_append_taken h (Ne.symm hs), List.append_assoc]
      _ = c.batch s ++ ((c.step s).polled steps ++ ((c.step s).run steps).queue.toList) := by
          rw [ih hsize hrest]
      _ = c.polled (s :: steps) ++ (c.run (s :: steps)).queue.toList := by
          simp [polled]

/-- The count of publishes answered with true, modulo `2 ^ 64`. -/
lemma published_run (c : EventChannel) (steps : List ChannelStep) :
    (c.run steps).published = c.published + UInt64.ofNat (c.accepted steps).length := by
  induction steps generalizing c with
  | nil => simp [accepted]
  | cons s steps ih =>
    rw [run_cons, ih, published_step, accepted, accepted, history_cons, List.length_append,
      UInt64.ofNat_add, UInt64.add_assoc]

/-- The count of publishes answered with false, modulo `2 ^ 64`. -/
lemma dropped_run (c : EventChannel) (steps : List ChannelStep) :
    (c.run steps).dropped = c.dropped + UInt64.ofNat (c.refused steps).length := by
  induction steps generalizing c with
  | nil => simp [refused]
  | cons s steps ih =>
    rw [run_cons, ih, dropped_step, refused, refused, history_cons, List.length_append,
      UInt64.ofNat_add, UInt64.add_assoc]

/-- Each event offered in a run is either accepted or refused. -/
lemma length_accepted_add_length_refused (c : EventChannel) (steps : List ChannelStep) :
    (c.accepted steps).length + (c.refused steps).length =
      steps.countP ChannelStep.isPublish := by
  induction steps generalizing c with
  | nil => rfl
  | cons s steps ih =>
    have hstep : (c.taken s).length + (c.turnedAway s).length = if s.isPublish then 1 else 0 := by
      cases s with
      | publish k e =>
        cases ha : (c.publish e).1 <;> simp [taken, turnedAway, ChannelStep.isPublish, ha]
      | _ => rfl
    have hrest := ih (c.step s)
    simp only [accepted, refused, history_cons, List.length_append, List.countP_cons] at hrest ⊢
    omega

/-- The accepted events of a publisher are some of those it offered, in the order of its offers. -/
lemma accepted_sublist (c : EventChannel) (k : ℕ) (steps : List ChannelStep) :
    ((c.accepted steps).filter (·.1 = k)).map Prod.snd <+
      steps.filterMap (ChannelStep.offeredBy? k) := by
  induction steps generalizing c with
  | nil => exact List.nil_sublist _
  | cons s steps ih =>
    have hsplit : (s :: steps).filterMap (ChannelStep.offeredBy? k) =
        (s.offeredBy? k).toList ++ steps.filterMap (ChannelStep.offeredBy? k) := by
      cases hs : s.offeredBy? k <;> simp [hs]
    rw [accepted, history_cons, List.filter_append, List.map_append, hsplit]
    exact (taken_sublist c k s).append (ih (c.step s))

/-! ## The bounded queue -/

/-- What a fresh channel of a capacity promises after some steps: when it takes an event, that its
events come out as they went in, that a poll empties it, and what its two counts count. -/
structure IsDropNewestQueue (capacity : ℕ) (steps : List ChannelStep) (c : EventChannel) :
    Prop where
  /-- An event is taken exactly while the receiver is there and there is room. -/
  publish_iff : ∀ e, (c.publish e).1 = true ↔ .dropReceiver ∉ steps ∧ c.len < capacity
  len_le : c.len ≤ capacity
  /-- What was handed out, followed by what waits, is what was accepted. -/
  polled_append_queue : .dropReceiver ∉ steps →
    (bounded capacity).polled steps ++ c.queue.toList =
      ((bounded capacity).accepted steps).map Prod.snd
  /-- The events handed out are the first accepted ones, and those of each publisher come in the
  order in which it offered them. -/
  publisher_order : .dropReceiver ∉ steps →
    ∃ delivered : List (ℕ × Event), delivered <+: (bounded capacity).accepted steps ∧
      delivered.map Prod.snd = (bounded capacity).polled steps ∧
      ∀ k, (delivered.filter (·.1 = k)).map Prod.snd <+
        steps.filterMap (ChannelStep.offeredBy? k)
  /-- A poll takes the whole queue, leaves it empty and changes nothing else. -/
  poll_eq : c.poll = (c.queue.toList, { c with queue := #[] })
  length_poll_le : c.poll.1.length ≤ capacity
  published_eq : c.published = UInt64.ofNat ((bounded capacity).accepted steps).length
  dropped_eq : c.dropped = UInt64.ofNat ((bounded capacity).refused steps).length

/-- **A bounded queue that drops the newest.**  Whatever publishes, polls, clones and removals a
fresh channel of any capacity went through, it is a bounded first-in first-out queue that refuses
the newest event. -/
theorem isDropNewestQueue_run (capacity : ℕ) (steps : List ChannelStep) :
    IsDropNewestQueue capacity steps ((bounded capacity).run steps) := by
  have hempty : (bounded capacity).queue.size ≤ (bounded capacity).capacity := Nat.zero_le _
  have hcapacity : ((bounded capacity).run steps).capacity = capacity := capacity_run _ steps
  have hsize : ((bounded capacity).run steps).queue.size ≤ capacity := size_run_le hempty steps
  have hreceiving : ((bounded capacity).run steps).receiving = true ↔ .dropReceiver ∉ steps := by
    rw [receiving_run]
    exact and_iff_right rfl
  have hpoll := poll_of_size_le (hsize.trans_eq hcapacity.symm)
  have hqueue : .dropReceiver ∉ steps →
      (bounded capacity).polled steps ++ ((bounded capacity).run steps).queue.toList =
        ((bounded capacity).accepted steps).map Prod.snd := fun halive =>
    (queue_append_accepted hempty halive).symm
  refine ⟨fun e => ?_, hsize, hqueue, fun halive => ?_, hpoll, ?_, ?_, ?_⟩
  · rw [publish_fst, accepts_iff, hreceiving, hcapacity]
    rfl
  · -- The batches are as long as some first accepted events, and so they are those events.
    let n := ((bounded capacity).polled steps).length
    have hfirst :
        ((bounded capacity).accepted steps).take n <+: (bounded capacity).accepted steps :=
      List.take_prefix _ _
    refine ⟨_, hfirst, ?_, fun k => ?_⟩
    · rw [List.map_take, ← hqueue halive, List.take_left']
      rfl
    · have hsublist := (hfirst.sublist.filter (·.1 = k)).map Prod.snd
      exact hsublist.trans (accepted_sublist _ k steps)
  · rw [hpoll]
    exact hsize
  · rw [published_run]
    exact UInt64.zero_add _
  · rw [dropped_run]
    exact UInt64.zero_add _

end EventChannel

end NodeTelemetry
