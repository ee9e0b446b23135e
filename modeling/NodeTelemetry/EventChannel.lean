import NodeTelemetry.Event

/-!
# The event channel

Handlers publish events into a bounded channel from which the aggregator takes them in batches.
A full channel refuses the newest event, and so does a channel whose receiver is gone; refused
events are only counted.  The events wait in the order in which they were accepted.
-/

namespace NodeTelemetry

/-- A bounded queue of events with its publishers and its receiver. -/
structure EventChannel where
  capacity : Nat
  queue : Array Event
  publishers : Nat
  receiving : Bool
  published : UInt64
  dropped : UInt64
  deriving DecidableEq, Repr

namespace EventChannel

/-- An empty channel with one publisher and its receiver. -/
def bounded (capacity : Nat) : EventChannel := ⟨capacity, #[], 1, true, 0, 0⟩

/-- The channel accepts an event now. -/
def accepts (c : EventChannel) : Bool := c.receiving && c.queue.size < c.capacity

/-- Offers an event; the answer tells whether the channel took it. -/
def publish (c : EventChannel) (e : Event) : Bool × EventChannel :=
  if c.accepts then (true, { c with queue := c.queue.push e, published := c.published + 1 })
  else (false, { c with dropped := c.dropped + 1 })

/-- Takes the events that wait, in order: the first one, if there is one, and after it at most one
fewer than the channel can hold. -/
def poll (c : EventChannel) : List Event × EventChannel :=
  match c.queue.toList with
  | [] => ([], c)
  | first :: rest =>
    (first :: rest.take (c.capacity - 1),
      { c with queue := (rest.drop (c.capacity - 1)).toArray })

/-- Adds a publisher. -/
def clonePublisher (c : EventChannel) : EventChannel := { c with publishers := c.publishers + 1 }

/-- Removes all publishers.  What waits in the channel can still be taken. -/
def dropPublishers (c : EventChannel) : EventChannel := { c with publishers := 0 }

/-- Removes the receiver, and with it what waits in the channel. -/
def dropReceiver (c : EventChannel) : EventChannel := { c with receiving := false, queue := #[] }

/-- The number of events that wait. -/
def len (c : EventChannel) : Nat := c.queue.size

/-- No event waits. -/
def isEmpty (c : EventChannel) : Bool := c.queue.isEmpty

/-- Offers a list of events one after another; the answer is the number of those taken. -/
def publishAll (c : EventChannel) : List Event → Nat × EventChannel
  | [] => (0, c)
  | e :: rest =>
    let (taken, c') := c.publish e
    let (n, c'') := c'.publishAll rest
    ((if taken then 1 else 0) + n, c'')

theorem publish_of_accepts {c : EventChannel} (h : c.accepts = true) (e : Event) :
    c.publish e = (true, { c with queue := c.queue.push e, published := c.published + 1 }) := by
  simp [publish, h]

theorem publish_of_not_accepts {c : EventChannel} (h : c.accepts = false) (e : Event) :
    c.publish e = (false, { c with dropped := c.dropped + 1 }) := by
  simp [publish, h]

/-- A channel that holds no more than its capacity is emptied by one poll. -/
theorem poll_of_size_le {c : EventChannel} (h : c.queue.size ≤ c.capacity) :
    c.poll = (c.queue.toList, { c with queue := #[] }) := by
  obtain ⟨capacity, ⟨queue⟩, publishers, receiving, published, dropped⟩ := c
  cases queue with
  | nil => rfl
  | cons first rest =>
    have hrest : rest.length ≤ capacity - 1 := by
      simp only [List.size_toArray, List.length_cons] at h
      omega
    simp only [poll, List.take_of_length_le hrest, List.drop_of_length_le hrest]

end EventChannel

end NodeTelemetry
