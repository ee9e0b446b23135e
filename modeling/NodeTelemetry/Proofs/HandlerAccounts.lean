import Mathlib
import NodeTelemetry.Proofs.HandlerUpdates
import NodeTelemetry.Proofs.SampleEstimates
import NodeTelemetry.Proofs.TickLoop

/-!
# The tables of the handlers agree with each other

A handler changes several tables, and each of the changes can be lost on its own: the node, the
reason or the wakeup may be unknown.  The tables still agree: a histogram holds as many samples as
its node counts round trips, its buckets enclose the sum of the round trips, and the drops by reason
and the drops by node count the same calls.  Each number is a total over the calls, and the totals
are compared.  The sum of a table is the number of its keys in range (`SlotTable.sum_add_countP`),
and the sum of a histogram is a sum over the samples behind it (`sum_mul_countP_bucketOf`).
-/

namespace NodeTelemetry

open TableUpdate

/-! ## What calls record -/

/-- The values listed under a key, in their order. -/
def valuesAt {β : Type} (key : UInt32) (l : List (UInt32 × β)) : List β :=
  (l.filter (·.1 = key)).map Prod.snd

lemma valuesAt_map {β γ : Type} (key : UInt32) (l : List (UInt32 × β)) (f : β → γ) :
    valuesAt key (l.map fun r => (r.1, f r.2)) = (valuesAt key l).map f := by
  simp only [valuesAt, List.filter_map, List.map_map]
  rfl

/-- There are as many values under a key as the key is listed. -/
lemma length_valuesAt {β : Type} (key : UInt32) (l : List (UInt32 × β)) :
    (valuesAt key l).length = (l.map Prod.fst).count key := by
  rw [valuesAt, List.length_map, ← List.countP_eq_length_filter, List.count, List.countP_map]
  rfl

lemma length_valuesAt_le {β : Type} (key : UInt32) (l : List (UInt32 × β)) :
    (valuesAt key l).length ≤ l.length := by
  rw [valuesAt, List.length_map]
  exact List.length_filter_le _ _

namespace TableUpdate

/-- The node and the amount, if an update adds to the given counter. -/
def amount? (field : CounterField) : TableUpdate → Option (UInt32 × UInt64)
  | .increment node f delta => if f = field then some (node, delta) else none
  | _ => none

/-- The node and the value, if an update adds a sample to a histogram. -/
def observed? : TableUpdate → Option (UInt32 × UInt64)
  | .observe node value => some (node, value)
  | _ => none

/-- What is added to a counter of a node is what is added to that counter under the node. -/
lemma filterMap_delta? (node : UInt32) (field : CounterField) (us : List TableUpdate) :
    us.filterMap (delta? node field) = valuesAt node (us.filterMap (amount? field)) := by
  rw [valuesAt, List.filter_filterMap, List.map_filterMap]
  refine List.filterMap_congr fun u _ => ?_
  cases u with
  | increment n f delta => by_cases hn : n = node <;> by_cases hf : f = field <;>
      simp [delta?, amount?, hn, hf, Option.filter]
  | _ => rfl

/-- The samples of a node are what is observed under the node. -/
lemma filterMap_sample? (node : UInt32) (us : List TableUpdate) :
    us.filterMap (sample? node) = valuesAt node (us.filterMap observed?) := by
  rw [valuesAt, List.filter_filterMap, List.map_filterMap]
  refine List.filterMap_congr fun u _ => ?_
  cases u with
  | observe n value => by_cases hn : n = node <;> simp [sample?, observed?, hn, Option.filter]
  | _ => rfl

/-- The histograms used are those with samples. -/
lemma filterMap_histogramKey? (us : List TableUpdate) :
    us.filterMap histogramKey? = (us.filterMap observed?).map Prod.fst := by
  rw [List.map_filterMap]
  refine List.filterMap_congr fun u _ => ?_
  cases u <;> rfl

/-- A reason is recorded as often as it is used. -/
lemma count_recordDrop (reason : UInt32) (us : List TableUpdate) :
    us.count (.recordDrop reason) = (us.filterMap reasonKey?).count reason := by
  rw [List.count, List.count, List.countP_filterMap]
  refine List.countP_congr fun u _ => ?_
  cases u <;> simp [reasonKey?, reasonChange?]

end TableUpdate

namespace ProbeCall

/-- The node and the milliseconds, if a call records a round trip. -/
def roundTrip? (c : ProbeCall) : Option (UInt32 × UInt64) :=
  match c.callback with
  | .roundTrip millis => some (c.node, millis)
  | .ack srtt => some (c.node, srttToMillis srtt)
  | _ => none

/-- The node and the reason, if a call records a packet drop. -/
def packetDrop? (c : ProbeCall) : Option (UInt32 × UInt32) :=
  match c.callback with
  | .packetDrop reason => some (c.node, reason)
  | _ => none

end ProbeCall

namespace Tables

section Calls

variable (t : Tables) (calls : List ProbeCall)

/-- The samples of the histograms are the round trips. -/
lemma filterMap_observed?_callUpdates :
    (t.callUpdates calls).filterMap observed? = calls.filterMap ProbeCall.roundTrip? := by
  refine filterMap_callUpdates (fun c woken => ?_) t calls
  obtain ⟨callback, node, now⟩ := c
  cases callback <;> cases woken <;> rfl

/-- The sums of round trips get the milliseconds of the round trips. -/
lemma filterMap_rttSum_callUpdates :
    (t.callUpdates calls).filterMap (amount? .rttSum) = calls.filterMap ProbeCall.roundTrip? := by
  refine filterMap_callUpdates (fun c woken => ?_) t calls
  obtain ⟨callback, node, now⟩ := c
  cases callback <;> cases woken <;> rfl

/-- The counts of round trips get one for each round trip. -/
lemma filterMap_rttCount_callUpdates :
    (t.callUpdates calls).filterMap (amount? .rttCount) =
      (calls.filterMap ProbeCall.roundTrip?).map fun r => (r.1, 1) := by
  rw [List.map_filterMap]
  refine filterMap_callUpdates (fun c woken => ?_) t calls
  obtain ⟨callback, node, now⟩ := c
  cases callback <;> cases woken <;> rfl

/-- The counts of drops get one for each packet drop. -/
lemma filterMap_dropCount_callUpdates :
    (t.callUpdates calls).filterMap (amount? .dropCount) =
      (calls.filterMap ProbeCall.packetDrop?).map fun d => (d.1, 1) := by
  rw [List.map_filterMap]
  refine filterMap_callUpdates (fun c woken => ?_) t calls
  obtain ⟨callback, node, now⟩ := c
  cases callback <;> cases woken <;> rfl

/-- The drop reasons are those of the packet drops. -/
lemma filterMap_reasonKey?_callUpdates :
    (t.callUpdates calls).filterMap reasonKey? =
      (calls.filterMap ProbeCall.packetDrop?).map Prod.snd := by
  rw [List.map_filterMap]
  refine filterMap_callUpdates (fun c woken => ?_) t calls
  obtain ⟨callback, node, now⟩ := c
  cases callback <;> cases woken <;> rfl

end Calls

end Tables

/-! ## Sums over the records of a table -/

/-- If the records of a table count how often their keys occur in a list, up to a modulus, they
count all of it but the keys outside the table. -/
lemma SlotTable.sum_add_countP_modEq {α : Type} {t : SlotTable α} {capacity m : ℕ}
    {number : α → ℕ} {l : List UInt32}
    (hnumber : ∀ key r, t.get? key = some r → number r ≡ l.count key [MOD m])
    (hinside : ∀ key, (t.get? key).isSome → key.toNat < capacity)
    (hused : ∀ key ∈ l, key.toNat < capacity → (t.get? key).isSome) :
    (t.slots.entries.map fun e => number e.2).sum + l.countP (capacity ≤ ·.toNat) ≡
      l.length [MOD m] := by
  have hcounts : (t.slots.entries.map fun e => number e.2).sum ≡
      (t.slots.keys.map fun key => l.count key).sum [MOD m] := by
    rw [Nat.ModEq, List.sum_nat_mod, List.sum_nat_mod (t.slots.keys.map _), KeyMap.keys,
      List.map_map, List.map_map, List.map_map]
    refine congrArg (fun residues : List ℕ => residues.sum % m) (List.map_congr_left fun e he => ?_)
    exact hnumber e.1 e.2 (KeyMap.get?_of_mem_entries he)
  have hkeys : l.countP (· ∈ t.slots.keys) = l.countP (·.toNat < capacity) := by
    refine List.countP_congr fun key hkey => ?_
    rw [decide_eq_true_iff, decide_eq_true_iff, KeyMap.mem_keys]
    exact ⟨hinside key, hused key hkey⟩
  rw [sum_count_of_nodup (t.slots.pairwise_keys.imp UInt32.ne_of_lt), hkeys] at hcounts
  rw [List.length_eq_countP_add_countP fun key : UInt32 => key.toNat < capacity]
  simpa using hcounts.add_right (l.countP (capacity ≤ ·.toNat))

/-- If the records of a table count how often their keys occur in a list, they count all of it but
the keys outside the table. -/
lemma SlotTable.sum_add_countP {α : Type} {t : SlotTable α} {capacity : ℕ} {number : α → ℕ}
    {l : List UInt32} (hnumber : ∀ key r, t.get? key = some r → number r = l.count key)
    (hinside : ∀ key, (t.get? key).isSome → key.toNat < capacity)
    (hused : ∀ key ∈ l, key.toNat < capacity → (t.get? key).isSome) :
    (t.slots.entries.map fun e => number e.2).sum + l.countP (capacity ≤ ·.toNat) =
      l.length :=
  Nat.modEq_zero_iff.mp (sum_add_countP_modEq
    (fun key r hr => Nat.modEq_zero_iff.mpr (hnumber key r hr)) hinside hused)

/-! ## Sums over the buckets of a histogram -/

/-- A weighted sum of the buckets is the sum of the weights of the samples. -/
lemma sum_mul_countP_bucketOf (weight : Fin 64 → ℕ) (samples : List UInt64) :
    ∑ i, weight i * samples.countP (bucketOf · = i) =
      (samples.map fun v => weight (bucketOf v)).sum := by
  induction samples with
  | nil => simp
  | cons v samples ih =>
    simp only [List.countP_cons, Nat.mul_add, Finset.sum_add_distrib, ih, List.map_cons,
      List.sum_cons]
    simp [Nat.add_comm]

/-- A sample is at least the least number of its bucket, if that is not the first one. -/
lemma bucket_floor_le (v : UInt64) :
    (if 0 < bucketOf v then 2 ^ (bucketOf v).val else 0) ≤ v.toNat := by
  split
  · next hpos =>
    have hne : (bucketOf v).val ≠ 0 := (Fin.lt_def.mp hpos).ne'
    rw [val_bucketOf] at hne ⊢
    have hmax : max v.toNat 1 = v.toNat := by
      refine max_eq_left (Nat.one_le_iff_ne_zero.mpr fun hzero => hne ?_)
      rw [hzero]
      rfl
    rw [hmax] at hne ⊢
    refine Nat.log2_self_le fun hzero => hne ?_
    rw [hzero, Nat.log2_zero]
  · exact Nat.zero_le _

/-- A sample is below the least number of the next bucket. -/
lemma le_bucket_ceiling (v : UInt64) : v.toNat ≤ 2 ^ ((bucketOf v).val + 1) - 1 := by
  have hlt : max v.toNat 1 < 2 ^ ((max v.toNat 1).log2 + 1) := Nat.lt_log2_self
  rw [val_bucketOf]
  omega

/-- The least numbers of the buckets of some samples, the first bucket apart, add up to no more than
the samples. -/
lemma sum_bucket_floor_le (samples : List UInt64) :
    ∑ i with 0 < i, 2 ^ i.val * samples.countP (bucketOf · = i) ≤
      (samples.map UInt64.toNat).sum := by
  calc ∑ i with 0 < i, 2 ^ i.val * samples.countP (bucketOf · = i)
      = ∑ i, (if 0 < i then 2 ^ i.val else 0) * samples.countP (bucketOf · = i) := by
        rw [Finset.sum_filter]
        refine Finset.sum_congr rfl fun i _ => ?_
        rw [ite_mul, Nat.zero_mul]
    _ = (samples.map fun v => if 0 < bucketOf v then 2 ^ (bucketOf v).val else 0).sum :=
        sum_mul_countP_bucketOf (fun i => if 0 < i then 2 ^ i.val else 0) samples
    _ ≤ (samples.map UInt64.toNat).sum := List.sum_le_sum fun v _ => bucket_floor_le v

/-- The greatest numbers of the buckets of some samples add up to no less than the samples. -/
lemma sum_le_bucket_ceiling (samples : List UInt64) :
    (samples.map UInt64.toNat).sum ≤
      ∑ i : Fin 64, (2 ^ (i.val + 1) - 1) * samples.countP (bucketOf · = i) := by
  rw [sum_mul_countP_bucketOf fun i => 2 ^ (i.val + 1) - 1]
  exact List.sum_le_sum fun v _ => le_bucket_ceiling v

namespace Tables

/-- The counters of a node, zero without a record. -/
def countersOf (t : Tables) (node : UInt32) : NodeCounters := (t.counters.get? node).getD .zero

/-- The histogram of a node, empty without a record. -/
def histogramOf (t : Tables) (node : UInt32) : Histogram :=
  (t.histograms.get? node).getD .empty

/-- What ties the tables of the handlers together after a list of calls. -/
structure HandlerAccounts (maxNodes : ℕ) (calls : List ProbeCall) (t : Tables) : Prop where
  /-- A node with a histogram has counters. -/
  counters_of_histogram : ∀ node, (t.histograms.get? node).isSome → (t.counters.get? node).isSome
  /-- A tick skips no node. -/
  tick_nodes : ∀ (a : Aggregator) (now : Instant) (kernelText : Option (List Char)),
    (a.tick t now kernelText).1.map Snapshot.nodeId = t.trackedNodes
  /-- The buckets of a node add up to its round trips. -/
  buckets : ∀ node, node.toNat < maxNodes →
    ∑ i, ((t.histogramOf node).buckets.get i).toNat = (t.countersOf node).rttCount.toNat
  /-- Unless it wraps, the sum of the round trips is what its name says, and lies between the sums
  of the least and of the greatest numbers of their buckets. -/
  rttSum : ∀ node, node.toNat < maxNodes →
    ((valuesAt node (calls.filterMap ProbeCall.roundTrip?)).map UInt64.toNat).sum < UInt64.size →
    (t.countersOf node).rttSum.toNat =
        ((valuesAt node (calls.filterMap ProbeCall.roundTrip?)).map UInt64.toNat).sum ∧
      ∑ i with 0 < i, 2 ^ i.val * ((t.histogramOf node).buckets.get i).toNat ≤
        (t.countersOf node).rttSum.toNat ∧
      (t.countersOf node).rttSum.toNat ≤
        ∑ i, (2 ^ (i.val + 1) - 1) * ((t.histogramOf node).buckets.get i).toNat
  /-- The drops by reason, with those of an unknown reason, are the packet drops. -/
  drops_by_reason :
    (t.dropReasons.counts.map fun e => e.2.toNat).sum + t.dropReasons.rejected.toNat =
      (calls.filterMap ProbeCall.packetDrop?).length
  /-- The drops by node, with those of an unknown node, are the packet drops. -/
  drops_by_node : (t.counters.slots.entries.map fun e => e.2.dropCount.toNat).sum +
      (calls.filterMap ProbeCall.packetDrop?).countP (maxNodes ≤ ·.1.toNat) =
    (calls.filterMap ProbeCall.packetDrop?).length
  /-- The histograms turn away the round trips of unknown nodes. -/
  histograms_rejected : t.histograms.rejected.toNat =
    (calls.filterMap ProbeCall.roundTrip?).countP (maxNodes ≤ ·.1.toNat)

/-- A tick over tables in which each node with a histogram has counters skips no node. -/
lemma map_nodeId_tick {t : Tables}
    (h : ∀ node, (t.histograms.get? node).isSome → (t.counters.get? node).isSome) (a : Aggregator)
    (now : Instant) (kernelText : Option (List Char)) :
    (a.tick t now kernelText).1.map Snapshot.nodeId = t.trackedNodes := by
  refine (Aggregator.map_nodeId_snapshots _ _ _ _ _ _).trans ?_
  refine List.filter_eq_self.mpr fun node hnode => ?_
  rcases KeyMap.mem_unionKeys.mp hnode with hcounters | hhistogram
  · exact hcounters
  · exact h node hhistogram

namespace Totals

variable {maxNodes maxDropReasons : ℕ} {s u : Tables} {calls : List ProbeCall} {node : UInt32}

/-- A bucket of a node in range counts its round trips in the bucket. -/
lemma toNat_bucket_of_calls (h : Totals maxNodes maxDropReasons (s.callUpdates calls) u)
    (hfew : (calls.filterMap ProbeCall.roundTrip?).length < UInt64.size)
    (hnode : node.toNat < maxNodes) (i : Fin 64) :
    ((u.histogramOf node).buckets.get i).toNat =
      (valuesAt node (calls.filterMap ProbeCall.roundTrip?)).countP (bucketOf · = i) := by
  have hbucket := h.toNat_bucket_getD hnode i
  rw [filterMap_sample?, filterMap_observed?_callUpdates] at hbucket
  refine hbucket.trans (Nat.mod_eq_of_lt (lt_of_le_of_lt ?_ hfew))
  calc (valuesAt node (calls.filterMap ProbeCall.roundTrip?)).countP (bucketOf · = i)
      ≤ (valuesAt node (calls.filterMap ProbeCall.roundTrip?)).length := List.countP_le_length
    _ ≤ (calls.filterMap ProbeCall.roundTrip?).length := length_valuesAt_le _ _

/-- A counter of a node in range is the sum of what the calls add to it. -/
lemma toNat_get_of_calls (h : Totals maxNodes maxDropReasons (s.callUpdates calls) u)
    (hnode : node.toNat < maxNodes) (field : CounterField) :
    ((u.countersOf node).get field).toNat =
      ((valuesAt node ((s.callUpdates calls).filterMap (amount? field))).map
        UInt64.toNat).sum % UInt64.size := by
  rw [countersOf, h.toNat_get_getD hnode, filterMap_delta?]

/-- The round trips counted on a node in range are those of the calls. -/
lemma toNat_rttCount_of_calls (h : Totals maxNodes maxDropReasons (s.callUpdates calls) u)
    (hfew : (calls.filterMap ProbeCall.roundTrip?).length < UInt64.size)
    (hnode : node.toNat < maxNodes) :
    (u.countersOf node).rttCount.toNat =
      (valuesAt node (calls.filterMap ProbeCall.roundTrip?)).length := by
  have hcount := h.toNat_get_of_calls hnode .rttCount
  rw [filterMap_rttCount_callUpdates, valuesAt_map node _ fun _ => 1] at hcount
  have hlt : (valuesAt node (calls.filterMap ProbeCall.roundTrip?)).length < UInt64.size :=
    (length_valuesAt_le _ _).trans_lt hfew
  refine hcount.trans ?_
  simpa using Nat.mod_eq_of_lt hlt

/-- The drops counted on a node in range are those of the calls. -/
lemma toNat_dropCount_of_calls (h : Totals maxNodes maxDropReasons (s.callUpdates calls) u)
    (hfew : (calls.filterMap ProbeCall.packetDrop?).length < UInt64.size)
    (hnode : node.toNat < maxNodes) :
    (u.countersOf node).dropCount.toNat =
      ((calls.filterMap ProbeCall.packetDrop?).map Prod.fst).count node := by
  have hcount := h.toNat_get_of_calls hnode .dropCount
  rw [filterMap_dropCount_callUpdates, valuesAt_map node _ fun _ => 1] at hcount
  have hlt : (valuesAt node (calls.filterMap ProbeCall.packetDrop?)).length < UInt64.size :=
    (length_valuesAt_le _ _).trans_lt hfew
  rw [← length_valuesAt]
  refine hcount.trans ?_
  simpa using Nat.mod_eq_of_lt hlt

/-- A node with a histogram has counters, since a round trip is added to both. -/
lemma counters_of_histogram_of_calls (h : Totals maxNodes maxDropReasons (s.callUpdates calls) u)
    (hsome : (u.histograms.get? node).isSome) : (u.counters.get? node).isSome := by
  obtain ⟨hnode, hkey⟩ := (h.histograms_isSome node).mp hsome
  have hadded : (s.callUpdates calls).filterMap (delta? node .rttSum) ≠ [] := by
    rw [filterMap_delta?, filterMap_rttSum_callUpdates, ← filterMap_observed?_callUpdates s,
      ← filterMap_sample?]
    exact mem_map_histogramKey?_iff.mp hkey
  exact (h.counters_isSome node).mpr ⟨hnode, mem_map_counterKey? hadded⟩

/-- The drops by node, with those of an unknown node, are the packet drops. -/
lemma drops_by_node_of_calls (h : Totals maxNodes maxDropReasons (s.callUpdates calls) u)
    (hfew : (calls.filterMap ProbeCall.packetDrop?).length < UInt64.size) :
    (u.counters.slots.entries.map fun e => e.2.dropCount.toNat).sum +
        (calls.filterMap ProbeCall.packetDrop?).countP (maxNodes ≤ ·.1.toNat) =
      (calls.filterMap ProbeCall.packetDrop?).length := by
  let nodes := (calls.filterMap ProbeCall.packetDrop?).map Prod.fst
  have hinside : ∀ key, (u.counters.get? key).isSome → key.toNat < maxNodes := fun key hkey =>
    ((h.counters_isSome key).mp hkey).1
  have hnumber : ∀ key c, u.counters.get? key = some c → c.dropCount.toNat = nodes.count key := by
    intro key c hc
    have hcount := h.toNat_dropCount_of_calls hfew (hinside key (by rw [hc]; rfl))
    rwa [countersOf, hc] at hcount
  have hused : ∀ key ∈ nodes, key.toNat < maxNodes → (u.counters.get? key).isSome := by
    intro key hkey hlt
    have hadded : (s.callUpdates calls).filterMap (delta? key .dropCount) ≠ [] := by
      rw [filterMap_delta?, filterMap_dropCount_callUpdates, ← List.length_pos_iff,
        length_valuesAt, List.map_map]
      exact List.count_pos_iff.mpr hkey
    exact (h.counters_isSome key).mpr ⟨hlt, mem_map_counterKey? hadded⟩
  have hsum := SlotTable.sum_add_countP hnumber hinside hused
  rwa [List.countP_map, List.length_map] at hsum

/-- The drops by reason, with those of an unknown reason, are the packet drops. -/
lemma drops_by_reason_of_calls (h : Totals maxNodes maxDropReasons (s.callUpdates calls) u)
    (hfew : (calls.filterMap ProbeCall.packetDrop?).length < UInt64.size) :
    (u.dropReasons.counts.map fun e => e.2.toNat).sum + u.dropReasons.rejected.toNat =
      (calls.filterMap ProbeCall.packetDrop?).length := by
  let reasons := (calls.filterMap ProbeCall.packetDrop?).map Prod.snd
  have hreasons : (s.callUpdates calls).filterMap reasonKey? = reasons :=
    filterMap_reasonKey?_callUpdates s calls
  have hlength : reasons.length < UInt64.size := by
    rwa [List.length_map]
  have hrejected : u.dropReasons.rejected.toNat = reasons.countP (maxDropReasons ≤ ·.toNat) := by
    rw [h.reasons_rejected, hreasons]
    exact Nat.mod_eq_of_lt (List.countP_le_length.trans_lt hlength)
  have hnumber : ∀ key n, u.dropReasons.get? key = some n → n.toNat = reasons.count key := by
    intro key n hn
    rw [h.reason key n hn, count_recordDrop, hreasons]
    exact Nat.mod_eq_of_lt (List.count_le_length.trans_lt hlength)
  have hinside : ∀ key, (u.dropReasons.get? key).isSome → key.toNat < maxDropReasons :=
    fun key hkey => ((h.reasons_isSome key).mp hkey).1
  have hused : ∀ key ∈ reasons, key.toNat < maxDropReasons → (u.dropReasons.get? key).isSome := by
    intro key hkey hlt
    rw [← hreasons] at hkey
    exact (h.reasons_isSome key).mpr ⟨hlt, List.mem_map.mpr (List.mem_filterMap.mp hkey)⟩
  have hsum := SlotTable.sum_add_countP hnumber hinside hused
  rw [hrejected]
  exact hsum.trans (List.length_map _)

/-- The histograms turn away the round trips of unknown nodes. -/
lemma histograms_rejected_of_calls (h : Totals maxNodes maxDropReasons (s.callUpdates calls) u)
    (hfew : (calls.filterMap ProbeCall.roundTrip?).length < UInt64.size) :
    u.histograms.rejected.toNat =
      (calls.filterMap ProbeCall.roundTrip?).countP (maxNodes ≤ ·.1.toNat) := by
  rw [h.histograms_rejected, filterMap_histogramKey?, filterMap_observed?_callUpdates,
    List.countP_map]
  exact Nat.mod_eq_of_lt (List.countP_le_length.trans_lt hfew)

end Totals

/-- Tables with the totals of some calls satisfy the accounts of the calls. -/
lemma handlerAccounts_of_totals {maxNodes maxDropReasons : ℕ} {s t u : Tables}
    {calls : List ProbeCall} (h : Totals maxNodes maxDropReasons (s.callUpdates calls) u)
    (hsame : t.SameRecords u) (hfew : calls.length < UInt64.size) :
    HandlerAccounts maxNodes calls t := by
  have hcounters : ∀ node, t.countersOf node = u.countersOf node := fun node => by
    rw [countersOf, countersOf, hsame.get?_counters]
  have hhistogram : ∀ node, t.histogramOf node = u.histogramOf node := fun node => by
    rw [histogramOf, histogramOf, hsame.histograms]
  have htogether : ∀ node, (t.histograms.get? node).isSome → (t.counters.get? node).isSome := by
    intro node
    rw [hsame.histograms, hsame.get?_counters]
    exact h.counters_of_histogram_of_calls
  have hfewTrips : (calls.filterMap ProbeCall.roundTrip?).length < UInt64.size :=
    (List.length_filterMap_le _ _).trans_lt hfew
  have hfewDrops : (calls.filterMap ProbeCall.packetDrop?).length < UInt64.size :=
    (List.length_filterMap_le _ _).trans_lt hfew
  refine ⟨htogether, map_nodeId_tick htogether, fun node hnode => ?_, fun node hnode hfits => ?_,
    ?_, ?_, ?_⟩
  · have hbuckets := sum_mul_countP_bucketOf (fun _ => 1)
      (valuesAt node (calls.filterMap ProbeCall.roundTrip?))
    rw [hcounters, hhistogram, h.toNat_rttCount_of_calls hfewTrips hnode]
    simp only [h.toNat_bucket_of_calls hfewTrips hnode]
    simpa using hbuckets
  · have hsum := h.toNat_get_of_calls hnode .rttSum
    rw [filterMap_rttSum_callUpdates, Nat.mod_eq_of_lt hfits] at hsum
    rw [hcounters, hhistogram]
    simp only [h.toNat_bucket_of_calls hfewTrips hnode]
    refine ⟨hsum, ?_, ?_⟩
    · exact (sum_bucket_floor_le _).trans_eq hsum.symm
    · exact hsum.trans_le (sum_le_bucket_ceiling _)
  · rw [hsame.dropReasons]
    exact h.drops_by_reason_of_calls hfewDrops
  · rw [hsame.slots]
    exact h.drops_by_node_of_calls hfewDrops
  · rw [hsame.histograms]
    exact h.histograms_rejected_of_calls hfewTrips

end Tables

/-- **The tables agree.**  Whatever the capacities, the policy and the channel, fewer than `2 ^ 64`
handler calls leave tables that account for each other. -/
theorem Pipeline.handlerAccounts_of_calls (maxNodes maxDropReasons maxInflight : UInt64)
    (channelCapacity : ℕ) (policy : SamplingPolicy) (words : List UInt32) (host : String)
    (cpu : CpuSource) (calls : List ProbeCall) (hfew : calls.length < UInt64.size) :
    let fresh := Tables.ofCapacities maxNodes maxDropReasons maxInflight
    let p := initial fresh channelCapacity policy words host cpu
    (p.actAll (calls.map .call)).tables.HandlerAccounts maxNodes.toNat calls := by
  intro fresh p
  rw [tables_actAll_calls]
  have htotals :=
    Tables.totals_applyAll maxNodes maxDropReasons maxInflight (fresh.callUpdates calls)
  have hsame := Tables.sameRecords_callAll (.refl fresh) calls
  exact Tables.handlerAccounts_of_totals htotals hsame hfew

/-- Seven calls, of which some come from an unknown node, give an unknown reason, or switch to a
process that nobody woke. -/
theorem Pipeline.handlerAccounts_of_seven_calls :
    let calls : List ProbeCall := [⟨.roundTrip 5, 0, 1⟩, ⟨.ack 0xfa00, 7, 2⟩, ⟨.packetDrop 0, 1, 3⟩,
      ⟨.packetDrop 9, 9, 4⟩, ⟨.wakeup 1, 0, 5⟩, ⟨.switch 1, 1, 6⟩, ⟨.switch 2, 0, 7⟩]
    let p := initial (.ofCapacities 2 1 1) 0 .unsampled [] "web" .unread
    calls.length < UInt64.size ∧ (p.actAll (calls.map .call)).tables.HandlerAccounts 2 calls ∧
      (p.actAll (calls.map .call)).tables.trackedNodes = [0, 1] ∧
      (calls.filterMap ProbeCall.packetDrop?).length = 2 ∧
      (p.actAll (calls.map .call)).tables.histograms.rejected = 1 :=
  ⟨by decide, handlerAccounts_of_calls 2 1 1 0 .unsampled [] "web" .unread _ (by decide),
    by decide, by decide, by decide⟩

end NodeTelemetry
