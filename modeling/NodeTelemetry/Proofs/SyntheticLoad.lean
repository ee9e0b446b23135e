import Mathlib
import NodeTelemetry.Proofs.EventAccounting
import NodeTelemetry.Proofs.InterleavedProducers

/-!
# Producers account for their draws

Every switch of interleaved producers finds its wakeup, so that every draw is reported once
(`Tables.length_reports_of_switches`) and counted under its kind
(`Tables.counts_of_interleaving`).  The histogram and the drop reasons hold the round trips and the
packet drops of the draws, whose values are bounded by what is drawn.
-/

namespace NodeTelemetry

/-! ## What the producers report -/

/-- Calls whose switches all find a wakeup report an event each, except the wakeups. -/
lemma Tables.length_reports_of_switches {t : Tables} {calls : List ProbeCall}
    (h : ∀ m ∈ t.moments calls, ∀ pid, m.2.callback = .switch pid →
      (m.1.wakeups.pending.get? pid).isSome) :
    (t.reports calls).length = calls.countP (!·.callback.isWakeup) := by
  induction calls generalizing t with
  | nil => rfl
  | cons c calls ih =>
    obtain ⟨hfirst, hrest⟩ := List.forall_mem_cons.mp h
    have hevent : (c.run t).2.toList.length = if !c.callback.isWakeup then 1 else 0 := by
      obtain ⟨callback, node, now⟩ := c
      cases callback with
      | switch pid =>
        obtain ⟨time, htime⟩ := Option.isSome_iff_exists.mp (hfirst pid rfl)
        simp [ProbeCall.run, WakeupTable.take_of_get?_eq_some htime, Callback.isWakeup]
      | _ => rfl
    rw [reports_cons, List.length_append, hevent, ih hrest, List.countP_cons, Nat.add_comm]

/-- An offered event is published or dropped. -/
lemma EventChannel.published_add_dropped_publish_le (c : EventChannel) (e : Event) :
    (c.publish e).2.published.toNat + (c.publish e).2.dropped.toNat ≤
      c.published.toNat + c.dropped.toNat + 1 := by
  have hone : ∀ x : UInt64, (x + 1).toNat ≤ x.toNat + 1 := fun x => by
    rw [UInt64.toNat_add]
    exact Nat.mod_le _ _
  have hpublished := hone c.published
  have hdropped := hone c.dropped
  unfold publish
  split
  · simp only
    omega
  · simp only
    omega

/-- Each reported event is published, dropped, or not sampled. -/
lemma Pipeline.published_add_dropped_le (p : Pipeline) (calls : List ProbeCall) :
    (p.actAll (calls.map .call)).channel.published.toNat +
        (p.actAll (calls.map .call)).channel.dropped.toNat ≤
      p.channel.published.toNat + p.channel.dropped.toNat + (p.tables.reports calls).length := by
  induction calls generalizing p with
  | nil => simp [actAll, Tables.reports, Tables.moments]
  | cons c calls ih =>
    have hstep : (p.call c).channel.published.toNat + (p.call c).channel.dropped.toNat ≤
        p.channel.published.toNat + p.channel.dropped.toNat + (c.run p.tables).2.toList.length := by
      have hchannel := p.channel_step (.act (.call c))
      simp only [channelStep?, offered?] at hchannel
      rw [show (p.call c).channel = _ from hchannel]
      cases (c.run p.tables).2 with
      | none => exact Nat.le_refl _
      | some e =>
        rw [Option.filter_some]
        split
        · exact EventChannel.published_add_dropped_publish_le p.channel e
        · exact Nat.le_add_right _ _
    have hrest := ih (p.call c)
    rw [tables_call] at hrest
    rw [Tables.reports_cons, List.length_append]
    exact hrest.trans (by omega)

/-! ## Round trips and packet drops of draws -/

namespace SyntheticDraw

variable {producer : UInt32} {d : SyntheticDraw}

/-- Round trips are drawn up to 200 milliseconds. -/
lemma toNat_millis_le {millis : UInt64} (h : Callback.roundTrip millis ∈ d.callbacks producer) :
    millis.toNat ≤ 200 := by
  cases d with
  | roundTrip n =>
    cases List.mem_singleton.mp h
    have hn := n.isLt
    simp only [UInt64.toNat_ofNat']
    omega
  | _ => simp [callbacks] at h

/-- Drop reasons are drawn below 8. -/
lemma toNat_reason_lt {reason : UInt32} (h : Callback.packetDrop reason ∈ d.callbacks producer) :
    reason.toNat < 8 := by
  cases d with
  | packetDrop r =>
    cases List.mem_singleton.mp h
    have hr := r.isLt
    simp only [UInt32.toNat_ofNat']
    omega
  | _ => simp [callbacks] at h

/-- Nothing is drawn with a smoothed round-trip time. -/
lemma ack_notMem {srtt : UInt32} : Callback.ack srtt ∉ d.callbacks producer := by
  cases d <;> simp [callbacks]

end SyntheticDraw

section Draws

variable {n : ℕ} {node : UInt32} {draws : Fin n → List SyntheticDraw}
  {trace : List (Fin n × ProbeCall)}

/-- The round trips of the producers are on their node and last 200 milliseconds at most. -/
lemma IsInterleaving.of_mem_roundTrips (h : IsInterleaving node draws trace)
    {r : UInt32 × UInt64} (hr : r ∈ (trace.map Prod.snd).filterMap ProbeCall.roundTrip?) :
    r.1 = node ∧ r.2.toNat ≤ 200 := by
  obtain ⟨c, hc, hroundTrip⟩ := List.mem_filterMap.mp hr
  obtain ⟨e, he, rfl⟩ := List.mem_map.mp hc
  obtain ⟨hnode, d, hd⟩ := h.exists_draw he
  unfold ProbeCall.roundTrip? at hroundTrip
  split at hroundTrip
  · next millis hcallback =>
    cases hroundTrip
    exact ⟨hnode, SyntheticDraw.toNat_millis_le (hcallback ▸ hd)⟩
  · next srtt hcallback => exact absurd (hcallback ▸ hd) SyntheticDraw.ack_notMem
  · cases hroundTrip

/-- The packet drops of the producers are on their node and have one of eight reasons. -/
lemma IsInterleaving.of_mem_packetDrops (h : IsInterleaving node draws trace)
    {r : UInt32 × UInt32} (hr : r ∈ (trace.map Prod.snd).filterMap ProbeCall.packetDrop?) :
    r.1 = node ∧ r.2.toNat < 8 := by
  obtain ⟨c, hc, hdrop⟩ := List.mem_filterMap.mp hr
  obtain ⟨e, he, rfl⟩ := List.mem_map.mp hc
  obtain ⟨hnode, d, hd⟩ := h.exists_draw he
  unfold ProbeCall.packetDrop? at hdrop
  split at hdrop
  · next reason hcallback =>
    cases hdrop
    exact ⟨hnode, SyntheticDraw.toNat_reason_lt (hcallback ▸ hd)⟩
  · cases hdrop

end Draws

/-! ## Accounts of the draws -/

/-- The number of draws of all producers. -/
def issued {n : ℕ} (bursts : Fin n → List (Vector SyntheticDraw burstSize)) : ℕ :=
  ∑ i, (drawsOf bursts i).length

/-- The producers issue whole bursts. -/
lemma burstSize_dvd_issued {n : ℕ} (bursts : Fin n → List (Vector SyntheticDraw burstSize)) :
    burstSize ∣ issued bursts := by
  refine Finset.dvd_sum fun i _ => ?_
  simp only [drawsOf, List.length_flatMap, Vector.length_toList, List.map_const',
    List.sum_replicate, smul_eq_mul]
  exact Dvd.intro_left _ rfl

/-- What is left of the draws of producers on one node, once all have stopped. -/
structure Pipeline.AccountsForDraws (node : UInt32) (issued : ℕ) (p : Pipeline) : Prop where
  /-- Whole bursts were issued. -/
  dvd_issued : 64 ∣ issued
  /-- Each draw is counted once. -/
  counts : (p.tables.countersOf node).rttCount.toNat +
    (p.tables.countersOf node).retransCount.toNat + (p.tables.countersOf node).dropCount.toNat +
    (p.tables.countersOf node).runqlatCount.toNat = issued
  /-- The histogram holds the round trips, none of which is longer than 200 milliseconds. -/
  total : (p.tables.histogramOf node).total = (p.tables.countersOf node).rttCount
  buckets : ∀ i : Fin 64, 8 ≤ i.val → (p.tables.histogramOf node).buckets.get i = 0
  /-- Each packet drop is counted under its reason. -/
  dropReasons : (p.tables.dropReasons.counts.map fun e => e.2.toNat).sum =
    (p.tables.countersOf node).dropCount.toNat
  /-- No process waits, and no wakeup was turned away. -/
  pending : p.tables.wakeups.pending = .empty
  isEmpty : p.tables.wakeups.isEmpty = true
  rejected : p.tables.wakeups.rejected = 0
  /-- No more events reached the channel than were issued. -/
  channel : p.channel.published.toNat + p.channel.dropped.toNat ≤ issued

section Accounts

variable {n : ℕ} {node : UInt32} {bursts : Fin n → List (Vector SyntheticDraw burstSize)}
  {trace : List (Fin n × ProbeCall)}

/-- There are as many calls other than wakeups as draws. -/
lemma IsInterleaving.countP_eq_issued (h : IsInterleaving node (drawsOf bursts) trace) :
    (trace.map Prod.snd).countP (!·.callback.isWakeup) = issued bursts := by
  rw [List.countP_map]
  refine (countP_eq_sum_producers (!·.isWakeup) trace).trans (Finset.sum_congr rfl fun i _ => ?_)
  rw [h.callbacksOf_eq i, List.countP_flatMap]
  simp only [Function.comp_def, SyntheticDraw.countP_callbacks, List.map_const', List.sum_replicate,
    smul_eq_mul, mul_one]

/-- What the calls show at most once each, and wakeups not at all, they show no more often than
there are draws. -/
lemma IsInterleaving.length_filterMap_le (h : IsInterleaving node (drawsOf bursts) trace)
    {β : Type} {f : ProbeCall → Option β}
    (hf : ∀ c, (f c).isSome → c.callback.isWakeup = false) :
    ((trace.map Prod.snd).filterMap f).length ≤ issued bursts := by
  rw [List.length_filterMap_eq_countP, ← h.countP_eq_issued]
  refine List.countP_mono_left fun c _ hsome => ?_
  rw [hf c hsome]
  rfl

/-- A sample of up to 200 is counted in one of the first eight buckets. -/
lemma val_bucketOf_lt {v : UInt64} (hv : v.toNat ≤ 200) : (bucketOf v).val < 8 := by
  have hmax : max v.toNat 1 < 2 ^ 8 := by omega
  rw [val_bucketOf]
  exact (Nat.log2_lt (by omega)).mpr hmax

namespace Tables

variable (maxNodes maxDropReasons maxInflight : UInt64)

/-- Each draw of the producers is reported once, and counted under its kind. -/
lemma counts_of_interleaving (hroom : n ≤ maxInflight.toNat) (hpids : n ≤ 42950)
    (hnode : node.toNat < maxNodes.toNat) (htrace : IsInterleaving node (drawsOf bursts) trace)
    (hfew : issued bursts < UInt64.size) :
    let empty := ofCapacities maxNodes maxDropReasons maxInflight
    let counters := (empty.callAll (trace.map Prod.snd)).countersOf node
    (empty.reports (trace.map Prod.snd)).length = issued bursts ∧
      counters.rttCount.toNat + counters.retransCount.toNat + counters.dropCount.toNat +
        counters.runqlatCount.toNat = issued bursts := by
  intro empty counters
  have howes := owes_ofCapacities maxNodes maxDropReasons maxInflight hroom
  obtain ⟨hswitches, -⟩ := owes_callAll hpids howes htrace.goesOn
  have hreported : (empty.reports (trace.map Prod.snd)).length = issued bursts :=
    (length_reports_of_switches hswitches).trans htrace.countP_eq_issued
  have hown : (empty.reports (trace.map Prod.snd)).filter (·.nodeId = node) =
      empty.reports (trace.map Prod.snd) := by
    refine List.filter_eq_self.mpr fun e he => decide_eq_true (nodeId_of_mem_reports ?_ he)
    intro c hc
    obtain ⟨e, he, rfl⟩ := List.mem_map.mp hc
    exact (htrace.exists_draw he).1
  have hkind : ∀ kind : EventType, (counters.get kind.countField).toNat =
      (empty.reports (trace.map Prod.snd)).countP (·.eventType = kind) := by
    intro kind
    refine (toNat_countField_callAll maxNodes maxDropReasons maxInflight _ hnode kind).trans ?_
    rw [hown]
    exact Nat.mod_eq_of_lt ((List.countP_le_length.trans_eq hreported).trans_lt hfew)
  refine ⟨hreported, ?_⟩
  have hlength := length_eq_sum_countP_eventType (empty.reports (trace.map Prod.snd))
  rw [hreported, ← hkind .rtt, ← hkind .retrans, ← hkind .drop, ← hkind .runqlat] at hlength
  exact hlength.symm

/-- The histogram of the node holds the round trips of the producers. -/
lemma histogram_of_interleaving (hnode : node.toNat < maxNodes.toNat)
    (htrace : IsInterleaving node (drawsOf bursts) trace) (hfew : issued bursts < UInt64.size) :
    let t := (ofCapacities maxNodes maxDropReasons maxInflight).callAll (trace.map Prod.snd)
    (t.histogramOf node).total = (t.countersOf node).rttCount ∧
      ∀ i : Fin 64, 8 ≤ i.val → (t.histogramOf node).buckets.get i = 0 := by
  intro t
  let empty := ofCapacities maxNodes maxDropReasons maxInflight
  let calls := trace.map Prod.snd
  have htotals := totals_applyAll maxNodes maxDropReasons maxInflight (empty.callUpdates calls)
  have hsame := sameRecords_callAll (.refl empty) calls
  have hfewTrips : (calls.filterMap ProbeCall.roundTrip?).length < UInt64.size := by
    refine (htrace.length_filterMap_le fun c hsome => ?_).trans_lt hfew
    obtain ⟨callback, node, now⟩ := c
    cases callback <;> first | rfl | cases hsome
  have hhistogram : t.histogramOf node =
      (empty.applyAll (empty.callUpdates calls)).histogramOf node := by
    rw [histogramOf, histogramOf, hsame.histograms]
  have hcounts : (t.histogramOf node).Counts
      (valuesAt node (calls.filterMap ProbeCall.roundTrip?)) := by
    refine ⟨(length_valuesAt_le _ _).trans_lt hfewTrips, fun i => ?_⟩
    rw [hhistogram]
    exact htotals.toNat_bucket_of_calls hfewTrips hnode i
  constructor
  · have hrtt := htotals.toNat_rttCount_of_calls hfewTrips hnode
    rw [countersOf, ← hsame.get?_counters] at hrtt
    exact UInt64.toNat_inj.mp (hcounts.toNat_total_eq.trans hrtt.symm)
  · intro i hi
    refine UInt64.toNat_inj.mp ((hcounts.bucket i).trans (List.countP_eq_zero.mpr ?_))
    intro v hv
    obtain ⟨r, hr, rfl⟩ := List.mem_map.mp hv
    have hle := (htrace.of_mem_roundTrips (List.mem_filter.mp hr).1).2
    have hlt := val_bucketOf_lt hle
    intro heq
    rw [of_decide_eq_true heq] at hlt
    omega

/-- The packet drops of the producers are counted under their reasons. -/
lemma dropReasons_of_interleaving (hnode : node.toNat < maxNodes.toNat)
    (hreasons : 8 ≤ maxDropReasons.toNat)
    (htrace : IsInterleaving node (drawsOf bursts) trace) (hfew : issued bursts < UInt64.size) :
    let t := (ofCapacities maxNodes maxDropReasons maxInflight).callAll (trace.map Prod.snd)
    (t.dropReasons.counts.map fun e => e.2.toNat).sum = (t.countersOf node).dropCount.toNat := by
  intro t
  let empty := ofCapacities maxNodes maxDropReasons maxInflight
  let calls := trace.map Prod.snd
  have htotals := totals_applyAll maxNodes maxDropReasons maxInflight (empty.callUpdates calls)
  have hsame := sameRecords_callAll (.refl empty) calls
  have hfewDrops : (calls.filterMap ProbeCall.packetDrop?).length < UInt64.size := by
    refine (htrace.length_filterMap_le fun c hsome => ?_).trans_lt hfew
    obtain ⟨callback, node, now⟩ := c
    cases callback <;> first | rfl | cases hsome
  have hnone : (calls.filterMap ProbeCall.packetDrop?).countP
      (maxDropReasons.toNat ≤ ·.2.toNat) = 0 := by
    refine List.countP_eq_zero.mpr fun r hr => ?_
    have hlt := (htrace.of_mem_packetDrops hr).2
    simp only [decide_eq_true_eq]
    omega
  have hrejected : (empty.applyAll (empty.callUpdates calls)).dropReasons.rejected.toNat = 0 := by
    rw [htotals.reasons_rejected, filterMap_reasonKey?_callUpdates, List.countP_map]
    exact congrArg (· % UInt64.size) hnone
  have hown : ((calls.filterMap ProbeCall.packetDrop?).map Prod.fst).count node =
      (calls.filterMap ProbeCall.packetDrop?).length := by
    rw [← List.length_map Prod.fst, List.count_eq_length]
    intro key hkey
    obtain ⟨r, hr, rfl⟩ := List.mem_map.mp hkey
    exact (htrace.of_mem_packetDrops hr).1.symm
  have hsum := htotals.drops_by_reason_of_calls hfewDrops
  have hcount := htotals.toNat_dropCount_of_calls hfewDrops hnode
  rw [hrejected, ← hown, ← hcount, countersOf, ← hsame.get?_counters, ← hsame.dropReasons] at hsum
  exact hsum

end Tables

end Accounts

/-- **Producers account for every draw.**  Whatever they draw, however many bursts each of them
completes and however their calls interleave, nothing is lost on a node in range as long as every
producer has room for a wakeup and processes of its own. -/
theorem Pipeline.accountsForDraws_of_interleaving {n : ℕ}
    (maxNodes maxDropReasons maxInflight : UInt64) (channelCapacity : ℕ) (policy : SamplingPolicy)
    (words : List UInt32) (host : String) (cpu : CpuSource) (node : UInt32)
    (bursts : Fin n → List (Vector SyntheticDraw burstSize)) (trace : List (Fin n × ProbeCall))
    (hroom : n ≤ maxInflight.toNat) (hpids : n ≤ 42950) (hnode : node.toNat < maxNodes.toNat)
    (hreasons : 8 ≤ maxDropReasons.toNat) (htrace : IsInterleaving node (drawsOf bursts) trace)
    (hfew : issued bursts < 2 ^ 64) :
    let empty := Tables.ofCapacities maxNodes maxDropReasons maxInflight
    let p := initial empty channelCapacity policy words host cpu
    (p.actAll (trace.map fun e => .call e.2)).AccountsForDraws node (issued bursts) := by
  intro empty p
  let calls := trace.map Prod.snd
  have hcalls : trace.map (fun e => Activity.call e.2) = calls.map .call := by
    rw [List.map_map]
    rfl
  obtain ⟨hreported, hcounts⟩ := Tables.counts_of_interleaving maxNodes maxDropReasons maxInflight
    hroom hpids hnode htrace hfew
  obtain ⟨htotal, hbuckets⟩ := Tables.histogram_of_interleaving maxNodes maxDropReasons maxInflight
    hnode htrace hfew
  have hdrops := Tables.dropReasons_of_interleaving maxNodes maxDropReasons maxInflight hnode
    hreasons htrace hfew
  obtain ⟨-, hend⟩ := Tables.owes_callAll hpids
    (Tables.owes_ofCapacities maxNodes maxDropReasons maxInflight hroom) htrace.goesOn
  obtain ⟨hpending, hempty⟩ := hend.pending_eq_empty
  have hchannel := p.published_add_dropped_le calls
  rw [show p.tables = empty from rfl, hreported] at hchannel
  rw [hcalls]
  constructor
  case dvd_issued => exact burstSize_dvd_issued bursts
  case channel => simpa [p, initial, EventChannel.bounded] using hchannel
  all_goals rw [show (p.actAll (calls.map .call)).tables = empty.callAll calls from
    tables_actAll_calls p calls]
  case counts => exact hcounts
  case total => exact htotal
  case buckets => exact hbuckets
  case dropReasons => exact hdrops
  case pending => exact hpending
  case isEmpty => exact hempty
  case rejected => exact hend.rejected

/-- Two producers make a burst each, with room for just two wakeups: each draws a process in turn
with a round trip, or with a packet drop, and their wakeups and switches alternate. -/
theorem Pipeline.accountsForDraws_of_alternating_producers :
    let bursts : Fin 2 → List (Vector SyntheticDraw burstSize) :=
      ![[.ofFn fun j => if j.val % 2 = 0 then .runqueue 5 else .roundTrip 199],
        [.ofFn fun j => if j.val % 2 = 0 then .runqueue 999 else .packetDrop 7]]
    let round : List (Fin 2 × ProbeCall) :=
      [(0, ⟨.wakeup 10005, 1, 4⟩), (1, ⟨.wakeup 110999, 1, 3⟩), (0, ⟨.switch 10005, 1, 6⟩),
        (0, ⟨.roundTrip 200, 1, 6⟩), (1, ⟨.switch 110999, 1, 9⟩), (1, ⟨.packetDrop 7, 1, 9⟩)]
    let trace := (List.replicate 32 round).flatten
    let p := initial (.ofCapacities 2 8 2) 4 ⟨1, 1, 1, 1⟩ [] "web" .unread
    IsInterleaving 1 (drawsOf bursts) trace ∧ issued bursts < 2 ^ 64 ∧
      (p.actAll (trace.map fun e => .call e.2)).AccountsForDraws 1 (issued bursts) ∧
      issued bursts = 128 ∧
      ((p.actAll (trace.map fun e => .call e.2)).tables.countersOf 1).runqlatCount = 64 := by
  intro bursts round trace p
  have htrace : IsInterleaving 1 (drawsOf bursts) trace := by decide +kernel
  have hissued : issued bursts = 128 := by decide +kernel
  have hfew : issued bursts < 2 ^ 64 := by
    rw [hissued]
    decide
  exact ⟨htrace, hfew, accountsForDraws_of_interleaving 2 8 2 4 ⟨1, 1, 1, 1⟩ [] "web" .unread 1
    bursts trace (by decide) (by decide) (by decide) (by decide) htrace hfew, hissued,
    by decide +kernel⟩

end NodeTelemetry
