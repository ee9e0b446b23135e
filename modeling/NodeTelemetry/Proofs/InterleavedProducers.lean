import Mathlib
import NodeTelemetry.Probe.Synthetic
import NodeTelemetry.Proofs.RunqueueWaits

/-!
# Interleaved producers

Producers run at once, so a wakeup of one of them may be separated from its switch by any number of
steps of the others.  Still every switch finds its wakeup.  At any moment each producer owes at most
one switch, and the processes that wait are those of the owed switches (`WakeupTable.Owes`), of
which no two producers share one (`producerOf_pid`).  So there is always room for a producer that
owes none, and a step of one producer keeps this, whatever the others are about
(`Tables.owes_callAll`).
-/

namespace NodeTelemetry

/-! ## Processes and draws -/

/-- The producer to which a process belongs. -/
def producerOf (pid : UInt32) : ℕ := (pid.toNat - 10000) / 100000

/-- The processes of a producer are its own, as long as their numbers fit 32 bits. -/
lemma producerOf_pid {i : ℕ} (hi : i < 42950) (process : Fin 1000) :
    producerOf (SyntheticDraw.firstPid (UInt32.ofNat i) + UInt32.ofNat process.val) = i := by
  have hprocess := process.isLt
  have htoNat : (SyntheticDraw.firstPid (UInt32.ofNat i) + UInt32.ofNat process.val).toNat =
      10000 + i * 100000 + process.val := by
    simp only [SyntheticDraw.firstPid, UInt32.toNat_add, UInt32.toNat_mul, UInt32.toNat_ofNat',
      UInt32.reduceToNat]
    omega
  rw [producerOf, htoNat]
  omega

/-- A callback is a wakeup. -/
def Callback.isWakeup : Callback → Bool
  | .wakeup _ => true
  | _ => false

/-- A draw comes to one callback that is not a wakeup. -/
lemma SyntheticDraw.countP_callbacks (producer : UInt32) (d : SyntheticDraw) :
    (d.callbacks producer).countP (!·.isWakeup) = 1 := by
  cases d <;> rfl

/-! ## Interleaved producers -/

section Interleaving

variable {n : ℕ}

/-- The draws of a producer, burst after burst. -/
def drawsOf (bursts : Fin n → List (Vector SyntheticDraw burstSize)) (i : Fin n) :
    List SyntheticDraw :=
  (bursts i).flatMap Vector.toList

/-- Handler calls of several producers in some order: apart from the readings of the clock, the
calls of each producer are those of its draws. -/
def IsInterleaving (node : UInt32) (draws : Fin n → List SyntheticDraw)
    (trace : List (Fin n × ProbeCall)) : Prop :=
  ∀ i, ((trace.filter (·.1 = i)).map fun e => { e.2 with now := 0 }) =
    syntheticCalls (UInt32.ofNat i) node 0 (draws i)

instance (node : UInt32) (draws : Fin n → List SyntheticDraw) (trace : List (Fin n × ProbeCall)) :
    Decidable (IsInterleaving node draws trace) :=
  inferInstanceAs (Decidable (∀ _, _))

/-- The callbacks of one producer, in order. -/
def callbacksOf (trace : List (Fin n × ProbeCall)) (i : Fin n) : List Callback :=
  (trace.filter (·.1 = i)).map (·.2.callback)

namespace IsInterleaving

variable {node : UInt32} {draws : Fin n → List SyntheticDraw} {trace : List (Fin n × ProbeCall)}

/-- The callbacks of each producer are those of its draws. -/
lemma callbacksOf_eq (h : IsInterleaving node draws trace) (i : Fin n) :
    callbacksOf trace i = (draws i).flatMap (SyntheticDraw.callbacks (UInt32.ofNat i)) := by
  have hcallbacks := congrArg (List.map ProbeCall.callback) (h i)
  rw [List.map_map, syntheticCalls, List.map_flatMap] at hcallbacks
  refine hcallbacks.trans (congrArg (fun f => (draws i).flatMap f) (funext fun d => ?_))
  rw [List.map_map]
  exact List.map_id _

/-- Every call is made on the node, for one of the draws of its producer. -/
lemma exists_draw (h : IsInterleaving node draws trace) {e : Fin n × ProbeCall} (he : e ∈ trace) :
    e.2.node = node ∧ ∃ d : SyntheticDraw, e.2.callback ∈ d.callbacks (UInt32.ofNat e.1) := by
  have hcall : ({ e.2 with now := 0 } : ProbeCall) ∈
      syntheticCalls (UInt32.ofNat e.1) node 0 (draws e.1) := by
    rw [← h e.1]
    exact List.mem_map_of_mem (List.mem_filter.mpr ⟨he, decide_eq_true rfl⟩)
  obtain ⟨d, -, hd⟩ := List.mem_flatMap.mp hcall
  obtain ⟨callback, hcallback, heq⟩ := List.mem_map.mp hd
  obtain ⟨hsame, hnode, -⟩ := ProbeCall.mk.inj heq
  exact ⟨hnode.symm, d, hsame ▸ hcallback⟩

end IsInterleaving

/-- A list of calls is counted producer by producer. -/
lemma countP_eq_sum_producers (p : Callback → Bool) (trace : List (Fin n × ProbeCall)) :
    trace.countP (p ·.2.callback) = ∑ i, (callbacksOf trace i).countP p := by
  induction trace with
  | nil => simp [callbacksOf]
  | cons e trace ih =>
    have hstep : ∀ i, (callbacksOf (e :: trace) i).countP p =
        (callbacksOf trace i).countP p + if e.1 = i ∧ p e.2.callback then 1 else 0 := by
      intro i
      by_cases hi : e.1 = i <;> simp [callbacksOf, hi, List.countP_cons]
    have hown : ∑ i, (if e.1 = i ∧ p e.2.callback then 1 else 0) =
        if p e.2.callback then 1 else 0 := by
      by_cases hp : p e.2.callback <;> simp [hp]
    rw [List.countP_cons, ih, Finset.sum_congr rfl fun i _ => hstep i, Finset.sum_add_distrib, hown]

end Interleaving

/-! ## Owed switches -/

/-- The processes that wait are those of the switches that the producers owe, none of which was
turned away. -/
structure WakeupTable.Owes {n : ℕ} (owed : Fin n → Option UInt32) (w : WakeupTable) : Prop where
  isCounted : w.IsCounted
  room : n ≤ w.maxInflight.toNat
  rejected : w.rejected = 0
  isSome_iff : ∀ pid, (w.pending.get? pid).isSome ↔ ∃ i, owed i = some pid
  producer : ∀ i pid, owed i = some pid → producerOf pid = i

namespace WakeupTable.Owes

variable {n : ℕ} {owed : Fin n → Option UInt32} {w : WakeupTable} {i : Fin n} {pid : UInt32}

/-- While a producer owes no switch, fewer processes wait than there are producers. -/
lemma size_lt (h : w.Owes owed) (hi : owed i = none) : w.pending.size < n := by
  have hsubset : w.pending.keys.toFinset ⊆
      (Finset.univ.erase i).image fun j => (owed j).getD 0 := by
    intro key hkey
    rw [List.mem_toFinset, KeyMap.mem_keys, h.isSome_iff] at hkey
    obtain ⟨j, hj⟩ := hkey
    refine Finset.mem_image.mpr ⟨j, Finset.mem_erase.mpr ⟨?_, Finset.mem_univ j⟩, by rw [hj]; rfl⟩
    rintro rfl
    rw [hi] at hj
    cases hj
  calc w.pending.size = w.pending.keys.toFinset.card := by
        rw [List.toFinset_card_of_nodup w.pending.nodup_keys, KeyMap.length_keys]
    _ ≤ (Finset.univ.erase i).card := (Finset.card_le_card hsubset).trans Finset.card_image_le
    _ < n := by
        rw [Finset.card_erase_of_mem (Finset.mem_univ i), Finset.card_univ, Fintype.card_fin]
        exact Nat.sub_lt (Nat.pos_of_ne_zero fun hzero => (hzero ▸ i).elim0) Nat.one_pos

/-- The owed switch of one producer may be exchanged, if the table exchanges its process. -/
lemma update (h : w.Owes owed) {w' : WakeupTable} {next : Option UInt32} (hcounted : w'.IsCounted)
    (hroom : w'.maxInflight = w.maxInflight) (hrejected : w'.rejected = w.rejected)
    (hnext : ∀ pid, next = some pid → producerOf pid = i)
    (hget : ∀ pid, (w'.pending.get? pid).isSome ↔
      next = some pid ∨ owed i ≠ some pid ∧ (w.pending.get? pid).isSome) :
    w'.Owes (Function.update owed i next) := by
  refine ⟨hcounted, hroom ▸ h.room, hrejected.trans h.rejected, fun pid => ?_, fun j pid hj => ?_⟩
  · rw [hget, h.isSome_iff]
    constructor
    · rintro (hsome | ⟨hother, j, hj⟩)
      · exact ⟨i, by rwa [Function.update_self]⟩
      · have hne : j ≠ i := fun heq => hother (heq ▸ hj)
        exact ⟨j, by rwa [Function.update_of_ne hne]⟩
    · rintro ⟨j, hj⟩
      rcases eq_or_ne j i with rfl | hne
      · rw [Function.update_self] at hj
        exact .inl hj
      · rw [Function.update_of_ne hne] at hj
        refine .inr ⟨fun howed => hne (Fin.ext ?_), j, hj⟩
        exact (h.producer j pid hj).symm.trans (h.producer i pid howed)
  · rcases eq_or_ne j i with rfl | hne
    · rw [Function.update_self] at hj
      exact hnext pid hj
    · rw [Function.update_of_ne hne] at hj
      exact h.producer j pid hj

/-- A producer that owes no switch finds room for one of its processes, and owes its switch. -/
lemma recordWakeup (h : w.Owes owed) (hi : owed i = none) (hpid : producerOf pid = i)
    (time : UInt64) : (w.recordWakeup pid time).Owes (Function.update owed i (some pid)) := by
  have hnew : w.pending.get? pid = none := by
    rw [← Option.not_isSome_iff_eq_none, h.isSome_iff]
    rintro ⟨j, hj⟩
    have hsame : j = i := Fin.ext ((h.producer j pid hj).symm.trans hpid)
    rw [hsame, hi] at hj
    cases hj
  have hroom : w.pending.size < w.maxInflight.toNat := (h.size_lt hi).trans_le h.room
  rcases recordWakeup_cases h.isCounted pid time with ⟨hsome, -⟩ | ⟨-, -, heq⟩ | ⟨-, hfull, -⟩
  · rw [hnew] at hsome
    cases hsome
  · refine h.update (h.isCounted.recordWakeup pid time) (by rw [heq]) (by rw [heq])
      (fun pid' hnext => Option.some.inj hnext ▸ hpid) fun pid' => ?_
    rw [heq, KeyMap.get?_insert, hi]
    by_cases hsame : pid' = pid
    · simp [hsame]
    · simp [hsame, Ne.symm hsame]
  · exact absurd hroom (Nat.not_lt.mpr hfull)

/-- A producer that owes a switch makes it, and owes none. -/
lemma take (h : w.Owes owed) (hi : owed i = some pid) :
    (w.take pid).2.Owes (Function.update owed i none) := by
  obtain ⟨time, htime⟩ := Option.isSome_iff_exists.mp ((h.isSome_iff pid).mpr ⟨i, hi⟩)
  have htake := take_of_get?_eq_some htime
  refine h.update (h.isCounted.take pid) (by rw [htake]) (by rw [htake])
    (fun pid' hnext => by cases hnext) fun pid' => ?_
  rw [get?_take, hi]
  by_cases hsame : pid' = pid
  · simp [hsame]
  · simp [hsame, Ne.symm hsame]

/-- If no producer owes a switch, no process waits. -/
lemma pending_eq_empty (h : w.Owes fun _ : Fin n => none) :
    w.pending = .empty ∧ w.isEmpty = true := by
  have hempty : w.pending = .empty := by
    refine KeyMap.ext_get? fun pid => ?_
    rw [KeyMap.get?_empty, ← Option.not_isSome_iff_eq_none, h.isSome_iff]
    rintro ⟨i, hi⟩
    cases hi
  refine ⟨hempty, ?_⟩
  have hcount : w.inflight.toNat = (0 : UInt64).toNat := by
    rw [h.isCounted.toNat_inflight, hempty]
    rfl
  rw [WakeupTable.isEmpty, len, UInt64.toNat_inj.mp hcount]
  rfl

end WakeupTable.Owes

/-! ## Runs of producers -/

section Producers

variable {n : ℕ} {owed : Fin n → Option UInt32} {trace : List (Fin n × ProbeCall)}

/-- Each producer makes the switch that it owes, and then the callbacks of some draws. -/
def GoesOn (owed : Fin n → Option UInt32) (trace : List (Fin n × ProbeCall)) : Prop :=
  ∀ i, ∃ draws, callbacksOf trace i = (owed i).toList.map .switch ++
    List.flatMap (SyntheticDraw.callbacks (UInt32.ofNat i)) draws

/-- The first call is the switch that its producer owes, or a wakeup of one of its processes, whose
switch it then owes, or has nothing to do with wakeups. -/
lemma GoesOn.cases_cons (hn : n ≤ 42950) {e : Fin n × ProbeCall} (h : GoesOn owed (e :: trace)) :
    (∃ pid, owed e.1 = some pid ∧ e.2.callback = .switch pid ∧
        GoesOn (Function.update owed e.1 none) trace) ∨
      (∃ pid, owed e.1 = none ∧ e.2.callback = .wakeup pid ∧ producerOf pid = e.1 ∧
        GoesOn (Function.update owed e.1 (some pid)) trace) ∨
      ((∀ pid, e.2.callback ≠ .switch pid) ∧ (∀ w : WakeupTable, w.afterCall e.2 = w) ∧
        GoesOn owed trace) := by
  obtain ⟨i, callback, node, now⟩ := e
  have hown : callbacksOf ((i, ⟨callback, node, now⟩) :: trace) i =
      callback :: callbacksOf trace i := by
    simp [callbacksOf]
  have hupdate : ∀ next : Option UInt32, (∃ draws, callbacksOf trace i =
      next.toList.map .switch ++ List.flatMap (SyntheticDraw.callbacks (UInt32.ofNat i)) draws) →
      GoesOn (Function.update owed i next) trace := by
    intro next hnext j
    rcases eq_or_ne j i with rfl | hne
    · rwa [Function.update_self]
    · obtain ⟨draws, hdraws⟩ := h j
      rw [Function.update_of_ne hne]
      exact ⟨draws, by simpa [callbacksOf, Ne.symm hne] using hdraws⟩
  obtain ⟨draws, hdraws⟩ := h i
  rw [hown] at hdraws
  cases howed : owed i with
  | some pid =>
    rw [howed] at hdraws
    obtain ⟨hfirst, hrest⟩ := List.cons.inj hdraws
    exact .inl ⟨pid, rfl, hfirst, hupdate none ⟨draws, hrest⟩⟩
  | none =>
    have hsame : Function.update owed i none = owed := by
      rw [← howed, Function.update_eq_self]
    rw [howed] at hdraws
    cases draws with
    | nil => cases hdraws
    | cons d draws =>
      cases d with
      | runqueue process =>
        obtain ⟨hfirst, hrest⟩ := List.cons.inj hdraws
        have hpid := producerOf_pid (i.isLt.trans_le hn) process
        exact .inr (.inl ⟨_, rfl, hfirst, hpid, hupdate (some _) ⟨draws, hrest⟩⟩)
      | _ =>
        obtain ⟨hfirst, hrest⟩ := List.cons.inj hdraws
        have hgoes := hupdate none ⟨draws, hrest⟩
        rw [hsame] at hgoes
        refine .inr (.inr ⟨fun pid => ?_, fun w => ?_, hgoes⟩)
        · simp [hfirst]
        · simp [hfirst, WakeupTable.afterCall]

/-- Every switch of the producers finds its wakeup, and in the end no producer owes one. -/
lemma Tables.owes_callAll (hn : n ≤ 42950) {t : Tables} (h : t.wakeups.Owes owed)
    (hgoes : GoesOn owed trace) :
    (∀ m ∈ t.moments (trace.map Prod.snd), ∀ pid, m.2.callback = .switch pid →
        (m.1.wakeups.pending.get? pid).isSome) ∧
      (t.callAll (trace.map Prod.snd)).wakeups.Owes fun _ : Fin n => none := by
  induction trace generalizing t owed with
  | nil =>
    have hnone : owed = fun _ => none := by
      funext i
      obtain ⟨draws, hdraws⟩ := hgoes i
      cases howed : owed i with
      | none => rfl
      | some pid =>
        rw [howed] at hdraws
        cases hdraws
    refine ⟨fun m hm => ?_, hnone ▸ h⟩
    cases hm
  | cons e trace ih =>
    have hafter := ProbeCall.wakeups_run e.2 t
    have hmoments : t.moments ((e :: trace).map Prod.snd) =
        (t, e.2) :: (e.2.run t).1.moments (trace.map Prod.snd) := rfl
    rw [hmoments, List.forall_mem_cons]
    rcases hgoes.cases_cons hn with ⟨pid, howed, hswitch, hrest⟩ |
      ⟨pid, howed, hwakeup, hpid, hrest⟩ | ⟨hswitch, hkept, hrest⟩
    · have hnext : (e.2.run t).1.wakeups.Owes (Function.update owed e.1 none) := by
        rw [hafter, WakeupTable.afterCall, hswitch]
        exact h.take howed
      obtain ⟨hmoments, hend⟩ := ih hnext hrest
      refine ⟨⟨fun pid' hpid' => ?_, hmoments⟩, hend⟩
      obtain rfl : pid = pid' := Callback.switch.inj (hswitch.symm.trans hpid')
      exact (h.isSome_iff pid).mpr ⟨e.1, howed⟩
    · have hnext : (e.2.run t).1.wakeups.Owes (Function.update owed e.1 (some pid)) := by
        rw [hafter, WakeupTable.afterCall, hwakeup]
        exact h.recordWakeup howed hpid e.2.now
      obtain ⟨hmoments, hend⟩ := ih hnext hrest
      refine ⟨⟨fun pid' hpid' => ?_, hmoments⟩, hend⟩
      rw [hwakeup] at hpid'
      cases hpid'
    · have hnext : (e.2.run t).1.wakeups.Owes owed := by
        rw [hafter, hkept]
        exact h
      obtain ⟨hmoments, hend⟩ := ih hnext hrest
      exact ⟨⟨fun pid' hpid' => absurd hpid' (hswitch pid'), hmoments⟩, hend⟩

/-- At the start no producer owes a switch, and each makes the callbacks of its draws. -/
lemma IsInterleaving.goesOn {draws : Fin n → List SyntheticDraw}
    (h : IsInterleaving node draws trace) : GoesOn (fun _ => none) trace :=
  fun i => ⟨draws i, h.callbacksOf_eq i⟩

/-- At first no process waits and no producer owes a switch. -/
lemma Tables.owes_ofCapacities (maxNodes maxDropReasons maxInflight : UInt64)
    (hroom : n ≤ maxInflight.toNat) :
    (ofCapacities maxNodes maxDropReasons maxInflight).wakeups.Owes fun _ : Fin n => none := by
  refine ⟨WakeupTable.isCounted_ofMaxInflight maxInflight, hroom, rfl, fun pid => ?_,
    fun i pid hnone => by cases hnone⟩
  constructor
  · intro hsome
    cases hsome
  · rintro ⟨i, hi⟩
    cases hi

end Producers

end NodeTelemetry
