import Mathlib
import NodeTelemetry.Proofs.WakeupCount

/-!
# Runs of the table of wakeups

The table is a bounded map with an exact counter, whatever was stored and taken before.  What one
step does to it, seen by look-ups, is `get?_after`; from it follows which time a process has after a
run: that of the last step on this process, if that step stored a time (`get?_run_eq_some_iff`).
Every run keeps the counter equal to the number of waiting processes (`isCounted_run`), so that the
limit on the counter is a limit on them.  All this together is `WakeupTable.IsBoundedMap`.
-/

namespace NodeTelemetry

/-- What is done to a table of wakeups. -/
inductive WakeupStep where
  /-- A process is woken at a time. -/
  | record (pid : UInt32) (time : UInt64)
  /-- The wakeup of a process is taken. -/
  | take (pid : UInt32)
  deriving DecidableEq, Repr

/-- The process of a step. -/
def WakeupStep.pid : WakeupStep → UInt32
  | .record pid _ => pid
  | .take pid => pid

namespace WakeupTable

/-- The table after a step. -/
def after (w : WakeupTable) : WakeupStep → WakeupTable
  | .record pid time => w.recordWakeup pid time
  | .take pid => (w.take pid).2

/-- The table after a run of steps, the first one first. -/
def run (w : WakeupTable) (steps : List WakeupStep) : WakeupTable := steps.foldl after w

/-- The processes that wait. -/
def waiting (w : WakeupTable) : Set UInt32 := {pid | (w.pending.get? pid).isSome}

variable {w : WakeupTable} {pid : UInt32} {time : UInt64}

@[simp] lemma mem_waiting : pid ∈ w.waiting ↔ (w.pending.get? pid).isSome := Iff.rfl

lemma notMem_waiting : pid ∉ w.waiting ↔ w.pending.get? pid = none := by
  rw [mem_waiting, Option.not_isSome_iff_eq_none]

lemma run_concat (w : WakeupTable) (steps : List WakeupStep) (s : WakeupStep) :
    w.run (steps ++ [s]) = (w.run steps).after s := by
  simp [run]

/-- The waiting processes are the keys of the map. -/
lemma ncard_waiting (w : WakeupTable) : w.waiting.ncard = w.pending.size := by
  have hkeys : w.waiting = ↑w.pending.keys.toFinset := by
    ext pid
    simp [KeyMap.mem_keys]
  rw [hkeys, Set.ncard_coe_finset, List.toFinset_card_of_nodup w.pending.nodup_keys,
    KeyMap.length_keys]

/-! ## One step -/

/-- A step keeps the limit. -/
lemma maxInflight_after (w : WakeupTable) (s : WakeupStep) :
    (w.after s).maxInflight = w.maxInflight := by
  unfold after recordWakeup WakeupTable.take
  repeat' split
  all_goals rfl

/-- A step keeps the count. -/
lemma IsCounted.after (h : w.IsCounted) (s : WakeupStep) : (w.after s).IsCounted := by
  cases s with
  | record pid time => exact h.recordWakeup pid time
  | take pid => exact h.take pid

/-- A step leaves the times of other processes alone. -/
lemma get?_after_of_ne (h : w.IsCounted) {s : WakeupStep} (hne : pid ≠ s.pid) :
    (w.after s).pending.get? pid = w.pending.get? pid := by
  cases s with
  | record pid' time =>
    have hne : pid ≠ pid' := hne
    exact (get?_recordWakeup h pid' pid time).trans (if_neg fun hboth => hne hboth.1)
  | take pid' => exact (get?_take w pid' pid).trans (if_neg hne)

/-- A process has a time after a step on it exactly if the step stored this time. -/
lemma get?_after_eq_some_iff (h : w.IsCounted) {s : WakeupStep} (hpid : s.pid = pid) :
    (w.after s).pending.get? pid = some time ↔ s = .record pid time ∧ w.HasRoomFor pid := by
  cases s with
  | record pid' time' =>
    obtain rfl : pid' = pid := hpid
    have hget : (w.after (.record pid' time')).pending.get? pid' = _ :=
      get?_recordWakeup h pid' pid' time'
    rw [hget]
    by_cases hroom : w.HasRoomFor pid'
    · simp [hroom]
    · have hnone : w.pending.get? pid' = none := by
        rw [← Option.not_isSome_iff_eq_none]
        exact fun hsome => hroom (.inl hsome)
      simp [hroom, hnone]
  | take pid' =>
    obtain rfl : pid' = pid := hpid
    have hget : (w.after (.take pid')).pending.get? pid' = _ := get?_take w pid' pid'
    simp [hget]

/-! ## Runs -/

lemma maxInflight_run (w : WakeupTable) (steps : List WakeupStep) :
    (w.run steps).maxInflight = w.maxInflight := by
  induction steps using List.reverseRecOn with
  | nil => rfl
  | append_singleton steps s ih => rw [run_concat, maxInflight_after, ih]

/-- A run keeps the count. -/
lemma isCounted_run (h : w.IsCounted) (steps : List WakeupStep) : (w.run steps).IsCounted := by
  induction steps using List.reverseRecOn with
  | nil => exact h
  | append_singleton steps s ih =>
    rw [run_concat]
    exact ih.after s

/-- The last step on a process stored a time for it, for which there was room. -/
def LastStored (w : WakeupTable) (steps : List WakeupStep) (pid : UInt32) (time : UInt64) : Prop :=
  ∃ before later, steps = before ++ .record pid time :: later ∧
    (w.run before).HasRoomFor pid ∧ ∀ s ∈ later, s.pid ≠ pid

/-- The last step on a process is the last step of all, or one before it. -/
lemma lastStored_concat {steps : List WakeupStep} {s : WakeupStep} :
    w.LastStored (steps ++ [s]) pid time ↔
      (s = .record pid time ∧ (w.run steps).HasRoomFor pid) ∨
        (s.pid ≠ pid ∧ w.LastStored steps pid time) := by
  have hlast := exists_last_concat (l := steps) (x := s)
    (P := fun before m => m = .record pid time ∧ (w.run before).HasRoomFor pid)
    (Q := fun m => m.pid ≠ pid)
  have hstored : ∀ steps, w.LastStored steps pid time ↔ ∃ before m later,
      steps = before ++ m :: later ∧ (m = .record pid time ∧ (w.run before).HasRoomFor pid) ∧
        ∀ s ∈ later, s.pid ≠ pid := by
    intro steps
    constructor
    · rintro ⟨before, later, heq, hroom, hothers⟩
      exact ⟨before, _, later, heq, ⟨rfl, hroom⟩, hothers⟩
    · rintro ⟨before, _, later, heq, ⟨rfl, hroom⟩, hothers⟩
      exact ⟨before, later, heq, hroom, hothers⟩
  rw [hstored, hstored, hlast]

/-- If no process waits at first, one has a time after a run exactly if the last step on it stored
this time. -/
lemma get?_run_eq_some_iff (h : w.IsCounted) (hempty : w.pending = .empty)
    (steps : List WakeupStep) :
    (w.run steps).pending.get? pid = some time ↔ w.LastStored steps pid time := by
  induction steps using List.reverseRecOn with
  | nil =>
    rw [show w.run [] = w from rfl, hempty, KeyMap.get?_empty]
    refine ⟨nofun, ?_⟩
    rintro ⟨before, later, heq, -, -⟩
    simp at heq
  | append_singleton steps s ih =>
    have hcounted := isCounted_run h steps
    rw [run_concat, lastStored_concat]
    by_cases hpid : s.pid = pid
    · rw [get?_after_eq_some_iff hcounted hpid]
      simp [hpid]
    · -- a step on another process changes neither the time nor which step on this one is the last
      have hrecord : s ≠ .record pid time := fun hs => hpid (hs ▸ rfl)
      rw [get?_after_of_ne hcounted (Ne.symm hpid), ih]
      simp [hpid, hrecord]

/-! ## The table as a bounded map -/

/-- How a table of wakeups with a limit behaves after a run of steps on the empty table. -/
structure IsBoundedMap (maxInflight : UInt64) (steps : List WakeupStep) (w : WakeupTable) :
    Prop where
  /-- The counter is the number of waiting processes, and within the limit. -/
  counted : w.len.toNat = w.waiting.ncard ∧ w.waiting.ncard ≤ maxInflight.toNat
  /-- The time of a process is the one stored by the last step on it. -/
  get?_iff : ∀ pid time, w.pending.get? pid = some time ↔
    (ofMaxInflight maxInflight).LastStored steps pid time
  /-- A step on one process changes the time of no other. -/
  others : ∀ s pid, pid ≠ WakeupStep.pid s → (w.after s).pending.get? pid = w.pending.get? pid
  /-- A wakeup of a waiting process replaces its time, also if the table is full. -/
  record_of_waiting : ∀ pid time, pid ∈ w.waiting →
    (w.recordWakeup pid time).pending.get? pid = some time ∧
      (w.recordWakeup pid time).len = w.len ∧ (w.recordWakeup pid time).rejected = w.rejected
  /-- A wakeup of another process is stored and counted if the table is not full. -/
  record_of_room : ∀ pid time, pid ∉ w.waiting → w.waiting.ncard < maxInflight.toNat →
    (w.recordWakeup pid time).pending.get? pid = some time ∧
      (w.recordWakeup pid time).len.toNat = w.len.toNat + 1 ∧
      (w.recordWakeup pid time).rejected = w.rejected
  /-- A wakeup of another process is only counted as rejected if the table is full. -/
  record_of_full : ∀ pid time, pid ∉ w.waiting → maxInflight.toNat ≤ w.waiting.ncard →
    w.recordWakeup pid time = { w with rejected := w.rejected + 1 }
  /-- Taking the wakeup of a waiting process gives its time, removes it and counts it off. -/
  take_of_waiting : ∀ pid time, w.pending.get? pid = some time →
    (w.take pid).1 = some time ∧ (w.take pid).2.pending.get? pid = none ∧
      (w.take pid).2.len.toNat + 1 = w.len.toNat ∧ (w.take pid).2.rejected = w.rejected
  /-- Taking the wakeup of another process gives nothing and changes nothing. -/
  take_of_not_waiting : ∀ pid, pid ∉ w.waiting → w.take pid = (none, w)

/-- **The table is a bounded map with an exact counter.**  Whatever the limit, and whatever was
stored and taken before, the counter is the number of waiting processes, new processes are turned
away exactly while that is the limit, and what is taken is what was stored last. -/
theorem isBoundedMap_run (maxInflight : UInt64) (steps : List WakeupStep) :
    IsBoundedMap maxInflight steps ((ofMaxInflight maxInflight).run steps) := by
  have hcounted := isCounted_run (isCounted_ofMaxInflight maxInflight) steps
  have hlimit : ((ofMaxInflight maxInflight).run steps).maxInflight = maxInflight :=
    maxInflight_run _ steps
  have hget : ∀ pid time,
      ((ofMaxInflight maxInflight).run steps).pending.get? pid = some time ↔
        (ofMaxInflight maxInflight).LastStored steps pid time :=
    fun _ _ => get?_run_eq_some_iff (isCounted_ofMaxInflight maxInflight) rfl steps
  generalize (ofMaxInflight maxInflight).run steps = w at hcounted hlimit hget
  subst hlimit
  constructor
  case counted =>
    rw [ncard_waiting]
    exact ⟨hcounted.toNat_inflight, hcounted.size_le⟩
  case get?_iff => exact hget
  case others => exact fun s pid hne => get?_after_of_ne hcounted hne
  case record_of_waiting =>
    intro pid time hpid
    rcases recordWakeup_cases hcounted pid time with ⟨-, heq⟩ | ⟨hnew, -, -⟩ | ⟨hnew, -, -⟩
    · rw [heq]
      exact ⟨KeyMap.get?_insert_self _ _ _, rfl, rfl⟩
    · exact absurd hpid (notMem_waiting.mpr hnew)
    · exact absurd hpid (notMem_waiting.mpr hnew)
  case record_of_room =>
    intro pid time hpid hroom
    rw [ncard_waiting] at hroom
    rcases recordWakeup_cases hcounted pid time with ⟨hold, -⟩ | ⟨-, -, heq⟩ | ⟨-, hfull, -⟩
    · exact absurd hold hpid
    · rw [heq]
      exact ⟨KeyMap.get?_insert_self _ _ _, hcounted.toNat_inflight_add_one hroom, rfl⟩
    · exact absurd hroom (Nat.not_lt.mpr hfull)
  case record_of_full =>
    intro pid time hpid hfull
    rw [ncard_waiting] at hfull
    rcases recordWakeup_cases hcounted pid time with ⟨hold, -⟩ | ⟨-, hroom, -⟩ | ⟨-, -, heq⟩
    · exact absurd hold hpid
    · exact absurd hroom (Nat.not_lt.mpr hfull)
    · exact heq
  case take_of_waiting =>
    intro pid time htime
    have hsome : (w.pending.get? pid).isSome := by rw [htime]; rfl
    have hgone := (get?_take w pid pid).trans (if_pos rfl)
    rw [take_of_get?_eq_some htime] at hgone ⊢
    exact ⟨rfl, hgone, hcounted.toNat_inflight_sub_one hsome, rfl⟩
  case take_of_not_waiting =>
    exact fun pid hpid => take_of_get?_eq_none (notMem_waiting.mp hpid)

/-- A full table of two places: the third process is turned away, the first one is woken again, and
what was taken before makes room. -/
example :
    let w := (ofMaxInflight 2).run [.record 1 10, .record 2 20, .record 3 30, .record 1 11]
    (w.len, w.rejected, (w.take 3).1, (w.take 1).1) = (2, 1, none, some 11) ∧
      (((w.take 2).2.recordWakeup 3 40).take 3).1 = some 40 := by
  decide

end WakeupTable

end NodeTelemetry
