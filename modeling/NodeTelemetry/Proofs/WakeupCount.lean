import Mathlib
import NodeTelemetry.Wakeups

/-!
# The table of wakeups keeps count

The number of waiting processes is kept in a counter beside the map.  The counter is the number of
keys of the map and stays within the limit (`WakeupTable.IsCounted`), since a key joins the map
exactly when the counter grows (`WakeupTable.recordWakeup_cases`) and leaves it exactly when the
counter shrinks (`WakeupTable.take_cases`).  So the limit that the table compares with its counter
is a limit on the number of waiting processes.
-/

namespace NodeTelemetry

/-- The last entry of a list with some property, behind which others with another one may follow, is
the last entry of all or one before it. -/
lemma exists_last_concat {α : Type} {l : List α} {x : α} {P : List α → α → Prop} {Q : α → Prop} :
    (∃ before m later, l ++ [x] = before ++ m :: later ∧ P before m ∧ ∀ s ∈ later, Q s) ↔
      P l x ∨ (Q x ∧ ∃ before m later, l = before ++ m :: later ∧ P before m ∧
        ∀ s ∈ later, Q s) := by
  constructor
  · rintro ⟨before, m, later, heq, hm, hlater⟩
    rcases List.eq_nil_or_concat later with rfl | ⟨later, last, rfl⟩
    · obtain ⟨rfl, hx⟩ := List.append_inj' heq rfl
      obtain rfl := List.singleton_inj.mp hx
      exact .inl hm
    · rw [List.concat_eq_append, ← List.cons_append, ← List.append_assoc] at heq
      obtain ⟨rfl, hx⟩ := List.append_inj' heq rfl
      obtain rfl := List.singleton_inj.mp hx
      exact .inr ⟨hlater x (by simp), before, m, later, rfl, hm,
        fun s hs => hlater s (by simp [hs])⟩
  · rintro (hx | ⟨hx, before, m, later, rfl, hm, hlater⟩)
    · exact ⟨l, x, [], rfl, hx, by simp⟩
    · refine ⟨before, m, later ++ [x], by simp, hm, fun s hs => ?_⟩
      rcases List.mem_append.mp hs with hs | hs
      · exact hlater s hs
      · rwa [List.mem_singleton.mp hs]

namespace KeyMap

variable {α : Type} {m : KeyMap α} {key : UInt32}

/-! ## Keys after a change -/

/-- The keys of a map are listed once each. -/
lemma nodup_keys (m : KeyMap α) : m.keys.Nodup := m.pairwise_keys.imp UInt32.ne_of_lt

lemma length_keys (m : KeyMap α) : m.keys.length = m.size := List.length_map _

/-- A new key joins the others. -/
lemma keys_insert_perm_cons (h : m.get? key = none) (value : α) :
    (m.insert key value).keys.Perm (key :: m.keys) := by
  have hnew : key ∉ m.keys := by
    rw [mem_keys, h]
    exact Bool.false_ne_true
  refine (List.perm_ext_iff_of_nodup (nodup_keys _)
    (List.nodup_cons.mpr ⟨hnew, m.nodup_keys⟩)).mpr ?_
  intro key'
  rw [List.mem_cons, mem_keys, mem_keys, get?_insert]
  by_cases hkey : key' = key <;> simp [hkey]

/-- Putting another value under a key that is there keeps the keys. -/
lemma keys_insert_perm (h : (m.get? key).isSome) (value : α) :
    (m.insert key value).keys.Perm m.keys := by
  refine (List.perm_ext_iff_of_nodup (nodup_keys _) m.nodup_keys).mpr ?_
  intro key'
  rw [mem_keys, mem_keys, get?_insert]
  by_cases hkey : key' = key
  · simp [hkey, h]
  · simp [hkey]

/-- Erasing takes a key that is there from among the others. -/
lemma keys_perm_cons_erase (h : (m.get? key).isSome) : m.keys.Perm (key :: (m.erase key).keys) := by
  have hgone : key ∉ (m.erase key).keys := by
    rw [mem_keys, get?_erase, if_pos rfl]
    exact Bool.false_ne_true
  refine (List.perm_ext_iff_of_nodup m.nodup_keys
    (List.nodup_cons.mpr ⟨hgone, nodup_keys _⟩)).mpr ?_
  intro key'
  rw [List.mem_cons, mem_keys, mem_keys, get?_erase]
  by_cases hkey : key' = key
  · simp [hkey, h]
  · simp [hkey]

end KeyMap

namespace WakeupTable

variable {w : WakeupTable} {pid : UInt32} {time : UInt64}

/-- The counter of a table is the number of its waiting processes, and within the limit. -/
structure IsCounted (w : WakeupTable) : Prop where
  toNat_inflight : w.inflight.toNat = w.pending.size
  size_le : w.pending.size ≤ w.maxInflight.toNat

/-- A process waits already, or fewer processes wait than the table can hold. -/
def HasRoomFor (w : WakeupTable) (pid : UInt32) : Prop :=
  (w.pending.get? pid).isSome ∨ w.pending.size < w.maxInflight.toNat

instance (w : WakeupTable) (pid : UInt32) : Decidable (w.HasRoomFor pid) :=
  inferInstanceAs (Decidable (_ ∨ _))

lemma isCounted_ofMaxInflight (maxInflight : UInt64) : (ofMaxInflight maxInflight).IsCounted :=
  ⟨rfl, Nat.zero_le _⟩

/-! ## One change -/

/-- What storing a wakeup comes to: a waiting process gets another time, a new one joins the others
and is counted, or there is no room and the wakeup is turned away. -/
lemma recordWakeup_cases (h : w.IsCounted) (pid : UInt32) (time : UInt64) :
    ((w.pending.get? pid).isSome ∧
        w.recordWakeup pid time = { w with pending := w.pending.insert pid time }) ∨
      (w.pending.get? pid = none ∧ w.pending.size < w.maxInflight.toNat ∧
        w.recordWakeup pid time =
          { w with pending := w.pending.insert pid time, inflight := w.inflight + 1 }) ∨
      (w.pending.get? pid = none ∧ w.maxInflight.toNat ≤ w.pending.size ∧
        w.recordWakeup pid time = { w with rejected := w.rejected + 1 }) := by
  have hfull : w.maxInflight ≤ w.inflight ↔ w.maxInflight.toNat ≤ w.pending.size := by
    rw [UInt64.le_iff_toNat_le, h.toNat_inflight]
  cases hpending : w.pending.get? pid with
  | some woken => exact .inl ⟨rfl, by simp [recordWakeup, hpending]⟩
  | none =>
    by_cases hroom : w.pending.size < w.maxInflight.toNat
    · exact .inr (.inl ⟨rfl, hroom, by simp [recordWakeup, hpending, hfull, hroom]⟩)
    · have hfew := Nat.not_lt.mp hroom
      exact .inr (.inr ⟨rfl, hfew, by simp [recordWakeup, hpending, hfull, hfew]⟩)

/-- The counter does not wrap when a process joins the others. -/
lemma IsCounted.toNat_inflight_add_one (h : w.IsCounted)
    (hroom : w.pending.size < w.maxInflight.toNat) :
    (w.inflight + 1).toNat = w.inflight.toNat + 1 := by
  have hmax : w.maxInflight.toNat < UInt64.size := w.maxInflight.toNat_lt
  have hcount := h.toNat_inflight
  rw [UInt64.toNat_add]
  exact Nat.mod_eq_of_lt (by change w.inflight.toNat + 1 < UInt64.size; omega)

/-- The counter does not wrap when a process leaves the others. -/
lemma IsCounted.toNat_inflight_sub_one (h : w.IsCounted) (hpending : (w.pending.get? pid).isSome) :
    (w.inflight - 1).toNat + 1 = w.inflight.toNat := by
  have hsize := (KeyMap.keys_perm_cons_erase hpending).length_eq
  rw [List.length_cons, KeyMap.length_keys, KeyMap.length_keys] at hsize
  have hone : (1 : UInt64) ≤ w.inflight := by
    rw [UInt64.le_iff_toNat_le, h.toNat_inflight, hsize]
    exact Nat.le_add_left 1 _
  rw [UInt64.toNat_sub_of_le _ _ hone]
  exact Nat.sub_add_cancel (UInt64.le_iff_toNat_le.mp hone)

/-- Storing a wakeup keeps the count. -/
lemma IsCounted.recordWakeup (h : w.IsCounted) (pid : UInt32) (time : UInt64) :
    (w.recordWakeup pid time).IsCounted := by
  obtain ⟨hcount, hle⟩ := h
  rcases recordWakeup_cases ⟨hcount, hle⟩ pid time with
    ⟨hpending, heq⟩ | ⟨hnew, hroom, heq⟩ | ⟨-, -, heq⟩
  · have hsize := (KeyMap.keys_insert_perm hpending time).length_eq
    rw [KeyMap.length_keys, KeyMap.length_keys] at hsize
    rw [heq]
    exact ⟨hcount.trans hsize.symm, hsize.trans_le hle⟩
  · have hsize := (KeyMap.keys_insert_perm_cons hnew time).length_eq
    rw [List.length_cons, KeyMap.length_keys, KeyMap.length_keys] at hsize
    have hgrown := IsCounted.toNat_inflight_add_one ⟨hcount, hle⟩ hroom
    rw [heq]
    exact ⟨hgrown.trans (by rw [hcount, hsize]), hsize.trans_le hroom⟩
  · rw [heq]
    exact ⟨hcount, hle⟩

/-- Taking a wakeup keeps the count. -/
lemma IsCounted.take (h : w.IsCounted) (pid : UInt32) : (w.take pid).2.IsCounted := by
  obtain ⟨hcount, hle⟩ := h
  cases hpending : w.pending.get? pid with
  | none =>
    rw [take_of_get?_eq_none hpending]
    exact ⟨hcount, hle⟩
  | some woken =>
    have hsome : (w.pending.get? pid).isSome := by rw [hpending]; rfl
    have hsize := (KeyMap.keys_perm_cons_erase hsome).length_eq
    rw [List.length_cons, KeyMap.length_keys, KeyMap.length_keys] at hsize
    have hshrunk := IsCounted.toNat_inflight_sub_one ⟨hcount, hle⟩ hsome
    rw [take_of_get?_eq_some hpending]
    refine ⟨?_, (Nat.le_of_succ_le hsize.ge).trans hle⟩
    rw [hcount, hsize] at hshrunk
    exact Nat.succ.inj hshrunk

/-- A wakeup is stored exactly if there is room for its process, and under no other process. -/
lemma get?_recordWakeup (h : w.IsCounted) (pid pid' : UInt32) (time : UInt64) :
    (w.recordWakeup pid time).pending.get? pid' =
      if pid' = pid ∧ w.HasRoomFor pid then some time else w.pending.get? pid' := by
  rcases recordWakeup_cases h pid time with ⟨hpending, heq⟩ | ⟨-, hroom, heq⟩ | ⟨hnew, hfull, heq⟩
  · have hhas : w.HasRoomFor pid := .inl hpending
    simp only [heq, KeyMap.get?_insert, hhas, and_true]
  · have hhas : w.HasRoomFor pid := .inr hroom
    simp only [heq, KeyMap.get?_insert, hhas, and_true]
  · have hhas : ¬ w.HasRoomFor pid := by
      rintro (hsome | hlt)
      · rw [hnew] at hsome
        cases hsome
      · exact absurd hfull (Nat.not_le.mpr hlt)
    simp only [heq, hhas, and_false, if_false]

/-- Taking a wakeup leaves those of other processes. -/
lemma get?_take (w : WakeupTable) (pid pid' : UInt32) :
    (w.take pid).2.pending.get? pid' = if pid' = pid then none else w.pending.get? pid' := by
  cases hpending : w.pending.get? pid with
  | none =>
    rw [take_of_get?_eq_none hpending]
    by_cases hpid : pid' = pid <;> simp [hpid, hpending]
  | some woken =>
    rw [take_of_get?_eq_some hpending]
    exact KeyMap.get?_erase _ _ _

/-- What is taken is what was stored. -/
lemma take_fst (w : WakeupTable) (pid : UInt32) : (w.take pid).1 = w.pending.get? pid := by
  unfold take
  split <;> simp_all

end WakeupTable

end NodeTelemetry
