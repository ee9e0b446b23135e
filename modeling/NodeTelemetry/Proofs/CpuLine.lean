import Mathlib
import NodeTelemetry.CpuTime
import NodeTelemetry.Proofs.DecimalNumerals
import NodeTelemetry.Proofs.TextLines
import NodeTelemetry.Proofs.TextWords

/-!
# The line of processor times

The text of the kernel is read by a grammar of its own: the first line whose first word is `cpu` has
to list seven numerals behind it, of which the sum fits 64 bits (`IsCpuLine`, `ListsTicks`).  The
line is found among the others by its first word (`CpuTimes.ofText?_of_isFirstCpuLine`) and its
numerals are read at once (`CpuTimes.ofWords?_eq_some_iff`).  The grammar is what is read, no more
and no less, and texts written by it are read back: `CpuTimes.ReadsTicks`.
-/

namespace NodeTelemetry

open Text

/-! ## The grammar -/

/-- The seven times of a line, in ticks. -/
structure CpuTicks where
  user : ℕ
  nice : ℕ
  system : ℕ
  idle : ℕ
  iowait : ℕ
  irq : ℕ
  softirq : ℕ
  deriving DecidableEq, Repr

namespace CpuTicks

/-- The times in their order in the line. -/
def toList (t : CpuTicks) : List ℕ :=
  [t.user, t.nice, t.system, t.idle, t.iowait, t.irq, t.softirq]

/-- The ticks spent busy. -/
def busy (t : CpuTicks) : ℕ := t.user + t.nice + t.system + t.irq + t.softirq

/-- All ticks. -/
def total (t : CpuTicks) : ℕ := t.busy + t.idle + t.iowait

lemma sum_toList (t : CpuTicks) : t.toList.sum = t.total := by
  simp only [toList, total, busy, List.sum_cons, List.sum_nil]
  omega

lemma le_total_of_mem {t : CpuTicks} {n : ℕ} (h : n ∈ t.toList) : n ≤ t.total :=
  (List.le_sum_of_mem h).trans_eq t.sum_toList

end CpuTicks

/-- Numbers in decimal, each after a gap. -/
def spacedNumbers (gaps : List (List Char)) (ns : List ℕ) : List Char :=
  (gaps.zip ns).flatMap fun x => x.1 ++ Nat.toDigits 10 x.2

/-- The lines of a text, each without a carriage return at its end. -/
def statLines (text : List Char) : List (List Char) := (text.splitOn '\n').map dropReturn

/-- The first word of a line is `cpu`. -/
def IsCpuLine (line : List Char) : Prop := (tokens line).head? = some "cpu".toList

/-- A line is the first one of a text whose first word is `cpu`. -/
def IsFirstCpuLine (text line : List Char) : Prop :=
  ∃ before after, statLines text = before ++ line :: after ∧ (∀ l ∈ before, ¬ IsCpuLine l) ∧
    IsCpuLine line

/-- The words of a line from the second one on start with seven numerals, of which the sum fits 64
bits. -/
def ListsTicks (line : List Char) (t : CpuTicks) : Prop :=
  ∃ fields rest, (tokens line).tail = fields ++ rest ∧
    List.Forall₂ IsNumeral fields t.toList ∧ t.total < UInt64.size

lemma ListsTicks.total_lt {line : List Char} {t : CpuTicks} (h : ListsTicks line t) :
    t.total < UInt64.size := by
  obtain ⟨_, _, _, _, hlt⟩ := h
  exact hlt

namespace CpuTimes

/-! ## Finding the line -/

/-- The words of a line behind `cpu`, if that is its first word. -/
def fields? : List (List Char) → Option (List (List Char))
  | name :: fields => if name = "cpu".toList then some fields else none
  | [] => none

lemma fields?_eq_none_iff {line : List Char} : fields? (tokens line) = none ↔ ¬ IsCpuLine line := by
  unfold IsCpuLine
  cases tokens line <;> simp [fields?]

lemma fields?_eq_some_iff {line : List Char} {fields : List (List Char)} :
    fields? (tokens line) = some fields ↔ IsCpuLine line ∧ (tokens line).tail = fields := by
  unfold IsCpuLine
  cases tokens line <;> simp [fields?]

/-- The first line whose first word is `cpu` is read. -/
lemma ofText?_eq (text : List Char) :
    ofText? text =
      ((statLines text).findSome? fun line => fields? (tokens line)).bind ofWords? := by
  have hwords : (lines text).map words = (statLines text).map tokens := by
    rw [statLines, List.map_map, lines_eq_splitOn]
    refine List.map_congr_left fun line _ => ?_
    rw [words_eq_tokens, Function.comp_apply, tokens_dropReturn]
  -- the reader looks for the line by the match that `fields?` is
  change (((lines text).map words).findSome? fields?).bind ofWords? = _
  rw [hwords, List.findSome?_map]
  rfl

/-- What is read is what stands behind `cpu` in the first line with this word. -/
lemma ofText?_of_isFirstCpuLine {text line : List Char} (h : IsFirstCpuLine text line) :
    ofText? text = ofWords? (tokens line).tail := by
  obtain ⟨before, after, hlines, hbefore, hline⟩ := h
  have hfound : (statLines text).findSome? (fun line => fields? (tokens line)) =
      some (tokens line).tail :=
    List.findSome?_eq_some_iff.mpr ⟨before, line, after, hlines,
      fields?_eq_some_iff.mpr ⟨hline, rfl⟩, fun l hl => fields?_eq_none_iff.mpr (hbefore l hl)⟩
  rw [ofText?_eq, hfound, Option.bind_some]

/-- Where something is read there is a line with the word `cpu`. -/
lemma exists_isFirstCpuLine {text : List Char} {t : CpuTimes} (h : ofText? text = some t) :
    ∃ line, IsFirstCpuLine text line := by
  rw [ofText?_eq] at h
  obtain ⟨fields, hfound, -⟩ := Option.bind_eq_some_iff.mp h
  obtain ⟨before, line, after, hlines, hline, hbefore⟩ := List.findSome?_eq_some_iff.mp hfound
  exact ⟨line, before, after, hlines, fun l hl => fields?_eq_none_iff.mp (hbefore l hl),
    (fields?_eq_some_iff.mp hline).1⟩

/-! ## Reading the times -/

/-- Counts are added to a start exactly if their sum stays within 64 bits. -/
lemma foldlM_checkedAdd_eq_some_iff {ticks : List UInt64} {start total : UInt64} :
    ticks.foldlM checkedAdd start = some total ↔
      total.toNat = start.toNat + (ticks.map UInt64.toNat).sum := by
  induction ticks generalizing start with
  | nil =>
    rw [List.foldlM_nil, List.map_nil, List.sum_nil, Nat.add_zero, UInt64.toNat_inj]
    exact Option.some_inj.trans eq_comm
  | cons n ticks ih =>
    rw [List.foldlM_cons, List.map_cons, List.sum_cons, ← Nat.add_assoc, checkedAdd]
    split_ifs with hfits
    · have hsum : (start + n).toNat = start.toNat + n.toNat := by
        rw [UInt64.toNat_add]
        exact Nat.mod_eq_of_lt hfits
      exact ih.trans (by rw [hsum])
    · -- a sum that is too large already is not made smaller by what follows
      have hlt := total.toNat_lt_size
      refine iff_of_false (fun h => ?_) (by omega)
      cases h

/-- Two parts of a total can be taken off it one after the other. -/
lemma toNat_sub_sub {total idle iowait : UInt64} (h : idle.toNat + iowait.toNat ≤ total.toNat) :
    idle ≤ total ∧ iowait ≤ total - idle ∧
      (total - idle - iowait).toNat = total.toNat - idle.toNat - iowait.toNat := by
  have hidle : idle ≤ total := UInt64.le_iff_toNat_le.mpr (by omega)
  have hrest := UInt64.toNat_sub_of_le _ _ hidle
  have hiowait : iowait ≤ total - idle := UInt64.le_iff_toNat_le.mpr (by omega)
  exact ⟨hidle, hiowait, by rw [UInt64.toNat_sub_of_le _ _ hiowait, hrest]⟩

/-- The idle times can be taken off the total one after the other. -/
lemma sub_idle_sub_iowait {times : CpuTicks} {t : CpuTimes} (hbusy : t.busy.toNat = times.busy)
    (htotal : t.total.toNat = times.total) :
    UInt64.ofNat times.idle ≤ t.total ∧
    UInt64.ofNat times.iowait ≤ t.total - UInt64.ofNat times.idle ∧
    t.total - UInt64.ofNat times.idle - UInt64.ofNat times.iowait = t.busy ∧ t.busy ≤ t.total := by
  have hsum : t.total.toNat = t.busy.toNat + times.idle + times.iowait := by
    rw [htotal, hbusy, CpuTicks.total]
  have hlt : t.total.toNat < UInt64.size := t.total.toNat_lt_size
  have hidle : (UInt64.ofNat times.idle).toNat = times.idle :=
    UInt64.toNat_ofNat_of_lt' (by omega)
  have hiowait : (UInt64.ofNat times.iowait).toNat = times.iowait :=
    UInt64.toNat_ofNat_of_lt' (by omega)
  obtain ⟨hle, hle', hsub⟩ :=
    toNat_sub_sub (by omega : (UInt64.ofNat times.idle).toNat + (UInt64.ofNat times.iowait).toNat ≤
      t.total.toNat)
  refine ⟨hle, hle', ?_, UInt64.le_iff_toNat_le.mpr (by omega)⟩
  rw [← UInt64.toNat_inj, hsub]
  omega

/-- Seven times are read if their sum fits 64 bits. -/
lemma ofTicks?_eq_some_iff {ticks : List UInt64} {t : CpuTimes} :
    ofTicks? ticks = some t ↔ ∃ times : CpuTicks, times.toList = ticks.map UInt64.toNat ∧
      t.busy.toNat = times.busy ∧ t.total.toNat = times.total := by
  constructor
  · intro h
    unfold ofTicks? at h
    split at h
    · next user nice system idle iowait irq softirq =>
      let times : CpuTicks := ⟨user.toNat, nice.toNat, system.toNat, idle.toNat, iowait.toNat,
        irq.toNat, softirq.toNat⟩
      obtain ⟨total, hsum, rfl⟩ := Option.map_eq_some_iff.mp h
      have htotal : total.toNat = times.total := by
        rw [foldlM_checkedAdd_eq_some_iff, UInt64.toNat_zero, Nat.zero_add] at hsum
        exact hsum.trans times.sum_toList
      have hsplit : total.toNat = times.busy + idle.toNat + iowait.toNat := htotal
      obtain ⟨-, -, hbusy⟩ := toNat_sub_sub (by omega : idle.toNat + iowait.toNat ≤ total.toNat)
      exact ⟨times, rfl, by simp only [hbusy]; omega, htotal⟩
    · cases h
  · rintro ⟨times, htimes, hbusy, htotal⟩
    obtain rfl : ticks = times.toList.map UInt64.ofNat := by
      rw [htimes, List.map_map]
      simp [Function.comp_def]
    have hsum : (times.toList.map UInt64.ofNat).foldlM checkedAdd 0 = some t.total := by
      rw [foldlM_checkedAdd_eq_some_iff, ← htimes, times.sum_toList, UInt64.toNat_zero,
        Nat.zero_add, htotal]
    change ((times.toList.map UInt64.ofNat).foldlM checkedAdd 0).map _ = _
    obtain ⟨-, -, hsub, -⟩ := sub_idle_sub_iowait hbusy htotal
    rw [hsum, Option.map_some, hsub]

/-- What is read behind `cpu` is what the line lists. -/
lemma ofWords?_eq_some_iff {line : List Char} {t : CpuTimes} :
    ofWords? (tokens line).tail = some t ↔ ∃ times, ListsTicks line times ∧
      t.busy.toNat = times.busy ∧ t.total.toNat = times.total := by
  unfold ofWords?
  simp only [Option.bind_eq_some_iff, Decimal.mapM_bounded?_eq_some_iff, ofTicks?_eq_some_iff]
  constructor
  · rintro ⟨ns, hnumerals, times, htimes, hbusy, htotal⟩
    obtain rfl : times.toList = ns := htimes.trans (map_toNat_of_isNumeral hnumerals)
    exact ⟨times, ⟨_, _, (List.take_append_drop 7 _).symm, hnumerals, htotal ▸ t.total.toNat_lt⟩,
      hbusy, htotal⟩
  · rintro ⟨times, ⟨fields, rest, htail, hnumerals, -⟩, hbusy, htotal⟩
    have hlength : fields.length = 7 := hnumerals.length_eq
    have hfields : (tokens line).tail.take 7 = fields := by
      rw [htail, List.take_left' hlength]
    exact ⟨times.toList, hfields ▸ hnumerals, times, (map_toNat_of_isNumeral hnumerals).symm, hbusy,
      htotal⟩

/-! ## Written lines -/

lemma isBlank_of_isDigit {c : Char} (h : c.isDigit = true) : isBlank c = false := by
  obtain ⟨hlo, hhi⟩ := Char.isDigit_iff_toNat.mp h
  change 48 ≤ c.toNat at hlo
  change c.toNat ≤ 57 at hhi
  simp only [isBlank, Bool.or_eq_false_iff, Bool.and_eq_false_iff, beq_eq_false_iff_ne,
    decide_eq_false_iff_not]
  omega

/-- What is written in front of blanks or the end starts with a blank, since there is a gap before
each number. -/
lemma isBlank_of_head_spacedNumbers {gaps : List (List Char)} {ns : List ℕ}
    (hgaps : ∀ gap ∈ gaps, gap ≠ [] ∧ IsGap gap) {tail : List Char}
    (htail : ∀ c ∈ tail.head?, isBlank c = true) :
    ∀ c ∈ (spacedNumbers gaps ns ++ tail).head?, isBlank c = true := by
  rcases gaps with _ | ⟨gap, gaps⟩
  · exact htail
  · rcases ns with _ | ⟨n, ns⟩
    · exact htail
    · obtain ⟨hne, hgap⟩ := hgaps gap List.mem_cons_self
      obtain ⟨c, gap, rfl⟩ := List.exists_cons_of_ne_nil hne
      rintro _ ⟨⟩
      exact hgap c List.mem_cons_self

/-- Numbers that are written each after a gap are words. -/
lemma tokens_spacedNumbers {gaps : List (List Char)} {ns : List ℕ}
    (hlength : gaps.length = ns.length) (hgaps : ∀ gap ∈ gaps, gap ≠ [] ∧ IsGap gap)
    {tail : List Char} (htail : ∀ c ∈ tail.head?, isBlank c = true) :
    tokens (spacedNumbers gaps ns ++ tail) = ns.map (Nat.toDigits 10) ++ tokens tail := by
  induction gaps generalizing ns with
  | nil =>
    obtain rfl : ns = [] := List.length_eq_zero_iff.mp hlength.symm
    rfl
  | cons gap gaps ih =>
    obtain ⟨n, ns, rfl⟩ := List.exists_cons_of_length_eq_add_one hlength.symm
    obtain ⟨hgap, hrest⟩ := List.forall_mem_cons.mp hgaps
    have htext : spacedNumbers (gap :: gaps) (n :: ns) ++ tail =
        gap ++ (Nat.toDigits 10 n ++ (spacedNumbers gaps ns ++ tail)) := by
      simp [spacedNumbers]
    -- the number ends at the gap of the next one, or at the tail
    rw [htext, tokens_gap hgap.2, tokens_word (toDigits_ne_nil n)
      (fun _ hc => isBlank_of_isDigit (isDigit_of_mem_toDigits hc))
      (isBlank_of_head_spacedNumbers hrest htail), ih (Nat.succ.inj hlength) hrest]
    rfl

/-- The pieces of a text of lines are these lines, up to the rest. -/
lemma splitOn_terminated {before : List (List Char)} (h : ∀ l ∈ before, '\n' ∉ l)
    (text : List Char) : (terminated '\n' before ++ text).splitOn '\n' =
      before ++ text.splitOn '\n' := by
  induction before with
  | nil => rfl
  | cons l before ih =>
    obtain ⟨hl, hbefore⟩ := List.forall_mem_cons.mp h
    rw [terminated_cons, List.append_assoc, List.cons_append,
      List.splitOn_append_cons_self_of_not_mem hl, ih hbefore, List.cons_append]

/-- The line of a text that stands behind other lines is found if its first word is `cpu` and theirs
is not. -/
lemma isFirstCpuLine_of_lines {before : List (List Char)} {line rest : List Char}
    (hbefore : ∀ l ∈ before, '\n' ∉ l ∧ ¬ IsCpuLine l) (hline : '\n' ∉ line)
    (hcpu : IsCpuLine line) (hrest : ∀ c ∈ rest.head?, c = '\n') :
    IsFirstCpuLine (terminated '\n' before ++ (line ++ rest)) (dropReturn line) := by
  have hsplit : ∃ after, (line ++ rest).splitOn '\n' = line :: after := by
    cases rest with
    | nil => exact ⟨[], by rw [List.append_nil, List.splitOn_eq_singleton hline]⟩
    | cons c rest =>
      obtain rfl : c = '\n' := hrest c rfl
      exact ⟨_, List.splitOn_append_cons_self_of_not_mem hline rest⟩
  obtain ⟨after, hafter⟩ := hsplit
  have hreturn : ∀ l, IsCpuLine (dropReturn l) ↔ IsCpuLine l := by
    intro l
    rw [IsCpuLine, tokens_dropReturn, IsCpuLine]
  refine ⟨before.map dropReturn, after.map dropReturn, ?_, ?_, (hreturn line).mpr hcpu⟩
  · rw [statLines, splitOn_terminated fun l hl => (hbefore l hl).1, hafter, List.map_append,
      List.map_cons]
  · intro l hl
    obtain ⟨l, hmem, rfl⟩ := List.mem_map.mp hl
    exact fun hl => (hbefore l hmem).2 ((hreturn l).mp hl)

/-- A line of written times, behind blanks and in front of any words. -/
def writtenLine (lead : List Char) (gaps : List (List Char)) (times : CpuTicks) (tail : List Char) :
    List Char :=
  lead ++ ("cpu".toList ++ (spacedNumbers gaps times.toList ++ tail))

section Written

variable {lead tail : List Char} {gaps : List (List Char)} {times : CpuTicks}

lemma tokens_writtenLine (hlead : IsGap lead) (hlength : gaps.length = 7)
    (hgaps : ∀ gap ∈ gaps, gap ≠ [] ∧ IsGap gap) (htail : ∀ c ∈ tail.head?, isBlank c = true) :
    tokens (writtenLine lead gaps times tail) =
      "cpu".toList :: (times.toList.map (Nat.toDigits 10) ++ tokens tail) := by
  have hname : ∀ c ∈ "cpu".toList, isBlank c = false := by simp [isBlank]
  rw [writtenLine, tokens_gap hlead, tokens_word (by decide) hname
    (isBlank_of_head_spacedNumbers hgaps htail), tokens_spacedNumbers hlength hgaps htail]

/-- The written times are the ones that the line lists. -/
lemma listsTicks_dropReturn_writtenLine (hlead : IsGap lead) (hlength : gaps.length = 7)
    (hgaps : ∀ gap ∈ gaps, gap ≠ [] ∧ IsGap gap) (htail : ∀ c ∈ tail.head?, isBlank c = true)
    (hlt : times.total < UInt64.size) :
    ListsTicks (dropReturn (writtenLine lead gaps times tail)) times := by
  refine ⟨times.toList.map (Nat.toDigits 10), tokens tail, ?_, ?_, hlt⟩
  · rw [tokens_dropReturn, tokens_writtenLine hlead hlength hgaps htail, List.tail_cons]
  · rw [List.forall₂_map_left_iff, List.forall₂_same]
    exact fun n hn => isNumeral_toDigits ((CpuTicks.le_total_of_mem hn).trans_lt hlt)

lemma newline_notMem_writtenLine (hlead : '\n' ∉ lead) (hgaps : ∀ gap ∈ gaps, '\n' ∉ gap)
    (htail : '\n' ∉ tail) : '\n' ∉ writtenLine lead gaps times tail := by
  have hnumbers : '\n' ∉ spacedNumbers gaps times.toList := by
    intro hmem
    obtain ⟨⟨gap, n⟩, hpair, hmem⟩ := List.mem_flatMap.mp hmem
    rcases List.mem_append.mp hmem with hgap | hdigit
    · exact hgaps gap (List.of_mem_zip hpair).1 hgap
    · exact absurd (isDigit_of_mem_toDigits hdigit) (by decide)
  have hname : '\n' ∉ "cpu".toList := by decide
  simp only [writtenLine, List.mem_append, not_or]
  exact ⟨hlead, hname, hnumbers, htail⟩

end Written

/-! ## What is read -/

/-- A reader of texts accepts the grammar and nothing else, and computes the two sums. -/
structure ReadsTicks (read : List Char → Option CpuTimes) : Prop where
  /-- Something is read exactly if the first line with the word `cpu` lists seven times. -/
  isSome_iff : ∀ text, (read text).isSome ↔
    ∃ line times, IsFirstCpuLine text line ∧ ListsTicks line times
  /-- What is read are the sums of these times. -/
  of_lists : ∀ text line times, IsFirstCpuLine text line → ListsTicks line times →
    ∃ t, read text = some t ∧ t.busy.toNat = times.busy ∧ t.total.toNat = times.total
  /-- The busy ticks are what is left of the total, and no difference on the way is below zero. -/
  sub_eq_busy : ∀ text line times t, IsFirstCpuLine text line → ListsTicks line times →
    read text = some t →
    UInt64.ofNat times.idle ≤ t.total ∧
    UInt64.ofNat times.iowait ≤ t.total - UInt64.ofNat times.idle ∧
    t.total - UInt64.ofNat times.idle - UInt64.ofNat times.iowait = t.busy ∧ t.busy ≤ t.total
  /-- Neither another line nor a word after the eighth one of the line matters. -/
  congr : ∀ text text' line line', IsFirstCpuLine text line → IsFirstCpuLine text' line' →
    (tokens line).take 8 = (tokens line').take 8 → read text = read text'
  /-- Written times are read back, whatever blanks are between them, whatever words follow, and
  whatever lines are around, except that no line before them has the word `cpu`. -/
  of_written : ∀ before lead gaps times tail rest,
    (∀ l ∈ before, '\n' ∉ l ∧ ¬ IsCpuLine l) → IsGap lead → '\n' ∉ lead →
    gaps.length = 7 → (∀ gap ∈ gaps, gap ≠ [] ∧ IsGap gap) → (∀ gap ∈ gaps, '\n' ∉ gap) →
    (∀ c ∈ tail.head?, isBlank c = true) → '\n' ∉ tail → (∀ c ∈ rest.head?, c = '\n') →
    times.total < UInt64.size →
    ∃ t, read (terminated '\n' before ++ (writtenLine lead gaps times tail ++ rest)) = some t ∧
      t.busy.toNat = times.busy ∧ t.total.toNat = times.total

variable {text line : List Char} {times : CpuTicks} {t : CpuTimes}

/-- The times that are read are those that the first line with the word `cpu` lists. -/
lemma ofText?_eq_some_iff :
    ofText? text = some t ↔ ∃ line times, IsFirstCpuLine text line ∧ ListsTicks line times ∧
      t.busy.toNat = times.busy ∧ t.total.toNat = times.total := by
  constructor
  · intro h
    obtain ⟨line, hline⟩ := exists_isFirstCpuLine h
    rw [ofText?_of_isFirstCpuLine hline, ofWords?_eq_some_iff] at h
    obtain ⟨times, hlists, hvalues⟩ := h
    exact ⟨line, times, hline, hlists, hvalues⟩
  · rintro ⟨line, times, hline, hlists, hvalues⟩
    rw [ofText?_of_isFirstCpuLine hline, ofWords?_eq_some_iff]
    exact ⟨times, hlists, hvalues⟩

/-- Something is read where a line lists times. -/
lemma exists_ofText?_of_listsTicks (hline : IsFirstCpuLine text line)
    (hlists : ListsTicks line times) :
    ∃ t, ofText? text = some t ∧ t.busy.toNat = times.busy ∧ t.total.toNat = times.total := by
  have hlt := hlists.total_lt
  have hbusy : times.busy < UInt64.size := by
    unfold CpuTicks.total at hlt
    omega
  refine ⟨⟨UInt64.ofNat times.busy, UInt64.ofNat times.total⟩, ?_,
    UInt64.toNat_ofNat_of_lt' hbusy, UInt64.toNat_ofNat_of_lt' hlt⟩
  exact ofText?_eq_some_iff.mpr ⟨line, times, hline, hlists, UInt64.toNat_ofNat_of_lt' hbusy,
    UInt64.toNat_ofNat_of_lt' hlt⟩

/-- The words after the eighth one are not read. -/
lemma ofWords?_congr {ws ws' : List (List Char)} (h : ws.take 8 = ws'.take 8) :
    ofWords? ws.tail = ofWords? ws'.tail := by
  have htake : ∀ ws : List (List Char), ws.tail.take 7 = (ws.take 8).tail := by
    intro ws
    cases ws <;> rfl
  rw [ofWords?, ofWords?, htake, htake, h]

/-- **What is read of the processor times.**  The reader accepts its grammar and nothing else, and
what is written by the grammar is read back. -/
theorem readsTicks_ofText : ReadsTicks ofText? where
  isSome_iff text := by
    constructor
    · intro hsome
      obtain ⟨t, ht⟩ := Option.isSome_iff_exists.mp hsome
      obtain ⟨line, times, hline, hlists, -⟩ := ofText?_eq_some_iff.mp ht
      exact ⟨line, times, hline, hlists⟩
    · rintro ⟨line, times, hline, hlists⟩
      obtain ⟨t, ht, -⟩ := exists_ofText?_of_listsTicks hline hlists
      exact Option.isSome_iff_exists.mpr ⟨t, ht⟩
  of_lists _ _ _ := exists_ofText?_of_listsTicks
  sub_eq_busy text line times t hline hlists ht := by
    obtain ⟨t', ht', hbusy, htotal⟩ := exists_ofText?_of_listsTicks hline hlists
    obtain rfl : t' = t := Option.some.inj (ht'.symm.trans ht)
    exact sub_idle_sub_iowait hbusy htotal
  congr text text' line line' hline hline' hwords := by
    rw [ofText?_of_isFirstCpuLine hline, ofText?_of_isFirstCpuLine hline', ofWords?_congr hwords]
  of_written before lead gaps times tail rest hbefore hlead hleadLine hlength hgaps hgapsLine htail
      htailLine hrest hlt := by
    have hcpu : IsCpuLine (writtenLine lead gaps times tail) := by
      rw [IsCpuLine, tokens_writtenLine hlead hlength hgaps htail, List.head?_cons]
    exact exists_ofText?_of_listsTicks
      (isFirstCpuLine_of_lines hbefore
        (newline_notMem_writtenLine hleadLine hgapsLine htailLine) hcpu hrest)
      (listsTicks_dropReturn_writtenLine hlead hlength hgaps htail hlt)

/-- A processor of its own, a plus sign, a carriage return and an eighth time. -/
example : ofText? "cpu0 1 1 1 1 1 1 1\n\tcpu  +1 2 3 40 5 6 7 x\r\n".toList =
    some ⟨19, 64⟩ := by
  decide +kernel

end CpuTimes

end NodeTelemetry
