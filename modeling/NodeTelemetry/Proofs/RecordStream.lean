import Mathlib
import NodeTelemetry.Proofs.TextLines

/-!
# Streams of records

A record is a text of lines that is known by its first line: no later line ends with it, and only
the last line is empty.  So where the first line stands in a stream of records, a record starts
(`Framing.isComplete_of_first_prefix`), and a part of a record that is a stream of whole records is
the whole record (`Framing.eq_of_isComplete`).  So parts of records one after another are a stream
of whole records only if none is cut (`Framing.areWhole_of_isComplete`), and a whole record after a
cut one is not a record of any stream (`Framing.areWhole_of_isStream`).
-/

namespace NodeTelemetry

variable {α : Type} {stop : α} {first : List α} {R : List α → Prop}

/-- The lines between the first line of a record and the empty one at its end. -/
structure IsMiddle (stop : α) (first : List α) (lines : List (List α)) : Prop where
  stop_notMem : ∀ line ∈ lines, stop ∉ line
  ne_nil : ∀ line ∈ lines, line ≠ []
  not_suffix : ∀ line ∈ lines, ¬ first <:+ line

/-- The lines of a record. -/
def framedLines (first : List α) (middle : List (List α)) : List (List α) :=
  first :: (middle ++ [[]])

/-- Records of lines with a common first line. -/
structure Framing (stop : α) (first : List α) (R : List α → Prop) : Prop where
  first_ne : first ≠ []
  stop_notMem : stop ∉ first
  exists_middle : ∀ r, R r → ∃ middle, IsMiddle stop first middle ∧
    r = terminated stop (framedLines first middle)

/-- A stream of whole records. -/
def IsComplete (R : List α → Prop) (s : List α) : Prop :=
  ∃ records : List (List α), (∀ r ∈ records, R r) ∧ s = records.flatten

/-- A stream of whole records, and the front of one more at the end. -/
def IsStream (R : List α → Prop) (s : List α) : Prop :=
  ∃ (records : List (List α)) (part r : List α),
    (∀ r ∈ records, R r) ∧ R r ∧ part <+: r ∧ s = records.flatten ++ part

/-! ## Ends of texts -/

/-- The end of a text of lines has a terminator, if it is not empty. -/
lemma stop_mem_of_suffix_terminated {lines : List (List α)} {text : List α} (hne : text ≠ [])
    (h : text <:+ terminated stop lines) : stop ∈ text := by
  obtain ⟨front, hfront⟩ := h
  rcases List.eq_nil_or_concat' text with rfl | ⟨text, x, rfl⟩
  · exact absurd rfl hne
  rcases List.eq_nil_or_concat' lines with rfl | ⟨lines, line, rfl⟩
  · simp at hfront
  · have hlast := congrArg List.getLast? hfront
    rw [terminated_append, terminated_cons, terminated_nil] at hlast
    obtain rfl : x = stop := by simpa using hlast
    simp

/-! ## Lines of a stream -/

/-- A line of a stream of records that ends with the first line of records starts a record. -/
lemma exists_prefix_of_first_suffix {middles : List (List (List α))} (hfirst : first ≠ [])
    (hmiddles : ∀ m ∈ middles, IsMiddle stop first m) {before after : List (List α)}
    {line : List α} (hlines : middles.flatMap (framedLines first) = before ++ line :: after)
    (hline : first <:+ line) :
    line = first ∧ ∃ front, front <+: middles ∧ before = front.flatMap (framedLines first) := by
  induction middles generalizing before with
  | nil => simp at hlines
  | cons m middles ih =>
    obtain ⟨hm, hrest⟩ := List.forall_mem_cons.mp hmiddles
    have hlater : ∀ before', middles.flatMap (framedLines first) = before' ++ line :: after →
        before = framedLines first m ++ before' →
        line = first ∧ ∃ front, front <+: m :: middles ∧
          before = front.flatMap (framedLines first) := by
      rintro before' hlines' rfl
      obtain ⟨hfirst, front, hfront, rfl⟩ := ih hrest hlines'
      exact ⟨hfirst, m :: front, List.cons_prefix_cons.mpr ⟨rfl, hfront⟩, rfl⟩
    rw [List.flatMap_cons] at hlines
    rcases List.append_eq_append_iff.mp hlines with
      ⟨before', hbefore, hlines'⟩ | ⟨within, hwithin, hlines'⟩
    · exact hlater before' hlines' hbefore
    · cases within with
      | nil => exact hlater [] hlines'.symm (by rw [hwithin, List.append_nil, List.append_nil])
      | cons x within =>
        obtain ⟨rfl, -⟩ := List.cons.inj hlines'
        cases before with
        | nil => exact ⟨(List.cons.inj hwithin).1.symm, [], List.nil_prefix, rfl⟩
        | cons y before =>
          have hmem : line ∈ m ++ [[]] := by
            rw [(List.cons.inj hwithin).2]
            exact List.mem_append_right _ List.mem_cons_self
          rcases List.mem_append.mp hmem with hmem | hmem
          · exact absurd hline (hm.not_suffix line hmem)
          · rw [List.mem_singleton.mp hmem, List.suffix_nil] at hline
            exact absurd hline hfirst

/-- Only the last line of a record is empty. -/
lemma eq_nil_of_framedLines_eq {middle : List (List α)} (hfirst : first ≠ [])
    (hmiddle : IsMiddle stop first middle) {before after : List (List α)}
    (hlines : framedLines first middle = before ++ [] :: after) : after = [] := by
  cases before with
  | nil => exact absurd (List.cons.inj hlines).1 hfirst
  | cons y before =>
    have hlines' : middle ++ [[]] = before ++ [] :: after := (List.cons.inj hlines).2
    rcases List.append_eq_append_iff.mp hlines' with
      ⟨before', -, htail⟩ | ⟨within, hwithin, htail⟩
    · cases before' with
      | nil => exact (List.cons.inj htail).2.symm
      | cons z before' => simp at htail
    · cases within with
      | nil => exact (List.cons.inj htail).2
      | cons z within =>
        obtain ⟨rfl, -⟩ := List.cons.inj htail
        refine absurd rfl (hmiddle.ne_nil [] ?_)
        rw [hwithin]
        exact List.mem_append_right _ List.mem_cons_self

lemma IsMiddle.stop_notMem_framedLines {middle : List (List α)} (h : IsMiddle stop first middle)
    (hfirst : stop ∉ first) : ∀ line ∈ framedLines first middle, stop ∉ line := by
  rw [framedLines, List.forall_mem_cons, List.forall_mem_append, List.forall_mem_singleton]
  exact ⟨hfirst, h.stop_notMem, List.not_mem_nil⟩

/-! ## Records in a stream -/

namespace Framing

variable (hR : Framing stop first R)
include hR

/-- A stream of whole records is the text of their lines. -/
lemma exists_middles {records : List (List α)} (h : ∀ r ∈ records, R r) :
    ∃ middles : List (List (List α)),
      (∀ m ∈ middles, IsMiddle stop first m ∧ R (terminated stop (framedLines first m))) ∧
      records.flatten = terminated stop (middles.flatMap (framedLines first)) := by
  induction records with
  | nil => exact ⟨[], List.forall_mem_nil _, rfl⟩
  | cons r records ih =>
    obtain ⟨hr, hrest⟩ := List.forall_mem_cons.mp h
    obtain ⟨m, hm, rfl⟩ := hR.exists_middle r hr
    obtain ⟨middles, hmiddles, hflatten⟩ := ih hrest
    refine ⟨m :: middles, List.forall_mem_cons.mpr ⟨⟨hm, hr⟩, hmiddles⟩, ?_⟩
    rw [List.flatten_cons, hflatten, List.flatMap_cons, terminated_append]

/-- Where the first line of records stands in a stream of whole records, a record starts. -/
lemma isComplete_of_first_prefix {front rest : List α} (hs : IsComplete R (front ++ rest))
    (h : first ++ [stop] <+: rest) : IsComplete R front ∧ IsComplete R rest := by
  obtain ⟨records, hrecords, hflatten⟩ := hs
  obtain ⟨middles, hmiddles, hterminated⟩ := hR.exists_middles hrecords
  obtain ⟨tail, rfl⟩ := h
  have hlines : ∀ line ∈ middles.flatMap (framedLines first), stop ∉ line := by
    intro line hline
    obtain ⟨m, hm, hmem⟩ := List.mem_flatMap.mp hline
    exact (hmiddles m hm).1.stop_notMem_framedLines hR.stop_notMem line hmem
  have htext : terminated stop (middles.flatMap (framedLines first)) =
      (front ++ first) ++ stop :: tail := by
    rw [← hterminated, ← hflatten]
    simp
  obtain ⟨before, line, after, hsplit, hfront, -⟩ := exists_line_of_terminated_eq hlines htext
  have hsuffix : first <:+ line := by
    rcases List.append_eq_append_iff.mp hfront with ⟨within, hwithin, hfirst⟩ | ⟨own, -, hown⟩
    · have hnil : within = [] := by
        by_contra hne
        refine hR.stop_notMem ?_
        rw [hfirst]
        exact List.mem_append_left _ (stop_mem_of_suffix_terminated hne ⟨front, hwithin.symm⟩)
      rw [hfirst, hnil, List.nil_append]
    · exact ⟨own, hown.symm⟩
  obtain ⟨rfl, starts, ⟨others, rfl⟩, rfl⟩ := exists_prefix_of_first_suffix hR.first_ne
    (fun m hm => (hmiddles m hm).1) hsplit hsuffix
  have hcomplete : ∀ ms : List (List (List α)), (∀ m ∈ ms, m ∈ starts ++ others) →
      IsComplete R (terminated stop (ms.flatMap (framedLines line))) := by
    intro ms hms
    refine ⟨ms.map fun m => terminated stop (framedLines line m), ?_, ?_⟩
    · exact List.forall_mem_map.mpr fun m hm => (hmiddles m (hms m hm)).2
    · rw [terminated_flatMap, List.flatMap_def]
  have hstarts := List.append_cancel_right hfront
  have hothers : line ++ [stop] ++ tail = terminated stop (others.flatMap (framedLines line)) := by
    rw [List.flatMap_append, terminated_append, ← hstarts] at htext
    rw [List.append_assoc] at htext
    simpa using (List.append_cancel_left htext).symm
  rw [hstarts, hothers]
  exact ⟨hcomplete starts fun m => List.mem_append_left _,
    hcomplete others fun m => List.mem_append_right _⟩

/-- A part of a record that is a stream of whole records is the whole record. -/
lemma eq_of_isComplete {part r : List α} (hr : R r) (hne : part ≠ []) (hpart : part <+: r)
    (hcomplete : IsComplete R part) : part = r := by
  obtain ⟨records, hrecords, rfl⟩ := hcomplete
  cases records with
  | nil => exact absurd rfl hne
  | cons r' records =>
    obtain ⟨hr', -⟩ := List.forall_mem_cons.mp hrecords
    obtain ⟨m, hm, rfl⟩ := hR.exists_middle r hr
    obtain ⟨m', hm', rfl⟩ := hR.exists_middle r' hr'
    have hframe : terminated stop (framedLines first m') =
        terminated stop (first :: m') ++ [stop] := by
      simp [framedLines]
    obtain ⟨rest, hrest⟩ := (List.prefix_append _ _).trans hpart
    have htext : terminated stop (framedLines first m) =
        terminated stop (first :: m') ++ stop :: rest := by
      rw [← hrest, hframe, List.append_assoc, List.singleton_append]
    have hlines := hm.stop_notMem_framedLines hR.stop_notMem
    obtain ⟨before, line, after, hsplit, hfront, rfl⟩ := exists_line_of_terminated_eq hlines htext
    have hline : line = [] := by
      by_contra hne
      refine hlines line ?_ (stop_mem_of_suffix_terminated hne ⟨_, hfront.symm⟩)
      rw [hsplit]
      exact List.mem_append_right _ List.mem_cons_self
    subst hline
    obtain rfl := eq_nil_of_framedLines_eq hR.first_ne hm hsplit
    rw [terminated_nil, List.append_nil] at hrest
    rw [← hrest] at hpart ⊢
    exact hpart.eq_of_length_le (List.prefix_append _ _).length_le

/-- A record starts with its first line. -/
lemma first_prefix_of_record {r : List α} (hr : R r) : first ++ [stop] <+: r := by
  obtain ⟨m, -, rfl⟩ := hR.exists_middle r hr
  exact ⟨terminated stop (m ++ [[]]), by simp [framedLines]⟩

/-- The front of a record that holds a terminator starts with the first line. -/
lemma first_prefix_of_stop_mem {part r : List α} (hr : R r) (hpart : part <+: r)
    (hstop : stop ∈ part) : first ++ [stop] <+: part := by
  rcases List.prefix_or_prefix_of_prefix hpart (hR.first_prefix_of_record hr) with hshort | hlong
  · rcases List.prefix_concat_iff.mp hshort with rfl | hinside
    · exact List.prefix_rfl
    · exact absurd (hinside.subset hstop) hR.stop_notMem
  · exact hlong

end Framing

/-! ## Parts of records -/

lemma isComplete_nil : IsComplete R [] := ⟨[], List.forall_mem_nil _, rfl⟩

lemma isComplete_of_record {r : List α} (hr : R r) : IsComplete R r :=
  ⟨[r], List.forall_mem_singleton.mpr hr, List.flatten_singleton.symm⟩

lemma IsComplete.append {s t : List α} (hs : IsComplete R s) (ht : IsComplete R t) :
    IsComplete R (s ++ t) := by
  obtain ⟨records, hrecords, rfl⟩ := hs
  obtain ⟨records', hrecords', rfl⟩ := ht
  exact ⟨records ++ records', List.forall_mem_append.mpr ⟨hrecords, hrecords'⟩,
    List.flatten_append.symm⟩

/-- A stream with an incomplete record at the end can be completed. -/
lemma IsStream.exists_isComplete_append {s : List α} (hs : IsStream R s) :
    ∃ rest, IsComplete R (s ++ rest) := by
  obtain ⟨records, part, r, hrecords, hr, ⟨rest, rfl⟩, rfl⟩ := hs
  refine ⟨rest, ?_⟩
  rw [List.append_assoc]
  exact IsComplete.append ⟨records, hrecords, rfl⟩ (isComplete_of_record hr)

/-- Parts of records: each piece is the front of a record, with the record. -/
def ArePieces (R : List α → Prop) (pieces : List (List α × List α)) : Prop :=
  ∀ p ∈ pieces, p.1 <+: p.2 ∧ (p.1 ≠ [] → R p.2)

/-- No record is cut: each piece is the whole record or nothing. -/
def AreWhole (pieces : List (List α × List α)) : Prop := ∀ p ∈ pieces, p.1 ≠ [] → p.1 = p.2

/-- Whole records one after another are a stream of whole records. -/
lemma ArePieces.isComplete {pieces : List (List α × List α)} (h : ArePieces R pieces)
    (hwhole : AreWhole pieces) : IsComplete R (pieces.flatMap Prod.fst) := by
  induction pieces with
  | nil => exact isComplete_nil
  | cons p pieces ih =>
    obtain ⟨⟨-, hrecord⟩, hrest⟩ := List.forall_mem_cons.mp h
    obtain ⟨hp, hwholes⟩ := List.forall_mem_cons.mp hwhole
    rw [List.flatMap_cons]
    by_cases hne : p.1 = []
    · rw [hne, List.nil_append]
      exact ih hrest hwholes
    · refine IsComplete.append ?_ (ih hrest hwholes)
      rw [hp hne]
      exact isComplete_of_record (hrecord hne)

/-- Whole records, a piece, and nothing after it are a stream. -/
lemma ArePieces.isStream {earlier later : List (List α × List α)} {p : List α × List α}
    (h : ArePieces R (earlier ++ p :: later)) (hwhole : AreWhole earlier)
    (hnothing : ∀ q ∈ later, q.1 = []) {r : List α} (hr : R r) :
    IsStream R ((earlier ++ p :: later).flatMap Prod.fst) := by
  obtain ⟨hearlier, hlater⟩ := List.forall_mem_append.mp h
  obtain ⟨⟨hpart, hrecord⟩, -⟩ := List.forall_mem_cons.mp hlater
  obtain ⟨records, hrecords, hflatten⟩ := ArePieces.isComplete hearlier hwhole
  have hrest : later.flatMap Prod.fst = [] := List.flatMap_eq_nil_iff.mpr hnothing
  rw [List.flatMap_append, List.flatMap_cons, hrest, List.append_nil, hflatten]
  by_cases hne : p.1 = []
  · exact ⟨records, p.1, r, hrecords, hr, hne ▸ List.nil_prefix, rfl⟩
  · exact ⟨records, p.1, p.2, hrecords, hrecord hne, hpart, rfl⟩

namespace Framing

variable (hR : Framing stop first R)
include hR

/-- If pieces of records one after another are a stream of whole records, none is cut. -/
lemma areWhole_of_isComplete {pieces : List (List α × List α)} (h : ArePieces R pieces)
    (hcomplete : IsComplete R (pieces.flatMap Prod.fst)) : AreWhole pieces := by
  induction pieces using List.reverseRecOn with
  | nil => exact fun p hp => absurd hp List.not_mem_nil
  | append_singleton pieces p ih =>
    obtain ⟨hpieces, hp⟩ := List.forall_mem_append.mp h
    obtain ⟨hpart, hrecord⟩ := List.forall_mem_singleton.mp hp
    rw [List.flatMap_append, List.flatMap_singleton] at hcomplete
    refine List.forall_mem_append.mpr ?_
    rw [List.forall_mem_singleton]
    by_cases hne : p.1 = []
    · rw [hne, List.append_nil] at hcomplete
      exact ⟨ih hpieces hcomplete, fun h => absurd hne h⟩
    -- the stream ends with a terminator, so the last piece has the whole first line
    obtain ⟨records, hrecords, hflatten⟩ := hcomplete
    obtain ⟨middles, -, hterminated⟩ := hR.exists_middles hrecords
    have hstop : stop ∈ p.1 :=
      stop_mem_of_suffix_terminated hne ⟨_, hflatten.trans hterminated⟩
    have hfirst := hR.first_prefix_of_stop_mem (hrecord hne) hpart hstop
    obtain ⟨hfront, hlast⟩ := hR.isComplete_of_first_prefix ⟨records, hrecords, hflatten⟩ hfirst
    exact ⟨ih hpieces hfront, fun _ => hR.eq_of_isComplete (hrecord hne) hne hpart hlast⟩

/-- If a whole record stands in a stream of pieces, with an incomplete record at most at its end,
then no record before it is cut. -/
lemma areWhole_of_isStream {earlier later : List (List α × List α)} {p : List α × List α}
    (h : ArePieces R (earlier ++ p :: later)) (hne : p.1 ≠ []) (hwhole : p.1 = p.2)
    (hs : IsStream R ((earlier ++ p :: later).flatMap Prod.fst)) : AreWhole earlier := by
  obtain ⟨hearlier, hlater⟩ := List.forall_mem_append.mp h
  obtain ⟨⟨-, hrecord⟩, -⟩ := List.forall_mem_cons.mp hlater
  obtain ⟨rest, hcomplete⟩ := hs.exists_isComplete_append
  rw [List.flatMap_append, List.flatMap_cons, List.append_assoc, List.append_assoc] at hcomplete
  refine hR.areWhole_of_isComplete hearlier (hR.isComplete_of_first_prefix hcomplete ?_).1
  rw [hwhole]
  exact (hR.first_prefix_of_record (hrecord hne)).trans (List.prefix_append _ _)

end Framing

end NodeTelemetry
