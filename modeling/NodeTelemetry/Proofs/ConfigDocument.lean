import Mathlib
import NodeTelemetry.Proofs.FieldReading
import NodeTelemetry.Proofs.Yaml.MappingTexts

/-!
# Configurations are read back

Some fields of a configuration, and some rates of its sampling, are written as entries of a document
(`Config.writePart`).  What is read from all of them is the standard configuration with exactly
these fields and rates replaced (`Config.overlay`), in whatever order they are written.  A document
with all fields and rates is the text of the configuration, which is thus read back from its text.
Both the text and its reading are those of `serde_yaml` 0.9, which `NodeTelemetry.Yaml` follows.
-/

namespace NodeTelemetry

open Yaml

/-! ## Parts of a configuration -/

namespace SamplingPolicy

/-- The entry of a rate. -/
def writeRate (p : SamplingPolicy) (t : EventType) : List Char :=
  writeEntry t.name.toList (writeNat (p.oneIn t).toNat)

/-- The entries of some rates, each on a line of its own. -/
def writeRates (p : SamplingPolicy) (ts : List EventType) : List Char :=
  ts.flatMap fun t => List.replicate indentation ' ' ++ p.writeRate t

/-- The standard policy with the rates of some kinds of events replaced. -/
def overlay (p : SamplingPolicy) (ts : List EventType) : SamplingPolicy where
  rtt := if .rtt ∈ ts then p.rtt else standard.rtt
  retrans := if .retrans ∈ ts then p.retrans else standard.retrans
  drop := if .drop ∈ ts then p.drop else standard.drop
  runqlat := if .runqlat ∈ ts then p.runqlat else standard.runqlat

lemma overlay_congr (p : SamplingPolicy) {ts ts' : List EventType} (h : ∀ t, t ∈ ts ↔ t ∈ ts') :
    p.overlay ts = p.overlay ts' := by
  simp only [overlay, h]

end SamplingPolicy

namespace Config

/-- The entry of a field, where the sampling has some of its rates only. -/
def writePart (c : Config) (ts : List EventType) (f : ConfigField) : List Char :=
  if f = .sampling then f.name.toList ++ ':' :: '\n' :: c.sampling.writeRates ts else c.writeField f

/-- The document of some fields, the sampling with some of its rates. -/
def partText (c : Config) (fs : List ConfigField) (ts : List EventType) : String :=
  String.ofList (fs.flatMap (c.writePart ts))

/-- The standard configuration with some fields replaced, the sampling by some of its rates. -/
def overlay (c : Config) (fs : List ConfigField) (ts : List EventType) : Config where
  intervalSecs := if .intervalSecs ∈ fs then c.intervalSecs else standard.intervalSecs
  pollTimeoutMs := if .pollTimeoutMs ∈ fs then c.pollTimeoutMs else standard.pollTimeoutMs
  channelCapacity := if .channelCapacity ∈ fs then c.channelCapacity else standard.channelCapacity
  maxNodes := if .maxNodes ∈ fs then c.maxNodes else standard.maxNodes
  maxDropReasons := if .maxDropReasons ∈ fs then c.maxDropReasons else standard.maxDropReasons
  maxInflightWakeups :=
    if .maxInflightWakeups ∈ fs then c.maxInflightWakeups else standard.maxInflightWakeups
  nodeSlots := if .nodeSlots ∈ fs then c.nodeSlots else standard.nodeSlots
  nodeName := if .nodeName ∈ fs then c.nodeName else standard.nodeName
  procStatPath := if .procStatPath ∈ fs then c.procStatPath else standard.procStatPath
  sampling := if .sampling ∈ fs then c.sampling.overlay ts else standard.sampling
  syntheticProducers :=
    if .syntheticProducers ∈ fs then c.syntheticProducers else standard.syntheticProducers

/-- What is replaced depends on which fields and rates there are, and not on their order. -/
lemma overlay_congr (c : Config) {fs fs' : List ConfigField} {ts ts' : List EventType}
    (hfs : ∀ f, f ∈ fs ↔ f ∈ fs') (hts : ∀ t, t ∈ ts ↔ t ∈ ts') :
    c.overlay fs ts = c.overlay fs' ts' := by
  simp only [overlay, hfs, c.sampling.overlay_congr hts]

/-- With all rates, a part is the entry of its field. -/
lemma writePart_all (c : Config) (f : ConfigField) :
    c.writePart EventType.all f = c.writeField f := by
  cases f <;> rfl

/-- The document of all fields and rates is the text of the configuration. -/
lemma partText_all (c : Config) : c.partText ConfigField.all EventType.all = c.toText := by
  rw [partText, toText, funext c.writePart_all]

lemma overlay_all (c : Config) : c.overlay ConfigField.all EventType.all = c := rfl

end Config

/-! ## Entries -/

lemma ConfigField.isIdentifier_name (f : ConfigField) : IsIdentifier f.name.toList := by
  cases f <;> decide

lemma ConfigField.length_name_le (f : ConfigField) : f.name.toList.length ≤ 1024 := by
  cases f <;> simp [name]

lemma EventType.isIdentifier_name (t : EventType) : IsIdentifier t.name.toList := by
  cases t <;> decide

lemma EventType.length_name_le (t : EventType) : t.name.toList.length ≤ 1024 := by
  cases t <;> simp [name]

/-- A written number can be plain. -/
lemma canHold_writeNat (n : ℕ) : PlainScalar.canHold (writeNat n) = true := by
  refine PlainScalar.canHold_of_isIdentifierChar fun c hc => ?_
  simp [isIdentifierChar, Char.isAlphanum, isDigit_of_mem_writeNat hc]

namespace SamplingPolicy

/-- The entry of a rate. -/
def entry (p : SamplingPolicy) (t : EventType) : MappingEntry :=
  .scalar t.name.toList .plain (writeNat (p.oneIn t).toNat)

lemma writes_entry (p : SamplingPolicy) (t : EventType) (column : ℕ) :
    TokenReader.Writes column (p.writeRate t) (p.entry t) :=
  TokenReader.writes_plain t.isIdentifier_name t.length_name_le (writeNat_ne_nil _)
    (canHold_writeNat _) column

end SamplingPolicy

namespace Config

/-- The entry of a field. -/
def entry (c : Config) (ts : List EventType) (f : ConfigField) : MappingEntry :=
  let number (n : ℕ) : MappingEntry := .scalar f.name.toList .plain (writeNat n)
  let text (s : String) : MappingEntry := .scalar f.name.toList (styleOf s.toList) s.toList
  match f with
  | .intervalSecs => number c.intervalSecs.toNat
  | .pollTimeoutMs => number c.pollTimeoutMs.toNat
  | .channelCapacity => number c.channelCapacity.toNat
  | .maxNodes => number c.maxNodes.toNat
  | .maxDropReasons => number c.maxDropReasons.toNat
  | .maxInflightWakeups => number c.maxInflightWakeups.toNat
  | .nodeSlots => number c.nodeSlots.toNat
  | .nodeName => c.nodeName.elim (.scalar f.name.toList .plain "null".toList) text
  | .procStatPath => text c.procStatPath
  | .sampling => .mapping f.name.toList (ts.map c.sampling.entry)
  | .syntheticProducers => number c.syntheticProducers.toNat

variable (c : Config) (ts : List EventType) (f : ConfigField)

/-- What is written for a field is cut into the tokens of its entry. -/
lemma writes_entry (hts : ts ≠ []) : TokenReader.Writes 0 (c.writePart ts f) (c.entry ts f) := by
  have hnumber : ∀ (f : ConfigField) (n : ℕ), TokenReader.Writes 0
      (writeEntry f.name.toList (writeNat n)) (.scalar f.name.toList .plain (writeNat n)) :=
    fun f n => TokenReader.writes_plain f.isIdentifier_name f.length_name_le (writeNat_ne_nil n)
      (canHold_writeNat n) 0
  have htext : ∀ (f : ConfigField) (s : String), TokenReader.Writes 0
      (writeEntry f.name.toList (writeText indentation s.toList))
      (.scalar f.name.toList (styleOf s.toList) s.toList) :=
    fun f s => TokenReader.writes_text f.isIdentifier_name f.length_name_le s.toList
  cases f with
  | nodeName =>
    simp only [writePart, reduceCtorEq, if_false, writeField, entry]
    cases c.nodeName with
    | none =>
      exact TokenReader.writes_plain (ConfigField.isIdentifier_name _)
        (ConfigField.length_name_le _) (by simp)
        (PlainScalar.canHold_of_isIdentifierChar (by simp [isIdentifierChar])) 0
    | some s => exact htext _ s
  | procStatPath => exact htext _ _
  | sampling =>
    exact TokenReader.writes_mapping (ConfigField.isIdentifier_name _)
      (ConfigField.length_name_le _) Nat.zero_lt_two hts fun t _ =>
        c.sampling.writes_entry t indentation
  | _ => exact hnumber _ _

/-- What is written for a field starts with the key. -/
lemma exists_writePart_eq : ∃ rest, c.writePart ts f = f.name.toList ++ ':' :: rest ∧
    ∀ more, atGap (rest ++ more) = true := by
  have hentry : ∀ value, ∃ rest, writeEntry f.name.toList value = f.name.toList ++ ':' :: rest ∧
      ∀ more, atGap (rest ++ more) = true :=
    fun value => ⟨' ' :: (value ++ lineEndAfter value), by simp [writeEntry, lineEndAfter],
      fun _ => rfl⟩
  cases f with
  | sampling => exact ⟨_, rfl, fun _ => rfl⟩
  | _ => exact hentry _

lemma makes_entry : (c.entry ts f).Makes := by
  cases f with
  | nodeName =>
    simp only [entry]
    cases c.nodeName <;> exact MappingEntry.makes_scalar _ _ _
  | sampling =>
    refine MappingEntry.makes_mapping _ fun e he => ?_
    obtain ⟨t, -, rfl⟩ := List.mem_map.mp he
    exact MappingEntry.makes_scalar _ _ _
  | _ => exact MappingEntry.makes_scalar _ _ _

lemma name_entry : (c.entry ts f).name = f.name.toList := by
  cases f with
  | nodeName =>
    simp only [entry]
    cases c.nodeName <;> rfl
  | _ => rfl

end Config

/-! ## Characters -/

lemma isAllowed_of_mem_writeEntry {key value : List Char} (hkey : IsIdentifier key)
    (hvalue : ∀ c ∈ value, isAllowed c = true) :
    ∀ c ∈ writeEntry key value, isAllowed c = true := by
  intro c hc
  simp only [writeEntry, List.mem_append, List.mem_cons] at hc
  rcases hc with (hc | rfl | rfl | hc) | hc
  · exact isAllowed_of_isPrintable (isPrintable_of_isIdentifierChar (hkey.isIdentifierChar c hc))
  · rfl
  · rfl
  · exact hvalue c hc
  · split at hc
    · simp at hc
    · rw [List.mem_singleton.mp hc]
      rfl

lemma isAllowed_of_mem_writeNat {n : ℕ} : ∀ c ∈ writeNat n, isAllowed c = true := by
  intro c hc
  refine isAllowed_of_isPrintable (isPrintable_of_isIdentifierChar ?_)
  simp [isIdentifierChar, Char.isAlphanum, isDigit_of_mem_writeNat hc]

namespace Config

/-- What is written for a field may stand in a document. -/
lemma isAllowed_of_mem_writePart (c : Config) (ts : List EventType) (f : ConfigField) :
    ∀ d ∈ c.writePart ts f, isAllowed d = true := by
  have hnumber : ∀ (f : ConfigField) (n : ℕ),
      ∀ d ∈ writeEntry f.name.toList (writeNat n), isAllowed d = true :=
    fun f n => isAllowed_of_mem_writeEntry f.isIdentifier_name isAllowed_of_mem_writeNat
  have htext : ∀ (f : ConfigField) (s : String),
      ∀ d ∈ writeEntry f.name.toList (writeText indentation s.toList), isAllowed d = true :=
    fun f s => isAllowed_of_mem_writeEntry f.isIdentifier_name isAllowed_of_mem_writeText
  cases f with
  | nodeName =>
    simp only [writePart, reduceCtorEq, if_false, writeField]
    cases c.nodeName with
    | none =>
      exact isAllowed_of_mem_writeEntry (ConfigField.isIdentifier_name _)
        (List.all_eq_true.mp (by decide))
    | some s => exact htext _ s
  | procStatPath => exact htext _ _
  | sampling =>
    intro d hd
    rw [writePart, if_pos rfl, List.mem_append, List.mem_cons, List.mem_cons] at hd
    rcases hd with hd | rfl | rfl | hd
    · exact isAllowed_of_isPrintable
        (isPrintable_of_isIdentifierChar ((ConfigField.isIdentifier_name _).isIdentifierChar d hd))
    · rfl
    · rfl
    · simp only [SamplingPolicy.writeRates, List.mem_flatMap, List.mem_append] at hd
      obtain ⟨t, -, hd | hd⟩ := hd
      · exact isAllowed_of_mem_replicate hd
      · exact isAllowed_of_mem_writeEntry t.isIdentifier_name isAllowed_of_mem_writeNat d hd
  | _ => exact hnumber _ _

end Config

/-- A text with a name in it is not blank. -/
lemma isBlankText_of_isIdentifier {name : List Char} (h : IsIdentifier name)
    (before after : List Char) : Text.isBlankText (before ++ (name ++ after)) = false := by
  obtain ⟨c, rest, rfl, -, hall⟩ := h.exists_cons
  obtain ⟨hlow, hhigh⟩ := toNat_of_isIdentifierChar (hall c List.mem_cons_self)
  rw [← Bool.not_eq_true, Text.isBlankText, List.all_eq_true]
  intro hblank
  have hnot := hblank c (by simp)
  simp only [Text.isBlank, Bool.or_eq_true, Bool.and_eq_true, decide_eq_true_eq, beq_iff_eq] at hnot
  omega

/-! ## Reading -/

namespace SamplingPolicy

lemma find?_name (t : EventType) : samplingReader.find? t.name.toList = some (t.name, t) := by
  cases t <;> rfl

/-- A rate is put into place. -/
lemma put_entry (p : SamplingPolicy) (path : List String) (d : Document) (t : EventType)
    (seen : List EventType) :
    samplingReader.put t path (d.resolve (p.entry t).node) (p.overlay seen) =
      .ok (p.overlay (t :: seen)) := by
  have hrate := readNatural_writeNat "u32" (p.oneIn t).toNat_lt_size (by decide)
  simp only [samplingReader, entry, MappingEntry.scalar, Document.resolve, hrate, Except.mapError,
    bind, Except.bind, pure, Except.pure, UInt32.ofNat_toNat]
  cases t <;> simp [overlay, set, oneIn]

end SamplingPolicy

namespace Config

lemma find?_name (d : Document) (f : ConfigField) :
    (configReader d).find? f.name.toList = some (f.name, f) := by
  cases f <;> rfl

/-- The listed rates are put into place, over the standard ones. -/
lemma read_rates (p : SamplingPolicy) (d : Document) (path : List String) {ts : List EventType}
    (hts : ts.Nodup) :
    samplingReader.read d path "struct SamplingPolicy" .standard
      (.mapping ((ts.map p.entry).map MappingEntry.pair)) = .ok (p.overlay ts) := by
  have hread : samplingReader.readEntries d path ((ts.map p.entry).map MappingEntry.pair) []
      (p.overlay []) = .ok (p.overlay (ts.reverse ++ [])) :=
    FieldReader.readEntries_map SamplingPolicy.find?_name (fun t seen => p.put_entry _ d t seen) hts
      (by simp)
  have hsame : p.overlay (ts.reverse ++ []) = p.overlay ts := p.overlay_congr (by simp)
  rw [hsame] at hread
  exact hread

/-- A field is put into place. -/
lemma put_entry (c : Config) (path : List String) (d : Document) {ts : List EventType}
    (hts : ts.Nodup) (f : ConfigField) (seen : List ConfigField) :
    (configReader d).put f path (d.resolve (c.entry ts f).node) (c.overlay seen ts) =
      .ok (c.overlay (f :: seen) ts) := by
  have hword : ∀ (expected : String) (n : UInt64),
      readNatural expected UInt64.size (.scalar none .plain (writeNat n.toNat)) = .ok n.toNat :=
    fun expected n => readNatural_writeNat expected n.toNat_lt_size le_rfl
  cases f with
  | nodeSlots =>
    have hslots := readNatural_writeNat "u32" c.nodeSlots.toNat_lt_size (by decide)
    simp only [configReader, entry, MappingEntry.scalar, Document.resolve, hslots, Except.mapError,
      bind, Except.bind, pure, Except.pure, UInt32.ofNat_toNat]
    simp [overlay]
  | nodeName =>
    have hname : readOptionalText path (c.entry ts .nodeName).node = .ok c.nodeName := by
      simp only [entry]
      cases c.nodeName with
      | none => rfl
      | some s =>
        rw [Option.elim_some, MappingEntry.scalar, readOptionalText_styleOf, String.ofList_toList]
    have hresolve : d.resolve (c.entry ts .nodeName).node = (c.entry ts .nodeName).node := by
      simp only [entry]
      cases c.nodeName <;> rfl
    simp only [configReader, hresolve, hname, bind, Except.bind, pure, Except.pure]
    simp [overlay]
  | procStatPath =>
    simp only [configReader, entry, MappingEntry.scalar, Document.resolve, readText,
      Except.mapError, bind, Except.bind, pure, Except.pure, String.ofList_toList]
    simp [overlay]
  | sampling =>
    simp only [configReader, entry, MappingEntry.mapping, Document.resolve,
      read_rates c.sampling d path hts, bind, Except.bind, pure, Except.pure]
    simp [overlay]
  | _ =>
    simp only [configReader, entry, MappingEntry.scalar, Document.resolve, hword, Except.mapError,
      Except.map, bind, Except.bind, pure, Except.pure, UInt64.ofNat_toNat]
    simp [overlay]

/-- The entries of some fields replace them, over the standard configuration. -/
lemma ofDocument_entries (c : Config) {fs : List ConfigField} (hfs : fs.Nodup)
    {ts : List EventType} (hts : ts.Nodup) (anchored : List (ℕ × Node)) :
    ofDocument ⟨.mapping ((fs.map (c.entry ts)).map MappingEntry.pair), anchored⟩ =
      .ok (c.overlay fs ts) := by
  let d : Document := ⟨.mapping ((fs.map (c.entry ts)).map MappingEntry.pair), anchored⟩
  have hread : (configReader d).readEntries d [] ((fs.map (c.entry ts)).map MappingEntry.pair) []
      (c.overlay [] ts) = .ok (c.overlay (fs.reverse ++ []) ts) :=
    FieldReader.readEntries_map (fun f => by rw [name_entry]; exact find?_name d f)
      (fun f seen => c.put_entry _ d hts f seen) hfs (by simp)
  have hsame : c.overlay (fs.reverse ++ []) ts = c.overlay fs ts :=
    c.overlay_congr (by simp) fun _ => Iff.rfl
  rw [hsame] at hread
  exact hread

/-- The document of some fields is the standard configuration with these replaced. -/
lemma ofText_eq_overlay (c : Config) {fs : List ConfigField} (hfs : fs.Nodup) {ts : List EventType}
    (hts : ts.Nodup) (hne : ts ≠ []) : ofText (c.partText fs ts) = .ok (c.overlay fs ts) := by
  rcases fs with _ | ⟨f, fs⟩
  · rfl
  · have hwrites : ∀ g ∈ f :: fs, TokenReader.Writes 0 (c.writePart ts g) (c.entry ts g) :=
      fun g _ => c.writes_entry ts g hne
    have hallowed : ((f :: fs).flatMap (c.writePart ts)).all isAllowed = true := by
      simp only [List.all_eq_true, List.mem_flatMap, forall_exists_index, and_imp]
      exact fun d g _ hd => c.isAllowed_of_mem_writePart ts g d hd
    have hdocument := Document.ofText?_flatMap hwrites (fun g _ => c.makes_entry ts g)
      (List.cons_ne_nil f fs) hallowed
    have hblank : Text.isBlankText ((f :: fs).flatMap (c.writePart ts)) = false := by
      obtain ⟨rest, hpart, -⟩ := c.exists_writePart_eq ts f
      rw [List.flatMap_cons, hpart, List.append_assoc]
      exact isBlankText_of_isIdentifier f.isIdentifier_name [] _
    simp only [ofText, partText, String.toList_ofList, hblank, Bool.false_eq_true, if_false,
      hdocument, ofDocument_entries c hfs hts, Except.mapError]

/-- **Every configuration is read back from its text.** -/
theorem ofText_toText (c : Config) : ofText c.toText = .ok c := by
  rw [← c.partText_all, c.ofText_eq_overlay (by decide) (by decide) (by decide), c.overlay_all]

end Config

end NodeTelemetry
