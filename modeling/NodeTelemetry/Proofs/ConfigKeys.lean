import Mathlib
import NodeTelemetry.Proofs.ConfigDocument

/-!
# Keys of a configuration document

A key that is unknown, or that stands in the document a second time, makes reading fail, wherever it
stands and whatever comes behind it.  So a document of some fields stays one if its entries change
places, but not if an entry is added to it.
-/

namespace NodeTelemetry

open Yaml

namespace Config

/-! ## Parts -/

/-- What is written for a field of some configuration. -/
structure Part where
  config : Config
  rates : List EventType
  field : ConfigField

namespace Part

/-- The text of a part. -/
def text (a : Part) : List Char := a.config.writePart a.rates a.field

/-- The entry that the text is written for. -/
def entry (a : Part) : MappingEntry := a.config.entry a.rates a.field

lemma makes (a : Part) : a.entry.Makes := a.config.makes_entry a.rates a.field

lemma writes {a : Part} (h : a.rates ≠ []) : TokenReader.Writes 0 a.text a.entry :=
  a.config.writes_entry a.rates a.field h

/-- The parts of one configuration are its fields as they are written. -/
lemma flatMap_text_map (c : Config) (ts : List EventType) (fs : List ConfigField) :
    (fs.map (Part.mk c ts)).flatMap text = fs.flatMap (c.writePart ts) := by
  rw [List.flatMap_map]
  rfl

lemma rates_ne_nil_of_mem_map {c : Config} {ts : List EventType} (h : ts ≠ [])
    (fs : List ConfigField) : ∀ a ∈ fs.map (Part.mk c ts), a.rates ≠ [] := by
  simp [h]

lemma find?_entry (d : Document) (a : Part) :
    (configReader d).find? a.entry.name = some (a.field.name, a.field) := by
  rw [entry, name_entry, find?_name]

end Part

/-! ## Keys that are faults -/

/-- A text is no configuration if no document in it is one. -/
lemma exists_error_of_document {text : List Char} (hblank : Text.isBlankText text = false)
    (h : ∀ d, Document.ofText? text = some d →
      ∃ doc, d = some doc ∧ ∃ e, ofDocument doc = .error e) :
    ∃ e, ofText (String.ofList text) = .error e := by
  simp only [ofText, String.toList_ofList, hblank, Bool.false_eq_true, if_false]
  cases hd : Document.ofText? text with
  | none => exact ⟨_, rfl⟩
  | some d =>
    obtain ⟨doc, rfl, e, he⟩ := h d hd
    exact ⟨.problem e, by simp [he, Except.mapError]⟩

variable (parts : List Part) (hparts : ∀ a ∈ parts, a.rates ≠ []) {name rest : List Char}
  (hname : IsIdentifier name) (hrest : atGap rest = true)
include hparts hname hrest

/-- A key behind some parts is a fault if it is no field, or if its field is in one of the parts. -/
lemma exists_error_of_key
    (h : (∀ f : ConfigField, name ≠ f.name.toList) ∨ ∃ a ∈ parts, name = a.field.name.toList) :
    ∃ e, ofText (String.ofList (parts.flatMap Part.text ++ (name ++ ':' :: rest))) = .error e := by
  refine exists_error_of_document (isBlankText_of_isIdentifier hname _ _) fun d hd => ?_
  obtain ⟨value, others, anchored, rfl⟩ := Document.exists_of_key_behind
    (fun a ha => Part.writes (hparts a ha)) hname hrest (fun a _ => a.makes) hd
  refine ⟨_, rfl, ?_⟩
  refine FieldReader.exists_error_of_append (Part.find?_entry _) [] _ fun seen s hseen _ => ?_
  refine FieldReader.exists_error_of_key ?_ value others s
  rcases h with hnone | ⟨a, ha, rfl⟩
  · refine .inl (FieldReader.find?_eq_none fun known hknown => ?_)
    obtain ⟨f, -, rfl⟩ := List.mem_map.mp hknown
    exact hnone f
  · exact .inr ⟨_, _, find?_name _ a.field, hseen a ha⟩

omit hparts hname hrest in
/-- The sampling is not put into place if its value has a key behind some rates that is no kind of
events, or that has one of these rates. -/
lemma exists_error_of_put {rates : List (SamplingPolicy × EventType)}
    (h : (∀ t : EventType, name ≠ t.name.toList) ∨ ∃ a ∈ rates, name = a.2.name.toList)
    (d : Document) (path : List String) (value : Node) (others : List (Node × Node)) (c : Config) :
    ∃ e, (configReader d).put .sampling path (.mapping
      ((rates.map fun a => a.1.entry a.2).map MappingEntry.pair ++
        (MappingEntry.key name, value) :: others)) c = .error e := by
  have hread : ∃ e, samplingReader.readEntries d path
      ((rates.map fun a => a.1.entry a.2).map MappingEntry.pair ++
        (MappingEntry.key name, value) :: others) [] .standard = .error e := by
    refine FieldReader.exists_error_of_append (fun a => SamplingPolicy.find?_name a.2) [] _
      fun seen s hseen _ => ?_
    refine FieldReader.exists_error_of_key ?_ value others s
    rcases h with hnone | ⟨a, ha, rfl⟩
    · refine .inl (FieldReader.find?_eq_none fun known hknown => ?_)
      obtain ⟨t, -, rfl⟩ := List.mem_map.mp hknown
      exact hnone t
    · exact .inr ⟨_, _, SamplingPolicy.find?_name a.2, hseen a ha⟩
  obtain ⟨e, he⟩ := hread
  exact ⟨e, by simp only [configReader, FieldReader.read, he, bind, Except.bind]⟩

/-- A key behind some rates of the sampling is a fault if it is no kind of events, or if its rate is
one of these. -/
lemma exists_error_of_rate (rates : List (SamplingPolicy × EventType))
    (h : (∀ t : EventType, name ≠ t.name.toList) ∨ ∃ a ∈ rates, name = a.2.name.toList) :
    ∃ e, ofText (String.ofList (parts.flatMap Part.text ++
      (ConfigField.sampling.name.toList ++ ':' :: '\n' ::
        ((rates.flatMap fun a => List.replicate indentation ' ' ++ a.1.writeRate a.2) ++
          (List.replicate indentation ' ' ++ (name ++ ':' :: rest)))))) = .error e := by
  have hsampling := ConfigField.isIdentifier_name .sampling
  refine exists_error_of_document (isBlankText_of_isIdentifier hsampling _ _) fun d hd => ?_
  obtain ⟨value, others, others', anchored, rfl⟩ := Document.exists_of_key_within
    (fun a ha => Part.writes (hparts a ha)) hname hrest (fun a _ => a.makes) hsampling
    (ConfigField.length_name_le _) Nat.zero_lt_two
    (fun (a : SamplingPolicy × EventType) _ => a.1.writes_entry a.2 indentation)
    (fun a _ => MappingEntry.makes_scalar _ _ _) hd
  refine ⟨_, rfl, ?_⟩
  refine FieldReader.exists_error_of_append (Part.find?_entry _) [] _ fun seen s _ _ => ?_
  rw [FieldReader.readEntries_cons (find?_name _ .sampling)]
  split
  · exact ⟨_, rfl⟩
  · obtain ⟨e, he⟩ := exists_error_of_put h _ _ value others s
    exact ⟨e, congrArg (Except.bind · _) he⟩

omit hparts hname hrest

/-! ## Entries that are added -/

/-- The document of some fields with further lines between two of them. -/
def insertAmong (c : Config) (ts : List EventType) (before after : List ConfigField)
    (lines : List Char) : String :=
  String.ofList (before.flatMap (c.writePart ts) ++ lines ++ after.flatMap (c.writePart ts))

/-- The document of some fields, the sampling among them, with further lines between two of its
rates. -/
def insertWithin (c : Config) (before after : List ConfigField) (ts₁ ts₂ : List EventType)
    (lines : List Char) : String :=
  insertAmong c (ts₁ ++ ts₂) before after (ConfigField.sampling.name.toList ++ ':' :: '\n' ::
    (c.sampling.writeRates ts₁ ++ (List.replicate indentation ' ' ++ lines) ++
      c.sampling.writeRates ts₂))

/-- A value starts with a blank or a line end. -/
def StartsValue (value : List Char) : Prop := value.head?.any isGap = true

lemma StartsValue.atGap_append {value : List Char} (h : StartsValue value) (rest : List Char) :
    atGap (value ++ rest) = true := by
  cases value with
  | nil => cases h
  | cons d value => exact h

section Added

variable (c : Config) {before after : List ConfigField} {ts ts₁ ts₂ : List EventType}

/-- An entry that is no field may not be added. -/
lemma exists_error_of_unknown_field (hne : ts ≠ []) {key value : List Char}
    (hkey : IsIdentifier key) (hunknown : ∀ f : ConfigField, key ≠ f.name.toList)
    (hvalue : StartsValue value) :
    ∃ e, ofText (c.insertAmong ts before after (key ++ ':' :: value)) = .error e := by
  have herror := exists_error_of_key (before.map (Part.mk c ts))
    (Part.rates_ne_nil_of_mem_map hne before) hkey
    (hvalue.atGap_append (after.flatMap (c.writePart ts))) (.inl hunknown)
  simpa [insertAmong, Part.flatMap_text_map] using herror

/-- A field may not be added a second time: it is found where it comes last. -/
lemma exists_error_of_repeated_field (hne : ts ≠ []) {f : ConfigField}
    (hf : f ∈ before ++ after) (c' : Config) {ts' : List EventType} (hne' : ts' ≠ []) :
    ∃ e, ofText (c.insertAmong ts before after (c'.writePart ts' f)) = .error e := by
  have hbefore : ∀ a ∈ before.map (Part.mk c ts), a.rates ≠ [] :=
    Part.rates_ne_nil_of_mem_map hne before
  rcases List.mem_append.mp hf with hf | hf
  · obtain ⟨rest, hpart, hrest⟩ := c'.exists_writePart_eq ts' f
    have herror := exists_error_of_key (before.map (Part.mk c ts)) hbefore f.isIdentifier_name
      (hrest (after.flatMap (c.writePart ts))) (.inr ⟨⟨c, ts, f⟩, List.mem_map_of_mem hf, rfl⟩)
    simpa [insertAmong, hpart, Part.flatMap_text_map] using herror
  · obtain ⟨first, last, rfl⟩ := List.append_of_mem hf
    obtain ⟨rest, hpart, hrest⟩ := c.exists_writePart_eq ts f
    let parts := before.map (Part.mk c ts) ++ Part.mk c' ts' f :: first.map (Part.mk c ts)
    have hparts : ∀ a ∈ parts, a.rates ≠ [] := by
      refine List.forall_mem_append.mpr ⟨hbefore, List.forall_mem_cons.mpr ⟨hne', ?_⟩⟩
      exact Part.rates_ne_nil_of_mem_map hne first
    have herror := exists_error_of_key parts hparts f.isIdentifier_name
      (hrest (last.flatMap (c.writePart ts))) (.inr ⟨⟨c', ts', f⟩, by simp [parts], rfl⟩)
    simpa [parts, insertAmong, hpart, Part.flatMap_text_map, Part.text] using herror

/-- The rates of one policy are written as its entries. -/
lemma flatMap_writeRate_map (p : SamplingPolicy) (ts : List EventType) :
    ((ts.map (Prod.mk p)).flatMap fun a => List.replicate indentation ' ' ++ a.1.writeRate a.2) =
      p.writeRates ts := by
  rw [List.flatMap_map]
  rfl

/-- An entry that is no rate may not be added to the sampling. -/
lemma exists_error_of_unknown_rate (hne : ts₁ ++ ts₂ ≠ []) {key value : List Char}
    (hkey : IsIdentifier key) (hunknown : ∀ t : EventType, key ≠ t.name.toList)
    (hvalue : StartsValue value) :
    ∃ e, ofText (c.insertWithin before after ts₁ ts₂ (key ++ ':' :: value)) = .error e := by
  have herror := exists_error_of_rate (before.map (Part.mk c (ts₁ ++ ts₂)))
    (Part.rates_ne_nil_of_mem_map hne before) hkey
    (hvalue.atGap_append (c.sampling.writeRates ts₂ ++ after.flatMap (c.writePart (ts₁ ++ ts₂))))
    (ts₁.map (Prod.mk c.sampling)) (.inl hunknown)
  simpa [insertWithin, insertAmong, Part.flatMap_text_map, flatMap_writeRate_map] using herror

/-- A rate may not be added to the sampling a second time: it is found where it comes last. -/
lemma exists_error_of_repeated_rate {t : EventType} (ht : t ∈ ts₁ ++ ts₂) (p : SamplingPolicy) :
    ∃ e, ofText (c.insertWithin before after ts₁ ts₂ (p.writeRate t)) = .error e := by
  have hbefore : ∀ a ∈ before.map (Part.mk c (ts₁ ++ ts₂)), a.rates ≠ [] :=
    Part.rates_ne_nil_of_mem_map (List.ne_nil_of_mem ht) before
  have hrate : ∀ p : SamplingPolicy, ∃ rest, p.writeRate t = t.name.toList ++ ':' :: ' ' :: rest :=
    fun p => ⟨writeNat (p.oneIn t).toNat ++ lineEndAfter (writeNat (p.oneIn t).toNat),
      by simp [SamplingPolicy.writeRate, writeEntry, lineEndAfter]⟩
  rcases List.mem_append.mp ht with ht | ht
  · obtain ⟨rest, hpart⟩ := hrate p
    have hgap : atGap (' ' :: (rest ++ (c.sampling.writeRates ts₂ ++
      after.flatMap (c.writePart (ts₁ ++ ts₂))))) = true := rfl
    have herror := exists_error_of_rate (before.map (Part.mk c (ts₁ ++ ts₂))) hbefore
      t.isIdentifier_name hgap (ts₁.map (Prod.mk c.sampling))
      (.inr ⟨⟨c.sampling, t⟩, List.mem_map_of_mem ht, rfl⟩)
    simpa [insertWithin, insertAmong, hpart, Part.flatMap_text_map, flatMap_writeRate_map]
      using herror
  · obtain ⟨first, last, rfl⟩ := List.append_of_mem ht
    obtain ⟨rest, hpart⟩ := hrate c.sampling
    have hgap : atGap (' ' :: (rest ++ (c.sampling.writeRates last ++
      after.flatMap (c.writePart (ts₁ ++ (first ++ t :: last)))))) = true := rfl
    let rates := ts₁.map (Prod.mk c.sampling) ++ (p, t) :: first.map (Prod.mk c.sampling)
    have herror := exists_error_of_rate (before.map (Part.mk c (ts₁ ++ (first ++ t :: last))))
      hbefore t.isIdentifier_name hgap rates (.inr ⟨(p, t), by simp [rates], rfl⟩)
    have hrates : c.sampling.writeRates (first ++ t :: last) = c.sampling.writeRates first ++
        (List.replicate indentation ' ' ++ (t.name.toList ++ ':' :: ' ' :: rest)) ++
          c.sampling.writeRates last := by
      rw [← hpart]
      simp [SamplingPolicy.writeRates]
    simpa [rates, insertWithin, insertAmong, hrates, Part.flatMap_text_map, flatMap_writeRate_map]
      using herror

end Added

/-- **Partial configurations overlay the standard one.**  The document of some fields, each of them
listed once, replaces exactly these, and of the sampling exactly the listed rates; the order of the
fields and of the rates does not matter.  An entry may be added at no place, among the fields or
among the rates, if its key is unknown or listed already. -/
theorem ofText_partText_and_insert_fails (c : Config) {fs : List ConfigField} {ts : List EventType}
    (hfs : fs.Nodup) (hts : ts.Nodup) (hne : ts ≠ []) :
    ofText (c.partText fs ts) = .ok (c.overlay fs ts) ∧
    (∀ fs' ts', fs'.Perm fs → ts'.Perm ts →
      ofText (c.partText fs' ts') = ofText (c.partText fs ts)) ∧
    (∀ before after, before ++ after = fs →
      (∀ key value, IsIdentifier key → (∀ f : ConfigField, key ≠ f.name.toList) →
        StartsValue value →
          ∃ e, ofText (c.insertAmong ts before after (key ++ ':' :: value)) = .error e) ∧
      ∀ f ∈ fs, ∀ (c' : Config) (ts' : List EventType), ts' ≠ [] →
        ∃ e, ofText (c.insertAmong ts before after (c'.writePart ts' f)) = .error e) ∧
    ∀ before after ts₁ ts₂, before ++ .sampling :: after = fs → ts₁ ++ ts₂ = ts →
      (∀ key value, IsIdentifier key → (∀ t : EventType, key ≠ t.name.toList) →
        StartsValue value →
          ∃ e, ofText (c.insertWithin before after ts₁ ts₂ (key ++ ':' :: value)) = .error e) ∧
      ∀ t ∈ ts, ∀ p : SamplingPolicy,
        ∃ e, ofText (c.insertWithin before after ts₁ ts₂ (p.writeRate t)) = .error e := by
  refine ⟨c.ofText_eq_overlay hfs hts hne, fun fs' ts' hfs' hts' => ?_, ?_, ?_⟩
  · have hne' : ts' ≠ [] := fun hnil => hne (by simpa [hnil] using hts')
    rw [c.ofText_eq_overlay hfs hts hne,
      c.ofText_eq_overlay (hfs'.nodup_iff.mpr hfs) (hts'.nodup_iff.mpr hts) hne',
      c.overlay_congr (fun _ => hfs'.mem_iff) fun _ => hts'.mem_iff]
  · rintro before after rfl
    exact ⟨fun key value hkey hunknown hvalue =>
        c.exists_error_of_unknown_field hne hkey hunknown hvalue,
      fun f hf c' ts' hne' => c.exists_error_of_repeated_field hne hf c' hne'⟩
  · rintro before after ts₁ ts₂ - rfl
    exact ⟨fun key value hkey hunknown hvalue =>
        c.exists_error_of_unknown_rate hne hkey hunknown hvalue,
      fun t ht p => c.exists_error_of_repeated_rate ht p⟩

/-- A document of three fields, as it is and with an entry that is added among the fields or among
the rates. -/
theorem ofText_of_three_fields :
    let c : Config := { standard with
      intervalSecs := 10, nodeName := some "edge-7", sampling := ⟨1, 1, 10, 100⟩ }
    ([.intervalSecs, .nodeName, .sampling] : List ConfigField).Nodup ∧
    ([.rtt] : List EventType).Nodup ∧ ([.rtt] : List EventType) ≠ [] ∧
    ofText "interval_secs: 10\nnode_name: edge-7\nsampling:\n  rtt: 1\n" = .ok c ∧
    (∃ e, ofText "intervall_secs: 3\ninterval_secs: 10\nnode_name: edge-7\nsampling:\n  rtt: 1\n" =
      .error e) ∧
    ∃ e, ofText "interval_secs: 10\nnode_name: edge-7\nsampling:\n  rtt: 1\n  rtt: 1\n" =
      .error e := by
  intro c
  have hfs : ([.intervalSecs, .nodeName, .sampling] : List ConfigField).Nodup := by decide
  have hts : ([.rtt] : List EventType).Nodup := by decide
  have hne : ([.rtt] : List EventType) ≠ [] := by decide
  obtain ⟨hread, -, hadded, hwithin⟩ := c.ofText_partText_and_insert_fails hfs hts hne
  have htext : c.partText [.intervalSecs, .nodeName, .sampling] [.rtt] =
      "interval_secs: 10\nnode_name: edge-7\nsampling:\n  rtt: 1\n" := by decide
  have hunknown : c.insertAmong [.rtt] [] [.intervalSecs, .nodeName, .sampling]
      ("intervall_secs".toList ++ ':' :: " 3\n".toList) =
        "intervall_secs: 3\ninterval_secs: 10\nnode_name: edge-7\nsampling:\n  rtt: 1\n" := by
    decide
  have hrepeated : c.insertWithin [.intervalSecs, .nodeName] [] [.rtt] []
      (c.sampling.writeRate .rtt) =
        "interval_secs: 10\nnode_name: edge-7\nsampling:\n  rtt: 1\n  rtt: 1\n" := by decide
  refine ⟨hfs, hts, hne, ?_, ?_, ?_⟩
  · rw [← htext, hread]
    rfl
  · rw [← hunknown]
    exact (hadded [] _ rfl).1 _ _ (by decide) (fun f => by cases f <;> decide) rfl
  · rw [← hrepeated]
    exact (hwithin [.intervalSecs, .nodeName] [] [.rtt] [] rfl rfl).2 .rtt (by decide) c.sampling

end Config

end NodeTelemetry
