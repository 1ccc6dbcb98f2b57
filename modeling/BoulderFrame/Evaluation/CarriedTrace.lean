import BoulderFrame.Evaluation.LoadedFrame

/-!
# The lines of a trace on their way into the bundle

The record of an analyzed frame is sorted into a line of the trace, marked when the output has been
validated, copied under the fields that the writer sets, sanitized, and sorted again. Each of these
keeps what the loader reads.

## Main definitions

* `Carries`: a line still has what the loader reads of a record
* `TraceOf`: the lines of a trace do

## Main results

* `Carries.markRecord`, `Carries.copied`: marking and copying keep it
* `copyTrace_frames`, `copyTrace_stages`: what the traces become in the bundle
* `loadFrames_trace`: the lines of a trace are loaded as its records are
-/

namespace BoulderFrame

open DebugBundleWriter ProcessingPipeline

namespace Evaluation

variable {K : Type}

/-! ## Lines of the trace -/

/-- The line has what the loader reads of the record, which is one of a frame. -/
structure Carries (record line : Value K) : Prop where
  kept : Kept loadedFields record line
  wellFormed : line.WellFormed
  recordType : record.get "record_type" = .str "frame"
  schemaVersion : record.get "schema_version" = .int 1

namespace Carries

variable {record line : Value K}

theorem sortKeys (h : Carries record line) : Carries record line.sortKeys where
  kept := h.kept.sortKeys h.wellFormed
  wellFormed := h.wellFormed.sortKeys
  recordType := h.recordType
  schemaVersion := h.schemaVersion

/-- **Marking** a record adds no field that the loader reads. -/
theorem markRecord (h : Carries record line) : Carries record (markRecord line) := by
  obtain ⟨hkept, hwf, hrecordType, hschemaVersion⟩ := h
  unfold ProcessingPipeline.markRecord
  split
  · rename_i fields
    split
    · rename_i render hrender
      have hmarked : (Value.dict (Value.setField render "output_validated" (.bool true)) :
          Value K).WellFormed := (hwf.field hrender).setField (.bool true)
      refine ⟨?_, hwf.setField hmarked, hrecordType, hschemaVersion⟩
      refine hkept.update (fun key hkey hnone => ?_) fun key hkey w hw => ?_
      · have hne : key ≠ "render" := by
          rintro rfl
          rw [hrender] at hnone
          cases hnone
        exact (Value.lookup_setField_of_ne hne).trans hnone
      · by_cases hkey : key = "render"
        · subst hkey
          obtain rfl := Option.some.inj (hrender.symm.trans hw)
          exact ⟨_, Value.lookup_setField_self _ _ _, fun u hu => hu.setField (by decide)⟩
        · exact ⟨w, (Value.lookup_setField_of_ne hkey).trans hw, fun _ h => h⟩
    · exact ⟨hkept, hwf, hrecordType, hschemaVersion⟩
  · exact ⟨hkept, hwf, hrecordType, hschemaVersion⟩

/-- A line of a frame is an object with the type and the version of the records of frames. -/
theorem exists_fields (h : Carries record line) :
    ∃ fields, line = .dict fields ∧ fields.lookup "record_type" = some (.str "frame") ∧
      fields.lookup "schema_version" = some (.int 1) := by
  obtain ⟨hkept, -, hrecordType, hschemaVersion⟩ := h
  cases hkept with
  | @dict fields fields' hsome h =>
    have hfield : ∀ key ∈ loadedFields, ∀ u : Value K, u ≠ .none →
        (Value.dict fields).get key = u → ∃ u', fields'.lookup key = some u' ∧
          Kept loadedFields u u' := by
      intro key hkey u hne hget
      have hlookup : fields.lookup key = some u := by
        cases hu : fields.lookup key with
        | none =>
          rw [Value.get, Value.field_dict, hu] at hget
          exact absurd hget.symm hne
        | some u' =>
          rw [Value.get, Value.field_dict, hu] at hget
          rw [← hget]
          rfl
      have := hsome key hkey
      rw [hlookup, Option.isSome_some, Option.isSome_iff_exists] at this
      obtain ⟨u', hu'⟩ := this
      exact ⟨u', hu', h key hkey u u' hlookup hu'⟩
    obtain ⟨u, hu, htype⟩ := hfield "record_type" (by decide) _ (by simp) hrecordType
    obtain ⟨u', hu', hversion⟩ := hfield "schema_version" (by decide) _ (by simp) hschemaVersion
    cases htype
    cases hversion
    exact ⟨fields', rfl, hu, hu'⟩
  | _ => cases hrecordType

/-- **Copying** a line keeps what the loader reads. -/
theorem copied {fields : List (String × Value K)} (h : Carries record (.dict fields)) :
    Carries record (canonicalJson (typedRecord "frame"
      (fields.filter fun f => decide (f.1 ∉ reservedRecordFields)))) := by
  obtain ⟨_, heq, htype, hversion⟩ := h.exists_fields
  obtain rfl := Value.dict.inj heq
  obtain ⟨hkept, hwf, hrecordType, hschemaVersion⟩ := h
  have hfilter : (Value.dict (fields.filter fun f => decide (f.1 ∉ reservedRecordFields)) :
      Value K).WellFormed :=
    .dict (hwf.keys.sublist (List.filter_sublist.map _)) fun f hf =>
      hwf.fields f (List.mem_filter.mp hf).1
  have htyped := wellFormed_typedFields "frame" hfilter
  have hlookup : ∀ key ∈ loadedFields, (typedFields "frame"
      (fields.filter fun f => decide (f.1 ∉ reservedRecordFields))).lookup key =
        (fields.lookup key).map sanitizeValue := by
    intro key hkey
    by_cases hreserved : key ∈ reservedRecordFields
    · have hframe : sanitizeValue (.str "frame" : Value K) = .str "frame" := by
        rw [sanitizeValue, show matchesUrl "frame" = false by decide]
        rfl
      simp only [reservedRecordFields, List.mem_cons, List.not_mem_nil, or_false] at hreserved
      obtain rfl | rfl := hreserved
      · rw [htype, Option.map_some, hframe]
        rfl
      · rw [hversion, Option.map_some, sanitizeValue]
        rfl
    · rw [lookup_typedFields _ hfilter.keys (loadedFields_safe key hkey) hreserved,
        List.lookup_filter_key fun key => decide (key ∉ reservedRecordFields),
        if_pos (decide_eq_true hreserved)]
  have hcopy : Kept loadedFields record (.dict (typedFields "frame"
      (fields.filter fun f => decide (f.1 ∉ reservedRecordFields)))) := by
    refine hkept.update (fun key hkey hnone => ?_) fun key hkey w hw => ?_
    · rw [hlookup key hkey, hnone]
      rfl
    · refine ⟨sanitizeValue w, ?_, fun u hu => ?_⟩
      · rw [hlookup key hkey, hw]
        rfl
      · exact hu.sanitizeValue loadedFields_safe (hwf.field hw)
  exact ⟨(hcopy.sanitizeValue loadedFields_safe htyped).sortKeys (wellFormed_sanitizeValue htyped),
    (wellFormed_sanitizeValue htyped).sortKeys, hrecordType, hschemaVersion⟩

/-- A line of a frame is loaded as the record is. -/
theorem debugFrame_eq [Field K] [LinearOrder K] (h : Carries record line) :
    debugFrame line = debugFrame record := (debugFrame_kept h.kept).symm

theorem isFrame (h : Carries record line) : isFrame line = true := by
  rw [Evaluation.isFrame, ← isText_kept (get_kept h.kept _ (by decide)), h.recordType]
  rfl

end Carries

/-- The lines of a trace have what the loader reads of its records. -/
abbrev TraceOf (records lines : List (Value K)) : Prop := List.Forall₂ Carries records lines

variable {textSize bundleSize : LinesSize K} {records lines : List (Value K)} {maxBytes : ℤ}

/-- Written lines are the records with sorted keys. -/
theorem writeLines_eq_ok {written records lines : List (Value K)}
    (h : writeLines textSize maxBytes written records = .ok lines) :
    lines = written ++ records.map (·.sortKeys) := by
  induction records generalizing written with
  | nil =>
    obtain rfl := Except.ok.inj h
    rw [List.map_nil, List.append_nil]
  | cons record records ih =>
    obtain ⟨-, h⟩ := Except.ok_of_guard h
    rw [ih h, List.append_assoc, List.map_cons, List.singleton_append]

theorem TraceOf.written (h : TraceOf records lines) {written : List (Value K)}
    (hwritten : writeLines textSize maxBytes [] lines = .ok written) : TraceOf records written := by
  rw [writeLines_eq_ok hwritten, List.nil_append, TraceOf, List.forall₂_map_right_iff]
  exact h.imp fun _ _ hcarries => hcarries.sortKeys

/-- **A marked trace** still has what the loader reads. -/
theorem TraceOf.markRenderValidated (h : TraceOf records lines) :
    TraceOf records (markRenderValidated textSize lines maxBytes) := by
  unfold ProcessingPipeline.markRenderValidated
  split
  · rename_i written hwritten
    have hmarked : TraceOf records (lines.map markRecord) :=
      List.forall₂_map_right_iff.mpr (h.imp fun _ _ hcarries => hcarries.markRecord)
    exact hmarked.written hwritten
  · exact h

theorem TraceOf.iterate_markRenderValidated (h : TraceOf records lines) (n : ℕ) :
    TraceOf records ((ProcessingPipeline.markRenderValidated textSize · maxBytes)^[n] lines) := by
  induction n generalizing lines with
  | zero => exact h
  | succ n ih => exact ih h.markRenderValidated

/-! ## The records of the bundle -/

/-- The copied lines of a trace are appended to the bundle. -/
theorem copyTrace_frames {writer writer' : DebugBundleWriter K} (h : TraceOf records lines)
    (hcopy : copyTrace bundleSize writer lines = .ok writer') :
    ∃ copies, writer'.records = writer.records ++ copies ∧ TraceOf records copies := by
  induction h generalizing writer with
  | nil =>
    obtain rfl := Except.ok.inj hcopy
    exact ⟨[], (List.append_nil _).symm, .nil⟩
  | @cons record line records lines hline hlines ih =>
    obtain ⟨fields, rfl, htype, -⟩ := hline.exists_fields
    obtain ⟨next, hnext, hrest⟩ := Except.bind_eq_ok.mp hcopy
    rw [copyLine, htype] at hnext
    obtain ⟨copies, hcopies, hforall⟩ := ih hrest
    rw [write_eq_ok hnext, List.append_assoc] at hcopies
    exact ⟨_, hcopies, .cons hline.copied hforall⟩

/-- A record of a type has this type in the bundle. -/
theorem canonicalJson_typedRecord {recordType : String} (htype : matchesUrl recordType = false)
    {fields : List (String × Value K)} (h : (fields.map Prod.fst).Nodup) :
    ∃ fields', canonicalJson (typedRecord recordType fields) = .dict fields' ∧
      (fields'.map Prod.fst).Nodup ∧ fields'.lookup "record_type" = some (.str recordType) := by
  obtain ⟨fields', heq, hnodup, hlookup⟩ := canonicalJson_dict (nodup_typedFields recordType h)
  refine ⟨fields', heq, hnodup, ?_⟩
  have hsanitized : canonicalJson (.str recordType : Value K) = .str recordType := by
    rw [canonicalJson, sanitizeValue, htype]
    rfl
  rw [hlookup "record_type" (by decide +kernel), ← hsanitized]
  rfl

theorem isFrame_eq_false {recordType : String} (hne : recordType ≠ "frame")
    {fields : List (String × Value K)}
    (h : fields.lookup "record_type" = some (.str recordType)) :
    isFrame (.dict fields) = false := by
  rw [isFrame, Value.get, Value.field_dict, h]
  exact decide_eq_false hne

theorem isFrame_typedRecord {recordType : String} (htype : matchesUrl recordType = false)
    (hne : recordType ≠ "frame") {fields : List (String × Value K)}
    (h : (fields.map Prod.fst).Nodup) :
    isFrame (canonicalJson (typedRecord recordType fields)) = false := by
  obtain ⟨fields', heq, -, hlookup⟩ := canonicalJson_typedRecord htype h
  rw [heq]
  exact isFrame_eq_false hne hlookup

/-- The copied records of the stages are no frames. -/
theorem copyTrace_stages {writer writer' : DebugBundleWriter K} {stages : List (StageRecord K)}
    (hcopy : copyTrace bundleSize writer (stages.map stageLine) = .ok writer') :
    ∃ copies, writer'.records = writer.records ++ copies ∧
      ∀ copy ∈ copies, isFrame copy = false := by
  induction stages generalizing writer with
  | nil =>
    obtain rfl := Except.ok.inj hcopy
    exact ⟨[], (List.append_nil _).symm, fun _ h => absurd h List.not_mem_nil⟩
  | cons stage stages ih =>
    obtain ⟨next, hnext, hrest⟩ := Except.bind_eq_ok.mp hcopy
    obtain ⟨copies, hcopies, hcopy⟩ := ih hrest
    have htype : matchesUrl stage.recordType.value = false := by
      cases stage.recordType <;> decide
    have hne : stage.recordType.value ≠ "frame" := by
      cases stage.recordType <;> decide
    obtain ⟨fields, heq, hnodup, hlookup⟩ := canonicalJson_typedRecord htype stage.nodup_keys
    rw [stageLine, heq, copyLine, hlookup] at hnext
    rw [write_eq_ok hnext, List.append_assoc] at hcopies
    refine ⟨_, hcopies, fun copy hmem => ?_⟩
    obtain rfl | hmem := List.mem_cons.mp hmem
    · exact isFrame_typedRecord htype hne (hnodup.sublist (List.filter_sublist.map _))
    · exact hcopy copy hmem

/-! ## The loaded frames -/

section Load

variable [Field K] [LinearOrder K] {maxFrames : ℤ} {frames expected : List (DebugFrame K)}

theorem loadFrames_skip {copies rest : List (Value K)}
    (h : ∀ copy ∈ copies, isFrame copy = false) :
    loadFrames maxFrames frames (copies ++ rest) = loadFrames maxFrames frames rest := by
  induction copies with
  | nil => rfl
  | cons copy copies ih =>
    rw [List.cons_append, loadFrames, if_neg (by simp [h copy List.mem_cons_self])]
    exact ih fun copy' hmem => h copy' (List.mem_cons_of_mem _ hmem)

/-- The lines of a trace are loaded as its records are. -/
theorem loadFrames_trace {copies rest : List (Value K)} (h : TraceOf records copies)
    (hexpected : List.Forall₂ (fun record frame => debugFrame record = .ok frame) records expected)
    (hlimit : ((frames.length + records.length : ℕ) : ℤ) ≤ maxFrames) :
    loadFrames maxFrames frames (copies ++ rest) =
      loadFrames maxFrames (frames ++ expected) rest := by
  induction h generalizing frames expected with
  | nil =>
    obtain rfl := List.forall₂_nil_left_iff.mp hexpected
    rw [List.append_nil, List.nil_append]
  | @cons record line records copies hline hlines ih =>
    obtain ⟨frame, rest', hframe, hrest, rfl⟩ := List.forall₂_cons_left_iff.mp hexpected
    rw [List.length_cons] at hlimit
    have hlimit' : (((frames ++ [frame]).length + records.length : ℕ) : ℤ) ≤ maxFrames := by
      rw [List.length_append, List.length_singleton]
      omega
    rw [List.cons_append, loadFrames, if_pos hline.isFrame, if_neg (by omega), hline.debugFrame_eq,
      hframe, Except.ok_bind, ih hrest hlimit', List.append_assoc, List.singleton_append]

omit [Field K] [LinearOrder K] in
/-- Frames with increasing indices and timestamps pass the last check. -/
theorem strictlyIncreasingFrames_eq_ok {name : String} {previousIndex previousTimestamp : ℤ}
    {frames : List (DebugFrame K)}
    (hindices : (previousIndex :: frames.map (·.frameIndex)).IsChain (· < ·))
    (htimestamps : (previousTimestamp :: frames.map (·.timestampMs)).IsChain (· < ·)) :
    strictlyIncreasingFrames name previousIndex previousTimestamp frames = .ok () := by
  induction frames generalizing previousIndex previousTimestamp with
  | nil => rfl
  | cons frame frames ih =>
    rw [List.map_cons, List.isChain_cons_cons] at hindices htimestamps
    rw [strictlyIncreasingFrames, if_neg hindices.1.not_ge, if_neg htimestamps.1.not_ge]
    exact ih hindices.2 htimestamps.2

end Load

end Evaluation

end BoulderFrame
