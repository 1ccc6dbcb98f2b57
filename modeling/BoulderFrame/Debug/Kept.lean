import BoulderFrame.Debug.Telemetry

/-!
# What a reader of the telemetry finds

Between the analysis and a reader of its telemetry stand several rewritings: keys are sorted, fields
are sanitized, records are copied. A copy keeps a record for a reader of some field names if, at
every depth, it has the same of these fields with the same flags, numbers and texts.

## Main definitions

* `Legible`: the well-formed values that a sanitizer keeps, but for the names of their fields
* `Kept`: a copy keeps a value for the readers of some field names

## Main results

* `Kept.refl`: a legible value keeps itself
* `Kept.sortKeys`, `Kept.sanitizeValue`: sorting and sanitizing keep what was kept
-/

namespace BoulderFrame

variable {K : Type}

/-- A well-formed value whose numbers are finite, and none of whose texts has a location. -/
inductive Legible : Value K → Prop
  | none : Legible .none
  | bool (value : Bool) : Legible (.bool value)
  | int (value : ℤ) : Legible (.int value)
  | number (value : K) : Legible (.number value)
  | str {text : String} (h : matchesUrl text = false) : Legible (.str text)
  | list {items : List (Value K)} (h : ∀ item ∈ items, Legible item) : Legible (.list items)
  | dict {fields : List (String × Value K)} (hkeys : (fields.map Prod.fst).Nodup)
      (h : ∀ f ∈ fields, Legible f.2) : Legible (.dict fields)

theorem Legible.fields {fields : List (String × Value K)} (hkeys : (fields.map Prod.fst).Nodup)
    (h : fields.Forall fun f => Legible f.2) : Legible (.dict fields) :=
  .dict hkeys (List.forall_iff_forall_mem.mp h)

theorem Legible.wellFormed {v : Value K} (h : Legible v) : v.WellFormed := by
  induction h with
  | none => exact .none
  | bool => exact .bool _
  | int => exact .int _
  | number => exact .float _
  | str h => exact .str _
  | list h ih => exact .list ih
  | dict hkeys h ih => exact .dict hkeys ih

/-- A reader of the given fields finds the same in both values. No reader looks into a list. -/
inductive Kept (keys : List String) : Value K → Value K → Prop
  | none : Kept keys .none .none
  | bool (value : Bool) : Kept keys (.bool value) (.bool value)
  | int (value : ℤ) : Kept keys (.int value) (.int value)
  | number (value : K) : Kept keys (.number value) (.number value)
  | str {text : String} (h : matchesUrl text = false) : Kept keys (.str text) (.str text)
  | list (items items' : List (Value K)) : Kept keys (.list items) (.list items')
  | dict {fields fields' : List (String × Value K)}
      (hsome : ∀ key ∈ keys, (fields'.lookup key).isSome = (fields.lookup key).isSome)
      (h : ∀ key ∈ keys, ∀ v v', fields.lookup key = some v → fields'.lookup key = some v' →
        Kept keys v v') : Kept keys (.dict fields) (.dict fields')

namespace Kept

variable {keys : List String}

/-- A legible value keeps itself. -/
theorem refl {v : Value K} (h : Legible v) : Kept keys v v := by
  induction h with
  | none => exact .none
  | bool => exact .bool _
  | int => exact .int _
  | number => exact .number _
  | str h => exact .str h
  | list h ih => exact .list _ _
  | dict hkeys h ih =>
    refine .dict (fun _ _ => rfl) fun key _ v v' hv hv' => ?_
    obtain rfl := Option.some.inj (hv.symm.trans hv')
    exact ih _ (List.mem_of_lookup hv)

/-- Other fields keep what some fields keep, if each of them does. -/
theorem update {v : Value K} {fields fields' : List (String × Value K)}
    (h : Kept keys v (.dict fields))
    (hnone : ∀ key ∈ keys, fields.lookup key = .none → fields'.lookup key = .none)
    (hsome : ∀ key ∈ keys, ∀ w, fields.lookup key = some w →
      ∃ w', fields'.lookup key = some w' ∧ ∀ u, Kept keys u w → Kept keys u w') :
    Kept keys v (.dict fields') := by
  cases h with
  | dict hkeys h =>
    refine .dict (fun key hkey => ?_) fun key hkey u u' hu hu' => ?_
    · rw [← hkeys key hkey]
      cases hw : fields.lookup key with
      | none => rw [hnone key hkey hw]
      | some w =>
        obtain ⟨w', hw', -⟩ := hsome key hkey w hw
        rw [hw']
        rfl
    · cases hw : fields.lookup key with
      | none =>
        rw [hnone key hkey hw] at hu'
        cases hu'
      | some w =>
        obtain ⟨w', hw', hkept⟩ := hsome key hkey w hw
        obtain rfl := Option.some.inj (hw'.symm.trans hu')
        exact hkept u (h key hkey u w hu hw)

/-- The assignment of a field that is not read. -/
theorem setField {v w : Value K} {fields : List (String × Value K)}
    (h : Kept keys v (.dict fields)) {key : String} (hkey : key ∉ keys) :
    Kept keys v (.dict (Value.setField fields key w)) := by
  have hlookup : ∀ key' ∈ keys, (Value.setField fields key w).lookup key' = fields.lookup key' :=
    fun key' hkey' => Value.lookup_setField_of_ne fun heq => hkey (heq ▸ hkey')
  refine h.update (fun key' hkey' hnone => (hlookup key' hkey').trans hnone)
    fun key' hkey' u hu => ⟨u, (hlookup key' hkey').trans hu, fun _ h => h⟩

/-- **Sorting** the keys keeps what was kept. -/
theorem sortKeys {v w : Value K} (h : Kept keys v w) (hw : w.WellFormed) :
    Kept keys v w.sortKeys := by
  induction h with
  | none => exact .none
  | bool => exact .bool _
  | int => exact .int _
  | number => exact .number _
  | str h => exact .str h
  | list => exact .list _ _
  | @dict fields fields' hsome h ih =>
    have hlookup := Value.field_sortKeys hw
    rw [Value.sortKeys] at hlookup ⊢
    refine .dict (fun key hkey => ?_) fun key hkey u u' hu hu' => ?_
    · rw [← Value.field_dict, hlookup, Option.isSome_map]
      exact hsome key hkey
    · rw [← Value.field_dict, hlookup] at hu'
      obtain ⟨u'', hu'', rfl⟩ := Option.map_eq_some_iff.mp hu'
      exact ih key hkey u u'' hu hu'' (hw.field hu'')

/-- **Sanitizing** keeps what was kept, if the names of the fields are safe. -/
theorem sanitizeValue (hkeys : ∀ key ∈ keys, unsafeField key = false) {v w : Value K}
    (h : Kept keys v w) (hw : w.WellFormed) : Kept keys v (sanitizeValue w) := by
  induction h with
  | none => exact .none
  | bool => exact .bool _
  | int => exact .int _
  | number => exact .number _
  | str h =>
    rw [BoulderFrame.sanitizeValue, h]
    exact .str h
  | list => exact .list _ _
  | @dict fields fields' hsome h ih =>
    have hlookup : ∀ key ∈ keys, _ := fun key hkey => field_sanitizeValue hw (hkeys key hkey)
    rw [BoulderFrame.sanitizeValue] at hlookup ⊢
    refine .dict (fun key hkey => ?_) fun key hkey u u' hu hu' => ?_
    · rw [← Value.field_dict, hlookup key hkey, Option.isSome_map]
      exact hsome key hkey
    · rw [← Value.field_dict, hlookup key hkey] at hu'
      obtain ⟨u'', hu'', rfl⟩ := Option.map_eq_some_iff.mp hu'
      exact ih key hkey u u'' hu hu'' (hw.field hu'')

end Kept

/-! ## The serialized values -/

section Serialized

theorem legible_serializeNumber (x : Option K) : Legible (serializeNumber x) := by
  cases x with
  | none => exact .none
  | some x => exact .number x

theorem legible_serializeFlag (flag : Option Bool) : Legible (K := K) (serializeFlag flag) := by
  cases flag with
  | none => exact .none
  | some flag => exact .bool flag

theorem legible_serializePoint (point : Point K) : Legible (serializePoint point) :=
  .fields (by decide : ["x", "y"].Nodup) ⟨.number _, .number _⟩

theorem legible_serializeRect (rect : Rect K) : Legible (serializeRect rect) :=
  .fields (by decide : ["x", "y", "width", "height"].Nodup)
    ⟨.number _, .number _, .number _, .number _⟩

theorem legible_serializeCropRect (crop : CropRect K) : Legible (serializeCropRect crop) :=
  .fields (by decide : ["x", "y", "width", "height"].Nodup)
    ⟨.number _, .number _, .number _, .number _⟩

theorem legible_selectionOutcome (outcome : SelectionOutcome) :
    Legible (K := K) (.str outcome.value) := by
  refine .str ?_
  cases outcome <;> decide

theorem legible_serializeAssociationEvidence (evidence : AssociationEvidence K) :
    Legible (serializeAssociationEvidence evidence) := by
  refine .fields (by decide : ["selected", "reference", "reference_kind", "strategy", "outcome",
    "candidate_count", "candidates_truncated", "candidates"].Nodup)
    ⟨.bool _, legible_serializePoint _, .str ?_, .str ?_, legible_selectionOutcome _, .int _,
      .bool _, .list ?_⟩
  · cases evidence.referenceKind <;> decide
  · cases evidence.strategy
    decide
  · intro item hitem
    obtain ⟨candidate, -, rfl⟩ := List.mem_map.mp hitem
    exact .fields (by decide : ["original_index", "bounds", "confidence", "contains_reference",
      "center_distance", "selected"].Nodup)
      ⟨.int _, legible_serializeRect _, .number _, .bool _, .number _, .bool _⟩

theorem legible_serializeRawFrameObservation (observation : RawFrameObservation K) :
    Legible (.dict (serializeRawFrameObservation observation)) := by
  unfold serializeRawFrameObservation
  refine .fields ?_ (List.forall_append.mpr
    ⟨⟨.int _, .int _, ?_, legible_selectionOutcome _⟩, ?_⟩)
  · cases observation.association with
    | none =>
      exact (by decide : ["frame_index", "timestamp_ms", "detection", "selection_outcome"].Nodup)
    | some association =>
      exact (by decide : ["frame_index", "timestamp_ms", "detection", "selection_outcome",
        "selection"].Nodup)
  · cases observation.detection with
    | none => exact .none
    | some detection =>
      exact .fields (by decide : ["bounds", "confidence"].Nodup)
        ⟨legible_serializeRect _, .number _⟩
  · cases observation.association with
    | none => exact trivial
    | some association => exact legible_serializeAssociationEvidence _

theorem legible_serializeFrameMeasurement (measurement : FrameMeasurement K) :
    Legible (serializeFrameMeasurement measurement) := by
  refine .fields (by decide : ["detector_bounds", "confidence", "detection_missed",
    "detection_sampled"].Nodup) ⟨?_, .number _, .bool _, .bool _⟩
  cases measurement.detectorBounds with
  | none => exact .none
  | some bounds => exact legible_serializeRect bounds

theorem legible_serializePlannerTrace (trace : PlannerTrace K) :
    Legible (serializePlannerTrace trace) := by
  have haction : ∀ action : FrameAction, Legible (K := K) (.str action.value) := by
    intro action
    refine .str ?_
    cases action <;> decide
  cases trace with
  | inl trace =>
    exact .fields (by decide : ["target_height_fraction", "desired_crop", "detection_missed",
      "smoothing_applied", "containment_override", "source_aspect_limited",
      "observed_height_fraction", "scale_relative_error", "scale_deadband_applied",
      "scale_adjusting", "action", "center_error_x_fraction", "center_error_y_fraction",
      "center_deadband_applied", "center_adjusting"].Nodup)
      ⟨.number _, legible_serializeCropRect _, .bool _, .bool _, .bool _, .bool _,
        legible_serializeNumber _, legible_serializeNumber _, .bool _, .bool _, haction _,
        legible_serializeNumber _, legible_serializeNumber _, .bool _, .bool _⟩
  | inr trace =>
    exact .fields (by decide : ["target_height_fraction", "desired_crop", "detection_missed",
      "smoothing_applied", "containment_override", "source_aspect_limited",
      "observed_height_fraction", "scale_relative_error", "scale_deadband_applied",
      "scale_adjusting", "action", "lookahead_center_adjusted", "sampled_detection_constraint",
      "sampled_detection_contained", "held_target_contained", "pan_velocity_x_source_per_second",
      "pan_velocity_y_source_per_second", "pan_acceleration_x_source_per_second2",
      "pan_acceleration_y_source_per_second2", "pan_speed_limit_exceeded",
      "pan_acceleration_limit_exceeded"].Nodup)
      ⟨.number _, legible_serializeCropRect _, .bool _, .bool _, .bool _, .bool _,
        legible_serializeNumber _, legible_serializeNumber _, .bool _, .bool _, haction _,
        .bool _, .bool _, legible_serializeFlag _, legible_serializeFlag _,
        legible_serializeNumber _, legible_serializeNumber _, legible_serializeNumber _,
        legible_serializeNumber _, .bool _, .bool _⟩

end Serialized

end BoulderFrame
