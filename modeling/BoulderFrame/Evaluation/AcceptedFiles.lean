import BoulderFrame.Evaluation.Annotations

/-!
# Files that are accepted

A file of annotations is accepted exactly if it is a document that holds annotations, and these are
well formed; likewise a manifest of cases. What a document holds is told field by field. All that is
well formed can be written so that it is accepted, and other documents are refused with an error of
the validation, but for integers that have no float.

## Main definitions

* `NumberOf`, `PointOf`, `RectOf`, `OptionalOf`, `SourceOf`, `FrameOf`, `CaseOf`: what a value holds
* `AnnotationsOf`, `CasesOf`: what a document holds

## Main results

* `loadAnnotations_eq_ok`, `loadManifest_eq_ok`: the documents that are read, and what is read
* `loadAnnotations_accepts`, `loadManifest_accepts`: which files are accepted, what can be written
  for it, and how the others are refused
-/

namespace BoulderFrame

namespace Evaluation

/-! ## What a value holds -/

section Holds

variable {K : Type}

/-- The value is a number, which has the given float. -/
def NumberOf [IntCast K] (v : Value K) (x : K) : Prop :=
  v = .number x ∨ ∃ n : ℤ, v = .int n ∧ n.natAbs < floatOverflow ∧ x = n

/-- The value is none, or holds something. -/
def OptionalOf {α : Type} (holds : Value K → α → Prop) (v : Value K) (a : Option α) : Prop :=
  (v = .none ∧ a = none) ∨ v ≠ .none ∧ ∃ b, holds v b ∧ a = some b

def TextOf (v : Value K) (text : String) : Prop := v = .str text

structure PointOf [IntCast K] (v : Value K) (p : Point K) : Prop where
  x : NumberOf (v.get "x") p.x
  y : NumberOf (v.get "y") p.y

structure RectOf [IntCast K] (v : Value K) (r : Rect K) : Prop where
  x : NumberOf (v.get "x") r.x
  y : NumberOf (v.get "y") r.y
  width : NumberOf (v.get "width") r.width
  height : NumberOf (v.get "height") r.height

structure SourceOf [IntCast K] (v : Value K) (source : SourceMetadata K) : Prop where
  sourceId : OptionalOf TextOf (v.get "source_id") source.sourceId
  sha256 : OptionalOf TextOf (v.get "sha256") source.sha256
  width : (v.field "display_width").getD (v.get "width") = .int source.width
  height : (v.field "display_height").getD (v.get "height") = .int source.height
  frameRate : NumberOf (v.get "frame_rate") source.frameRate
  variableFrameRate : v.get "variable_frame_rate" = .bool source.variableFrameRate

structure FrameOf [IntCast K] (v : Value K) (f : AnnotationFrame K) : Prop where
  frameIndex : v.get "frame_index" = .int f.frameIndex
  timestampMs : v.get "timestamp_ms" = .int f.timestampMs
  visible : v.get "visible" = .bool f.visible
  occluded : (v.field "occluded").getD (.bool false) = .bool f.occluded
  ambiguous : (v.field "ambiguous").getD (.bool false) = .bool f.ambiguous
  bounds : OptionalOf RectOf (v.get "bounds") f.bounds
  landmarks : ∃ items, (v.field "landmarks").getD (.list []) = .list items ∧
    List.Forall₂ PointOf items f.landmarks
  root : OptionalOf PointOf (v.get "root") f.root
  identity : OptionalOf TextOf (v.get "identity") f.identity

/-- The document holds the annotations, and is marked as reviewed. -/
structure AnnotationsOf [IntCast K] [DecidableEq K] (v : Value K) (a : AnnotationSet K) : Prop where
  schemaVersion : (v.get "schema_version").equalsInt 1 = true
  humanReviewed : v.get "human_reviewed" = .bool true
  caseId : v.get "case_id" = .str a.caseId
  source : SourceOf (v.get "source") a.source
  reviewer : v.get "reviewer" = .str a.reviewer
  frames : ∃ items, v.get "frames" = .list items ∧ List.Forall₂ FrameOf items a.frames

structure CaseOf [IntCast K] (v : Value K) (c : ManifestCase K) : Prop where
  caseId : v.get "case_id" = .str c.caseId
  scenario : v.get "scenario" = .str c.scenario
  annotation : v.get "annotation" = .str c.annotation
  source : SourceOf (v.get "source") c.source
  targetFrameIndex : (v.get "target_selection").get "frame_index" = .int c.targetFrameIndex

/-- The document is a manifest of the cases. -/
structure CasesOf [IntCast K] [DecidableEq K] (v : Value K) (cases : List (ManifestCase K)) :
    Prop where
  schemaVersion : (v.get "schema_version").equalsInt 1 = true
  cases : ∃ items, v.get "cases" = .list items ∧ List.Forall₂ CaseOf items cases

variable {α : Type} {v : Value K} {name : String}

theorem finite_eq_ok [IntCast K] {x : K} : finite v name = .ok x ↔ NumberOf v x := by
  unfold finite NumberOf
  cases v with
  | int n =>
    dsimp only
    by_cases hn : n.natAbs < floatOverflow
    · rw [if_pos hn]
      simp [Value.number, hn, eq_comm]
    · rw [if_neg hn]
      simp [Value.number, hn]
  | float value => cases value <;> simp [Value.number, eq_comm]
  | _ => simp [Value.number]

/-- A value that is not none is that of a field of an object. -/
theorem mapping_of_get {key : String} {u : Value K} (h : v.get key = u) (hu : u ≠ .none) :
    mapping v name = .ok v := by
  cases v with
  | dict fields => rfl
  | _ => exact absurd h.symm hu

/-- What is read of a mapping is read of the value. -/
theorem of_mapping {read : Value K → Except Raised α} {a : α}
    (h : (mapping v name >>= read) = .ok a) : read v = .ok a := by
  cases v with
  | dict fields => exact h
  | _ => cases h

theorem string_eq_ok {text : String} : string v name = .ok text ↔ v = .str text ∧ text ≠ "" := by
  cases v with
  | str text' =>
    rw [string]
    split_ifs with h
    · simp only [Value.str.injEq, false_iff, not_and, not_not]
      rintro rfl
      exact h
    · simp only [Except.ok.injEq, Value.str.injEq, iff_self_and]
      rintro rfl
      exact h
  | _ => simp [string]

theorem boolean_eq_ok {b : Bool} : boolean v name = .ok b ↔ v = .bool b := by
  cases v <;> simp [boolean]

theorem sequence_eq_ok {items : List (Value K)} :
    sequence v name = .ok items ↔ v = .list items := by
  cases v <;> simp [sequence]

theorem nonNegativeInt_eq_ok {n : ℤ} : nonNegativeInt v name = .ok n ↔ v = .int n ∧ 0 ≤ n := by
  cases v with
  | int value =>
    rw [nonNegativeInt]
    split_ifs with h
    · simp only [Value.int.injEq, false_iff, not_and, not_le]
      rintro rfl
      exact h
    · simp only [Except.ok.injEq, Value.int.injEq, iff_self_and]
      rintro rfl
      exact not_lt.mp h
  | _ => simp [nonNegativeInt]

theorem positiveInt_eq_ok {n : ℤ} : positiveInt v name = .ok n ↔ v = .int n ∧ 0 < n := by
  rw [positiveInt, Except.bind_eq_ok]
  constructor
  · rintro ⟨m, hm, h⟩
    obtain ⟨rfl, hnonneg⟩ := nonNegativeInt_eq_ok.mp hm
    obtain ⟨hne, h⟩ := Except.ok_of_guard h
    obtain rfl := Except.ok.inj h
    exact ⟨rfl, by omega⟩
  · rintro ⟨rfl, hpos⟩
    exact ⟨n, nonNegativeInt_eq_ok.mpr ⟨rfl, hpos.le⟩, if_neg hpos.ne'⟩

/-- An optional value is read as what it holds, if that is. -/
theorem optional_eq_ok {read : Value K → Except Raised α} {holds : Value K → α → Prop}
    (hread : ∀ b, read v = .ok b ↔ holds v b) {a : Option α} :
    optional v read = .ok a ↔ OptionalOf holds v a := by
  have hsome : v ≠ .none → optional v read = some <$> read v := by
    intro hv
    cases v with
    | none => exact absurd rfl hv
    | _ => rfl
  unfold OptionalOf
  by_cases hv : v = .none
  · subst hv
    simp [optional, eq_comm]
  · rw [hsome hv]
    simp only [hv, false_and, false_or, ne_eq, not_false_eq_true, true_and, ← hread]
    cases read v with
    | error e => simp
    | ok b => simp [eq_comm]

/-- What an optional value holds has a property. -/
theorem OptionalOf.and_iff {holds : Value K → α → Prop} {p : α → Prop} {a : Option α} :
    OptionalOf (fun v b => holds v b ∧ p b) v a ↔ OptionalOf holds v a ∧ ∀ b ∈ a, p b := by
  unfold OptionalOf
  constructor
  · rintro (⟨hv, rfl⟩ | ⟨hv, b, ⟨hb, hp⟩, rfl⟩)
    · exact ⟨.inl ⟨hv, rfl⟩, by simp⟩
    · exact ⟨.inr ⟨hv, b, hb, rfl⟩, by simpa using hp⟩
  · rintro ⟨⟨hv, rfl⟩ | ⟨hv, b, hb, rfl⟩, hp⟩
    · exact .inl ⟨hv, rfl⟩
    · exact .inr ⟨hv, b, ⟨hb, hp b rfl⟩, rfl⟩

theorem optionalString_eq_ok {a : Option String} :
    optional v (string · name) = .ok a ↔ OptionalOf TextOf v a ∧ ∀ text ∈ a, text ≠ "" :=
  (optional_eq_ok fun _ => string_eq_ok).trans OptionalOf.and_iff

/-- A value that holds nothing is none. -/
theorem OptionalOf.isNone_iff {holds : Value K → α → Prop} {a : Option α}
    (h : OptionalOf holds v a) : v.isNone = true ↔ a = none := by
  obtain ⟨rfl, rfl⟩ | ⟨hv, b, -, rfl⟩ := h
  · simp [Value.isNone]
  · refine iff_of_false (fun hnone => hv ?_) (by simp)
    cases v with
    | none => rfl
    | _ => cases hnone

theorem optionalOf_elim {holds : Value K → α → Prop} {write : α → Value K}
    (hwrite : ∀ b, write b ≠ .none) {a : Option α} (h : ∀ b ∈ a, holds (write b) b) :
    OptionalOf holds (a.elim .none write) a := by
  cases a with
  | none => exact .inl ⟨rfl, rfl⟩
  | some b => exact .inr ⟨hwrite b, b, h b rfl, rfl⟩

theorem optionalOf_text (a : Option String) : OptionalOf TextOf (a.elim (.none : Value K) .str) a :=
  optionalOf_elim (fun _ => by simp) fun _ _ => rfl

/-- A check of all items. -/
theorem forM_eq_ok {check : α → Except Raised Unit} {items : List α} :
    items.forM check = .ok () ↔ ∀ a ∈ items, check a = .ok () := by
  induction items with
  | nil => simp
  | cons a items ih =>
    change (check a >>= fun _ => items.forM check) = .ok () ↔ _
    rw [Except.bind_eq_ok, List.forall_mem_cons, ← ih]
    constructor
    · rintro ⟨⟨⟩, ha, hitems⟩
      exact ⟨ha, hitems⟩
    · exact fun h => ⟨(), h⟩

theorem option_forM_eq_ok {check : α → Except Raised Unit} {a : Option α} :
    a.forM check = .ok () ↔ ∀ b ∈ a, check b = .ok () := by
  cases a <;> simp [Option.forM, pure, Except.pure]

theorem readDocument_eq_ok {message : String} {file : Option (Except JsonError (Value K))} :
    readDocument message file = .ok v ↔ file = some (.ok v) := by
  rcases file with _ | (_ | _ | _ | _) | _ <;> simp [readDocument]

end Holds

/-! ## What is read -/

section Read

variable {K : Type} [Field K] [LinearOrder K] {v : Value K} {name : String}

theorem positiveFloat_eq_ok {x : K} : positiveFloat v name = .ok x ↔ NumberOf v x ∧ 0 < x := by
  rw [positiveFloat, Except.bind_eq_ok]
  constructor
  · rintro ⟨y, hy, h⟩
    obtain ⟨hpos, h⟩ := Except.ok_of_guard h
    obtain rfl := Except.ok.inj h
    exact ⟨finite_eq_ok.mp hy, not_le.mp hpos⟩
  · rintro ⟨hx, hpos⟩
    exact ⟨x, finite_eq_ok.mpr hx, if_neg hpos.not_ge⟩

omit [LinearOrder K] in
theorem NumberOf.ne_none {x : K} (h : NumberOf v x) : v ≠ .none := by
  rintro rfl
  obtain h | ⟨n, h, -⟩ := h
  · cases h
  · cases h

omit [LinearOrder K] in
theorem numberOf_number (x : K) : NumberOf (.number x) x := .inl rfl

omit [LinearOrder K] in
theorem point_eq_ok {p : Point K} : point v name = .ok p ↔ PointOf v p := by
  constructor
  · intro h
    obtain ⟨x, hx, h⟩ := Except.bind_eq_ok.mp (of_mapping h)
    obtain ⟨y, hy, h⟩ := Except.bind_eq_ok.mp h
    obtain rfl := Except.ok.inj h
    exact ⟨finite_eq_ok.mp hx, finite_eq_ok.mp hy⟩
  · rintro ⟨hx, hy⟩
    unfold point
    rw [mapping_of_get rfl hx.ne_none, Except.ok_bind, finite_eq_ok.mpr hx, Except.ok_bind,
      finite_eq_ok.mpr hy, Except.ok_bind]

theorem rect_eq_ok {r : Rect K} :
    rect v name = .ok r ↔ RectOf v r ∧ 0 < r.width ∧ 0 < r.height := by
  constructor
  · intro h
    obtain ⟨x, hx, h⟩ := Except.bind_eq_ok.mp (of_mapping h)
    obtain ⟨y, hy, h⟩ := Except.bind_eq_ok.mp h
    obtain ⟨width, hwidth, h⟩ := Except.bind_eq_ok.mp h
    obtain ⟨height, hheight, h⟩ := Except.bind_eq_ok.mp h
    obtain rfl := Except.ok.inj h
    obtain ⟨hwidth, hpositive⟩ := positiveFloat_eq_ok.mp hwidth
    obtain ⟨hheight, hpositive'⟩ := positiveFloat_eq_ok.mp hheight
    exact ⟨⟨finite_eq_ok.mp hx, finite_eq_ok.mp hy, hwidth, hheight⟩, hpositive, hpositive'⟩
  · rintro ⟨⟨hx, hy, hwidth, hheight⟩, hpositive, hpositive'⟩
    unfold rect
    rw [mapping_of_get rfl hx.ne_none, Except.ok_bind, finite_eq_ok.mpr hx, Except.ok_bind,
      finite_eq_ok.mpr hy, Except.ok_bind, positiveFloat_eq_ok.mpr ⟨hwidth, hpositive⟩,
      Except.ok_bind, positiveFloat_eq_ok.mpr ⟨hheight, hpositive'⟩, Except.ok_bind]

variable {source : SourceMetadata K}

theorem withinSource_eq_ok {corner corner' : Point K} :
    withinSource corner corner' source name = .ok () ↔
      (0 ≤ corner.x ∧ 0 ≤ corner.y) ∧ corner'.x ≤ source.width ∧ corner'.y ≤ source.height := by
  unfold withinSource
  split_ifs with h
  · refine iff_of_false (by simp) ?_
    rintro ⟨⟨hx, hy⟩, hx', hy'⟩
    rcases h with h | h | h | h
    · exact h.not_ge hx
    · exact h.not_ge hy
    · exact h.not_ge hx'
    · exact h.not_ge hy'
  · simp only [not_or, not_lt] at h
    simp [h]

theorem pointWithinSource_eq_ok {p : Point K} :
    pointWithinSource p source name = .ok () ↔ PointWithin source p :=
  withinSource_eq_ok.trans ⟨fun h => ⟨h.1, h.2⟩, fun h => ⟨h.nonneg, h.le⟩⟩

theorem rectWithinSource_eq_ok {r : Rect K} (hr : 0 < r.width ∧ 0 < r.height) :
    rectWithinSource r source name = .ok () ↔ RectWithin source r :=
  withinSource_eq_ok.trans ⟨fun h => ⟨hr, h.1, h.2⟩, fun h => ⟨h.nonneg, h.le⟩⟩

/-- **The metadata of a source** that is read. -/
theorem sourceMetadata_eq_ok :
    sourceMetadata v = .ok source ↔ SourceOf v source ∧ source.WellFormed := by
  obtain ⟨sourceId, width, height, frameRate, variableFrameRate, sha256⟩ := source
  have hnone : OptionalOf TextOf (v.get "source_id") sourceId →
      OptionalOf TextOf (v.get "sha256") sha256 →
      (((v.get "source_id").isNone ∧ (v.get "sha256").isNone) ↔
        ¬ (sourceId.isSome ∨ sha256.isSome)) := by
    intro hid hsha
    simp only [hid.isNone_iff, hsha.isNone_iff, not_or, Option.not_isSome_iff_eq_none]
  unfold sourceMetadata
  constructor
  · intro h
    obtain ⟨hnamed, h⟩ := Except.ok_of_guard h
    obtain ⟨_, hid, h⟩ := Except.bind_eq_ok.mp h
    obtain ⟨_, hwidth, h⟩ := Except.bind_eq_ok.mp h
    obtain ⟨_, hheight, h⟩ := Except.bind_eq_ok.mp h
    obtain ⟨_, hrate, h⟩ := Except.bind_eq_ok.mp h
    obtain ⟨_, hvariable, h⟩ := Except.bind_eq_ok.mp h
    obtain ⟨_, hsha, h⟩ := Except.bind_eq_ok.mp h
    obtain ⟨hconstant, h⟩ := Except.ok_of_guard h
    obtain ⟨rfl, rfl, rfl, rfl, rfl, rfl⟩ := SourceMetadata.mk.inj (Except.ok.inj h)
    obtain ⟨hid, hidText⟩ := optionalString_eq_ok.mp hid
    obtain ⟨hsha, hshaText⟩ := optionalString_eq_ok.mp hsha
    obtain ⟨hwidth, hpositive⟩ := positiveInt_eq_ok.mp hwidth
    obtain ⟨hheight, hpositive'⟩ := positiveInt_eq_ok.mp hheight
    obtain ⟨hrate, hratePositive⟩ := positiveFloat_eq_ok.mp hrate
    rw [hnone hid hsha, not_not] at hnamed
    exact ⟨⟨hid, hsha, hwidth, hheight, hrate, boolean_eq_ok.mp hvariable⟩, hnamed, hidText,
      hshaText, ⟨hpositive, hpositive'⟩, hratePositive, by simpa using hconstant⟩
  · rintro ⟨⟨hid, hsha, hwidth, hheight, hrate, hvariable⟩, hnamed, hidText, hshaText,
      ⟨hpositive, hpositive'⟩, hratePositive, rfl⟩
    rw [if_neg (by rw [hnone hid hsha, not_not]; exact hnamed),
      optionalString_eq_ok.mpr ⟨hid, hidText⟩, Except.ok_bind,
      positiveInt_eq_ok.mpr ⟨hwidth, hpositive⟩, Except.ok_bind,
      positiveInt_eq_ok.mpr ⟨hheight, hpositive'⟩, Except.ok_bind,
      positiveFloat_eq_ok.mpr ⟨hrate, hratePositive⟩, Except.ok_bind,
      boolean_eq_ok.mpr hvariable, Except.ok_bind, optionalString_eq_ok.mpr ⟨hsha, hshaText⟩]
    rfl

/-- The checks of a box: it is in the source. -/
theorem bounds_eq_ok {bounds : Option (Rect K)} :
    (optional v (rect · name) = .ok bounds ∧
        bounds.forM (rectWithinSource · source name) = .ok ()) ↔
      OptionalOf RectOf v bounds ∧ ∀ r ∈ bounds, RectWithin source r := by
  have hread : optional v (rect · name) = .ok bounds ↔
      OptionalOf RectOf v bounds ∧ ∀ r ∈ bounds, 0 < r.width ∧ 0 < r.height :=
    (optional_eq_ok fun _ => rect_eq_ok).trans OptionalOf.and_iff
  rw [hread, option_forM_eq_ok, and_assoc]
  refine and_congr_right fun _ => ?_
  constructor
  · rintro ⟨hpositive, hwithin⟩ r hr
    exact (rectWithinSource_eq_ok (hpositive r hr)).mp (hwithin r hr)
  · exact fun h => ⟨fun r hr => (h r hr).positive,
      fun r hr => (rectWithinSource_eq_ok (h r hr).positive).mpr (h r hr)⟩

/-- **A frame** of an annotation that is read. -/
theorem annotationFrame_eq_ok {f : AnnotationFrame K} :
    annotationFrame source v = .ok f ↔ FrameOf v f ∧ f.WellFormed source := by
  have hpoint : ∀ {u : Value K} {name : String} {p : Point K},
      point u name = .ok p ↔ PointOf u p := point_eq_ok
  constructor
  · intro h
    obtain ⟨visible, hvisible, h⟩ := Except.bind_eq_ok.mp (of_mapping h)
    obtain ⟨occluded, hoccluded, h⟩ := Except.bind_eq_ok.mp h
    obtain ⟨ambiguous, hambiguous, h⟩ := Except.bind_eq_ok.mp h
    obtain ⟨bounds, hbounds, h⟩ := Except.bind_eq_ok.mp h
    obtain ⟨hshown, h⟩ := Except.ok_of_guard h
    obtain ⟨⟨⟩, hwithin, h⟩ := Except.bind_eq_ok.mp h
    obtain ⟨items, hitems, h⟩ := Except.bind_eq_ok.mp h
    obtain ⟨landmarks, hlandmarks, h⟩ := Except.bind_eq_ok.mp h
    obtain ⟨⟨⟩, hlandmarksWithin, h⟩ := Except.bind_eq_ok.mp h
    obtain ⟨root, hroot, h⟩ := Except.bind_eq_ok.mp h
    obtain ⟨⟨⟩, hrootWithin, h⟩ := Except.bind_eq_ok.mp h
    obtain ⟨frameIndex, hindex, h⟩ := Except.bind_eq_ok.mp h
    obtain ⟨timestampMs, htimestamp, h⟩ := Except.bind_eq_ok.mp h
    obtain ⟨identity, hidentity, h⟩ := Except.bind_eq_ok.mp h
    obtain rfl := Except.ok.inj h
    obtain ⟨hbounds, hwithin⟩ := bounds_eq_ok.mp ⟨hbounds, hwithin⟩
    obtain ⟨hindex, hindexNonneg⟩ := nonNegativeInt_eq_ok.mp hindex
    obtain ⟨htimestamp, htimestampNonneg⟩ := nonNegativeInt_eq_ok.mp htimestamp
    obtain ⟨hidentity, hidentityText⟩ := optionalString_eq_ok.mp hidentity
    refine ⟨⟨hindex, htimestamp, boolean_eq_ok.mp hvisible, boolean_eq_ok.mp hoccluded,
      boolean_eq_ok.mp hambiguous, hbounds, ⟨items, sequence_eq_ok.mp hitems, ?_⟩,
      (optional_eq_ok fun _ => hpoint).mp hroot, hidentity⟩,
      ⟨hindexNonneg, htimestampNonneg⟩, fun hv => ?_, hwithin, fun p hp => ?_, fun p hp => ?_,
      hidentityText⟩
    · exact (Except.mapM_eq_ok.mp hlandmarks).imp fun _ _ => hpoint.mp
    · rw [Option.isSome_iff_ne_none]
      exact fun hnone => hshown ⟨hv, Option.isNone_iff_eq_none.mpr hnone⟩
    · exact pointWithinSource_eq_ok.mp (forM_eq_ok.mp hlandmarksWithin p hp)
    · exact pointWithinSource_eq_ok.mp (option_forM_eq_ok.mp hrootWithin p hp)
  · obtain ⟨frameIndex, timestampMs, visible, occluded, ambiguous, bounds, landmarks, root,
      identity⟩ := f
    rintro ⟨⟨hindex, htimestamp, hvisible, hoccluded, hambiguous, hbounds,
      ⟨items, hitems, hlandmarks⟩, hroot, hidentity⟩, ⟨hindexNonneg, htimestampNonneg⟩, hshown,
      hwithin, hlandmarksWithin, hrootWithin, hidentityText⟩
    obtain ⟨hbounds, hwithin⟩ := bounds_eq_ok.mpr ⟨hbounds, hwithin⟩
    have hguard : ¬ (visible = true ∧ bounds.isNone = true) := by
      rintro ⟨hv, hnone⟩
      rw [Option.isNone_iff_eq_none.mp hnone] at hshown
      cases hshown hv
    unfold annotationFrame
    rw [mapping_of_get hvisible (by simp), Except.ok_bind, boolean_eq_ok.mpr hvisible,
      Except.ok_bind, boolean_eq_ok.mpr hoccluded, Except.ok_bind, boolean_eq_ok.mpr hambiguous,
      Except.ok_bind, hbounds, Except.ok_bind, if_neg hguard, hwithin, Except.ok_bind,
      sequence_eq_ok.mpr hitems, Except.ok_bind,
      Except.mapM_eq_ok.mpr (hlandmarks.imp fun _ _ => hpoint.mpr), Except.ok_bind,
      forM_eq_ok.mpr fun p hp => pointWithinSource_eq_ok.mpr (hlandmarksWithin p hp),
      Except.ok_bind, (optional_eq_ok fun _ => hpoint).mpr hroot, Except.ok_bind,
      option_forM_eq_ok.mpr fun p hp => pointWithinSource_eq_ok.mpr (hrootWithin p hp),
      Except.ok_bind, nonNegativeInt_eq_ok.mpr ⟨hindex, hindexNonneg⟩, Except.ok_bind,
      nonNegativeInt_eq_ok.mpr ⟨htimestamp, htimestampNonneg⟩, Except.ok_bind,
      optionalString_eq_ok.mpr ⟨hidentity, hidentityText⟩, Except.ok_bind]

/-! ### Documents -/

theorem schemaVersion_eq_ok : schemaVersion v name = .ok () ↔
    (v.get "schema_version").equalsInt 1 = true := by
  unfold schemaVersion
  split_ifs with h
  · exact iff_of_true rfl h
  · refine iff_of_false (fun hok => ?_) h
    cases hok

omit [Field K] [LinearOrder K] in
theorem isBool_iff {b : Bool} : v.isBool b = true ↔ v = .bool b := by
  cases v <;> simp [Value.isBool]

omit [Field K] [LinearOrder K] in
/-- A loop over values that hold what has a property. -/
theorem mapM_eq_ok_and {α : Type} {read : Value K → Except Raised α} {holds : Value K → α → Prop}
    {p : α → Prop} (hread : ∀ v b, read v = .ok b ↔ holds v b ∧ p b) {items : List (Value K)}
    {l : List α} : items.mapM read = .ok l ↔ List.Forall₂ holds items l ∧ ∀ b ∈ l, p b := by
  rw [Except.mapM_eq_ok]
  constructor
  · intro h
    induction h with
    | nil => exact ⟨.nil, by simp⟩
    | cons hb _ ih =>
      obtain ⟨hholds, hp⟩ := (hread _ _).mp hb
      exact ⟨.cons hholds ih.1, List.forall_mem_cons.mpr ⟨hp, ih.2⟩⟩
  · rintro ⟨hholds, hp⟩
    induction hholds with
    | nil => exact .nil
    | cons hb _ ih =>
      obtain ⟨hp, hps⟩ := List.forall_mem_cons.mp hp
      exact .cons ((hread _ _).mpr ⟨hb, hp⟩) (ih hps)

omit [Field K] [LinearOrder K] in
/-- Frames are accepted in order. -/
theorem strictlyIncreasing_eq_ok {previousIndex previousTimestamp : ℤ} {frames : List (ℤ × ℤ)} :
    strictlyIncreasing name previousIndex previousTimestamp frames = .ok () ↔
      (previousIndex :: frames.map Prod.fst).IsChain (· < ·) ∧
        (previousTimestamp :: frames.map Prod.snd).IsChain (· < ·) := by
  induction frames generalizing previousIndex previousTimestamp with
  | nil => simp [strictlyIncreasing]
  | cons frame frames ih =>
    obtain ⟨index, timestamp⟩ := frame
    rw [strictlyIncreasing, List.map_cons, List.map_cons, List.isChain_cons_cons,
      List.isChain_cons_cons]
    constructor
    · intro h
      obtain ⟨hindex, h⟩ := Except.ok_of_guard h
      obtain ⟨htimestamp, h⟩ := Except.ok_of_guard h
      obtain ⟨hindices, htimestamps⟩ := ih.mp h
      exact ⟨⟨not_le.mp hindex, hindices⟩, not_le.mp htimestamp, htimestamps⟩
    · rintro ⟨⟨hindex, hindices⟩, htimestamp, htimestamps⟩
      rw [if_neg hindex.not_ge, if_neg htimestamp.not_ge]
      exact ih.mpr ⟨hindices, htimestamps⟩

/-- A chain from minus one is one of nonnegative numbers. -/
theorem isChain_neg_one {numbers : List ℤ} (hnonneg : ∀ n ∈ numbers, 0 ≤ n) :
    ((-1 : ℤ) :: numbers).IsChain (· < ·) ↔ numbers.Pairwise (· < ·) := by
  rw [List.isChain_iff_pairwise, List.pairwise_cons, and_iff_right]
  intro n hn
  have := hnonneg n hn
  omega

/-- Well-formed frames are accepted in order. -/
theorem strictlyIncreasing_frames {frames : List (AnnotationFrame K)}
    (hframes : ∀ f ∈ frames, f.WellFormed source) :
    strictlyIncreasing name (-1) (-1) (frames.map fun f => (f.frameIndex, f.timestampMs)) = .ok () ↔
      (frames.map (·.frameIndex)).Pairwise (· < ·) ∧
        (frames.map (·.timestampMs)).Pairwise (· < ·) := by
  rw [strictlyIncreasing_eq_ok, List.map_map, List.map_map]
  refine and_congr (isChain_neg_one fun n hn => ?_) (isChain_neg_one fun n hn => ?_)
  · obtain ⟨f, hf, rfl⟩ := List.mem_map.mp hn
    exact (hframes f hf).nonneg.1
  · obtain ⟨f, hf, rfl⟩ := List.mem_map.mp hn
    exact (hframes f hf).nonneg.2

/-- **Annotations** that are read: those that a document holds, if they are well formed. -/
theorem loadAnnotations_eq_ok {path : String} {file : Option (Except JsonError (Value K))}
    {a : AnnotationSet K} : loadAnnotations path file = .ok a ↔
      ∃ record, file = some (.ok record) ∧ AnnotationsOf record a ∧ a.WellFormed := by
  constructor
  · intro h
    obtain ⟨record, hrecord, h⟩ := Except.bind_eq_ok.mp h
    obtain ⟨⟨⟩, hversion, h⟩ := Except.bind_eq_ok.mp (of_mapping h)
    obtain ⟨hreviewed, h⟩ := Except.ok_of_guard h
    obtain ⟨caseId, hcaseId, h⟩ := Except.bind_eq_ok.mp h
    obtain ⟨source, hsource, h⟩ := Except.bind_eq_ok.mp (of_mapping h)
    obtain ⟨reviewer, hreviewer, h⟩ := Except.bind_eq_ok.mp h
    obtain ⟨items, hitems, h⟩ := Except.bind_eq_ok.mp h
    obtain ⟨frames, hframes, h⟩ := Except.bind_eq_ok.mp h
    obtain ⟨hempty, h⟩ := Except.ok_of_guard h
    obtain ⟨⟨⟩, hchain, h⟩ := Except.bind_eq_ok.mp h
    obtain rfl := Except.ok.inj h
    obtain ⟨hcaseId, hcaseIdText⟩ := string_eq_ok.mp hcaseId
    obtain ⟨hreviewer, hreviewerText⟩ := string_eq_ok.mp hreviewer
    obtain ⟨hsource, hsourceWellFormed⟩ := sourceMetadata_eq_ok.mp hsource
    obtain ⟨hframes, hwellFormed⟩ := (mapM_eq_ok_and fun _ _ => annotationFrame_eq_ok).mp hframes
    obtain ⟨hindices, htimestamps⟩ := (strictlyIncreasing_frames hwellFormed).mp hchain
    exact ⟨record, readDocument_eq_ok.mp hrecord,
      ⟨schemaVersion_eq_ok.mp hversion, isBool_iff.mp (not_not.mp hreviewed), hcaseId, hsource,
        hreviewer, items, sequence_eq_ok.mp hitems, hframes⟩,
      hcaseIdText, hsourceWellFormed, hreviewerText, by simpa using hempty, hwellFormed, hindices,
      htimestamps⟩
  · obtain ⟨caseId, source, reviewer, frames⟩ := a
    rintro ⟨record, rfl, ⟨hversion, hreviewed, hcaseId, hsource, hreviewer, items, hitems, hframes⟩,
      hcaseIdText, hsourceWellFormed, hreviewerText, hnonempty, hwellFormed, hindices, htimestamps⟩
    unfold loadAnnotations
    rw [readDocument_eq_ok.mpr rfl, Except.ok_bind, mapping_of_get hcaseId (by simp),
      Except.ok_bind, schemaVersion_eq_ok.mpr hversion, Except.ok_bind,
      if_neg (not_not.mpr (isBool_iff.mpr hreviewed)),
      string_eq_ok.mpr ⟨hcaseId, hcaseIdText⟩, Except.ok_bind,
      mapping_of_get hsource.variableFrameRate (by simp), Except.ok_bind,
      sourceMetadata_eq_ok.mpr ⟨hsource, hsourceWellFormed⟩, Except.ok_bind,
      string_eq_ok.mpr ⟨hreviewer, hreviewerText⟩, Except.ok_bind, sequence_eq_ok.mpr hitems,
      Except.ok_bind, (mapM_eq_ok_and fun _ _ => annotationFrame_eq_ok).mpr ⟨hframes, hwellFormed⟩,
      Except.ok_bind, if_neg (by simpa using hnonempty),
      (strictlyIncreasing_frames hwellFormed).mpr ⟨hindices, htimestamps⟩, Except.ok_bind]

/-- **A case** that is read is not one of the earlier ones. -/
theorem manifestCase_eq_ok {identifiers : List String} {c : ManifestCase K} :
    manifestCase identifiers v = .ok c ↔ CaseOf v c ∧ c.WellFormed ∧ c.caseId ∉ identifiers := by
  constructor
  · intro h
    obtain ⟨caseId, hcaseId, h⟩ := Except.bind_eq_ok.mp (of_mapping h)
    obtain ⟨hnew, h⟩ := Except.ok_of_guard h
    obtain ⟨scenario, hscenario, h⟩ := Except.bind_eq_ok.mp h
    obtain ⟨hknown, h⟩ := Except.ok_of_guard h
    obtain ⟨targetFrameIndex, htarget, h⟩ := Except.bind_eq_ok.mp (of_mapping h)
    obtain ⟨name, hname, h⟩ := Except.bind_eq_ok.mp h
    obtain ⟨source, hsource, h⟩ := Except.bind_eq_ok.mp (of_mapping h)
    obtain rfl := Except.ok.inj h
    obtain ⟨hcaseId, hcaseIdText⟩ := string_eq_ok.mp hcaseId
    obtain ⟨hname, hnameText⟩ := string_eq_ok.mp hname
    obtain ⟨hsource, hsourceWellFormed⟩ := sourceMetadata_eq_ok.mp hsource
    obtain ⟨htarget, hnonneg⟩ := nonNegativeInt_eq_ok.mp htarget
    exact ⟨⟨hcaseId, (string_eq_ok.mp hscenario).1, hname, hsource, htarget⟩,
      ⟨hcaseIdText, not_not.mp hknown, hnameText, hsourceWellFormed, hnonneg⟩, hnew⟩
  · obtain ⟨caseId, scenario, annotation, source, targetFrameIndex⟩ := c
    rintro ⟨⟨hcaseId, hscenario, hname, hsource, htarget⟩,
      ⟨hcaseIdText, hknown, hnameText, hsourceWellFormed, hnonneg⟩, hnew⟩
    have hscenarioText : scenario ≠ "" := by
      rintro rfl
      have hempty : "" ∉ scenarios := by decide
      exact hempty hknown
    unfold manifestCase
    rw [mapping_of_get hcaseId (by simp), Except.ok_bind, string_eq_ok.mpr ⟨hcaseId, hcaseIdText⟩,
      Except.ok_bind, if_neg hnew, string_eq_ok.mpr ⟨hscenario, hscenarioText⟩, Except.ok_bind,
      if_neg (not_not.mpr hknown), mapping_of_get htarget (by simp), Except.ok_bind,
      nonNegativeInt_eq_ok.mpr ⟨htarget, hnonneg⟩, Except.ok_bind,
      string_eq_ok.mpr ⟨hname, hnameText⟩, Except.ok_bind,
      mapping_of_get hsource.variableFrameRate (by simp), Except.ok_bind,
      sourceMetadata_eq_ok.mpr ⟨hsource, hsourceWellFormed⟩, Except.ok_bind]

/-- **The loop over the cases**, by induction on their values. -/
theorem manifestCases_eq_ok {earlier cases : List (ManifestCase K)} {items : List (Value K)} :
    manifestCases earlier items = .ok cases ↔ ∃ new, cases = earlier ++ new ∧
      List.Forall₂ CaseOf items new ∧ (∀ c ∈ new, c.WellFormed) ∧
      (new.map (·.caseId)).Nodup ∧ (earlier.map (·.caseId)).Disjoint (new.map (·.caseId)) := by
  induction items generalizing earlier with
  | nil =>
    rw [manifestCases]
    constructor
    · intro h
      obtain rfl := Except.ok.inj h
      exact ⟨[], by simp, .nil, by simp, .nil, by simp⟩
    · rintro ⟨_, rfl, h, -⟩
      cases h
      rw [List.append_nil]
  | cons item items ih =>
    rw [manifestCases, Except.bind_eq_ok]
    simp only [ih, manifestCase_eq_ok]
    constructor
    · rintro ⟨c, ⟨hc, hwellFormed, hnew⟩, rest, rfl, hrest, hrests, hdistinct, hdisjoint⟩
      rw [List.map_append, List.map_singleton, List.disjoint_append_left,
        List.singleton_disjoint] at hdisjoint
      refine ⟨c :: rest, by simp, .cons hc hrest, List.forall_mem_cons.mpr ⟨hwellFormed, hrests⟩,
        ?_, ?_⟩
      · exact List.nodup_cons.mpr ⟨hdisjoint.2, hdistinct⟩
      · exact List.disjoint_cons_right.mpr ⟨hnew, hdisjoint.1⟩
    · rintro ⟨_, rfl, hnews, hwellFormed, hdistinct, hdisjoint⟩
      obtain ⟨c, rest, hc, hrest, rfl⟩ := List.forall₂_cons_left_iff.mp hnews
      obtain ⟨hwellFormed, hrests⟩ := List.forall_mem_cons.mp hwellFormed
      obtain ⟨hfresh, hdistinct⟩ := List.nodup_cons.mp hdistinct
      obtain ⟨hnew, hdisjoint⟩ := List.disjoint_cons_right.mp hdisjoint
      refine ⟨c, ⟨hc, hwellFormed, hnew⟩, rest, by simp, hrest, hrests, hdistinct, ?_⟩
      rw [List.map_append, List.map_singleton, List.disjoint_append_left, List.singleton_disjoint]
      exact ⟨hdisjoint, hfresh⟩

/-- **Cases** that are read: those that a manifest holds, if they are well formed. -/
theorem loadManifest_eq_ok {path : String} {file : Option (Except JsonError (Value K))}
    {cases : List (ManifestCase K)} : loadManifest path file = .ok cases ↔
      ∃ record, file = some (.ok record) ∧ CasesOf record cases ∧ WellFormedCases cases := by
  constructor
  · intro h
    obtain ⟨record, hrecord, h⟩ := Except.bind_eq_ok.mp h
    obtain ⟨⟨⟩, hversion, h⟩ := Except.bind_eq_ok.mp (of_mapping h)
    obtain ⟨items, hitems, h⟩ := Except.bind_eq_ok.mp h
    obtain ⟨read, hread, h⟩ := Except.bind_eq_ok.mp h
    obtain ⟨hempty, h⟩ := Except.ok_of_guard h
    obtain rfl := Except.ok.inj h
    obtain ⟨_, rfl, hcases, hwellFormed, hdistinct, -⟩ := manifestCases_eq_ok.mp hread
    exact ⟨record, readDocument_eq_ok.mp hrecord,
      ⟨schemaVersion_eq_ok.mp hversion, items, sequence_eq_ok.mp hitems, hcases⟩,
      by simpa using hempty, hwellFormed, hdistinct⟩
  · rintro ⟨record, rfl, ⟨hversion, items, hitems, hcases⟩, hnonempty, hwellFormed, hdistinct⟩
    have hread : manifestCases [] items = .ok cases :=
      manifestCases_eq_ok.mpr ⟨cases, rfl, hcases, hwellFormed, hdistinct, by simp⟩
    have hsome : record.get "cases" ≠ .none := by
      rw [hitems]
      simp
    unfold loadManifest
    rw [readDocument_eq_ok.mpr rfl, Except.ok_bind, mapping_of_get rfl hsome, Except.ok_bind,
      schemaVersion_eq_ok.mpr hversion, Except.ok_bind, sequence_eq_ok.mpr hitems, Except.ok_bind,
      hread, Except.ok_bind, if_neg (by simpa using hnonempty)]

/-! ### Written documents -/

omit [LinearOrder K] in
theorem sourceOf_record (source : SourceMetadata K) : SourceOf source.record source where
  sourceId := optionalOf_text source.sourceId
  sha256 := optionalOf_text source.sha256
  width := rfl
  height := rfl
  frameRate := numberOf_number source.frameRate
  variableFrameRate := rfl

omit [LinearOrder K] in
theorem rectOf_serializeRect (r : Rect K) : RectOf (serializeRect r) r :=
  ⟨numberOf_number r.x, numberOf_number r.y, numberOf_number r.width, numberOf_number r.height⟩

omit [LinearOrder K] in
theorem pointOf_record (p : Point K) : PointOf (pointRecord p) p :=
  ⟨numberOf_number p.x, numberOf_number p.y⟩

omit [Field K] [LinearOrder K] in
theorem forall₂_map {α : Type} {holds : Value K → α → Prop} {write : α → Value K}
    (h : ∀ a, holds (write a) a) (items : List α) : List.Forall₂ holds (items.map write) items :=
  List.forall₂_map_left_iff.mpr (List.forall₂_same.mpr fun a _ => h a)

omit [LinearOrder K] in
theorem frameOf_record (f : AnnotationFrame K) : FrameOf f.record f where
  frameIndex := rfl
  timestampMs := rfl
  visible := rfl
  occluded := rfl
  ambiguous := rfl
  bounds := optionalOf_elim (fun _ => by simp [serializeRect]) fun r _ => rectOf_serializeRect r
  landmarks := ⟨_, rfl, forall₂_map pointOf_record f.landmarks⟩
  root := optionalOf_elim (fun _ => by simp [pointRecord]) fun p _ => pointOf_record p
  identity := optionalOf_text f.identity

theorem annotationsOf_record (a : AnnotationSet K) : AnnotationsOf a.record a where
  schemaVersion := rfl
  humanReviewed := rfl
  caseId := rfl
  source := sourceOf_record a.source
  reviewer := rfl
  frames := ⟨_, rfl, forall₂_map frameOf_record a.frames⟩

omit [LinearOrder K] in
theorem caseOf_record (c : ManifestCase K) : CaseOf c.record c where
  caseId := rfl
  scenario := rfl
  annotation := rfl
  source := sourceOf_record c.source
  targetFrameIndex := rfl

theorem casesOf_manifestRecord (cases : List (ManifestCase K)) :
    CasesOf (manifestRecord cases) cases := ⟨rfl, _, rfl, forall₂_map caseOf_record cases⟩

/-- Well-formed annotations are read back. -/
theorem loadAnnotations_record {a : AnnotationSet K} (h : a.WellFormed) (path : String) :
    loadAnnotations path (some (.ok a.record)) = .ok a :=
  loadAnnotations_eq_ok.mpr ⟨a.record, rfl, annotationsOf_record a, h⟩

/-- Annotations that are read are well formed. -/
theorem AnnotationSet.WellFormed.of_ok {path : String} {file : Option (Except JsonError (Value K))}
    {a : AnnotationSet K} (h : loadAnnotations path file = .ok a) : a.WellFormed := by
  obtain ⟨record, -, -, ha⟩ := loadAnnotations_eq_ok.mp h
  exact ha

end Read

/-! ## What is raised -/

section Raise

open Except (RaisesOnly)

variable {K : Type} [Field K] [LinearOrder K] {v : Value K} {name : String}

/-- An error of the validation, or that of an integer that has no float. -/
def Refusal (e : Raised) : Prop :=
  (∃ message, e = validationError message) ∨ e = .other "OverflowError"

theorem raises_validationError {α : Type} (message : String) :
    RaisesOnly Refusal (.error (validationError message) : Except Raised α) :=
  .error (.inl ⟨message, rfl⟩)

omit [Field K] [LinearOrder K] in
theorem mapping_raises : RaisesOnly Refusal (mapping v name) := by
  cases v with
  | dict fields => exact .ok _
  | _ => exact raises_validationError _

omit [Field K] [LinearOrder K] in
theorem string_raises : RaisesOnly Refusal (string v name) := by
  cases v with
  | str text => exact .ite (fun _ => raises_validationError _) fun _ => .ok _
  | _ => exact raises_validationError _

omit [Field K] [LinearOrder K] in
theorem boolean_raises : RaisesOnly Refusal (boolean v name) := by
  cases v with
  | bool b => exact .ok _
  | _ => exact raises_validationError _

omit [Field K] [LinearOrder K] in
theorem sequence_raises : RaisesOnly Refusal (sequence v name) := by
  cases v with
  | list items => exact .ok _
  | _ => exact raises_validationError _

omit [Field K] [LinearOrder K] in
theorem nonNegativeInt_raises : RaisesOnly Refusal (nonNegativeInt v name) := by
  cases v with
  | int n => exact .ite (fun _ => raises_validationError _) fun _ => .ok _
  | _ => exact raises_validationError _

omit [Field K] [LinearOrder K] in
theorem positiveInt_raises : RaisesOnly Refusal (positiveInt v name) :=
  .bind nonNegativeInt_raises fun _ _ => .ite (fun _ => raises_validationError _) fun _ => .ok _

omit [LinearOrder K] in
theorem finite_raises : RaisesOnly Refusal (finite v name : Except Raised K) := by
  unfold finite
  cases v with
  | int n =>
    dsimp only
    exact .ite (fun _ => .ok _) fun _ => .error (.inr rfl)
  | float value =>
    cases value with
    | finite x => exact .ok _
    | _ => exact raises_validationError _
  | _ => exact raises_validationError _

theorem positiveFloat_raises : RaisesOnly Refusal (positiveFloat v name : Except Raised K) :=
  .bind finite_raises fun _ _ => .ite (fun _ => raises_validationError _) fun _ => .ok _

theorem rect_raises : RaisesOnly Refusal (rect v name) :=
  .bind mapping_raises fun _ _ => .bind finite_raises fun _ _ => .bind finite_raises fun _ _ =>
    .bind positiveFloat_raises fun _ _ => .bind positiveFloat_raises fun _ _ => .ok _

omit [LinearOrder K] in
theorem point_raises : RaisesOnly Refusal (point v name) :=
  .bind mapping_raises fun _ _ => .bind finite_raises fun _ _ => .bind finite_raises fun _ _ =>
    .ok _

omit [Field K] [LinearOrder K] in
theorem optional_raises {α : Type} {read : Value K → Except Raised α}
    (h : RaisesOnly Refusal (read v)) : RaisesOnly Refusal (optional v read) := by
  have hsome : RaisesOnly Refusal (some <$> read v) := by
    intro e he
    cases hread : read v with
    | error e' =>
      rw [hread] at he
      exact h e (hread.trans (congrArg _ (Except.error.inj he)))
    | ok a =>
      rw [hread] at he
      cases he
  cases v with
  | none => exact .ok _
  | _ => exact hsome

omit [Field K] [LinearOrder K] in
theorem forM_raises {α : Type} {check : α → Except Raised Unit}
    (h : ∀ a, RaisesOnly Refusal (check a)) (items : List α) :
    RaisesOnly Refusal (items.forM check) := by
  induction items with
  | nil => exact .ok _
  | cons a items ih => exact .bind (h a) fun _ _ => ih

omit [Field K] [LinearOrder K] in
theorem mapM_raises {α β : Type} {read : α → Except Raised β}
    (h : ∀ a, RaisesOnly Refusal (read a)) (items : List α) :
    RaisesOnly Refusal (items.mapM read) := by
  intro e he
  obtain ⟨a, -, ha⟩ := Except.mapM_eq_error he
  exact h a e ha

variable {source : SourceMetadata K}

theorem withinSource_raises {corner corner' : Point K} :
    RaisesOnly Refusal (withinSource corner corner' source name) :=
  .ite (fun _ => raises_validationError _) fun _ => .ok _

theorem option_forM_raises {α : Type} {check : α → Except Raised Unit}
    (h : ∀ a, RaisesOnly Refusal (check a)) (a : Option α) : RaisesOnly Refusal (a.forM check) := by
  cases a with
  | none => exact .ok _
  | some a => exact h a

theorem schemaVersion_raises : RaisesOnly Refusal (schemaVersion v name) :=
  .ite (fun _ => .ok _) fun _ => raises_validationError _

theorem sourceMetadata_raises : RaisesOnly Refusal (sourceMetadata v) :=
  .ite (fun _ => raises_validationError _) fun _ =>
    .bind (optional_raises string_raises) fun _ _ => .bind positiveInt_raises fun _ _ =>
    .bind positiveInt_raises fun _ _ => .bind positiveFloat_raises fun _ _ =>
    .bind boolean_raises fun _ _ => .bind (optional_raises string_raises) fun _ _ =>
    .ite (fun _ => raises_validationError _) fun _ => .ok _

theorem annotationFrame_raises : RaisesOnly Refusal (annotationFrame source v) :=
  .bind mapping_raises fun _ _ => .bind boolean_raises fun _ _ => .bind boolean_raises fun _ _ =>
    .bind boolean_raises fun _ _ => .bind (optional_raises rect_raises) fun _ _ =>
    .ite (fun _ => raises_validationError _) fun _ =>
    .bind (option_forM_raises (fun _ => withinSource_raises) _) fun _ _ =>
    .bind sequence_raises fun _ _ => .bind (mapM_raises (fun _ => point_raises) _) fun _ _ =>
    .bind (forM_raises (fun _ => withinSource_raises) _) fun _ _ =>
    .bind (optional_raises point_raises) fun _ _ =>
    .bind (option_forM_raises (fun _ => withinSource_raises) _) fun _ _ =>
    .bind nonNegativeInt_raises fun _ _ => .bind nonNegativeInt_raises fun _ _ =>
    .bind (optional_raises string_raises) fun _ _ => .ok _

theorem strictlyIncreasing_raises {previousIndex previousTimestamp : ℤ} {frames : List (ℤ × ℤ)} :
    RaisesOnly Refusal (strictlyIncreasing name previousIndex previousTimestamp frames) := by
  induction frames generalizing previousIndex previousTimestamp with
  | nil => exact .ok _
  | cons frame frames ih =>
    exact .ite (fun _ => raises_validationError _) fun _ =>
      .ite (fun _ => raises_validationError _) fun _ => ih

/-- A document of annotations that is refused. -/
theorem loadAnnotations_raises {path : String} :
    RaisesOnly Refusal (loadAnnotations path (some (.ok v))) :=
  .bind (.ok v) fun _ _ => .bind mapping_raises fun _ _ => .bind schemaVersion_raises fun _ _ =>
    .ite (fun _ => raises_validationError _) fun _ => .bind string_raises fun _ _ =>
    .bind mapping_raises fun _ _ => .bind sourceMetadata_raises fun _ _ =>
    .bind string_raises fun _ _ => .bind sequence_raises fun _ _ =>
    .bind (mapM_raises (fun _ => annotationFrame_raises) _) fun _ _ =>
    .ite (fun _ => raises_validationError _) fun _ => .bind strictlyIncreasing_raises fun _ _ =>
    .ok _

theorem manifestCase_raises {identifiers : List String} :
    RaisesOnly Refusal (manifestCase identifiers v) :=
  .bind mapping_raises fun _ _ => .bind string_raises fun _ _ =>
    .ite (fun _ => raises_validationError _) fun _ => .bind string_raises fun _ _ =>
    .ite (fun _ => raises_validationError _) fun _ => .bind mapping_raises fun _ _ =>
    .bind nonNegativeInt_raises fun _ _ => .bind string_raises fun _ _ =>
    .bind mapping_raises fun _ _ => .bind sourceMetadata_raises fun _ _ => .ok _

theorem manifestCases_raises {earlier : List (ManifestCase K)} {items : List (Value K)} :
    RaisesOnly Refusal (manifestCases earlier items) := by
  induction items generalizing earlier with
  | nil => exact .ok _
  | cons item items ih => exact .bind manifestCase_raises fun _ _ => ih

/-- A manifest that is refused. -/
theorem loadManifest_raises {path : String} : RaisesOnly Refusal (loadManifest path (some (.ok v))) :=
  .bind (.ok v) fun _ _ => .bind mapping_raises fun _ _ => .bind schemaVersion_raises fun _ _ =>
    .bind sequence_raises fun _ _ => .bind manifestCases_raises fun _ _ =>
    .ite (fun _ => raises_validationError _) fun _ => .ok _

end Raise

/-! ## The loaders -/

section Accept

variable {K : Type} [Field K] [LinearOrder K]

/-- **Annotations.** A file is accepted exactly if it is a document that holds well-formed
annotations, and these are what is read. All well-formed annotations can be written so, and no
others. Every other document is refused by the validation, or for an integer that has no float. -/
theorem loadAnnotations_accepts (path : String) (a : AnnotationSet K) :
    (∀ file, loadAnnotations path file = .ok a ↔
      ∃ record, file = some (.ok record) ∧ AnnotationsOf record a ∧ a.WellFormed) ∧
    (loadAnnotations path (some (.ok a.record)) = .ok a ↔ a.WellFormed) ∧
    ∀ (record : Value K) (e : Raised),
      loadAnnotations path (some (.ok record)) = .error e → Refusal e :=
  ⟨fun _ => loadAnnotations_eq_ok, ⟨.of_ok, fun h => loadAnnotations_record h path⟩,
    fun _ => loadAnnotations_raises⟩

/-- **Manifests.** A file is accepted exactly if it is a document that holds well-formed cases with
different identifiers, and these are what is read. All such cases can be written so, and no others.
Every other document is refused by the validation, or for an integer that has no float. -/
theorem loadManifest_accepts (path : String) (cases : List (ManifestCase K)) :
    (∀ file, loadManifest path file = .ok cases ↔
      ∃ record, file = some (.ok record) ∧ CasesOf record cases ∧ WellFormedCases cases) ∧
    (loadManifest path (some (.ok (manifestRecord cases))) = .ok cases ↔ WellFormedCases cases) ∧
    ∀ (record : Value K) (e : Raised),
      loadManifest path (some (.ok record)) = .error e → Refusal e := by
  refine ⟨fun _ => loadManifest_eq_ok, ⟨fun h => ?_, fun h => ?_⟩, fun _ => loadManifest_raises⟩
  · obtain ⟨record, -, -, hcases⟩ := loadManifest_eq_ok.mp h
    exact hcases
  · exact loadManifest_eq_ok.mpr ⟨_, rfl, casesOf_manifestRecord cases, h⟩

end Accept

end Evaluation

end BoulderFrame
