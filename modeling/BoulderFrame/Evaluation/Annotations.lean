import BoulderFrame.Evaluation.CarriedTrace
import BoulderFrame.Pipeline.CropPath

/-!
# Annotations

The offline evaluation compares a telemetry bundle with annotations that a person has reviewed, and
finds its cases in a manifest. Both are JSON documents from outside, of which nothing is taken
without a check.

## Main definitions

* `AnnotationFrame`, `AnnotationSet`, `ManifestCase`: what is read of the documents
* `loadAnnotations`, `loadManifest`: the loaders
* `AnnotationSet.WellFormed`, `WellFormedCases`: what the loaders check of the values they read
* `AnnotationSet.record`, `manifestRecord`: documents that hold annotations, and cases
-/

namespace BoulderFrame

namespace Evaluation

structure AnnotationFrame (K : Type) where
  frameIndex : ℤ
  timestampMs : ℤ
  visible : Bool
  occluded : Bool
  ambiguous : Bool
  bounds : Option (Rect K)
  landmarks : List (Point K)
  root : Option (Point K)
  identity : Option String

structure AnnotationSet (K : Type) where
  caseId : String
  source : SourceMetadata K
  reviewer : String
  frames : List (AnnotationFrame K)

structure ManifestCase (K : Type) where
  caseId : String
  scenario : String
  annotation : String
  source : SourceMetadata K
  targetFrameIndex : ℤ

/-- `SCENARIOS` -/
def scenarios : List String := ["stationary", "lateral_sprint", "jump", "occlusion", "lost_subject"]

/-! ## The loaders -/

section Load

variable {K : Type} [Field K] [LinearOrder K]

/-- `_sequence` -/
def sequence (v : Value K) (name : String) : Except Raised (List (Value K)) :=
  match v with
  | .list items => .ok items
  | _ => .error (validationError (name ++ " must be an array"))

/-- `_point` -/
def point (v : Value K) (name : String) : Except Raised (Point K) := do
  let data ← mapping v name
  let x ← finite (data.get "x") (name ++ ".x")
  let y ← finite (data.get "y") (name ++ ".y")
  .ok ⟨x, y⟩

/-- `_within_source`, of a corner at the top left and one at the bottom right -/
def withinSource (corner corner' : Point K) (source : SourceMetadata K) (name : String) :
    Except Raised Unit :=
  if corner.x < 0 ∨ corner.y < 0 ∨ (source.width : K) < corner'.x ∨
      (source.height : K) < corner'.y then
    .error (validationError (name ++ " is outside source bounds"))
  else .ok ()

/-- The right and the bottom edge are exact sums. -/
def rectWithinSource (r : Rect K) (source : SourceMetadata K) (name : String) :
    Except Raised Unit := withinSource ⟨r.x, r.y⟩ ⟨r.right, r.bottom⟩ source name

def pointWithinSource (p : Point K) (source : SourceMetadata K) (name : String) :
    Except Raised Unit := withinSource p p source name

/-- `_annotation_frame` -/
def annotationFrame (source : SourceMetadata K) (record : Value K) :
    Except Raised (AnnotationFrame K) := do
  let data ← mapping record "annotation frame"
  let visible ← boolean (data.get "visible") "annotation visible"
  let occluded ← boolean ((data.field "occluded").getD (.bool false)) "annotation occluded"
  let ambiguous ← boolean ((data.field "ambiguous").getD (.bool false)) "annotation ambiguous"
  let bounds ← optional (data.get "bounds") (rect · "annotation bounds")
  if visible ∧ bounds.isNone then
    .error (validationError "visible annotation requires bounds")
  else do
    bounds.forM (rectWithinSource · source "annotation bounds")
    let items ← sequence ((data.field "landmarks").getD (.list [])) "annotation landmarks"
    let landmarks ← items.mapM (point · "annotation landmark")
    landmarks.forM (pointWithinSource · source "annotation landmark")
    let root ← optional (data.get "root") (point · "annotation root")
    root.forM (pointWithinSource · source "annotation root")
    let frameIndex ← nonNegativeInt (data.get "frame_index") "annotation frame_index"
    let timestampMs ← nonNegativeInt (data.get "timestamp_ms") "annotation timestamp_ms"
    let identity ← optional (data.get "identity") (string · "annotation identity")
    .ok ⟨frameIndex, timestampMs, visible, occluded, ambiguous, bounds, landmarks, root, identity⟩

/-- `_strictly_increasing_frames` of any frames, by their indices and timestamps. -/
def strictlyIncreasing (name : String) (previousIndex previousTimestamp : ℤ) :
    List (ℤ × ℤ) → Except Raised Unit
  | [] => .ok ()
  | (index, timestamp) :: frames =>
    if index ≤ previousIndex then
      .error (validationError (name ++ " frame indices must be unique and increasing"))
    else if timestamp ≤ previousTimestamp then
      .error (validationError (name ++ " timestamps must be strictly increasing"))
    else strictlyIncreasing name index timestamp frames

/-- The document of a JSON file, which may be unreadable; `json.loads` raises more than is caught. -/
def readDocument (message : String) : Option (Except JsonError (Value K)) → Except Raised (Value K)
  | some (.ok record) => .ok record
  | some (.error .digits) => .error (ProcessingPipeline.jsonRaised .digits)
  | some (.error .depth) => .error (ProcessingPipeline.jsonRaised .depth)
  | _ => .error (validationError message)

/-- `load_annotations` -/
def loadAnnotations (path : String) (file : Option (Except JsonError (Value K))) :
    Except Raised (AnnotationSet K) := do
  let record ← readDocument ("invalid annotation file: " ++ path) file
  let data ← mapping record "annotations"
  schemaVersion data "annotations"
  if ¬ (data.get "human_reviewed").isBool true then
    .error (validationError "annotations must be marked human_reviewed")
  else do
    let caseId ← string (data.get "case_id") "case_id"
    let source ← mapping (data.get "source") "annotation source"
    let source ← sourceMetadata source
    let reviewer ← string (data.get "reviewer") "reviewer"
    let items ← sequence (data.get "frames") "annotation frames"
    let frames ← items.mapM (annotationFrame source)
    if frames.isEmpty then
      .error (validationError "annotations must contain at least one frame")
    else do
      strictlyIncreasing "annotation" (-1) (-1) (frames.map fun f => (f.frameIndex, f.timestampMs))
      .ok ⟨caseId, source, reviewer, frames⟩

/-- A case of the manifest, after cases with the given identifiers. -/
def manifestCase (identifiers : List String) (rawCase : Value K) :
    Except Raised (ManifestCase K) := do
  let item ← mapping rawCase "manifest case"
  let caseId ← string (item.get "case_id") "case_id"
  if caseId ∈ identifiers then
    .error (validationError ("duplicate manifest case_id: " ++ caseId))
  else do
    let scenario ← string (item.get "scenario") "scenario"
    if scenario ∉ scenarios then
      .error (validationError ("unsupported scenario: " ++ scenario))
    else do
      let selection ← mapping (item.get "target_selection") "target_selection"
      let targetFrameIndex ← nonNegativeInt (selection.get "frame_index") "target frame_index"
      let annotation ← string (item.get "annotation") "annotation"
      let source ← mapping (item.get "source") "manifest source"
      let source ← sourceMetadata source
      .ok ⟨caseId, scenario, annotation, source, targetFrameIndex⟩

/-- The loop over the cases. -/
def manifestCases (cases : List (ManifestCase K)) :
    List (Value K) → Except Raised (List (ManifestCase K))
  | [] => .ok cases
  | rawCase :: rest => do
    let read ← manifestCase (cases.map (·.caseId)) rawCase
    manifestCases (cases ++ [read]) rest

/-- `load_manifest` -/
def loadManifest (path : String) (file : Option (Except JsonError (Value K))) :
    Except Raised (List (ManifestCase K)) := do
  let record ← readDocument ("invalid evaluation manifest: " ++ path) file
  let data ← mapping record "manifest"
  schemaVersion data "manifest"
  let items ← sequence (data.get "cases") "manifest cases"
  let cases ← manifestCases [] items
  if cases.isEmpty then
    .error (validationError "manifest must contain at least one case")
  else .ok cases

end Load

/-! ## Well-formed annotations -/

section WellFormed

variable {K : Type} [Field K] [LinearOrder K]

/-- The point is in the source. -/
structure PointWithin (source : SourceMetadata K) (p : Point K) : Prop where
  nonneg : 0 ≤ p.x ∧ 0 ≤ p.y
  le : p.x ≤ source.width ∧ p.y ≤ source.height

/-- The rectangle is in the source. -/
structure RectWithin (source : SourceMetadata K) (r : Rect K) : Prop where
  positive : 0 < r.width ∧ 0 < r.height
  nonneg : 0 ≤ r.x ∧ 0 ≤ r.y
  le : r.right ≤ source.width ∧ r.bottom ≤ source.height

/-- The metadata of a source that the evaluation accepts. -/
structure SourceMetadata.WellFormed (source : SourceMetadata K) : Prop where
  named : source.sourceId.isSome ∨ source.sha256.isSome
  sourceId : ∀ id ∈ source.sourceId, id ≠ ""
  sha256 : ∀ sha ∈ source.sha256, sha ≠ ""
  size : 0 < source.width ∧ 0 < source.height
  frameRate : 0 < source.frameRate
  constant : source.variableFrameRate = false

/-- A frame of an annotation that the evaluation accepts. -/
structure AnnotationFrame.WellFormed (source : SourceMetadata K) (f : AnnotationFrame K) : Prop where
  nonneg : 0 ≤ f.frameIndex ∧ 0 ≤ f.timestampMs
  visible : f.visible = true → f.bounds.isSome
  bounds : ∀ r ∈ f.bounds, RectWithin source r
  landmarks : ∀ p ∈ f.landmarks, PointWithin source p
  root : ∀ p ∈ f.root, PointWithin source p
  identity : ∀ name ∈ f.identity, name ≠ ""

/-- An annotation that the evaluation accepts. -/
structure AnnotationSet.WellFormed (a : AnnotationSet K) : Prop where
  caseId : a.caseId ≠ ""
  source : a.source.WellFormed
  reviewer : a.reviewer ≠ ""
  nonempty : a.frames ≠ []
  frames : ∀ f ∈ a.frames, f.WellFormed a.source
  indices : (a.frames.map (·.frameIndex)).Pairwise (· < ·)
  timestamps : (a.frames.map (·.timestampMs)).Pairwise (· < ·)

/-- A case that the evaluation accepts. -/
structure ManifestCase.WellFormed (c : ManifestCase K) : Prop where
  caseId : c.caseId ≠ ""
  scenario : c.scenario ∈ scenarios
  annotation : c.annotation ≠ ""
  source : c.source.WellFormed
  targetFrameIndex : 0 ≤ c.targetFrameIndex

/-- Cases that the evaluation accepts. -/
structure WellFormedCases (cases : List (ManifestCase K)) : Prop where
  nonempty : cases ≠ []
  wellFormed : ∀ c ∈ cases, c.WellFormed
  distinct : (cases.map (·.caseId)).Nodup

end WellFormed

/-! ## Writing -/

section Record

variable {K : Type}

def pointRecord (p : Point K) : Value K := .dict [("x", .number p.x), ("y", .number p.y)]

def SourceMetadata.record (source : SourceMetadata K) : Value K :=
  .dict [("source_id", source.sourceId.elim .none .str), ("sha256", source.sha256.elim .none .str),
    ("width", .int source.width), ("height", .int source.height),
    ("frame_rate", .number source.frameRate),
    ("variable_frame_rate", .bool source.variableFrameRate)]

def AnnotationFrame.record (f : AnnotationFrame K) : Value K :=
  .dict [("frame_index", .int f.frameIndex), ("timestamp_ms", .int f.timestampMs),
    ("visible", .bool f.visible), ("occluded", .bool f.occluded), ("ambiguous", .bool f.ambiguous),
    ("bounds", f.bounds.elim .none serializeRect), ("landmarks", .list (f.landmarks.map pointRecord)),
    ("root", f.root.elim .none pointRecord), ("identity", f.identity.elim .none .str)]

def AnnotationSet.record (a : AnnotationSet K) : Value K :=
  .dict [("schema_version", .int 1), ("human_reviewed", .bool true), ("case_id", .str a.caseId),
    ("source", a.source.record), ("reviewer", .str a.reviewer),
    ("frames", .list (a.frames.map AnnotationFrame.record))]

def ManifestCase.record (c : ManifestCase K) : Value K :=
  .dict [("case_id", .str c.caseId), ("scenario", .str c.scenario), ("annotation", .str c.annotation),
    ("source", c.source.record),
    ("target_selection", .dict [("frame_index", .int c.targetFrameIndex)])]

/-- The manifest of some cases. -/
def manifestRecord (cases : List (ManifestCase K)) : Value K :=
  .dict [("schema_version", .int 1), ("cases", .list (cases.map ManifestCase.record))]

end Record

end Evaluation

end BoulderFrame
