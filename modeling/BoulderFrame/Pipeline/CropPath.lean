import BoulderFrame.Debug.Kept
import BoulderFrame.Library.JsonFile
import BoulderFrame.Media.Metadata

/-!
# The file of a crop path

The crops of a plan are written to a file of JSON lines, one for each frame, with its index and its
time. A later stage reads them back, if every line is that of its frame and none is missing. The
numbers of the file are exact.

## Main definitions

* `writeCropPath`, `loadCropPath`: the writer and the reader
* `CropPathLine`: what the reader finds on the line of a frame
* `Aligned`: the files that hold a crop path
* `Guarded`: the reader returns for these files only, and rejects the others with a terminal error
* `Readable`: where it does

## Main results

* `loadCropPath_eq_ok`: the files that are read, and their crops
* `loadCropPath_writeCropPath`: what has been written is read back
* `loadCropPath_rejects_iff`: the files that are rejected with a terminal error
* `cropPath_file`: the reader guards exactly the readable files
-/

namespace BoulderFrame

namespace ProcessingPipeline

variable {K : Type}

/-- The line of a frame. -/
def cropPathRecord (observation : RawFrameObservation K) (crop : CropRect K) : Value K :=
  .dict
    [("frame_index", .int observation.frameIndex),
      ("timestamp_ms", .int observation.timestampMs),
      ("crop", serializeCropRect crop)]

/-- `_write_crop_path` -/
def writeCropPath (observations : List (RawFrameObservation K)) (crops : List (CropRect K)) :
    Except Raised (List (Value K)) :=
  if observations.length ≠ crops.length then
    .error (.valueError "crop path records must have matching frame counts")
  else .ok ((observations.zip crops).map fun (observation, crop) =>
    (cropPathRecord observation crop).sortKeys)

/-- What `json.loads` or the decoder of the file raises. -/
def jsonRaised : JsonError → Raised
  | .encoding => .other "UnicodeDecodeError"
  | .malformed => .other "JSONDecodeError"
  | .digits => .valueError "Exceeds the limit (4300 digits) for integer string conversion"
  | .depth => .other "RecursionError"

section Load

variable [IntCast K] [Zero K] [One K] [DecidableEq K] (floatOfText : String → Option (FloatValue K))

/-- `float`, which is given texts by `floatOfText`. -/
def toFloat : Value K → Except Raised (FloatValue K)
  | .int value =>
    if value.natAbs < floatOverflow then .ok (.finite value) else .error (.other "OverflowError")
  | .bool value => .ok (.finite (if value then 1 else 0))
  | .float value => .ok value
  | .str text =>
    match floatOfText text with
    | some value => .ok value
    | none => .error (.valueError "could not convert string to float")
  | _ => .error (.other "TypeError")

/-- A field of a crop as a float. -/
def cropNumber (crop : Value K) (key : String) : Except Raised (FloatValue K) :=
  match crop.field key with
  | some value => toFloat floatOfText value
  | none => .error (.other "KeyError")

/-- The crop of a line. -/
def cropOfFields (crop : Value K) : Except Raised (CropRect (FloatValue K)) := do
  let x ← cropNumber floatOfText crop "x"
  let y ← cropNumber floatOfText crop "y"
  let width ← cropNumber floatOfText crop "width"
  let height ← cropNumber floatOfText crop "height"
  .ok ⟨x, y, width, height⟩

/-- `except (KeyError, TypeError, ValueError)` -/
def isLookupOrConversion : Raised → Bool
  | .valueError _ => true
  | .other name => name = "KeyError" ∨ name = "TypeError"
  | _ => false

def inconsistentCropPath : Raised :=
  .worker (.terminal .invalidMedia "Crop path is inconsistent." none)

def incompleteCropPath : Raised :=
  .worker (.terminal .invalidMedia "Crop path is incomplete." none)

/-- The crop on the line of a frame. -/
def loadCropLine (metadata : MediaMetadata) (index : ℤ) :
    JsonLine K → Except Raised (CropRect (FloatValue K))
  -- the lines are read outside the `try`
  | .error e => .error (jsonRaised e)
  | .ok (.dict record) => do
    if ¬ ((Value.dict record).get "frame_index").equalsInt index then .error inconsistentCropPath
    else do
      let timestampMs ← metadata.timestampForFrame index
      if ¬ ((Value.dict record).get "timestamp_ms").equalsInt timestampMs then
        .error inconsistentCropPath
      else match cropOfFields floatOfText ((Value.dict record).get "crop") with
        | .error e => .error (if isLookupOrConversion e then inconsistentCropPath else e)
        | .ok crop => .ok crop
  | .ok _ => .error inconsistentCropPath

/-- `_load_crop_path` -/
def loadCropPath (metadata : MediaMetadata) (lines : List (JsonLine K)) :
    Except Raised (List (CropRect (FloatValue K))) := do
  let crops ← lines.zipIdx.mapM fun line => loadCropLine floatOfText metadata line.2 line.1
  if (crops.length : ℤ) ≠ metadata.expectedFrameCount then .error incompleteCropPath
  else .ok crops

end Load

/-! ## Single lines -/

section Load

variable [Ring K] [DecidableEq K] {floatOfText : String → Option (FloatValue K)}
  {metadata : MediaMetadata}

/-- The field of a crop is one that `float` converts. -/
def HasNumber (floatOfText : String → Option (FloatValue K)) (crop : Value K) (key : String)
    (x : FloatValue K) : Prop :=
  ∃ value, crop.field key = some value ∧ toFloat floatOfText value = .ok x

/-- The field of a crop is an integer that has no float. -/
def Beyond (crop : Value K) (key : String) : Prop :=
  ∃ value : ℤ, crop.field key = some (.int value) ∧ floatOverflow ≤ value.natAbs

/-- The first of the fields that `float` does not convert is an integer that has no float. -/
def Overflows (floatOfText : String → Option (FloatValue K)) (crop : Value K) :
    List String → Prop
  | [] => False
  | key :: keys =>
    Beyond crop key ∨ (∃ x, HasNumber floatOfText crop key x) ∧ Overflows floatOfText crop keys

def cropKeys : List String := ["x", "y", "width", "height"]

/-- The record has the index and the time of the frame. -/
def InPlace (metadata : MediaMetadata) (index : ℕ) (record : Value K) : Prop :=
  (record.get "frame_index").equalsInt index ∧ ∃ timestampMs,
    metadata.timestampForFrame index = .ok timestampMs ∧
      (record.get "timestamp_ms").equalsInt timestampMs

/-- The line of a frame: its index and its time, and a crop. -/
def CropPathLine (floatOfText : String → Option (FloatValue K)) (metadata : MediaMetadata)
    (index : ℕ) (line : JsonLine K) (crop : CropRect (FloatValue K)) : Prop :=
  ∃ record, line = .ok record ∧ InPlace metadata index record ∧
    HasNumber floatOfText (record.get "crop") "x" crop.x ∧
    HasNumber floatOfText (record.get "crop") "y" crop.y ∧
    HasNumber floatOfText (record.get "crop") "width" crop.width ∧
    HasNumber floatOfText (record.get "crop") "height" crop.height

/-- The line is JSON, and no number beyond the floats is met on it. -/
def ReadableLine (floatOfText : String → Option (FloatValue K)) (metadata : MediaMetadata)
    (index : ℕ) (line : JsonLine K) : Prop :=
  ∃ record, line = .ok record ∧
    (InPlace metadata index record → ¬ Overflows floatOfText (record.get "crop") cropKeys)

omit [DecidableEq K] in
theorem cropNumber_eq_ok {crop : Value K} {key : String} {x : FloatValue K} :
    cropNumber floatOfText crop key = .ok x ↔ HasNumber floatOfText crop key x := by
  unfold cropNumber HasNumber
  cases crop.field key <;> simp

omit [DecidableEq K] in
/-- What `float` raises is caught, unless the integer has no float. -/
theorem cropNumber_error {crop : Value K} {key : String} {e : Raised}
    (h : cropNumber floatOfText crop key = .error e) :
    e.isWorker = false ∧ (isLookupOrConversion e = false ↔ Beyond crop key) := by
  unfold cropNumber at h
  unfold Beyond
  cases hfield : crop.field key with
  | none =>
    rw [hfield] at h
    obtain rfl := Except.error.inj h
    exact ⟨rfl, iff_of_false (by decide) (by rintro ⟨_, ⟨⟩, _⟩)⟩
  | some value =>
    rw [hfield] at h
    simp only at h
    cases value with
    | int n =>
      rw [toFloat] at h
      split_ifs at h with hn
      obtain rfl := Except.error.inj h
      exact ⟨rfl, iff_of_true (by decide) ⟨n, rfl, not_lt.mp hn⟩⟩
    | str text =>
      rw [toFloat] at h
      split at h
      · cases h
      · obtain rfl := Except.error.inj h
        exact ⟨rfl, iff_of_false (by decide) (by rintro ⟨_, ⟨⟩, _⟩)⟩
    | bool | float => cases h
    | none | bytes | list | dict | other =>
      obtain rfl := Except.error.inj h
      exact ⟨rfl, iff_of_false (by decide) (by rintro ⟨_, ⟨⟩, _⟩)⟩

omit [DecidableEq K] in
theorem overflows_of_error {crop : Value K} {key : String} {e : Raised} (keys : List String)
    (h : cropNumber floatOfText crop key = .error e) :
    e.isWorker = false ∧
      (isLookupOrConversion e = false ↔ Overflows floatOfText crop (key :: keys)) := by
  refine (cropNumber_error h).imp_right fun herror => herror.trans (or_iff_left ?_).symm
  rintro ⟨⟨x, hx⟩, -⟩
  cases h.symm.trans (cropNumber_eq_ok.mpr hx)

omit [DecidableEq K] in
theorem overflows_of_ok {crop : Value K} {key : String} {x : FloatValue K} (keys : List String)
    (h : cropNumber floatOfText crop key = .ok x) :
    Overflows floatOfText crop (key :: keys) ↔ Overflows floatOfText crop keys := by
  have hx := cropNumber_eq_ok.mp h
  refine (or_iff_right ?_).trans (and_iff_right ⟨x, hx⟩)
  rintro ⟨n, hn, hlarge⟩
  obtain ⟨value, hvalue, hx⟩ := hx
  obtain rfl := Option.some.inj (hn.symm.trans hvalue)
  rw [toFloat, if_neg hlarge.not_gt] at hx
  cases hx

omit [DecidableEq K] in
theorem cropOfFields_eq_ok {crop : Value K} {rect : CropRect (FloatValue K)} :
    cropOfFields floatOfText crop = .ok rect ↔
      HasNumber floatOfText crop "x" rect.x ∧ HasNumber floatOfText crop "y" rect.y ∧
        HasNumber floatOfText crop "width" rect.width ∧
        HasNumber floatOfText crop "height" rect.height := by
  unfold cropOfFields
  simp only [Except.bind_eq_ok, cropNumber_eq_ok, Except.ok.injEq]
  constructor
  · rintro ⟨x, hx, y, hy, width, hwidth, height, hheight, rfl⟩
    exact ⟨hx, hy, hwidth, hheight⟩
  · rintro ⟨hx, hy, hwidth, hheight⟩
    exact ⟨_, hx, _, hy, _, hwidth, _, hheight, rfl⟩

omit [DecidableEq K] in
/-- What a crop that is not read raises is caught, unless one of its integers has no float. -/
theorem cropOfFields_error {crop : Value K} {e : Raised}
    (h : cropOfFields floatOfText crop = .error e) :
    e.isWorker = false ∧
      (isLookupOrConversion e = false ↔ Overflows floatOfText crop cropKeys) := by
  unfold cropOfFields at h
  unfold cropKeys
  cases hx : cropNumber floatOfText crop "x" with
  | error e' =>
    rw [hx] at h
    obtain rfl := Except.error.inj h
    exact overflows_of_error _ hx
  | ok x =>
    rw [hx, Except.ok_bind] at h
    rw [overflows_of_ok _ hx]
    cases hy : cropNumber floatOfText crop "y" with
    | error e' =>
      rw [hy] at h
      obtain rfl := Except.error.inj h
      exact overflows_of_error _ hy
    | ok y =>
      rw [hy, Except.ok_bind] at h
      rw [overflows_of_ok _ hy]
      cases hwidth : cropNumber floatOfText crop "width" with
      | error e' =>
        rw [hwidth] at h
        obtain rfl := Except.error.inj h
        exact overflows_of_error _ hwidth
      | ok width =>
        rw [hwidth, Except.ok_bind] at h
        rw [overflows_of_ok _ hwidth]
        cases hheight : cropNumber floatOfText crop "height" with
        | error e' =>
          rw [hheight] at h
          obtain rfl := Except.error.inj h
          exact overflows_of_error _ hheight
        | ok height =>
          rw [hheight] at h
          cases h

theorem CropPathLine.readable {index : ℕ} {line : JsonLine K} {crop : CropRect (FloatValue K)}
    (h : CropPathLine floatOfText metadata index line crop) :
    ReadableLine floatOfText metadata index line := by
  obtain ⟨record, rfl, -, hx, hy, hwidth, hheight⟩ := h
  refine ⟨record, rfl, fun _ => ?_⟩
  rw [cropKeys, overflows_of_ok _ (cropNumber_eq_ok.mpr hx),
    overflows_of_ok _ (cropNumber_eq_ok.mpr hy), overflows_of_ok _ (cropNumber_eq_ok.mpr hwidth),
    overflows_of_ok _ (cropNumber_eq_ok.mpr hheight)]
  exact id

theorem timestampForFrame_natCast (metadata : MediaMetadata) (index : ℕ) :
    ∃ t, metadata.timestampForFrame index = .ok t :=
  ⟨_, if_neg (Int.natCast_nonneg index).not_gt⟩

/-- Only an object has an index. -/
theorem InPlace.exists_fields {index : ℕ} {record : Value K} (h : InPlace metadata index record) :
    ∃ fields, record = .dict fields := by
  cases record with
  | dict fields => exact ⟨fields, rfl⟩
  | none | bool | int | float | str | bytes | list | other => cases h.1

theorem loadCropLine_of_not_inPlace {index : ℕ} {record : Value K}
    (h : ¬ InPlace metadata index record) :
    loadCropLine floatOfText metadata index (.ok record) = .error inconsistentCropPath := by
  obtain ⟨timestampMs, htime⟩ := timestampForFrame_natCast metadata index
  cases record with
  | dict fields =>
    simp only [loadCropLine, htime, Except.ok_bind]
    split_ifs with hindex htimestamp
    · exact absurd ⟨hindex, timestampMs, htime, htimestamp⟩ h
    · rfl
    · rfl
  | none | bool | int | float | str | bytes | list | other => rfl

theorem loadCropLine_of_inPlace {index : ℕ} {record : Value K} (h : InPlace metadata index record) :
    loadCropLine floatOfText metadata index (.ok record) =
      match cropOfFields floatOfText (record.get "crop") with
      | .error e => .error (if isLookupOrConversion e then inconsistentCropPath else e)
      | .ok crop => .ok crop := by
  obtain ⟨fields, rfl⟩ := h.exists_fields
  obtain ⟨hindex, timestampMs, htime, htimestamp⟩ := h
  simp only [loadCropLine]
  rw [if_neg (not_not.mpr hindex), htime, Except.ok_bind, if_neg (not_not.mpr htimestamp)]

/-- **The line of a frame** is read, if it is that. -/
theorem loadCropLine_eq_ok {index : ℕ} {line : JsonLine K} {crop : CropRect (FloatValue K)} :
    loadCropLine floatOfText metadata index line = .ok crop ↔
      CropPathLine floatOfText metadata index line crop := by
  constructor
  · intro h
    cases line with
    | error e => cases h
    | ok record =>
      by_cases hplace : InPlace metadata index record
      · rw [loadCropLine_of_inPlace hplace] at h
        cases hcrop : cropOfFields floatOfText (record.get "crop") with
        | error e =>
          rw [hcrop] at h
          cases h
        | ok rect =>
          rw [hcrop] at h
          obtain rfl := Except.ok.inj h
          exact ⟨record, rfl, hplace, cropOfFields_eq_ok.mp hcrop⟩
      · rw [loadCropLine_of_not_inPlace hplace] at h
        cases h
  · rintro ⟨record, rfl, hplace, hcrop⟩
    rw [loadCropLine_of_inPlace hplace, cropOfFields_eq_ok.mpr hcrop]

/-- **A line that is no such line** raises a terminal error, if it is readable. -/
theorem loadCropLine_eq_error {index : ℕ} {line : JsonLine K} {e : Raised}
    (h : loadCropLine floatOfText metadata index line = .error e) :
    e ≠ incompleteCropPath ∧
      (e = inconsistentCropPath ↔ ReadableLine floatOfText metadata index line) := by
  cases line with
  | error e' =>
    obtain rfl := Except.error.inj h
    refine ⟨?_, iff_of_false ?_ (by rintro ⟨_, ⟨⟩, _⟩)⟩ <;> cases e' <;> decide
  | ok record =>
    by_cases hplace : InPlace metadata index record
    · rw [loadCropLine_of_inPlace hplace] at h
      cases hcrop : cropOfFields floatOfText (record.get "crop") with
      | ok rect =>
        rw [hcrop] at h
        cases h
      | error e' =>
        have hline : ReadableLine floatOfText metadata index (.ok record) ↔
            isLookupOrConversion e' = true := by
          rw [← Bool.not_eq_false, (cropOfFields_error hcrop).2]
          constructor
          · rintro ⟨_, ⟨⟩, h⟩
            exact h hplace
          · exact fun h => ⟨record, rfl, fun _ => h⟩
        rw [hcrop] at h
        obtain rfl := Except.error.inj h
        rw [hline]
        cases hcaught : isLookupOrConversion e' with
        | true =>
          rw [if_pos rfl]
          exact ⟨by decide, iff_of_true rfl rfl⟩
        | false =>
          have hworker := (cropOfFields_error hcrop).1
          rw [if_neg Bool.false_ne_true]
          refine ⟨?_, iff_of_false ?_ Bool.false_ne_true⟩ <;> rintro rfl <;> cases hworker
    · rw [loadCropLine_of_not_inPlace hplace] at h
      obtain rfl := Except.error.inj h
      exact ⟨by decide, iff_of_true rfl ⟨record, rfl, fun h => absurd h hplace⟩⟩

/-! ## Files -/

/-- The first lines are those of their frames. -/
def Accepted (floatOfText : String → Option (FloatValue K)) (metadata : MediaMetadata)
    (lines : List (JsonLine K)) (n : ℕ) : Prop :=
  ∀ index line, index < n → lines[index]? = some line →
    ∃ crop, CropPathLine floatOfText metadata index line crop

/-- The file is rejected with a terminal error. -/
def Rejected (floatOfText : String → Option (FloatValue K)) (metadata : MediaMetadata)
    (lines : List (JsonLine K)) : Prop :=
  loadCropPath floatOfText metadata lines = .error inconsistentCropPath ∨
    loadCropPath floatOfText metadata lines = .error incompleteCropPath

/-- **The files that are read**, and their crops. -/
theorem loadCropPath_eq_ok {lines : List (JsonLine K)} {crops : List (CropRect (FloatValue K))} :
    loadCropPath floatOfText metadata lines = .ok crops ↔
      (lines.length : ℤ) = metadata.expectedFrameCount ∧ crops.length = lines.length ∧
        ∀ index line, lines[index]? = some line → ∃ crop, crops[index]? = some crop ∧
          CropPathLine floatOfText metadata index line crop := by
  unfold loadCropPath
  rw [Except.bind_eq_ok]
  constructor
  · rintro ⟨crops', hcrops, h⟩
    obtain ⟨hlength, h⟩ := Except.ok_of_guard h
    obtain rfl := Except.ok.inj h
    obtain ⟨hcount, hlines⟩ := Except.mapM_zipIdx_eq_ok.mp hcrops
    refine ⟨hcount ▸ not_not.mp hlength, hcount, fun index line hline => ?_⟩
    obtain ⟨crop, hcrop, hload⟩ := hlines index line hline
    exact ⟨crop, hcrop, loadCropLine_eq_ok.mp hload⟩
  · rintro ⟨hlength, hcount, hlines⟩
    refine ⟨crops, Except.mapM_zipIdx_eq_ok.mpr ⟨hcount, fun index line hline => ?_⟩, ?_⟩
    · obtain ⟨crop, hcrop, hload⟩ := hlines index line hline
      exact ⟨crop, hcrop, loadCropLine_eq_ok.mpr hload⟩
    · rw [hcount, if_neg (not_not.mpr hlength)]

/-- A file is read if all its lines are those of the frames. -/
theorem exists_loadCropPath_iff {lines : List (JsonLine K)} :
    (∃ crops, loadCropPath floatOfText metadata lines = .ok crops) ↔
      Accepted floatOfText metadata lines lines.length ∧
        (lines.length : ℤ) = metadata.expectedFrameCount := by
  constructor
  · rintro ⟨crops, h⟩
    obtain ⟨hlength, -, hlines⟩ := loadCropPath_eq_ok.mp h
    refine ⟨fun index line _ hline => ?_, hlength⟩
    obtain ⟨crop, -, hcrop⟩ := hlines index line hline
    exact ⟨crop, hcrop⟩
  · rintro ⟨haccepted, hlength⟩
    have hlines : ∀ line ∈ lines.zipIdx, ∃ crop,
        loadCropLine floatOfText metadata line.2 line.1 = .ok crop := by
      rintro ⟨line, index⟩ hmem
      obtain ⟨hindex, hline⟩ := List.mem_zipIdx' hmem
      obtain ⟨crop, hcrop⟩ :=
        haccepted index line hindex (List.getElem?_eq_some_iff.mpr ⟨hindex, hline.symm⟩)
      exact ⟨crop, loadCropLine_eq_ok.mpr hcrop⟩
    obtain ⟨crops, hcrops⟩ := Except.mapM_total hlines
    refine ⟨crops, ?_⟩
    unfold loadCropPath
    rw [hcrops, Except.ok_bind, (Except.mapM_zipIdx_eq_ok.mp hcrops).1,
      if_neg (not_not.mpr hlength)]

/-- **The files that are rejected** with a terminal error: those that are not read although every
line up to the first one that is not that of its frame is readable. -/
theorem rejected_iff {lines : List (JsonLine K)} :
    Rejected floatOfText metadata lines ↔
      (¬ ∃ crops, loadCropPath floatOfText metadata lines = .ok crops) ∧
        ∀ index line, lines[index]? = some line → Accepted floatOfText metadata lines index →
          ReadableLine floatOfText metadata index line := by
  unfold Rejected loadCropPath
  cases hcrops : lines.zipIdx.mapM fun line => loadCropLine floatOfText metadata line.2 line.1 with
  | ok crops =>
    have hlines : ∀ index line, lines[index]? = some line →
        ReadableLine floatOfText metadata index line := by
      intro index line hline
      obtain ⟨crop, -, hcrop⟩ := (Except.mapM_zipIdx_eq_ok.mp hcrops).2 index line hline
      exact (loadCropLine_eq_ok.mp hcrop).readable
    rw [Except.ok_bind, and_iff_left fun index line hline _ => hlines index line hline]
    split_ifs with hlength
    · exact iff_of_true (.inr rfl) (by rintro ⟨_, ⟨⟩⟩)
    · exact iff_of_false (by rintro (⟨⟨⟩⟩ | ⟨⟨⟩⟩)) (not_not.mpr ⟨crops, rfl⟩)
  | error e =>
    obtain ⟨first, line, hline, herror, hbefore⟩ := Except.mapM_zipIdx_eq_error.mp hcrops
    obtain ⟨hincomplete, hinconsistent⟩ := loadCropLine_eq_error herror
    have haccepted : Accepted floatOfText metadata lines first := fun index line' hindex hline' =>
      (hbefore index line' hindex hline').imp fun crop hcrop => loadCropLine_eq_ok.mp hcrop
    rw [Except.error_bind, and_iff_right (by rintro ⟨_, ⟨⟩⟩)]
    constructor
    · rintro (h | h)
      · intro index line' hline' hall
        obtain hlt | rfl | hgt := lt_trichotomy index first
        · obtain ⟨crop, hcrop⟩ := haccepted index line' hlt hline'
          exact hcrop.readable
        · obtain rfl := Option.some.inj (hline.symm.trans hline')
          exact hinconsistent.mp (Except.error.inj h)
        · obtain ⟨crop, hcrop⟩ := hall first line hgt hline
          cases herror.symm.trans (loadCropLine_eq_ok.mpr hcrop)
      · exact absurd (Except.error.inj h) hincomplete
    · intro h
      exact .inl (congrArg _ (hinconsistent.mpr (h first line hline haccepted)))

/-! ## What has been written -/

/-- The observations of a shot: each has its index and its time. -/
def OnClock (metadata : MediaMetadata) (observations : List (RawFrameObservation K)) : Prop :=
  ∀ (index : ℕ) observation, observations[index]? = some observation →
    observation.frameIndex = index ∧
      metadata.timestampForFrame index = .ok observation.timestampMs

/-- The crop that is read back. -/
def readCrop (crop : CropRect K) : CropRect (FloatValue K) :=
  ⟨.finite crop.x, .finite crop.y, .finite crop.width, .finite crop.height⟩

omit [Ring K] [DecidableEq K] in
theorem wellFormed_cropPathRecord (observation : RawFrameObservation K) (crop : CropRect K) :
    (cropPathRecord observation crop).WellFormed := by
  refine .dict (by decide : ["frame_index", "timestamp_ms", "crop"].Nodup) fun field hfield => ?_
  rcases hfield with _ | ⟨_, _ | ⟨_, _ | ⟨_, hfield⟩⟩⟩
  · exact .int _
  · exact .int _
  · exact (legible_serializeCropRect crop).wellFormed
  · cases hfield

/-- The record of a frame, with sorted keys, is its line. -/
theorem cropPathLine_record {observation : RawFrameObservation K} {crop : CropRect K} {index : ℕ}
    (hindex : observation.frameIndex = index)
    (htime : metadata.timestampForFrame index = .ok observation.timestampMs) :
    CropPathLine floatOfText metadata index
      (.ok (cropPathRecord observation crop).sortKeys) (readCrop crop) := by
  have hget := Value.get_sortKeys (wellFormed_cropPathRecord observation crop)
  have hcrop : (serializeCropRect crop).WellFormed := (legible_serializeCropRect crop).wellFormed
  have hnumber : ∀ key x, (serializeCropRect crop).field key = some (.number x) →
      HasNumber floatOfText ((cropPathRecord observation crop).sortKeys.get "crop") key
        (.finite x) := by
    intro key x hkey
    refine ⟨.number x, ?_, rfl⟩
    rw [hget]
    exact (Value.field_sortKeys hcrop key).trans (by rw [hkey]; rfl)
  refine ⟨_, rfl, ⟨?_, observation.timestampMs, htime, ?_⟩, hnumber "x" crop.x rfl,
    hnumber "y" crop.y rfl, hnumber "width" crop.width rfl, hnumber "height" crop.height rfl⟩
  · exact (congrArg (Value.equalsInt (index : ℤ)) (hget "frame_index")).trans (decide_eq_true hindex)
  · exact (congrArg (Value.equalsInt observation.timestampMs) (hget "timestamp_ms")).trans
      (decide_eq_true rfl)

/-- **What has been written is read back**, with one crop for each expected frame. -/
theorem loadCropPath_writeCropPath {observations : List (RawFrameObservation K)}
    {crops : List (CropRect K)} (hclock : OnClock metadata observations)
    (hobservations : observations.length = crops.length)
    (hcrops : (crops.length : ℤ) = metadata.expectedFrameCount) :
    ∃ records, writeCropPath observations crops = .ok records ∧
      loadCropPath floatOfText metadata (records.map .ok) = .ok (crops.map readCrop) := by
  refine ⟨_, if_neg (not_not.mpr hobservations), loadCropPath_eq_ok.mpr ⟨?_, ?_, ?_⟩⟩
  · rw [List.length_map, List.length_map, List.length_zip, hobservations, min_self, hcrops]
  · rw [List.length_map, List.length_map, List.length_map, List.length_zip, hobservations, min_self]
  · intro index line hline
    rw [List.map_map, List.getElem?_map, Option.map_eq_some_iff] at hline
    obtain ⟨⟨observation, crop⟩, hpair, rfl⟩ := hline
    obtain ⟨hobservation, hcrop⟩ := List.getElem?_zip_eq_some.mp hpair
    obtain ⟨hindex, htime⟩ := hclock index observation hobservation
    refine ⟨readCrop crop, ?_, cropPathLine_record hindex htime⟩
    rw [List.getElem?_map, hcrop]
    rfl

/-! ## Files that hold a crop path -/

/-- A number that has a float. -/
def isNumber : Value K → Bool
  | .int value => decide (value.natAbs < floatOverflow)
  | .float _ => true
  | _ => false

/-- A truth value or a text: no number, but compared or converted like one. -/
def isLoose : Value K → Bool
  | .bool _ => true
  | .str _ => true
  | _ => false

/-- An object with the numbers of the frame. -/
def AlignedLine (metadata : MediaMetadata) (index : ℕ) (line : JsonLine K) : Prop :=
  ∃ record, line = .ok record ∧ (record.get "frame_index").toNumber = some (index : K) ∧
    (∃ timestampMs, metadata.timestampForFrame index = .ok timestampMs ∧
      (record.get "timestamp_ms").toNumber = some (timestampMs : K)) ∧
    ∀ key ∈ cropKeys, ∃ value, (record.get "crop").field key = some value ∧ isNumber value = true

/-- **The files that hold a crop path**: an aligned line for each expected frame, and no more. -/
structure Aligned (metadata : MediaMetadata) (lines : List (JsonLine K)) : Prop where
  length : (lines.length : ℤ) = metadata.expectedFrameCount
  line : ∀ index line, lines[index]? = some line → AlignedLine metadata index line

/-- **The file is guarded**: it is read only if it holds a crop path, and rejected with a terminal
error if it holds none. -/
structure Guarded (floatOfText : String → Option (FloatValue K)) (metadata : MediaMetadata)
    (lines : List (JsonLine K)) : Prop where
  aligned : ∀ crops, loadCropPath floatOfText metadata lines = .ok crops → Aligned metadata lines
  rejected : ¬ Aligned metadata lines → Rejected floatOfText metadata lines

/-- No truth value and no text stands for a number of the frame. -/
def Strict (record : Value K) : Prop :=
  isLoose (record.get "frame_index") = false ∧ isLoose (record.get "timestamp_ms") = false ∧
    ∀ key ∈ cropKeys, isLoose ((record.get "crop").get key) = false

/-- **The files that are guarded**: the first line that is not that of its frame, if there is one, is
JSON and has no integer beyond the floats where the crop is read; and if every line is that of its
frame, and none is missing, then no truth value and no text stands for a number. -/
structure Readable (floatOfText : String → Option (FloatValue K)) (metadata : MediaMetadata)
    (lines : List (JsonLine K)) : Prop where
  reached : ∀ index line, lines[index]? = some line → Accepted floatOfText metadata lines index →
    ReadableLine floatOfText metadata index line
  strict : Accepted floatOfText metadata lines lines.length →
    (lines.length : ℤ) = metadata.expectedFrameCount →
    ∀ record, .ok record ∈ lines → Strict record

theorem toNumber_eq_some_iff [CharZero K] {value : Value K} {n : ℤ} :
    value.toNumber = some (n : K) ↔ value.equalsInt n ∧ isLoose value = false := by
  cases value with
  | int m => simp [Value.toNumber, Value.equalsInt, isLoose]
  | float x => cases x <;> simp [Value.toNumber, Value.equalsInt, isLoose]
  | none | bool | str | bytes | list | dict | other =>
    simp [Value.toNumber, Value.equalsInt, isLoose]

omit [DecidableEq K] in
theorem isNumber_iff {value : Value K} :
    isNumber value = true ↔ (∃ x, toFloat floatOfText value = .ok x) ∧ isLoose value = false := by
  cases value with
  | int n =>
    by_cases hn : n.natAbs < floatOverflow
    · refine iff_of_true ?_ ⟨⟨.finite n, by rw [toFloat, if_pos hn]⟩, rfl⟩
      rw [isNumber, decide_eq_true hn]
    · refine iff_of_false (by rw [isNumber, decide_eq_false hn]; exact Bool.false_ne_true) ?_
      rintro ⟨⟨x, hx⟩, -⟩
      rw [toFloat, if_neg hn] at hx
      cases hx
  | float x => exact iff_of_true rfl ⟨⟨x, rfl⟩, rfl⟩
  | none | bool | str | bytes | list | dict | other => simp [isNumber, isLoose, toFloat]

omit [DecidableEq K] in
theorem exists_field_isNumber_iff {crop : Value K} {key : String} :
    (∃ value, crop.field key = some value ∧ isNumber value = true) ↔
      (∃ x, HasNumber floatOfText crop key x) ∧ isLoose (crop.get key) = false := by
  constructor
  · rintro ⟨value, hvalue, hnumber⟩
    obtain ⟨⟨x, hx⟩, hloose⟩ := isNumber_iff.mp hnumber
    exact ⟨⟨x, value, hvalue, hx⟩, by rwa [Value.get, hvalue]⟩
  · rintro ⟨⟨x, value, hvalue, hx⟩, hloose⟩
    rw [Value.get, hvalue] at hloose
    exact ⟨value, hvalue, isNumber_iff.mpr ⟨⟨x, hx⟩, hloose⟩⟩

/-- **An aligned line** is that of its frame, with numbers only. -/
theorem alignedLine_iff [CharZero K] {index : ℕ} {record : Value K} :
    AlignedLine metadata index (.ok record) ↔
      (∃ crop, CropPathLine floatOfText metadata index (.ok record) crop) ∧ Strict record := by
  obtain ⟨timestampMs, htime⟩ := timestampForFrame_natCast metadata index
  have hindex := @toNumber_eq_some_iff K _ _ _ (record.get "frame_index") index
  have hnumber := fun crop key => @exists_field_isNumber_iff K _ floatOfText crop key
  rw [Int.cast_natCast] at hindex
  unfold AlignedLine Strict
  simp only [hnumber, cropKeys, List.forall_mem_cons, List.not_mem_nil, false_imp_iff,
    implies_true, and_true]
  constructor
  · rintro ⟨_, ⟨⟩, hframe, ⟨t, ht, htimestamp⟩, ⟨⟨x, hx⟩, hx'⟩, ⟨⟨y, hy⟩, hy'⟩,
      ⟨⟨width, hwidth⟩, hwidth'⟩, ⟨height, hheight⟩, hheight'⟩
    obtain ⟨hframe, hframe'⟩ := hindex.mp hframe
    obtain ⟨htimestamp, htimestamp'⟩ := toNumber_eq_some_iff.mp htimestamp
    exact ⟨⟨⟨x, y, width, height⟩, record, rfl, ⟨hframe, t, ht, htimestamp⟩, hx, hy, hwidth,
      hheight⟩, hframe', htimestamp', hx', hy', hwidth', hheight'⟩
  · rintro ⟨⟨crop, _, ⟨⟩, ⟨hframe, t, ht, htimestamp⟩, hx, hy, hwidth, hheight⟩, hframe',
      htimestamp', hx', hy', hwidth', hheight'⟩
    exact ⟨record, rfl, hindex.mpr ⟨hframe, hframe'⟩,
      ⟨t, ht, toNumber_eq_some_iff.mpr ⟨htimestamp, htimestamp'⟩⟩,
      ⟨⟨_, hx⟩, hx'⟩, ⟨⟨_, hy⟩, hy'⟩, ⟨⟨_, hwidth⟩, hwidth'⟩, ⟨_, hheight⟩, hheight'⟩

/-- **The files that hold a crop path** are read, and have numbers only. -/
theorem aligned_iff [CharZero K] {lines : List (JsonLine K)} :
    Aligned metadata lines ↔ Accepted floatOfText metadata lines lines.length ∧
      (lines.length : ℤ) = metadata.expectedFrameCount ∧
        ∀ record, .ok record ∈ lines → Strict record := by
  constructor
  · rintro ⟨hlength, hlines⟩
    refine ⟨fun index line _ hline => ?_, hlength, fun record hrecord => ?_⟩
    · have haligned := hlines index line hline
      obtain ⟨record, rfl, -⟩ := id haligned
      exact (alignedLine_iff.mp haligned).1
    · obtain ⟨index, hline⟩ := List.mem_iff_getElem?.mp hrecord
      exact ((@alignedLine_iff K _ _ floatOfText metadata _ _ _).mp (hlines index _ hline)).2
  · rintro ⟨haccepted, hlength, hstrict⟩
    refine ⟨hlength, fun index line hline => ?_⟩
    obtain ⟨crop, hcrop⟩ :=
      haccepted index line (List.getElem?_eq_some_iff.mp hline).1 hline
    obtain ⟨record, rfl, -⟩ := id hcrop
    exact alignedLine_iff.mpr ⟨⟨crop, hcrop⟩, hstrict record (List.mem_of_getElem? hline)⟩

/-- **The guarded files** are the readable ones. -/
theorem guarded_iff [CharZero K] {lines : List (JsonLine K)} :
    Guarded floatOfText metadata lines ↔ Readable floatOfText metadata lines := by
  constructor
  · intro h
    refine ⟨fun index line hline haccepted => ?_, fun haccepted hlength => ?_⟩
    · by_cases haligned : Aligned metadata lines
      · obtain ⟨hall, hlength, -⟩ := (@aligned_iff K _ _ floatOfText metadata _ lines).mp haligned
        obtain ⟨crop, hcrop⟩ := hall index line (List.getElem?_eq_some_iff.mp hline).1 hline
        exact hcrop.readable
      · exact (rejected_iff.mp (h.rejected haligned)).2 index line hline haccepted
    · obtain ⟨crops, hcrops⟩ := exists_loadCropPath_iff.mpr ⟨haccepted, hlength⟩
      exact ((@aligned_iff K _ _ floatOfText metadata _ lines).mp (h.aligned crops hcrops)).2.2
  · intro h
    have haligned : (∃ crops, loadCropPath floatOfText metadata lines = .ok crops) →
        Aligned metadata lines := by
      intro hread
      obtain ⟨haccepted, hlength⟩ := exists_loadCropPath_iff.mp hread
      exact aligned_iff.mpr ⟨haccepted, hlength, h.strict haccepted hlength⟩
    exact ⟨fun crops hcrops => haligned ⟨crops, hcrops⟩,
      fun hnot => rejected_iff.mpr ⟨fun hread => hnot (haligned hread), h.reached⟩⟩

/-! ## Changed files -/

omit [DecidableEq K] in
/-- A number is one integer only. -/
theorem index_eq_of_toNumber [CharZero K] {value : Value K} {i j : ℕ}
    (hi : value.toNumber = some (i : K)) (hj : value.toNumber = some (j : K)) : i = j := by
  exact_mod_cast Option.some.inj (hi.symm.trans hj)

/-- **A changed file**: it is cut off or goes on, also inside a line, it has lines of another file in
another order, or a line at another place than its index. -/
def Changed (lines lines' : List (JsonLine K)) : Prop :=
  lines'.length ≠ lines.length ∨ (∃ e, .error e ∈ lines') ∨
    (lines' ≠ lines ∧ ∀ line ∈ lines', line ∈ lines) ∨
    ∃ (index : ℕ) (record : Value K), lines'[index]? = some (.ok record) ∧
      (record.get "frame_index").equalsInt index = false

/-- A changed file holds no crop path. -/
theorem Aligned.changed [CharZero K] {lines lines' : List (JsonLine K)}
    (h : Aligned metadata lines) (hchanged : Changed lines lines') : ¬ Aligned metadata lines' := by
  intro h'
  have hcount : lines'.length = lines.length := by
    have := h.length
    have := h'.length
    omega
  obtain hne | ⟨e, he⟩ | ⟨hne, hsub⟩ | ⟨index, record, hrecord, hindex⟩ := hchanged
  · exact hne hcount
  · obtain ⟨index, hline⟩ := List.mem_iff_getElem?.mp he
    obtain ⟨_, ⟨⟩, -⟩ := h'.line index _ hline
  · refine hne (List.ext_getElem hcount fun i hi hi' => ?_)
    obtain ⟨j, hj⟩ := List.mem_iff_getElem?.mp (hsub _ (List.getElem_mem hi))
    obtain ⟨record, hrecord, hframe, -⟩ := h'.line i _ (List.getElem?_eq_getElem hi)
    obtain ⟨record', hrecord', hframe', -⟩ := h.line j _ hj
    obtain rfl := Except.ok.inj (hrecord.symm.trans hrecord')
    obtain rfl := index_eq_of_toNumber hframe hframe'
    exact (List.getElem?_eq_some_iff.mp hj).2.symm
  · obtain ⟨_, ⟨⟩, hframe, -⟩ := h'.line index _ hrecord
    rw [← Int.cast_natCast, toNumber_eq_some_iff, hindex] at hframe
    exact Bool.false_ne_true hframe.1

/-- **The file of a crop path.** What is written of one crop for each expected frame is read back.
The reader guards exactly the readable files: it returns only for a file that holds a crop path, and
rejects any other with a terminal error, unless a line is reached that is no JSON text (as that of a
file which is cut off inside it) or has an integer beyond the floats, or a truth value or a text
stands for a number. So a file that is cut off, goes on, or has its lines in another order or at
another place is rejected with a terminal error exactly if it is readable. -/
theorem cropPath_file [CharZero K] (floatOfText : String → Option (FloatValue K))
    (metadata : MediaMetadata) :
    (∀ (observations : List (RawFrameObservation K)) (crops : List (CropRect K)),
      OnClock metadata observations → observations.length = crops.length →
      (crops.length : ℤ) = metadata.expectedFrameCount →
      ∃ records, writeCropPath observations crops = .ok records ∧
        loadCropPath floatOfText metadata (records.map .ok) = .ok (crops.map readCrop)) ∧
    (∀ lines : List (JsonLine K),
      Guarded floatOfText metadata lines ↔ Readable floatOfText metadata lines) ∧
    ∀ lines lines' : List (JsonLine K), Aligned metadata lines → Changed lines lines' →
      (Rejected floatOfText metadata lines' ↔ Readable floatOfText metadata lines') := by
  refine ⟨fun _ _ => loadCropPath_writeCropPath, fun _ => guarded_iff,
    fun lines lines' haligned hchanged => ?_⟩
  have hnot := haligned.changed hchanged
  rw [← guarded_iff]
  constructor
  · intro hrejected
    have hread := (rejected_iff.mp hrejected).1
    exact ⟨fun crops hcrops => absurd ⟨crops, hcrops⟩ hread, fun _ => hrejected⟩
  · exact fun hguarded => hguarded.rejected hnot

end Load

/-! ## A file of two frames -/

def twoFrameMedia : MediaMetadata := .probed 1920 1080 30 (2 / 30) "h264" 0 none

/-- `float`, of no text. -/
def floatOfNone (_ : String) : Option (FloatValue ℚ) := none

def twoObservations : List (RawFrameObservation ℚ) :=
  [⟨0, 0, none, .detectionSkipped, none⟩, ⟨1, 33, none, .detectionSkipped, none⟩]

def twoCrops : List (CropRect ℚ) := [⟨0, 0, 1 / 2, 1 / 3⟩, ⟨1 / 4, 0, 1 / 2, 1 / 3⟩]

def twoLines : List (JsonLine ℚ) :=
  (twoObservations.zip twoCrops).map fun (observation, crop) =>
    .ok (cropPathRecord observation crop).sortKeys

/-- The clock of the two frames. -/
theorem twoFrameMedia_clock : twoFrameMedia.expectedFrameCount = 2 ∧
    twoFrameMedia.timestampForFrame 0 = .ok 0 ∧ twoFrameMedia.timestampForFrame 1 = .ok 33 :=
  ⟨by decide +kernel, by decide +kernel, by decide +kernel⟩

theorem aligned_twoLines : Aligned twoFrameMedia twoLines := by
  refine ⟨twoFrameMedia_clock.1.symm, fun index line hline => ?_⟩
  match index with
  | 0 =>
    obtain rfl := Option.some.inj hline
    refine ⟨_, rfl, by decide, ⟨0, twoFrameMedia_clock.2.1, by decide⟩, ?_⟩
    simp only [cropKeys, List.forall_mem_cons, List.not_mem_nil, false_imp_iff, implies_true,
      and_true]
    exact ⟨⟨_, rfl, rfl⟩, ⟨_, rfl, rfl⟩, ⟨_, rfl, rfl⟩, _, rfl, rfl⟩
  | 1 =>
    obtain rfl := Option.some.inj hline
    refine ⟨_, rfl, by decide, ⟨33, twoFrameMedia_clock.2.2, by decide⟩, ?_⟩
    simp only [cropKeys, List.forall_mem_cons, List.not_mem_nil, false_imp_iff, implies_true,
      and_true]
    exact ⟨⟨_, rfl, rfl⟩, ⟨_, rfl, rfl⟩, ⟨_, rfl, rfl⟩, _, rfl, rfl⟩
  | _ + 2 => cases hline

/-- What is written of two frames is read back, and rejected in the other order. -/
theorem cropPath_file_twoFrames :
    (∃ records, writeCropPath twoObservations twoCrops = .ok records ∧
      loadCropPath floatOfNone twoFrameMedia (records.map .ok) = .ok (twoCrops.map readCrop)) ∧
    Rejected floatOfNone twoFrameMedia twoLines.reverse := by
  obtain ⟨hread, -, hchanged⟩ := cropPath_file floatOfNone twoFrameMedia
  have hfirst : ∀ record, twoLines.reverse[0]? = some (.ok record) →
      ¬ InPlace twoFrameMedia 0 record := by
    rintro record ⟨⟩ ⟨hindex, -⟩
    revert hindex
    decide
  have hnone : ∀ n, 0 < n → ¬ Accepted floatOfNone twoFrameMedia twoLines.reverse n := by
    intro n hn haccepted
    obtain ⟨crop, record, hrecord, hplace, -⟩ := haccepted 0 _ hn rfl
    exact hfirst record (congrArg some hrecord) hplace
  refine ⟨hread twoObservations twoCrops ?_ rfl twoFrameMedia_clock.1.symm,
    (hchanged twoLines twoLines.reverse aligned_twoLines (.inr (.inr (.inr ?_)))).mpr ⟨?_, ?_⟩⟩
  · intro index observation h
    match index with
    | 0 =>
      obtain rfl := Option.some.inj h
      exact ⟨rfl, twoFrameMedia_clock.2.1⟩
    | 1 =>
      obtain rfl := Option.some.inj h
      exact ⟨rfl, twoFrameMedia_clock.2.2⟩
    | _ + 2 => cases h
  · exact ⟨0, _, rfl, by decide⟩
  · intro index line hline haccepted
    match index with
    | 0 =>
      obtain rfl := Option.some.inj hline
      exact ⟨_, rfl, fun hplace => absurd hplace (hfirst _ rfl)⟩
    | index + 1 => exact absurd haccepted (hnone _ (Nat.succ_pos index))
  · exact fun haccepted => absurd haccepted (hnone _ (by decide))

/-- **A file that is cut off** inside its last line is not rejected with a terminal error. -/
theorem cropPath_cutOff :
    loadCropPath floatOfNone twoFrameMedia (twoLines.take 1 ++ [.error .malformed]) =
      .error (.other "JSONDecodeError") ∧
    Changed twoLines (twoLines.take 1 ++ [.error .malformed]) ∧
    ¬ Guarded floatOfNone twoFrameMedia (twoLines.take 1 ++ [.error .malformed]) := by
  have hload : loadCropPath floatOfNone twoFrameMedia (twoLines.take 1 ++ [.error .malformed]) =
      .error (.other "JSONDecodeError") := by
    decide +kernel
  have hchanged : Changed twoLines (twoLines.take 1 ++ [.error .malformed]) :=
    .inr (.inl ⟨.malformed, by simp⟩)
  refine ⟨hload, hchanged, fun h => ?_⟩
  obtain hrejected | hrejected := h.rejected (aligned_twoLines.changed hchanged)
  · rw [hload] at hrejected
    exact absurd (Except.error.inj hrejected) (by decide)
  · rw [hload] at hrejected
    exact absurd (Except.error.inj hrejected) (by decide)

end ProcessingPipeline

end BoulderFrame
