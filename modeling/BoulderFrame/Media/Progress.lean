import BoulderFrame.Library.Runs
import BoulderFrame.Media.Process

/-!
# The progress of the frames

A rendering that stands still shows as a run of frames that do not change. Two reports find such
runs: one from the checksums of the frames, where a run is of equal ones, and one from the
differences between neighbouring frames, where a run is of small ones and has a least length. Both
loops go over the gaps between the frames, and report the frames at both ends of a run.

## Main definitions

* `stepRun`, `closeRun`: one iteration of both loops, and the end of a run
* `outputFrameProgress`, `nearStaticIntervals`: the two reports
* `IsFrameRun`: a maximal run of frames, each joined to the next one
* `ExactRuns`: intervals are exactly the maximal runs of some length

## Main results

* `foldl_stepRun`: what the loop has found after some gaps
* `frameProgress_exact`: both reports are exact
-/

namespace BoulderFrame

/-- `OutputFrameProgress` -/
structure OutputFrameProgress where
  frameCount : ℕ
  repeatedFrameIntervals : List (ℕ × ℕ)

/-- `TemporalFrameProgress` -/
structure TemporalFrameProgress where
  frameCount : ℕ
  nearStaticIntervals : List (ℕ × ℕ)

/-- The number of frames in inclusive intervals. -/
def intervalFrames (intervals : List (ℕ × ℕ)) : ℤ :=
  (intervals.map fun interval => (interval.2 : ℤ) - interval.1 + 1).sum

def OutputFrameProgress.repeatedFrameCount (progress : OutputFrameProgress) : ℤ :=
  intervalFrames progress.repeatedFrameIntervals

def TemporalFrameProgress.nearStaticFrameCount (progress : TemporalFrameProgress) : ℤ :=
  intervalFrames progress.nearStaticIntervals

/-! ## The loops -/

/-- The locals of the loops: the intervals found, and the start of the open one. -/
structure RunLocals where
  intervals : List (ℕ × ℕ)
  start : Option ℕ

/-- The open run, if any, ends with the frame `last` and is reported if it is long enough. -/
def closeRun (long : ℕ → Bool) (st : RunLocals) (last : ℕ) : List (ℕ × ℕ) :=
  match st.start with
  | none => st.intervals
  | some start =>
    if long (last + 1 - start) then st.intervals ++ [(start, last)] else st.intervals

/-- The frame at an index is joined to the one before it, or not. -/
def stepRun (long : ℕ → Bool) (joined : Bool) (st : RunLocals) (index : ℕ) : RunLocals :=
  if joined then { st with start := some (st.start.getD (index - 1)) }
  else ⟨closeRun long st (index - 1), none⟩

/-- `str.strip` -/
def strip (text : List Char) : List Char := (text.dropWhile isSpace).rdropWhile isSpace

/-- The checksums of a report. -/
def frameHashes (report : String) : Except Raised (List (List Char)) :=
  ((splitLines report).filter fun line => !(line.isEmpty || line.head? == some '#')).mapM
    fun line =>
      let fields := line.splitOn ','
      if fields.length ≠ 6 then
        .error (.valueError "FFmpeg frame checksum report is invalid")
      else .ok (strip (fields.getLastD []))

/-- The intervals of equal checksums. -/
def repeatedIntervals {α : Type} [DecidableEq α] (hashes : List α) : List (ℕ × ℕ) :=
  let st := (List.range' 1 (hashes.length - 1)).foldl (fun st index =>
    stepRun (fun _ => true) (decide (hashes[index]? = hashes[index - 1]?)) st index) ⟨[], none⟩
  closeRun (fun _ => true) st (hashes.length - 1)

/-- `_output_frame_progress` -/
def outputFrameProgress (report : String) : Except Raised OutputFrameProgress := do
  let hashes ← frameHashes report
  return ⟨hashes.length, repeatedIntervals hashes⟩

/-- `_near_static_intervals` -/
def nearStaticIntervals {K : Type} [Zero K] [LinearOrder K] (differences : List K) (threshold : K)
    (minimumFrames : ℤ) : Except Raised (List (ℕ × ℕ)) :=
  if threshold < 0 ∨ minimumFrames < 2 then
    .error (.valueError "temporal progress thresholds are invalid")
  else
    let long : ℕ → Bool := fun frames => decide (minimumFrames ≤ frames)
    let st := (differences.zipIdx 1).foldl (fun st entry =>
      stepRun long (decide (entry.1 ≤ threshold)) st entry.2) ⟨[], none⟩
    .ok (closeRun long st differences.length)

/-! ## What the loops find -/

section Loop

variable (long : ℕ → Bool) (joined : ℕ → Prop) [DecidablePred joined]

/-- The run of gaps is long enough, as a run of frames. -/
def longRun (run : ℕ × ℕ) : Bool := long (run.2 + 1 - run.1)

/-- The loop after some gaps. -/
def found (n : ℕ) : RunLocals :=
  ⟨(Runs.closedRuns joined n).filter (longRun long), Runs.openRun joined n⟩

theorem closeRun_found (n : ℕ) :
    closeRun long (found long joined n) n = (Runs.runs joined n).filter (longRun long) := by
  unfold closeRun found Runs.runs
  dsimp only
  cases Runs.openRun joined n with
  | none => simp
  | some start =>
    rw [List.filter_append, Option.toList_some, List.map_singleton]
    dsimp only
    have hrun : longRun long (start, n) = long (n + 1 - start) := rfl
    by_cases hlong : long (n + 1 - start) = true
    · rw [if_pos hlong, List.filter_cons_of_pos (hrun.trans hlong), List.filter_nil]
    · rw [if_neg hlong, List.filter_cons_of_neg (hrun ▸ hlong), List.filter_nil, List.append_nil]

/-- **One gap** keeps what the loop has found. -/
theorem stepRun_found (n : ℕ) :
    stepRun long (decide (joined n)) (found long joined n) (n + 1) = found long joined (n + 1) := by
  unfold stepRun
  rw [Nat.add_sub_cancel, closeRun_found]
  by_cases hjoined : joined n
  · simp only [hjoined, decide_true, if_true, found, Runs.openRun, Runs.closedRuns]
  · simp only [hjoined, decide_false, Bool.false_eq_true, if_false, found, Runs.openRun,
      Runs.closedRuns, Runs.runs]

/-- **The loop** finds the runs. -/
theorem foldl_stepRun (n : ℕ) :
    (List.range' 1 n).foldl
        (fun st index => stepRun long (decide (joined (index - 1))) st index) ⟨[], none⟩ =
      found long joined n := by
  induction n with
  | zero => rfl
  | succ n ih =>
    rw [List.range'_1_concat, List.foldl_append, ih, List.foldl_cons, List.foldl_nil,
      Nat.add_comm 1 n, Nat.add_sub_cancel]
    exact stepRun_found long joined n

end Loop

/-! ## Runs of frames -/

/-- The frames from `start` to `stop` are a maximal run of frames that are joined each to the
next. -/
structure IsFrameRun (joined : ℕ → Prop) (frameCount start stop : ℕ) : Prop where
  lt : start < stop
  le : stop < frameCount
  joins : ∀ k, start ≤ k → k < stop → joined k
  first : start = 0 ∨ ¬ joined (start - 1)
  last : stop + 1 = frameCount ∨ ¬ joined stop

theorem isFrameRun_iff {joined : ℕ → Prop} {frameCount start stop : ℕ} :
    IsFrameRun joined frameCount start stop ↔
      Runs.IsRun joined (frameCount - 1) start stop := by
  constructor
  · intro h
    have := h.le
    have hlt := h.lt
    exact ⟨h.lt, by omega, h.joins, h.first, h.last.imp_left (by omega)⟩
  · intro h
    have := h.le
    have hlt := h.lt
    exact ⟨h.lt, by omega, h.holds, h.start, h.stop.imp_left (by omega)⟩

/-- Intervals of frames are exactly the maximal runs of enough frames, in order and apart; the
number of frames in them is that of the frames of such runs. -/
structure ExactRuns (joined : ℕ → Prop) (long : ℕ → Bool) (frameCount : ℕ)
    (intervals : List (ℕ × ℕ)) : Prop where
  exact : ∀ start stop, (start, stop) ∈ intervals ↔
    IsFrameRun joined frameCount start stop ∧ long (stop - start + 1) = true
  increasing : intervals.Pairwise fun a b => a.2 < b.1
  within : ∀ interval ∈ intervals, interval.1 < interval.2 ∧ interval.2 < frameCount
  count : intervalFrames intervals = ({k | ∃ start stop, IsFrameRun joined frameCount start stop ∧
    long (stop - start + 1) = true ∧ start ≤ k ∧ k ≤ stop}.ncard : ℕ)
  count_le : intervalFrames intervals ≤ frameCount

section Exact

variable {long : ℕ → Bool} {joined : ℕ → Prop} [DecidablePred joined] {frameCount : ℕ}

theorem mem_longRuns (start stop : ℕ) :
    (start, stop) ∈ (Runs.runs joined (frameCount - 1)).filter (longRun long) ↔
      IsFrameRun joined frameCount start stop ∧ long (stop - start + 1) = true := by
  rw [List.mem_filter, Runs.mem_runs, isFrameRun_iff]
  refine and_congr_right fun hrun => ?_
  rw [longRun, Nat.sub_add_comm hrun.lt.le]

/-- The frames of inclusive intervals, counted one interval after the other. -/
theorem intervalFrames_eq {intervals : List (ℕ × ℕ)}
    (h : intervals.Pairwise fun a b => a.2 < b.1)
    (hwithin : ∀ interval ∈ intervals, interval.1 < interval.2 ∧ interval.2 < frameCount) :
    intervalFrames intervals =
      (((Finset.range frameCount).filter fun k =>
        ∃ interval ∈ intervals, interval.1 ≤ k ∧ k ≤ interval.2).card : ℕ) := by
  rw [← Runs.sum_lengths h fun interval hmem =>
    ⟨(hwithin interval hmem).1.le, (hwithin interval hmem).2⟩, intervalFrames, Nat.cast_list_sum,
    List.map_map]
  refine congrArg List.sum (List.map_congr_left fun interval hmem => ?_)
  have := (hwithin interval hmem).1
  dsimp only [Function.comp_apply]
  omega

variable (long joined frameCount) in
/-- **The runs of a pass** that are long enough are exact. -/
theorem exactRuns_runs :
    ExactRuns joined long frameCount
      ((Runs.runs joined (frameCount - 1)).filter (longRun long)) := by
  have hincreasing := (Runs.pairwise_runs joined (frameCount - 1)).filter (longRun long)
  have hwithin : ∀ interval ∈ (Runs.runs joined (frameCount - 1)).filter (longRun long),
      interval.1 < interval.2 ∧ interval.2 < frameCount := by
    rintro ⟨start, stop⟩ hmem
    obtain ⟨hrun, -⟩ := (mem_longRuns start stop).mp hmem
    exact ⟨hrun.lt, hrun.le⟩
  have hcount := intervalFrames_eq hincreasing hwithin
  refine ⟨mem_longRuns, hincreasing, hwithin, hcount.trans ?_, ?_⟩
  · rw [← Set.ncard_coe_finset]
    congr 2
    ext k
    simp only [Finset.coe_filter, Finset.mem_range, Set.mem_ofPred_eq, Prod.exists, mem_longRuns,
      and_assoc]
    constructor
    · rintro ⟨-, hrest⟩
      exact hrest
    · rintro ⟨start, stop, hrun, hlong, hle, hle'⟩
      exact ⟨hle'.trans_lt hrun.le, start, stop, hrun, hlong, hle, hle'⟩
  · rw [hcount]
    exact_mod_cast (Finset.card_filter_le _ _).trans_eq (Finset.card_range frameCount)

end Exact

/-! ## The two reports -/

theorem repeatedIntervals_eq {α : Type} [DecidableEq α] (hashes : List α) :
    repeatedIntervals hashes =
      (Runs.runs (fun k => hashes[k + 1]? = hashes[k]?) (hashes.length - 1)).filter
        (longRun fun _ => true) := by
  have hloop := foldl_stepRun (fun _ => true) (fun k => hashes[k + 1]? = hashes[k]?)
    (hashes.length - 1)
  rw [← closeRun_found, ← hloop, repeatedIntervals]
  refine congrArg (closeRun _ · _) ?_
  refine List.foldl_ext _ _ _ fun st index hindex => ?_
  have hpos := (List.mem_range'_1.mp hindex).1
  rw [Nat.sub_add_cancel hpos]

/-- **The repeated frames** are exactly the maximal runs of at least two equal checksums. -/
theorem exactRuns_repeated {α : Type} [DecidableEq α] (hashes : List α) :
    ExactRuns (fun k => hashes[k + 1]? = hashes[k]?) (fun _ => true) hashes.length
      (repeatedIntervals hashes) := by
  rw [repeatedIntervals_eq]
  exact exactRuns_runs _ _ _

section NearStatic

variable {K : Type} [Zero K] [LinearOrder K]

theorem nearStaticIntervals_eq {differences : List K} {threshold : K} {minimumFrames : ℤ}
    (hvalid : ¬ (threshold < 0 ∨ minimumFrames < 2)) :
    nearStaticIntervals differences threshold minimumFrames =
      .ok ((Runs.runs (fun k => ∃ d ∈ differences[k]?, d ≤ threshold) differences.length).filter
        (longRun fun frames => decide (minimumFrames ≤ frames))) := by
  have hloop := foldl_stepRun (fun frames => decide (minimumFrames ≤ frames))
    (fun k => ∃ d ∈ differences[k]?, d ≤ threshold) differences.length
  rw [← List.zipIdx_map_snd 1, List.foldl_map] at hloop
  rw [nearStaticIntervals, if_neg hvalid, ← closeRun_found, ← hloop]
  refine congrArg (fun st => Except.ok (closeRun _ st _)) (List.foldl_ext _ _ _ ?_)
  rintro st ⟨difference, index⟩ hentry
  have hget := (List.mem_zipIdx_iff_le_and_getElem?_sub.mp hentry).2
  simp only [hget, Option.mem_some_iff, exists_eq_left']

/-- **The near-static frames** are exactly the maximal runs of enough frames with small
differences. -/
theorem exactRuns_nearStatic {differences : List K} {threshold : K} {minimumFrames : ℤ}
    {frameCount : ℕ} (hcount : differences.length = frameCount - 1) (hthreshold : 0 ≤ threshold)
    (hminimum : 2 ≤ minimumFrames) :
    ∃ intervals, nearStaticIntervals differences threshold minimumFrames = .ok intervals ∧
      ExactRuns (fun k => ∃ d ∈ differences[k]?, d ≤ threshold)
        (fun frames => decide (minimumFrames ≤ frames)) frameCount intervals := by
  have hvalid : ¬ (threshold < 0 ∨ minimumFrames < 2) :=
    not_or.mpr ⟨hthreshold.not_gt, hminimum.not_gt⟩
  refine ⟨_, nearStaticIntervals_eq hvalid, ?_⟩
  rw [hcount]
  exact exactRuns_runs _ _ _

end NearStatic

section Reports

variable {K : Type} [Zero K] [LinearOrder K]

/-- **Both reports are exact**: that of small differences, with thresholds that are not refused,
and that of equal checksums, for any list of them and as they are read from a report. -/
theorem frameProgress_exact (differences : List K) (threshold : K) (minimumFrames : ℤ) :
    (threshold < 0 ∨ minimumFrames < 2 →
      nearStaticIntervals differences threshold minimumFrames =
        .error (.valueError "temporal progress thresholds are invalid")) ∧
      (0 ≤ threshold → 2 ≤ minimumFrames → ∀ frameCount, differences.length = frameCount - 1 →
        ∃ intervals, nearStaticIntervals differences threshold minimumFrames = .ok intervals ∧
          ExactRuns (fun k => ∃ d ∈ differences[k]?, d ≤ threshold)
            (fun frames => decide (minimumFrames ≤ frames)) frameCount intervals ∧
          (TemporalFrameProgress.mk frameCount intervals).nearStaticFrameCount ≤ frameCount) ∧
      (∀ {α : Type} [DecidableEq α] (hashes : List α),
        ExactRuns (fun k => hashes[k + 1]? = hashes[k]?) (fun _ => true) hashes.length
          (repeatedIntervals hashes)) ∧
      ∀ report hashes, frameHashes report = .ok hashes →
        ∃ progress, outputFrameProgress report = .ok progress ∧
          progress.frameCount = hashes.length ∧
          progress.repeatedFrameIntervals = repeatedIntervals hashes ∧
          progress.repeatedFrameCount ≤ progress.frameCount := by
  refine ⟨fun hinvalid => if_pos hinvalid, fun hthreshold hminimum frameCount hcount => ?_,
    exactRuns_repeated, fun report hashes hhashes => ?_⟩
  · obtain ⟨intervals, hintervals, hexact⟩ := exactRuns_nearStatic hcount hthreshold hminimum
    exact ⟨intervals, hintervals, hexact, hexact.count_le⟩
  · refine ⟨⟨hashes.length, repeatedIntervals hashes⟩, ?_, rfl, rfl,
      (exactRuns_repeated hashes).count_le⟩
    rw [outputFrameProgress, hhashes]
    rfl

end Reports

/-- The differences of a shot that stands still for five of its nine frames. -/
def stillShot : List ℚ := [2, 1 / 100, 2 / 100, 3 / 100, 4 / 100, 2, 1 / 100, 2 / 100]

theorem frameProgress_exact_stillShot :
    ∃ intervals, nearStaticIntervals stillShot (5 / 100) 4 = .ok intervals ∧
      ExactRuns (fun k => ∃ d ∈ stillShot[k]?, d ≤ 5 / 100)
        (fun frames => decide ((4 : ℤ) ≤ frames)) 9 intervals := by
  obtain ⟨intervals, hintervals, hexact, -⟩ := (frameProgress_exact stillShot (5 / 100) 4).2.1
    (by norm_num) (by norm_num) 9 rfl
  exact ⟨intervals, hintervals, hexact⟩

example : nearStaticIntervals stillShot (5 / 100) 4 = .ok [(1, 5)] := by decide +kernel

/-- A threshold or a length may be refused. -/
theorem nearStaticIntervals_refused :
    ¬ ∀ (differences : List ℚ) (threshold : ℚ) (minimumFrames : ℤ),
      ∃ intervals, nearStaticIntervals differences threshold minimumFrames = .ok intervals := by
  intro h
  obtain ⟨intervals, hintervals⟩ := h [] (-1) 2
  rw [nearStaticIntervals, if_pos (.inl (by norm_num))] at hintervals
  cases hintervals

end BoulderFrame
