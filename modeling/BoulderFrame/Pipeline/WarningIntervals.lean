import BoulderFrame.Library.Runs
import BoulderFrame.Pipeline.ReviewManifest
import Mathlib.Data.List.Perm.Basic
import Mathlib.Data.Set.List
import Mathlib.Data.String.Basic

/-!
# The warning intervals of a trace

The loop over the records keeps the labels that are active with their starts. Seen through one label
it is the pass that finds the maximal runs of that label, whatever the other labels do.

## Main definitions

* `Warned`: a record carries a warning
* `spanOf`: the interval of a run of records
* `Encodes`: intervals are the run-length encoding of the warnings of a trace

## Main results

* `foldl_stepIntervals`: what the loop has found after some records, label by label
* `reviewWarningIntervals_encodes`: the intervals of a trace on an increasing clock encode it
-/

namespace BoulderFrame

namespace ProcessingPipeline

variable {K : Type} [Zero K] [DecidableEq K]

/-! ## Labels -/

/-- The warnings of the record at an index. -/
def warningsAt (phase : String) (records : List (Value K)) (k : ℕ) : List (String × String) :=
  (records[k]?.map (reviewWarnings phase)).getD []

/-- The record at an index carries a warning. -/
def Warned (phase : String) (records : List (Value K)) (label : String) (k : ℕ) : Prop :=
  label ∈ (warningsAt phase records k).map Prod.fst

instance (phase : String) (records : List (Value K)) (label : String) :
    DecidablePred (Warned phase records label) := fun _ =>
  inferInstanceAs (Decidable (_ ∈ _))

/-- The text of a warning of the record at an index. -/
def detailAt (phase : String) (records : List (Value K)) (label : String) (k : ℕ) : String :=
  ((warningsAt phase records k).lookup label).getD ""

theorem lookup_warnings (phase : String) (records : List (Value K)) (label : String) (k : ℕ) :
    (warningsAt phase records k).lookup label =
      if Warned phase records label k then some (detailAt phase records label k) else none := by
  split_ifs with hwarned
  · cases hlookup : (warningsAt phase records k).lookup label with
    | some detail => rw [detailAt, hlookup, Option.getD_some]
    | none =>
      obtain ⟨e, he, rfl⟩ := List.mem_map.mp hwarned
      exact absurd (List.lookup_eq_none_iff.mp hlookup e he) (by simp)
  · refine List.lookup_eq_none_iff.mpr fun e he => ?_
    rw [bne_iff_ne]
    rintro rfl
    exact hwarned (List.mem_map_of_mem he)

/-- An interval with its times. -/
structure WarningSpan where
  startMs : ℤ
  endMs : ℤ
  label : String
  detail : String

def WarningSpan.toInterval (span : WarningSpan) : ReviewInterval K :=
  ⟨.int span.startMs, .int span.endMs, span.label, span.detail⟩

/-- The time of a record. -/
def timeAt (times : List ℤ) (k : ℕ) : ℤ := times.getD k 0

/-- The interval of a run of records: from the time of its first one to that of the first one after
it, or of the last one of the trace. -/
def spanOf (phase : String) (records : List (Value K)) (times : List ℤ) (label : String)
    (run : ℕ × ℕ) : WarningSpan where
  startMs := timeAt times run.1
  endMs := Runs.closing (timeAt times) records.length run.2
  label := label
  detail := detailAt phase records label run.1

/-- The run-length encoding of the warnings of a trace. -/
structure Encodes (phase : String) (records : List (Value K)) (times : List ℤ)
    (spans : List WarningSpan) : Prop where
  /-- One interval for each maximal run of records with a label. -/
  runs : ∀ label, ∃ runs : List (ℕ × ℕ), runs.Nodup ∧
    (∀ i j, (i, j) ∈ runs ↔ Runs.IsRun (Warned phase records label) records.length i j) ∧
    (spans.filter fun span => decide (span.label = label)) =
      runs.map (spanOf phase records times label)
  disjoint : spans.Pairwise fun a b => a.label = b.label → a.endMs ≤ b.startMs
  /-- The time of a record lies in an interval of each of its warnings. -/
  covers : ∀ label k t, Warned phase records label k → times[k]? = some t →
    ∃ span ∈ spans, span.label = label ∧ span.startMs ≤ t ∧ t ≤ span.endMs
  /-- Before the end of an interval there are only records with its warning. -/
  inside : ∀ span ∈ spans, ∀ k t, times[k]? = some t → span.startMs ≤ t → t < span.endMs →
    Warned phase records span.label k
  sorted : spans.Pairwise fun a b =>
    a.startMs < b.startMs ∨ a.startMs = b.startMs ∧ a.label ≤ b.label

/-- Among entries with different keys at most one has a key. -/
theorem filter_key {α : Type} {l : List (String × α)} (hkeys : (l.map Prod.fst).Nodup)
    (key : String) :
    (l.filter fun e => decide (e.1 = key)) = (l.lookup key).toList.map fun a => (key, a) := by
  induction l with
  | nil => rfl
  | cons e l ih =>
    rw [List.map_cons, List.nodup_cons] at hkeys
    by_cases hkey : e.1 = key
    · subst hkey
      have hrest : (l.filter fun e' => decide (e'.1 = e.1)) = [] :=
        List.filter_eq_nil_iff.mpr fun e' he' heq =>
          hkeys.1 (List.mem_map.mpr ⟨e', he', of_decide_eq_true heq⟩)
      rw [List.filter_cons, if_pos (decide_eq_true rfl), hrest, List.lookup_cons, beq_self_eq_true]
      rfl
    · rw [List.filter_cons, if_neg (by simpa using hkey), ih hkeys.2, List.lookup_cons,
        beq_false_of_ne (Ne.symm hkey)]

/-- A filter by key keeps or drops all entries of one key. -/
theorem filter_of_key {α : Type} (q : String → Bool) (l : List (String × α)) (key : String) :
    ((l.filter fun e => q e.1).filter fun e => decide (e.1 = key)) =
      if q key then l.filter fun e => decide (e.1 = key) else [] := by
  rw [List.filter_comm]
  split_ifs with hkey
  · refine List.filter_eq_self.mpr fun e he => ?_
    rwa [of_decide_eq_true (List.mem_filter.mp he).2]
  · refine List.filter_eq_nil_iff.mpr fun e he => ?_
    rwa [of_decide_eq_true (List.mem_filter.mp he).2]

/-- The labels of a record differ. -/
theorem nodup_reviewWarnings (phase : String) (record : Value K) :
    ((reviewWarnings phase record).map Prod.fst).Nodup := by
  have hwarning : ∀ (active : Bool) (label detail : String),
      ((if active then [(label, detail)] else []).map Prod.fst).Sublist [label] := by
    rintro (_ | _) label detail
    · exact List.nil_sublist _
    · exact List.Sublist.refl _
  unfold reviewWarnings
  dsimp only
  by_cases hdetection : phase = "detection"
  · rw [if_pos hdetection]
    exact (hwarning _ _ _).nodup (List.nodup_singleton _)
  rw [if_neg hdetection]
  by_cases hframing : phase = "framing"
  · rw [if_pos hframing]
    simp only [List.map_append]
    refine (((((hwarning _ _ _).append (hwarning _ _ _)).append (hwarning _ _ _)).append
      (hwarning _ _ _)).append (hwarning _ _ _)).nodup ?_
    decide
  · rw [if_neg hframing]
    exact List.nodup_nil

/-! ## The loop, label by label -/

section Loop

variable (phase : String) (records : List (Value K)) (times : List ℤ)

/-- An entry of the active labels: the run that starts at an index. -/
def activeAt (label : String) (i : ℕ) : String × Value K × String :=
  (label, .int (timeAt times i), detailAt phase records label i)

/-- The loop has found the runs among the first records. -/
structure Follows (n : ℕ) (st : IntervalState K) : Prop where
  active : ∀ label, (st.active.filter fun a => decide (a.1 = label)) =
    (Runs.openRun (Warned phase records label) n).toList.map (activeAt phase records times label)
  intervals : ∀ label, (st.intervals.filter fun i => decide (i.label = label)) =
    (Runs.closedRuns (Warned phase records label) n).map fun run =>
      (spanOf phase records times label run).toInterval
  endMs : n ≠ 0 → st.endMs = .int (timeAt times (n - 1))

variable {phase records times} {n : ℕ} {st : IntervalState K}

theorem Follows.mem_active (h : Follows phase records times n st) (label : String) :
    label ∈ st.active.map Prod.fst ↔ Runs.openRun (Warned phase records label) n ≠ none := by
  have hfilter := h.active label
  rw [List.mem_map]
  constructor
  · rintro ⟨a, ha, rfl⟩ hnone
    rw [hnone, Option.toList_none, List.map_nil, List.filter_eq_nil_iff] at hfilter
    exact hfilter a ha (decide_eq_true rfl)
  · intro hopen
    obtain ⟨i, hi⟩ := Option.ne_none_iff_exists'.mp hopen
    rw [hi, Option.toList_some, List.map_singleton] at hfilter
    have hmem := hfilter.symm ▸ List.mem_singleton_self (activeAt phase records times label i)
    exact ⟨_, (List.mem_filter.mp hmem).1, rfl⟩

/-- The records have the times of the clock. -/
def Timed (records : List (Value K)) (times : List ℤ) : Prop :=
  records.map (·.get "timestamp_ms") = times.map Value.int

omit [Zero K] [DecidableEq K] in
theorem Timed.get {record : Value K} (h : Timed records times) (hn : records[n]? = some record) :
    times[n]? = some (timeAt times n) ∧ record.get "timestamp_ms" = .int (timeAt times n) := by
  have hget := congrArg (·[n]?) h
  rw [List.getElem?_map, List.getElem?_map, hn, Option.map_some] at hget
  obtain ⟨t, ht, hrecord⟩ := Option.map_eq_some_iff.mp hget.symm
  have htime : timeAt times n = t := by rw [timeAt, List.getD_eq_getElem?_getD, ht, Option.getD_some]
  rw [htime]
  exact ⟨ht, hrecord.symm⟩

/-- **One record** keeps what the loop has found. -/
theorem Follows.step {record : Value K} (h : Follows phase records times n st)
    (hclock : Timed records times) (hn : records[n]? = some record) :
    Follows phase records times (n + 1) (stepIntervals phase st record) := by
  have hcurrent : warningsAt phase records n = reviewWarnings phase record := by
    rw [warningsAt, hn, Option.map_some, Option.getD_some]
  have hkeys := nodup_reviewWarnings phase record
  rw [← hcurrent] at hkeys
  have hlength : n < records.length := (List.getElem?_eq_some_iff.mp hn).1
  simp only [stepIntervals, (hclock.get hn).2, ← hcurrent]
  refine ⟨fun label => ?_, fun label => ?_, fun _ => rfl⟩
  · have hstarted : (((warningsAt phase records n).filter fun c =>
        decide (c.1 ∉ st.active.map Prod.fst)).filter fun c => decide (c.1 = label)) =
          if Runs.openRun (Warned phase records label) n = none then
            ((warningsAt phase records n).lookup label).toList.map fun detail => (label, detail)
          else [] := by
      rw [filter_of_key (fun key => decide (key ∉ st.active.map Prod.fst)), filter_key hkeys]
      simp only [decide_eq_true_eq, h.mem_active, not_not]
    rw [advanceIntervals, List.filter_append, filter_of_key (fun key => decide (key ∈
      (warningsAt phase records n).map Prod.fst)), h.active label, List.filter_map]
    change _ ++ List.map _ (((warningsAt phase records n).filter fun c =>
        decide (c.1 ∉ st.active.map Prod.fst)).filter fun c => decide (c.1 = label)) = _
    rw [hstarted, Runs.openRun, lookup_warnings]
    by_cases hwarned : Warned phase records label n
    · have hmem : label ∈ (warningsAt phase records n).map Prod.fst := hwarned
      rw [if_pos (decide_eq_true hmem), if_pos hwarned, if_pos hwarned]
      cases hopen : Runs.openRun (Warned phase records label) n with
      | none => rfl
      | some i => rfl
    · have hmem : label ∉ (warningsAt phase records n).map Prod.fst := hwarned
      rw [if_neg (mt of_decide_eq_true hmem), if_neg hwarned, if_neg hwarned]
      split_ifs <;> rfl
  · rw [advanceIntervals, List.filter_append, List.filter_map, h.intervals label]
    change _ ++ List.map _ ((st.active.filter fun a => decide (a.1 ∉
      (warningsAt phase records n).map Prod.fst)).filter fun a => decide (a.1 = label)) = _
    rw [filter_of_key (fun key => decide (key ∉ (warningsAt phase records n).map Prod.fst)),
      h.active label, Runs.closedRuns]
    by_cases hwarned : Warned phase records label n
    · have hmem : label ∈ (warningsAt phase records n).map Prod.fst := hwarned
      rw [if_neg (mt of_decide_eq_true (not_not.mpr hmem)), if_pos hwarned, List.map_nil, List.append_nil]
    · have hmem : label ∉ (warningsAt phase records n).map Prod.fst := hwarned
      rw [if_pos (decide_eq_true hmem), if_neg hwarned, List.map_append, List.map_map,
        List.map_map]
      refine congrArg _ (List.map_congr_left fun i _ => ?_)
      simp only [Function.comp_apply, activeAt, spanOf, WarningSpan.toInterval,
        Runs.closing_of_lt hlength]

variable (phase) in
/-- **The loop** finds the runs of every label. -/
theorem foldl_stepIntervals (hclock : Timed records times) (hn : n ≤ records.length) :
    Follows phase records times n
      ((records.take n).foldl (stepIntervals phase) ⟨[], [], .int 0⟩) := by
  induction n with
  | zero => exact ⟨fun _ => rfl, fun _ => rfl, fun h => absurd rfl h⟩
  | succ n ih =>
    have hlt : n < records.length := hn
    rw [List.take_succ_eq_append_getElem hlt, List.foldl_append]
    exact (ih hlt.le).step hclock (List.getElem?_eq_getElem hlt)

variable (phase) in
/-- The intervals of a label are those of its runs. -/
theorem filter_collectIntervals (hclock : Timed records times) (label : String) :
    ((collectIntervals records phase).filter fun i => decide (i.label = label)) =
      (Runs.runs (Warned phase records label) records.length).map fun run =>
        (spanOf phase records times label run).toInterval := by
  have h := foldl_stepIntervals phase hclock le_rfl
  rw [List.take_length] at h
  rw [collectIntervals, List.filter_append, h.intervals label, List.filter_map, Runs.runs,
    List.map_append]
  refine congrArg _ ?_
  change List.map _ (List.filter (fun a : String × Value K × String => decide (a.1 = label)) _) = _
  rw [h.active label, List.map_map, List.map_map]
  refine List.map_congr_left fun i hi => ?_
  have hne : records.length ≠ 0 := by
    have := (Runs.openRun_eq_some.mp (Option.mem_toList.mp hi)).1
    omega
  simp only [Function.comp_apply, activeAt, spanOf, WarningSpan.toInterval, Runs.closing_self,
    h.endMs hne]

end Loop

/-! ## The sorted list -/

section Sorted

variable {phase : String} {records : List (Value K)} {times : List ℤ}

/-- The order of the list. -/
def spanOrder (a b : WarningSpan) : Prop :=
  a.startMs < b.startMs ∨ a.startMs = b.startMs ∧ a.label ≤ b.label

instance : DecidableRel spanOrder := fun a b =>
  inferInstanceAs (Decidable (a.startMs < b.startMs ∨ a.startMs = b.startMs ∧ a.label ≤ b.label))

instance : Std.Total spanOrder where
  total a b := by
    rcases lt_trichotomy a.startMs b.startMs with h | h | h
    · exact .inl (.inl h)
    · exact (le_total a.label b.label).imp (fun hl => .inr ⟨h, hl⟩) fun hl => .inr ⟨h.symm, hl⟩
    · exact .inr (.inl h)

instance : IsTrans WarningSpan spanOrder where
  trans a b c := by
    rintro (hab | ⟨hab, hlab⟩) (hbc | ⟨hbc, hlbc⟩)
    · exact .inl (hab.trans hbc)
    · exact .inl (hab.trans_eq hbc)
    · exact .inl (hab.trans_lt hbc)
    · exact .inr ⟨hab.trans hbc, hlab.trans hlbc⟩

omit [Zero K] [DecidableEq K] in
theorem toInterval_injective : Function.Injective (WarningSpan.toInterval (K := K)) := by
  rintro ⟨a, b, label, detail⟩ ⟨a', b', label', detail'⟩ h
  simp only [WarningSpan.toInterval, ReviewInterval.mk.injEq, Value.int.injEq] at h
  obtain ⟨rfl, rfl, rfl, rfl⟩ := h
  rfl

variable (phase) in
/-- The loop returns intervals with times, those of a label from the runs of the label. -/
theorem exists_spans (hclock : Timed records times) : ∃ spans : List WarningSpan,
    collectIntervals records phase = spans.map (·.toInterval) ∧
      ∀ label, (spans.filter fun span => decide (span.label = label)) =
        (Runs.runs (Warned phase records label) records.length).map
          (spanOf phase records times label) := by
  have hfilter := filter_collectIntervals phase hclock
  have hrange : collectIntervals records phase ∈
      Set.range (List.map (WarningSpan.toInterval (K := K))) := by
    rw [Set.range_list_map]
    intro i hi
    have hmem : i ∈ (collectIntervals records phase).filter fun j => decide (j.label = i.label) :=
      List.mem_filter.mpr ⟨hi, decide_eq_true rfl⟩
    rw [hfilter i.label] at hmem
    obtain ⟨run, -, hrun⟩ := List.mem_map.mp hmem
    exact ⟨_, hrun⟩
  obtain ⟨spans, hspans⟩ := hrange
  refine ⟨spans, hspans.symm, fun label => ?_⟩
  have h := hfilter label
  rw [← hspans, List.filter_map] at h
  exact List.map_injective_iff.mpr toInterval_injective (by rw [List.map_map]; exact h)

/-- The sort orders the intervals by their times. -/
theorem reviewWarningIntervals_of_spans {spans : List WarningSpan}
    (h : collectIntervals records phase = spans.map (·.toInterval)) :
    reviewWarningIntervals records phase =
      .ok (((spans.insertionSort spanOrder).map (·.toInterval)).take 100) := by
  have hkeyed : ((collectIntervals records phase).mapM fun interval => do
      let start ← interval.startKey
      Except.ok (start, interval)) =
        .ok (spans.map fun span => (span.startMs, span.toInterval)) := by
    rw [h, Except.mapM_eq_ok, List.forall₂_map_left_iff, List.forall₂_map_right_iff,
      List.forall₂_same]
    exact fun span _ => rfl
  rw [reviewWarningIntervals, hkeyed, Except.ok_bind,
    ← List.map_insertionSort (r := spanOrder) (s := fun i j => intervalOrder i j = true)
      (fun span => (span.startMs, span.toInterval)), List.map_map]
  · rfl
  · intro a _ b _
    rw [intervalOrder, Bool.or_eq_true, Bool.and_eq_true, decide_eq_true_iff, decide_eq_true_iff,
      decide_eq_true_iff]
    rfl

omit [Zero K] [DecidableEq K] in
theorem Timed.length_eq (hclock : Timed records times) : times.length = records.length := by
  have h := congrArg List.length hclock
  rw [List.length_map, List.length_map] at h
  exact h.symm

omit [Zero K] [DecidableEq K] in
theorem Timed.strictMonoOn (hclock : Timed records times)
    (hincreasing : times.Pairwise (· < ·)) :
    StrictMonoOn (timeAt times) (Set.Iio records.length) := by
  intro i hi j hj hij
  rw [Set.mem_Iio, ← hclock.length_eq] at hi hj
  have h := List.pairwise_iff_getElem.mp hincreasing i j hi hj hij
  rwa [timeAt, timeAt, List.getD_eq_getElem?_getD, List.getD_eq_getElem?_getD,
    List.getElem?_eq_getElem hi, List.getElem?_eq_getElem hj]

theorem timeAt_of_getElem? {k : ℕ} {t : ℤ} (h : times[k]? = some t) : timeAt times k = t := by
  rw [timeAt, List.getD_eq_getElem?_getD, h, Option.getD_some]

theorem Warned.lt_length {label : String} {k : ℕ} (h : Warned phase records label k) :
    k < records.length := by
  by_contra hle
  rw [Warned, warningsAt, List.getElem?_eq_none (not_lt.mp hle)] at h
  exact List.not_mem_nil h

variable {spans : List WarningSpan}

/-- Intervals in their order that come from the runs of each label are the encoding. -/
theorem encodes_of_runs (hclock : Timed records times)
    (hincreasing : times.Pairwise (· < ·)) (hsorted : spans.Pairwise spanOrder)
    (hruns : ∀ label, ∃ runs : List (ℕ × ℕ), runs.Nodup ∧
      (∀ i j, (i, j) ∈ runs ↔ Runs.IsRun (Warned phase records label) records.length i j) ∧
      (spans.filter fun span => decide (span.label = label)) =
        runs.map (spanOf phase records times label)) :
    Encodes phase records times spans := by
  have hmono := hclock.strictMonoOn hincreasing
  refine ⟨hruns, ?_, fun label k t hwarned ht => ?_, fun span hspan k t ht hstart hend => ?_, hsorted⟩
  · rw [List.pairwise_iff_forall_sublist]
    intro a b hsub hlabel
    obtain ⟨runs, hnodup, hmem, hfilter⟩ := hruns b.label
    have hpair : [a, b].Sublist (spans.filter fun span => decide (span.label = b.label)) := by
      have h := hsub.filter fun span => decide (span.label = b.label)
      simpa [hlabel] using h
    rw [hfilter] at hpair
    obtain ⟨pair, hpair, heq⟩ := List.sublist_map_iff.mp hpair
    obtain ⟨⟨i, j⟩, rest, rfl, ha, hrest⟩ := List.map_eq_cons_iff.mp heq.symm
    obtain ⟨⟨i', j'⟩, rest', rfl, hb, hnil⟩ := List.map_eq_cons_iff.mp hrest
    obtain rfl := List.map_eq_nil_iff.mp hnil
    have hrun := (hmem i j).mp (hpair.subset (by simp))
    have hrun' := (hmem i' j').mp (hpair.subset (by simp))
    -- The starts come in order, and two runs from one start are the same.
    have hle : timeAt times i ≤ timeAt times i' := by
      have h := List.pairwise_iff_forall_sublist.mp hsorted hsub
      rw [← ha, ← hb] at h
      exact h.elim le_of_lt fun h => h.1.le
    have hi := hrun.lt.trans_le hrun.le
    have hi' := hrun'.lt.trans_le hrun'.le
    obtain hlt | rfl := ((hmono.le_iff_le hi hi').mp hle).lt_or_eq
    · rw [← ha, ← hb]
      exact hrun.closing_le hmono hrun' hlt
    · obtain rfl := hrun.stop_unique hrun'
      exact absurd (hnodup.sublist hpair) (by simp)
  · obtain ⟨runs, -, hmem, hfilter⟩ := hruns label
    obtain ⟨i, j, hrun, hik, hkj⟩ := Runs.exists_isRun hwarned.lt_length hwarned
    have hspan := hfilter ▸ List.mem_map_of_mem ((hmem i j).mpr hrun)
    obtain ⟨hstart, hend⟩ := hrun.mem_Icc hmono hik hkj
    rw [timeAt_of_getElem? ht] at hstart hend
    exact ⟨_, (List.mem_filter.mp hspan).1, rfl, hstart, hend⟩
  · obtain ⟨runs, -, hmem, hfilter⟩ := hruns span.label
    have hself := hfilter ▸ List.mem_filter.mpr ⟨hspan, decide_eq_true rfl⟩
    obtain ⟨⟨i, j⟩, hrun, heq⟩ := List.mem_map.mp hself
    have hk : k < records.length := hclock.length_eq ▸ (List.getElem?_eq_some_iff.mp ht).1
    rw [← timeAt_of_getElem? ht] at hstart hend
    rw [← heq] at hstart hend
    exact ((hmem i j).mp hrun).of_mem_Ico hmono hk hstart hend

/-- **The intervals of a trace** whose clock increases are, in the order of their starts and labels,
the run-length encoding of its warnings. Only the first hundred are returned. -/
theorem reviewWarningIntervals_encodes (phase : String) (records : List (Value K))
    (times : List ℤ) (hclock : Timed records times) (hincreasing : times.Pairwise (· < ·)) :
    ∃ spans, Encodes phase records times spans ∧
      reviewWarningIntervals records phase = .ok ((spans.map (·.toInterval)).take 100) := by
  obtain ⟨found, hfound, hruns⟩ := exists_spans phase hclock
  refine ⟨_, encodes_of_runs hclock hincreasing (List.pairwise_insertionSort spanOrder found)
    fun label => ?_, reviewWarningIntervals_of_spans hfound⟩
  have hperm := (List.perm_insertionSort spanOrder found).filter
    fun span => decide (span.label = label)
  rw [hruns label] at hperm
  -- The sort keeps the intervals of the label, in an order of its runs.
  obtain ⟨runs, hmap, hrunsPerm⟩ :=
    (congrFun (congrFun (List.eq_map_comp_perm (spanOf phase records times label)) _) _).mpr hperm
  refine ⟨runs, hrunsPerm.nodup_iff.mpr (Runs.nodup_runs_of_closed Runs.nodup_closedRuns),
    fun i j => ?_, hmap⟩
  rw [hrunsPerm.mem_iff, Runs.mem_runs]

end Sorted

/-! ## Overlapping warnings -/

/-- A record with the pan and hold warnings of a frame. -/
def pannedRecord (timestamp : ℤ) (held speed acceleration : Bool) : Value ℚ :=
  .dict [("timestamp_ms", .int timestamp), ("framing", .dict [("decision", .dict
    [("held_target_contained", if held then .bool false else .none),
      ("pan_speed_limit_exceeded", .bool speed),
      ("pan_acceleration_limit_exceeded", .bool acceleration)])])]

/-- Two warnings start together, and a third one while they last. -/
def pannedShot : List (Value ℚ) :=
  [pannedRecord 0 true true false, pannedRecord 100 true true true,
    pannedRecord 200 false false true, pannedRecord 300 false false false]

theorem reviewWarningIntervals_encodes_pannedShot :
    ∃ spans, Encodes "framing" pannedShot [0, 100, 200, 300] spans ∧
      reviewWarningIntervals pannedShot "framing" =
        .ok ((spans.map (·.toInterval)).take 100) :=
  reviewWarningIntervals_encodes "framing" pannedShot [0, 100, 200, 300] rfl (by decide)

end ProcessingPipeline

end BoulderFrame
