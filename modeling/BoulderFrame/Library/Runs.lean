import Mathlib.Data.Set.Card
import Mathlib.Order.Bounds.Basic
import Mathlib.Order.Interval.Finset.Nat
import Mathlib.Order.Monotone.Basic
import Mathlib.Tactic.Linarith

/-!
# Runs along a sequence

A predicate on the indices of a sequence has maximal runs. One pass that keeps the start of the run
that is open finds them in order, and with them their number and the greatest of their lengths.

## Main definitions

* `IsRun p n i j`: a maximal run of `p` among the first `n` indices, from `i` to before `j`
* `openRun`, `closedRuns`: the run that is open after the first indices, and those that have ended
* `runs`: all runs, the open one included
* `longest`: the greatest length of some runs, zero if there is none
* `closing`: the time at which a run has ended

## Main results

* `mem_runs`: one pass finds the maximal runs
* `ncard_runs`, `isGreatest_longest`: their number and their greatest length
* `pairwise_runs`, `sum_lengths`: the runs come one after another, so that their lengths add up
* `IsRun.closing_le`, `IsRun.mem_Icc`, `IsRun.of_mem_Ico`: on a clock the runs are apart, and each
  covers its own indices only
-/

namespace Runs

variable (p : ℕ → Prop)

/-- A maximal run of `p` among the first `n` indices. -/
structure IsRun (n i j : ℕ) : Prop where
  lt : i < j
  le : j ≤ n
  holds : ∀ k, i ≤ k → k < j → p k
  start : i = 0 ∨ ¬ p (i - 1)
  stop : j = n ∨ ¬ p j

variable [DecidablePred p]

/-- The start of the run that is open after the first indices. -/
def openRun : ℕ → Option ℕ
  | 0 => none
  | n + 1 => if p n then some ((openRun n).getD n) else none

/-- The runs that have ended before an index. -/
def closedRuns : ℕ → List (ℕ × ℕ)
  | 0 => []
  | n + 1 => if p n then closedRuns n else closedRuns n ++ (openRun p n).toList.map (·, n)

def runs (n : ℕ) : List (ℕ × ℕ) := closedRuns p n ++ (openRun p n).toList.map (·, n)

variable {p} {n i j : ℕ}

theorem openRun_eq_none : openRun p n = none ↔ n = 0 ∨ ¬ p (n - 1) := by
  cases n with
  | zero => exact iff_of_true rfl (.inl rfl)
  | succ n =>
    rw [openRun, Nat.add_sub_cancel]
    by_cases hp : p n
    · rw [if_pos hp]
      exact iff_of_false nofun fun h => h.resolve_left (Nat.succ_ne_zero n) hp
    · rw [if_neg hp]
      exact iff_of_true rfl (.inr hp)

theorem openRun_eq_some : openRun p n = some i ↔
    i < n ∧ (∀ k, i ≤ k → k < n → p k) ∧ (i = 0 ∨ ¬ p (i - 1)) := by
  induction n generalizing i with
  | zero => exact iff_of_false nofun fun h => absurd h.1 (Nat.not_lt_zero _)
  | succ n ih =>
    by_cases hp : p n
    · rw [openRun, if_pos hp, Option.some_inj]
      cases hopen : openRun p n with
      | none =>
        have hclosed := openRun_eq_none.mp hopen
        rw [Option.getD_none]
        constructor
        · rintro rfl
          refine ⟨Nat.lt_succ_self _, fun k hk hlt => ?_, hclosed⟩
          obtain rfl : k = n := by omega
          exact hp
        · rintro ⟨hlt, hall, hstart⟩
          by_contra hne
          obtain rfl | hn := hclosed
          · omega
          · exact hn (hall (n - 1) (by omega) (by omega))
      | some start =>
        obtain ⟨hlt, hall, hstart⟩ := ih.mp hopen
        rw [Option.getD_some]
        constructor
        · rintro rfl
          refine ⟨by omega, fun k hk hkn => ?_, hstart⟩
          obtain hkn | rfl := Nat.lt_succ_iff_lt_or_eq.mp hkn
          · exact hall k hk hkn
          · exact hp
        · rintro ⟨hlt', hall', hstart'⟩
          rcases lt_trichotomy start i with h | h | h
          · exact absurd (hall (i - 1) (by omega) (by omega)) (hstart'.resolve_left (by omega))
          · exact h
          · exact absurd (hall' (start - 1) (by omega) (by omega)) (hstart.resolve_left (by omega))
    · rw [openRun, if_neg hp]
      exact iff_of_false nofun fun h => hp (h.2.1 n (by omega) (Nat.lt_succ_self n))

theorem mem_open : (i, j) ∈ (openRun p n).toList.map (·, n) ↔
    j = n ∧ i < n ∧ (∀ k, i ≤ k → k < n → p k) ∧ (i = 0 ∨ ¬ p (i - 1)) := by
  rw [← openRun_eq_some, List.mem_map]
  constructor
  · rintro ⟨start, hstart, heq⟩
    obtain ⟨rfl, rfl⟩ := Prod.mk.inj heq
    exact ⟨rfl, Option.mem_toList.mp hstart⟩
  · rintro ⟨rfl, h⟩
    exact ⟨i, Option.mem_toList.mpr h, rfl⟩

theorem mem_closedRuns : (i, j) ∈ closedRuns p n ↔ j < n ∧ ¬ p j ∧ IsRun p n i j := by
  induction n with
  | zero => exact iff_of_false List.not_mem_nil fun h => absurd h.1 (Nat.not_lt_zero _)
  | succ n ih =>
    have hold : (i, j) ∈ closedRuns p n ↔ j < n ∧ ¬ p j ∧ IsRun p (n + 1) i j := by
      rw [ih]
      refine and_congr_right fun hj => and_congr_right fun hp => ?_
      exact ⟨fun h => ⟨h.lt, by omega, h.holds, h.start, .inr hp⟩,
        fun h => ⟨h.lt, hj.le, h.holds, h.start, .inr hp⟩⟩
    rw [closedRuns]
    split_ifs with hp
    · rw [hold]
      refine ⟨fun h => ⟨by omega, h.2⟩, fun h => ⟨?_, h.2⟩⟩
      obtain hj | rfl := Nat.lt_succ_iff_lt_or_eq.mp h.1
      · exact hj
      · exact absurd hp h.2.1
    · rw [List.mem_append, hold, mem_open]
      constructor
      · rintro (⟨hj, hrest⟩ | ⟨rfl, hlt, hall, hstart⟩)
        · exact ⟨by omega, hrest⟩
        · exact ⟨Nat.lt_succ_self _, hp, hlt, Nat.le_succ _, hall, hstart, .inr hp⟩
      · rintro ⟨hj, hnot, hrun⟩
        obtain hj | rfl := Nat.lt_succ_iff_lt_or_eq.mp hj
        · exact .inl ⟨hj, hnot, hrun⟩
        · exact .inr ⟨rfl, hrun.lt, hrun.holds, hrun.start⟩

/-- **One pass finds the maximal runs.** -/
theorem mem_runs : (i, j) ∈ runs p n ↔ IsRun p n i j := by
  rw [runs, List.mem_append, mem_closedRuns, mem_open]
  constructor
  · rintro (h | ⟨rfl, hlt, hall, hstart⟩)
    · exact h.2.2
    · exact ⟨hlt, le_rfl, hall, hstart, .inl rfl⟩
  · intro h
    obtain rfl | hp := h.stop
    · exact .inr ⟨rfl, h.lt, h.holds, h.start⟩
    · rcases h.le.lt_or_eq with hj | rfl
      · exact .inl ⟨hj, hp, h⟩
      · exact .inr ⟨rfl, h.lt, h.holds, h.start⟩

theorem nodup_runs_of_closed (h : (closedRuns p n).Nodup) : (runs p n).Nodup := by
  rw [runs, List.nodup_append]
  refine ⟨h, ?_, ?_⟩
  · cases openRun p n
    · exact List.nodup_nil
    · exact List.nodup_singleton _
  · rintro ⟨i, j⟩ hclosed ⟨i', j'⟩ hopen heq
    obtain ⟨rfl, rfl⟩ := Prod.mk.inj heq
    have := (mem_closedRuns.mp hclosed).1
    have := (mem_open.mp hopen).1
    omega

theorem nodup_closedRuns : (closedRuns p n).Nodup := by
  induction n with
  | zero => exact List.nodup_nil
  | succ n ih =>
    rw [closedRuns]
    split_ifs
    · exact ih
    · exact nodup_runs_of_closed ih

variable (p n) in
/-- **The number of runs.** -/
theorem ncard_runs : {r : ℕ × ℕ | IsRun p n r.1 r.2}.ncard = (runs p n).length := by
  have hset : {r : ℕ × ℕ | IsRun p n r.1 r.2} = ((runs p n).toFinset : Set (ℕ × ℕ)) := by
    ext r
    rw [Finset.mem_coe, List.mem_toFinset]
    exact mem_runs.symm
  rw [hset, Set.ncard_coe_finset, List.toFinset_card_of_nodup (nodup_runs_of_closed nodup_closedRuns)]

/-! ## Runs one after another -/

theorem lt_of_mem_closed_of_mem_open {r r' : ℕ × ℕ} (h : r ∈ closedRuns p n)
    (h' : r' ∈ (openRun p n).toList.map (·, n)) : r.2 < r'.1 := by
  obtain ⟨hlt, hnot, -⟩ := mem_closedRuns.mp h
  obtain ⟨-, -, hall, -⟩ := mem_open.mp h'
  by_contra hle
  exact hnot (hall _ (not_lt.mp hle) hlt)

theorem pairwise_runs_of_closed (h : (closedRuns p n).Pairwise fun r r' => r.2 < r'.1) :
    (runs p n).Pairwise fun r r' => r.2 < r'.1 := by
  rw [runs, List.pairwise_append]
  refine ⟨h, ?_, fun r hr r' hr' => lt_of_mem_closed_of_mem_open hr hr'⟩
  cases openRun p n
  · exact List.Pairwise.nil
  · exact List.pairwise_singleton _ _

theorem pairwise_closedRuns : (closedRuns p n).Pairwise fun r r' => r.2 < r'.1 := by
  induction n with
  | zero => exact List.Pairwise.nil
  | succ n ih =>
    rw [closedRuns]
    split_ifs
    · exact ih
    · exact pairwise_runs_of_closed ih

variable (p n) in
/-- **The runs come one after another.** -/
theorem pairwise_runs : (runs p n).Pairwise fun r r' => r.2 < r'.1 :=
  pairwise_runs_of_closed pairwise_closedRuns

/-- **The lengths** of intervals that come one after another add up to the number of indices in
them. -/
theorem sum_lengths {l : List (ℕ × ℕ)} (h : l.Pairwise fun r r' => r.2 < r'.1)
    (hle : ∀ r ∈ l, r.1 ≤ r.2 ∧ r.2 < n) :
    (l.map fun r => r.2 + 1 - r.1).sum =
      ((Finset.range n).filter fun k => ∃ r ∈ l, r.1 ≤ k ∧ k ≤ r.2).card := by
  induction l with
  | nil => simp
  | cons r l ih =>
    rw [List.pairwise_cons] at h
    obtain ⟨hr, hn⟩ := hle r List.mem_cons_self
    have hunion : ((Finset.range n).filter fun k => ∃ r' ∈ r :: l, r'.1 ≤ k ∧ k ≤ r'.2) =
        Finset.Icc r.1 r.2 ∪ (Finset.range n).filter fun k => ∃ r' ∈ l, r'.1 ≤ k ∧ k ≤ r'.2 := by
      ext k
      simp only [Finset.mem_filter, Finset.mem_range, Finset.mem_union, Finset.mem_Icc,
        List.exists_mem_cons_iff]
      constructor
      · rintro ⟨hk, hself | hrest⟩
        · exact .inl hself
        · exact .inr ⟨hk, hrest⟩
      · rintro (hself | ⟨hk, hrest⟩)
        · exact ⟨by omega, .inl hself⟩
        · exact ⟨hk, .inr hrest⟩
    have hdisjoint : Disjoint (Finset.Icc r.1 r.2)
        ((Finset.range n).filter fun k => ∃ r' ∈ l, r'.1 ≤ k ∧ k ≤ r'.2) := by
      rw [Finset.disjoint_left]
      intro k hk hrest
      obtain ⟨-, r', hr', hlow, -⟩ := Finset.mem_filter.mp hrest
      have := h.1 r' hr'
      have := (Finset.mem_Icc.mp hk).2
      omega
    rw [List.map_cons, List.sum_cons, ih h.2 fun r' hr' => hle r' (List.mem_cons_of_mem _ hr'),
      hunion, Finset.card_union_of_disjoint hdisjoint, Nat.card_Icc]

/-! ## The longest run -/

section Longest

variable {α : Type} [LinearOrder α] [Zero α]

/-- The greatest length of some runs. -/
def longest (length : ℕ × ℕ → α) (runs : List (ℕ × ℕ)) : α :=
  runs.foldl (fun best run => max best (length run)) 0

variable {length : ℕ × ℕ → α}

theorem longest_append (runs more : List (ℕ × ℕ)) : longest length (runs ++ more) =
    more.foldl (fun best run => max best (length run)) (longest length runs) :=
  List.foldl_append

variable (length) in
theorem isGreatest_longest' (runs : List (ℕ × ℕ)) :
    IsGreatest (insert 0 {l | ∃ run ∈ runs, l = length run}) (longest length runs) := by
  induction runs using List.reverseRecOn with
  | nil =>
    refine ⟨.inl rfl, ?_⟩
    rintro l (rfl | ⟨_, h, -⟩)
    · exact le_rfl
    · cases h
  | append_singleton runs run ih =>
    rw [longest_append, List.foldl_cons, List.foldl_nil]
    constructor
    · obtain hle | hle := le_total (length run) (longest length runs)
      · rw [max_eq_left hle]
        obtain h | ⟨r, hr, h⟩ := ih.1
        · exact .inl h
        · exact .inr ⟨r, List.mem_append_left _ hr, h⟩
      · rw [max_eq_right hle]
        exact .inr ⟨run, List.mem_append_right _ (List.mem_singleton_self _), rfl⟩
    · rintro l (rfl | ⟨r, hr, rfl⟩)
      · exact (ih.2 (.inl rfl)).trans (le_max_left _ _)
      · obtain hr | hr := List.mem_append.mp hr
        · exact (ih.2 (.inr ⟨r, hr, rfl⟩)).trans (le_max_left _ _)
        · rw [List.mem_singleton.mp hr]
          exact le_max_right _ _

/-- **The longest run**, of runs whose lengths are not negative. -/
theorem isGreatest_longest (hnonneg : ∀ i j, IsRun p n i j → 0 ≤ length (i, j)) :
    ((∀ i j, ¬ IsRun p n i j) → longest length (runs p n) = 0) ∧
      ((∃ i j, IsRun p n i j) → IsGreatest {l | ∃ i j, IsRun p n i j ∧ l = length (i, j)}
        (longest length (runs p n))) := by
  obtain ⟨hmem, hupper⟩ := isGreatest_longest' length (runs p n)
  constructor
  · intro hnone
    obtain h | ⟨⟨i, j⟩, hrun, -⟩ := hmem
    · exact h
    · exact absurd (mem_runs.mp hrun) (hnone i j)
  · rintro ⟨i, j, hrun⟩
    have hle : ∀ i j, IsRun p n i j → length (i, j) ≤ longest length (runs p n) :=
      fun i j hrun => hupper (.inr ⟨(i, j), mem_runs.mpr hrun, rfl⟩)
    refine ⟨?_, ?_⟩
    · obtain h | ⟨⟨i', j'⟩, hrun', h⟩ := hmem
      · exact ⟨i, j, hrun, le_antisymm (h.trans_le (hnonneg i j hrun)) (hle i j hrun)⟩
      · exact ⟨i', j', mem_runs.mp hrun', h⟩
    · rintro l ⟨i', j', hrun', rfl⟩
      exact hle i' j' hrun'

end Longest

/-! ## Runs on a clock -/

section Clock

omit [DecidablePred p]

theorem exists_isRun {k : ℕ} (hk : k < n) (hp : p k) : ∃ i j, IsRun p n i j ∧ i ≤ k ∧ k < j := by
  classical
  have hopen : openRun p (k + 1) ≠ none := by
    rw [Ne, openRun_eq_none, Nat.add_sub_cancel]
    exact not_or.mpr ⟨Nat.succ_ne_zero k, not_not.mpr hp⟩
  obtain ⟨i, hi⟩ := Option.ne_none_iff_exists'.mp hopen
  obtain ⟨hik, hholds, hstart⟩ := openRun_eq_some.mp hi
  -- The run ends before the first index past `k` without the predicate.
  by_cases hend : ∃ j, k < j ∧ j < n ∧ ¬ p j
  · have hmin := fun m hm => Nat.find_min hend (m := m) hm
    obtain ⟨hkj, hjn, hj⟩ := Nat.find_spec hend
    refine ⟨i, Nat.find hend, ⟨by omega, hjn.le, fun m him hmj => ?_, hstart, .inr hj⟩, by omega, hkj⟩
    by_cases hmk : m < k + 1
    · exact hholds m him hmk
    · by_contra hm
      exact hmin m hmj ⟨by omega, by omega, hm⟩
  · refine ⟨i, n, ⟨by omega, le_rfl, fun m him hmn => ?_, hstart, .inl rfl⟩, by omega, hk⟩
    by_cases hmk : m < k + 1
    · exact hholds m him hmk
    · by_contra hm
      exact hend ⟨m, by omega, hmn, hm⟩

theorem IsRun.lt_of_lt {i' j' : ℕ} (h : IsRun p n i j) (h' : IsRun p n i' j') (hlt : i < i') :
    j < i' := by
  have hnot := h'.start.resolve_left (by omega)
  by_contra hle
  exact hnot (h.holds (i' - 1) (by omega) (by omega))

/-- A run ends once. -/
theorem IsRun.stop_unique {j' : ℕ} (h : IsRun p n i j) (h' : IsRun p n i j') : j = j' := by
  have hnot : ∀ {j j'}, IsRun p n i j → IsRun p n i j' → ¬ j < j' := fun h h' hlt => by
    have hj := h.stop.resolve_left (by have := h'.le; omega)
    exact hj (h'.holds _ h.lt.le hlt)
  exact le_antisymm (not_lt.mp (hnot h' h)) (not_lt.mp (hnot h h'))

variable {T : Type} {t : ℕ → T}

/-- The time of the first index after a run, or of the last one if the run reaches the end. -/
def closing (t : ℕ → T) (n j : ℕ) : T := t (min j (n - 1))

theorem closing_of_lt (h : j < n) : closing t n j = t j := by
  rw [closing, min_eq_left (by omega)]

theorem closing_self : closing t n n = t (n - 1) := by
  rw [closing, min_eq_right (Nat.sub_le n 1)]

variable [LinearOrder T] (ht : StrictMonoOn t (Set.Iio n))
include ht

theorem IsRun.closing_le {i' j' : ℕ} (h : IsRun p n i j) (h' : IsRun p n i' j') (hlt : i < i') :
    closing t n j ≤ t i' := by
  have hj := h.lt_of_lt h' hlt
  have hi' : i' < n := h'.lt.trans_le h'.le
  rw [closing_of_lt (hj.trans hi')]
  exact (ht (hj.trans hi') hi' hj).le

theorem IsRun.mem_Icc {k : ℕ} (h : IsRun p n i j) (hi : i ≤ k) (hj : k < j) :
    t i ≤ t k ∧ t k ≤ closing t n j := by
  have hjn := h.le
  have hmem : ∀ {m}, m < n → m ∈ Set.Iio n := fun h => h
  exact ⟨ht.monotoneOn (hmem (by omega)) (hmem (by omega)) hi,
    ht.monotoneOn (hmem (by omega)) (hmem (by omega)) (by omega)⟩

theorem IsRun.of_mem_Ico {k : ℕ} (h : IsRun p n i j) (hk : k < n) (hi : t i ≤ t k)
    (hj : t k < closing t n j) : p k := by
  have hlt := h.lt
  have hjn := h.le
  have hmem : ∀ {m}, m < n → m ∈ Set.Iio n := fun h => h
  refine h.holds k ?_ ?_
  · exact (ht.le_iff_le (hmem (by omega)) (hmem hk)).mp hi
  · have := (ht.lt_iff_lt (hmem hk) (hmem (by omega))).mp hj
    omega

end Clock

end Runs
