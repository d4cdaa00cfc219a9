import Greenfield.Lib.Intervals
import Greenfield.Py.Basic
import Mathlib.Data.Prod.Lex

/-!
# Exposure

`exposure_fraction` of `src/analytics/metrics.py`: the part of a period in which a trade is open, by
one sweep over the holding intervals. It is the measure of their union
(`exposureFraction_eq_measure`), for trades that do not end before they start.
-/

namespace Greenfield.Analytics

open Py Intervals

/-- The times of a trade, in nanoseconds. -/
structure Trade where
  entryTime : ℤ
  exitTime : ℤ
  deriving DecidableEq

/-- `total_seconds()`. -/
def seconds (nanoseconds : ℤ) : ℚ := nanoseconds / 1000000000

/-- The trade is open in the period. -/
def Trade.opens (t : Trade) (periodStart periodEnd : ℤ) : Bool :=
  periodStart < t.exitTime ∧ t.entryTime < periodEnd

def Trade.clipped (t : Trade) (periodStart periodEnd : ℤ) : ℤ × ℤ :=
  (max t.entryTime periodStart, min t.exitTime periodEnd)

/-- The sorted intervals. -/
def holdingIntervals (trades : List Trade) (periodStart periodEnd : ℤ) : List (ℤ × ℤ) :=
  sorted (fun a b => decide (toLex a ≤ toLex b))
    ((trades.filter (·.opens periodStart periodEnd)).map (·.clipped periodStart periodEnd))

/-- `exposure_fraction`. -/
def exposureFraction (trades : List Trade) (periodStart periodEnd : ℤ) : ℚ :=
  if trades = [] ∨ periodEnd ≤ periodStart then 0
  else
    match holdingIntervals trades periodStart periodEnd with
    | [] => 0
    | first :: rest =>
      let covered := ((merge first rest).map fun interval => seconds (interval.2 - interval.1)).sum
      let total := seconds (periodEnd - periodStart)
      if 0 < total then covered / total else 0

/-- The points of the period at which a trade is open. -/
def exposed (trades : List Trade) (periodStart periodEnd : ℤ) : Set ℝ :=
  ⋃ t ∈ trades, Set.Icc (t.entryTime : ℝ) t.exitTime ∩ Set.Icc (periodStart : ℝ) periodEnd

variable {trades : List Trade} {periodStart periodEnd : ℤ} {interval : ℤ × ℤ}

theorem mem_holdingIntervals :
    interval ∈ holdingIntervals trades periodStart periodEnd ↔ ∃ t ∈ trades,
      t.opens periodStart periodEnd = true ∧ t.clipped periodStart periodEnd = interval := by
  simp [holdingIntervals, mem_sorted, and_assoc]

theorem ascending_holdingIntervals (trades : List Trade) (periodStart periodEnd : ℤ) :
    Ascending (holdingIntervals trades periodStart periodEnd) := by
  refine (pairwise_sorted_key (fun interval : ℤ × ℤ => toLex interval) _).imp fun {a b} h => ?_
  rcases Prod.Lex.toLex_le_toLex.mp h with h | h
  · exact h.le
  · exact h.1.le

/-- An interval of a trade that does not end before it starts. -/
theorem bounds_holdingIntervals (hlt : periodStart < periodEnd)
    (hheld : ∀ t ∈ trades, t.entryTime ≤ t.exitTime)
    (h : interval ∈ holdingIntervals trades periodStart periodEnd) :
    interval.1 ≤ interval.2 ∧ periodStart ≤ interval.1 ∧ interval.2 ≤ periodEnd := by
  obtain ⟨t, ht, hopens, rfl⟩ := mem_holdingIntervals.mp h
  have := hheld t ht
  simp [Trade.opens] at hopens
  simp [Trade.clipped]
  omega

/-- Outside of the intervals no trade is open, but at an end of the period. -/
theorem exposed_subset : exposed trades periodStart periodEnd ⊆
    union (fun i : ℤ => (i : ℝ)) (holdingIntervals trades periodStart periodEnd) ∪
      {(periodStart : ℝ), (periodEnd : ℝ)} := by
  intro x hx
  simp only [exposed, Set.mem_iUnion, Set.mem_inter_iff, Set.mem_Icc] at hx
  obtain ⟨t, ht, ⟨hentry, hexit⟩, hstart, hend⟩ := hx
  by_cases hopens : t.opens periodStart periodEnd = true
  · refine .inl ⟨_, mem_holdingIntervals.mpr ⟨t, ht, hopens, rfl⟩, ?_, ?_⟩
    · simp [Trade.clipped, hentry, hstart]
    · simp [Trade.clipped, hexit, hend]
  · refine .inr ?_
    have hends : t.exitTime ≤ periodStart ∨ periodEnd ≤ t.entryTime := by
      simp [Trade.opens] at hopens
      omega
    rcases hends with h | h
    · have : (t.exitTime : ℝ) ≤ periodStart := by exact_mod_cast h
      exact .inl (le_antisymm (hexit.trans this) hstart)
    · have : (periodEnd : ℝ) ≤ t.entryTime := by exact_mod_cast h
      exact .inr (le_antisymm hend (this.trans hentry))

theorem subset_exposed : union (fun i : ℤ => (i : ℝ))
    (holdingIntervals trades periodStart periodEnd) ⊆ exposed trades periodStart periodEnd := by
  rintro x ⟨interval, hinterval, hstart, hend⟩
  obtain ⟨t, ht, -, rfl⟩ := mem_holdingIntervals.mp hinterval
  simp only [Trade.clipped, Int.cast_max, Int.cast_min, max_le_iff, le_min_iff] at hstart hend
  simp only [exposed, Set.mem_iUnion, Set.mem_inter_iff, Set.mem_Icc]
  exact ⟨t, ht, ⟨hstart.1, hend.1⟩, hstart.2, hend.2⟩

/-- The ends of the period have no measure. -/
theorem volume_exposed : MeasureTheory.volume (exposed trades periodStart periodEnd) =
    MeasureTheory.volume (union (fun i : ℤ => (i : ℝ))
      (holdingIntervals trades periodStart periodEnd)) := by
  refine le_antisymm ?_ (MeasureTheory.measure_mono subset_exposed)
  refine (MeasureTheory.measure_mono exposed_subset).trans ?_
  refine (MeasureTheory.measure_union_le _ _).trans ?_
  have hends : MeasureTheory.volume {(periodStart : ℝ), (periodEnd : ℝ)} = 0 :=
    (Set.toFinite _).measure_zero _
  rw [hends, add_zero]

theorem sum_seconds (is : List (ℤ × ℤ)) :
    (((is.map fun interval => seconds (interval.2 - interval.1)).sum : ℚ) : ℝ) =
      length (fun i : ℤ => (i : ℝ)) is / 1000000000 := by
  induction is with
  | nil => simp [length]
  | cons i is ih =>
    rw [List.map_cons, List.sum_cons, length_cons, Rat.cast_add, ih, seconds]
    push_cast
    ring

variable {trades' : List Trade}

/-- The intervals do not depend on the order of the trades. -/
theorem holdingIntervals_perm (h : trades.Perm trades') :
    holdingIntervals trades periodStart periodEnd = holdingIntervals trades' periodStart periodEnd := by
  refine sorted_eq_of_perm (fun a b => by simpa using le_total (toLex a) (toLex b)) ?_ ?_ ?_ ?_
  · intro a b c hab hbc
    simp only [decide_eq_true_eq] at hab hbc ⊢
    exact hab.trans hbc
  · exact ((h.filter _).map _).trans (List.perm_insertionSort _ _).symm
  · have hsorted := pairwise_sorted_key (fun interval : ℤ × ℤ => toLex interval)
      ((trades'.filter (·.opens periodStart periodEnd)).map (·.clipped periodStart periodEnd))
    simpa only [decide_eq_true_eq, holdingIntervals] using hsorted
  · intro a _ b _ hab hba
    simp only [decide_eq_true_eq] at hab hba
    exact toLex_inj.mp (le_antisymm hab hba)

theorem exposureFraction_perm (h : trades.Perm trades') :
    exposureFraction trades' periodStart periodEnd =
      exposureFraction trades periodStart periodEnd := by
  have hnil : trades' = [] ↔ trades = [] := by
    constructor
    · rintro rfl
      exact h.eq_nil
    · rintro rfl
      exact h.symm.eq_nil
  simp only [exposureFraction, hnil, holdingIntervals_perm h]

/-- The exposure is the length of the merged intervals in the length of the period. -/
theorem exposureFraction_held (hlt : periodStart < periodEnd)
    (hheld : ∀ t ∈ trades, t.entryTime ≤ t.exitTime) : ∃ covered : ℝ, 0 ≤ covered ∧
      covered ≤ (periodEnd : ℝ) - periodStart ∧
      MeasureTheory.volume (exposed trades periodStart periodEnd) = ENNReal.ofReal covered ∧
      (exposureFraction trades periodStart periodEnd : ℝ) =
        covered / ((periodEnd : ℝ) - periodStart) := by
  have hmono : StrictMono fun i : ℤ => (i : ℝ) := Int.cast_strictMono
  have hpositive : (0 : ℝ) < (periodEnd : ℝ) - periodStart := by
    exact_mod_cast sub_pos.mpr hlt
  have hascending := ascending_holdingIntervals trades periodStart periodEnd
  have hbounds : ∀ interval ∈ holdingIntervals trades periodStart periodEnd,
      interval.1 ≤ interval.2 ∧ periodStart ≤ interval.1 ∧ interval.2 ≤ periodEnd :=
    fun interval h => bounds_holdingIntervals hlt hheld h
  rw [volume_exposed, exposureFraction]
  cases hintervals : holdingIntervals trades periodStart periodEnd with
  | nil => exact ⟨0, le_rfl, hpositive.le, by simp [union, Covers], by simp⟩
  | cons first rest =>
    rw [hintervals] at hascending hbounds
    have hle : ∀ i ∈ first :: rest, i.1 ≤ i.2 := fun i hi => (hbounds i hi).1
    have hnonempty : trades ≠ [] := by
      rintro rfl
      cases hintervals
    have htotal : 0 < seconds (periodEnd - periodStart) := by
      have : (0 : ℚ) < (periodEnd - periodStart : ℤ) := by exact_mod_cast sub_pos.mpr hlt
      exact div_pos this (by norm_num)
    refine ⟨length (fun i : ℤ => (i : ℝ)) (merge first rest),
      length_nonneg hmono.monotone (le_merge hle),
      length_merge_le hmono hlt.le hascending hle fun i hi => (hbounds i hi).2,
      volume_merge hmono hascending hle, ?_⟩
    rw [if_neg (by simp [hnonempty, hlt])]
    dsimp only
    rw [if_pos htotal, Rat.cast_div, sum_seconds, seconds]
    push_cast
    field_simp

/-- Nested, touching and clipped trades. -/
def sampleTrades : List Trade := [⟨2, 6⟩, ⟨-5, 1⟩, ⟨3, 4⟩, ⟨6, 7⟩, ⟨9, 20⟩]

end Greenfield.Analytics
