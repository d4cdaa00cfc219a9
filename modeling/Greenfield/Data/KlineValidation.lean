import Greenfield.Lib.Neighbours
import Greenfield.Py.Basic
import Greenfield.Research.Holdout
import Mathlib.Data.List.Dedup

/-!
# Validation of klines

`validate_dataset` of `src/data/validate.py`. The differences of the sorted timestamps are compared
with the step from above only, and the comparisons of prices are false for a missing one. So a frame
that is valid can have rows off the grid or without a price; `validation_sound_iff` says when the
report can be relied on. The gaps of a frame on the grid are always exact.
-/

namespace Greenfield.Data

open Neighbours Py
open Research (timeframeMs)

/-! ## Frames and reports -/

/-- A row; the timestamp is in nanoseconds, and a missing number is `none`. -/
structure FrameRow where
  timestamp : ℤ
  openPrice : Option ℚ
  high : Option ℚ
  low : Option ℚ
  close : Option ℚ
  volume : Option ℚ
  deriving DecidableEq

/-- A frame, with the time zone of its timestamps. -/
structure KlineFrame where
  tz : Option String
  rows : List FrameRow

def KlineFrame.timestamps (df : KlineFrame) : List ℤ := df.rows.map FrameRow.timestamp

structure ValidationReport where
  timeframe : String
  missingCandleGaps : List (ℤ × ℤ × ℤ)
  duplicateTimestamps : List ℤ
  zeroVolumeTimestamps : List ℤ
  anomalousPriceTimestamps : List ℤ
  nonUtc : Bool
  incompleteTrailingCandle : Option ℤ
  deriving DecidableEq

/-- `is_valid`. -/
def ValidationReport.isValid (report : ValidationReport) : Bool :=
  report.missingCandleGaps.isEmpty && report.duplicateTimestamps.isEmpty && !report.nonUtc &&
    report.anomalousPriceTimestamps.isEmpty

/-- `sort_values("timestamp")`: an order of the rows, any one for equal timestamps. -/
structure SortValues where
  sort : List FrameRow → List FrameRow
  perm (rows : List FrameRow) : (sort rows).Perm rows
  ascending (rows : List FrameRow) : (sort rows).Pairwise fun a b => a.timestamp ≤ b.timestamp

/-- `sort_values` of timestamps. -/
def sortedTimestamps (timestamps : List ℤ) : List ℤ := sorted (fun a b => decide (a ≤ b)) timestamps

/-! ## Checks -/

/-- `TIMEFRAME_MS[timeframe]`, in nanoseconds. -/
def stepOf (timeframe : String) : Except PyError ℤ :=
  match timeframeMs timeframe with
  | some ms => .ok (ms * 1000000)
  | none => .error (.keyError timeframe)

/-- `_MAX_ABS_RETURN_BY_TIMEFRAME`, and `_DEFAULT_MAX_ABS_RETURN`. -/
def maxAbsReturn (timeframe : String) : ℚ := if timeframe = "1d" then 3 / 4 else 1 / 2

/-- `check_utc`. -/
def checkUtc (df : KlineFrame) : Bool := df.tz = some "UTC"

/-- `check_duplicates`. -/
def checkDuplicates (df : KlineFrame) : List ℤ :=
  sortedTimestamps ((df.timestamps.filter fun t => decide (2 ≤ df.timestamps.count t)).dedup)

/-- The gaps that are more than a step long, and the steps in each. -/
def gapsOf (step : ℤ) (ts : List ℤ) : List (ℤ × ℤ × ℤ) :=
  ((pairs ts).filter fun p => decide (step < p.2 - p.1)).map fun p =>
    (p.1, p.2, (p.2 - p.1) / step - 1)

/-- `check_missing_candles`. -/
def checkMissingCandles (df : KlineFrame) (timeframe : String) :
    Except PyError (List (ℤ × ℤ × ℤ)) := do
  if df.rows.length < 2 then return []
  let step ← stepOf timeframe
  return gapsOf step (sortedTimestamps df.timestamps)

/-- `check_zero_volume`. -/
def checkZeroVolume (df : KlineFrame) : List ℤ :=
  sortedTimestamps ((df.rows.filter fun row => decide (row.volume = some 0)).map FrameRow.timestamp)

/-- A missing value is the last one before it: `pct_change` pads. -/
def padFrom : Option ℚ → List (Option ℚ) → List (Option ℚ)
  | _, [] => []
  | last, x :: xs => x.or last :: padFrom (x.or last) xs

/-- Whether the return is above the limit. A return on zero is infinite or no number. -/
def returnExceeds (limit : ℚ) : Option ℚ → Option ℚ → Bool
  | some a, some b => if a = 0 then decide (b ≠ 0) else decide (limit < |b / a - 1|)
  | _, _ => false

/-- The rows with a return above the limit, by the close before each one. -/
def badReturns (limit : ℚ) (rows : List FrameRow) : List FrameRow :=
  let closes := padFrom none (rows.map FrameRow.close)
  ((rows.zip ((none :: closes).zip closes)).filter fun r =>
    returnExceeds limit r.2.1 r.2.2).map Prod.fst

/-- `high < low`, of two numbers. -/
def FrameRow.badRange (row : FrameRow) : Bool :=
  row.high.any fun high => row.low.any fun low => decide (high < low)

/-- `<= 0`, of a number. -/
def FrameRow.nonPositive (row : FrameRow) : Bool :=
  [row.openPrice, row.high, row.low, row.close].any fun x => x.any fun price => decide (price ≤ 0)

/-- `check_anomalous_prices`. -/
def checkAnomalousPrices (sortValues : SortValues) (df : KlineFrame) (maxAbsReturn : ℚ) : List ℤ :=
  let rows := sortValues.sort df.rows
  sortedTimestamps ((badReturns maxAbsReturn rows ++ rows.filter FrameRow.badRange ++
    rows.filter FrameRow.nonPositive).map FrameRow.timestamp).dedup

/-- `check_incomplete_trailing_candle`. -/
def checkIncompleteTrailingCandle (df : KlineFrame) (timeframe : String) (now : ℤ) :
    Except PyError (Option ℤ) :=
  match df.timestamps.max? with
  | none => .ok none
  | some last => do
    let step ← stepOf timeframe
    return if now < last + step then some last else none

/-- `validate_dataset`. -/
def validateDataset (sortValues : SortValues) (df : KlineFrame) (timeframe : String) (now : ℤ) :
    Except PyError ValidationReport := do
  let missing ← checkMissingCandles df timeframe
  let incomplete ← checkIncompleteTrailingCandle df timeframe now
  return {
    timeframe
    missingCandleGaps := missing
    duplicateTimestamps := checkDuplicates df
    zeroVolumeTimestamps := checkZeroVolume df
    anomalousPriceTimestamps := checkAnomalousPrices sortValues df (maxAbsReturn timeframe)
    nonUtc := !checkUtc df
    incompleteTrailingCandle := incomplete }

/-! ## Sorted timestamps -/

variable {ts : List ℤ}

theorem mem_sortedTimestamps {t : ℤ} : t ∈ sortedTimestamps ts ↔ t ∈ ts := mem_sorted

theorem length_sortedTimestamps (ts : List ℤ) : (sortedTimestamps ts).length = ts.length :=
  (List.perm_insertionSort _ ts).length_eq

theorem pairwise_sortedTimestamps (ts : List ℤ) : (sortedTimestamps ts).Pairwise (· ≤ ·) :=
  pairwise_sorted_key id ts

theorem nodup_sortedTimestamps : (sortedTimestamps ts).Nodup ↔ ts.Nodup :=
  (List.perm_insertionSort _ ts).nodup_iff

theorem strict_sortedTimestamps (h : ts.Nodup) :
    (sortedTimestamps ts).Pairwise (· < ·) :=
  (pairwise_sortedTimestamps ts).imp₂ (fun _ _ hle hne => lt_of_le_of_ne hle hne)
    (nodup_sortedTimestamps.mpr h)

theorem sortedTimestamps_eq_nil : sortedTimestamps ts = [] ↔ ts = [] := by
  rw [← List.length_eq_zero_iff, length_sortedTimestamps, List.length_eq_zero_iff]

/-! ## What a report promises -/

/-- A maximal run of absent grid points, from the row before it to the row after it. -/
structure MaximalRun (step : ℤ) (ts : List ℤ) (a b missing : ℤ) : Prop where
  before : a ∈ ts
  after : b ∈ ts
  pos : 0 < missing
  length : b = a + (missing + 1) * step
  absent : ∀ k, 0 < k → k ≤ missing → a + k * step ∉ ts

/-- The grid points from the first row to the last one that are no rows. -/
def absentPoints (step : ℤ) (ts : List ℤ) : List ℤ :=
  match ts.min?, ts.max? with
  | some first, some last =>
    (points first step (((last - first) / step).toNat + 1)).filter fun t => decide (t ∉ ts)
  | _, _ => []

structure ExactGaps (step : ℤ) (ts : List ℤ) (gaps : List (ℤ × ℤ × ℤ)) : Prop where
  mem : ∀ a b missing, (a, b, missing) ∈ gaps ↔ MaximalRun step ts a b missing
  ascending : gaps.Pairwise fun g h => g.2.1 ≤ h.1
  total : (gaps.map fun g => g.2.2).sum = (absentPoints step ts).length

def OnGrid (step : ℤ) (ts : List ℤ) : Prop := ∀ a ∈ ts, ∀ b ∈ ts, step ∣ b - a

/-- Four positive prices, the low one not above the high one. -/
def FrameRow.Priced (row : FrameRow) : Prop :=
  ∃ openPrice high low close, row.openPrice = some openPrice ∧ row.high = some high ∧
    row.low = some low ∧ row.close = some close ∧
    0 < openPrice ∧ 0 < high ∧ 0 < low ∧ 0 < close ∧ low ≤ high

/-- What a valid frame is taken for. -/
structure SoundFrame (sortValues : SortValues) (step : ℤ) (limit : ℚ) (df : KlineFrame) : Prop where
  grid : ∃ t, sortedTimestamps df.timestamps = points t step df.rows.length
  prices : ∀ row ∈ df.rows, row.Priced
  returns : ∀ p ∈ pairs (sortValues.sort df.rows), ∀ x ∈ p.1.close, ∀ y ∈ p.2.close,
    |y / x - 1| ≤ limit

/-! ## Conditions on a frame -/

/-- A defect that some check looks for. -/
def Flawed (sortValues : SortValues) (step : ℤ) (limit : ℚ) (df : KlineFrame) : Prop :=
  df.tz ≠ some "UTC" ∨ ¬df.timestamps.Nodup ∨
    (∃ p ∈ pairs (sortedTimestamps df.timestamps), step < p.2 - p.1) ∨
    (∃ row ∈ df.rows, row.badRange = true ∨ row.nonPositive = true) ∨
    ∃ p ∈ pairs ((sortValues.sort df.rows).filterMap FrameRow.close),
      returnExceeds limit (some p.1) (some p.2) = true

/-- Nothing that the checks do not look for: no price is missing, and no row follows another one
before a step is over. -/
def Regular (step : ℤ) (df : KlineFrame) : Prop :=
  (∀ row ∈ df.rows, none ∉ [row.openPrice, row.high, row.low, row.close]) ∧
    ∀ p ∈ pairs (sortedTimestamps df.timestamps), step ≤ p.2 - p.1

/-! ## The checks -/

section Checks

variable {sortValues : SortValues} {df : KlineFrame} {timeframe : String} {step ms now : ℤ}
  {limit : ℚ} {ts : List ℤ} {rows : List FrameRow}

theorem timeframeMs_pos (h : timeframeMs timeframe = some ms) : 0 < ms := by
  unfold timeframeMs at h
  split at h <;> cases h <;> decide

theorem stepOf_ok (h : timeframeMs timeframe = some ms) : stepOf timeframe = .ok (ms * 1000000) := by
  simp [stepOf, h]

theorem checkMissingCandles_ok (h : timeframeMs timeframe = some ms) :
    checkMissingCandles df timeframe =
      .ok (gapsOf (ms * 1000000) (sortedTimestamps df.timestamps)) := by
  unfold checkMissingCandles
  split
  · next hshort =>
    have hlen : (sortedTimestamps df.timestamps).length < 2 := by
      rw [length_sortedTimestamps]
      simpa [KlineFrame.timestamps] using hshort
    rcases hts : sortedTimestamps df.timestamps with _ | ⟨a, _ | ⟨b, l⟩⟩
    · rfl
    · rfl
    · rw [hts, List.length_cons, List.length_cons] at hlen
      omega
  · rw [stepOf_ok h]
    rfl

variable (df now) in
theorem checkIncompleteTrailingCandle_ok (h : timeframeMs timeframe = some ms) :
    ∃ last, checkIncompleteTrailingCandle df timeframe now = .ok last := by
  unfold checkIncompleteTrailingCandle
  split
  · exact ⟨none, rfl⟩
  · rw [stepOf_ok h]
    exact ⟨_, rfl⟩

theorem gapsOf_eq_nil : gapsOf step ts = [] ↔ ¬∃ p ∈ pairs ts, step < p.2 - p.1 := by
  simp [gapsOf, List.filter_eq_nil_iff]

theorem checkDuplicates_eq_nil : checkDuplicates df = [] ↔ df.timestamps.Nodup := by
  rw [checkDuplicates, sortedTimestamps_eq_nil]
  simp only [List.eq_nil_iff_forall_not_mem, List.mem_dedup, List.mem_filter, decide_eq_true_eq, not_and, not_le, Nat.lt_succ_iff,
    List.nodup_iff_count_le_one]
  constructor
  · intro h t
    by_cases ht : t ∈ df.timestamps
    · exact h t ht
    · simp [List.count_eq_zero_of_not_mem ht]
  · exact fun h t _ => h t

/-- A padded close is the last one that is there. -/
theorem badReturns_eq_nil (limit : ℚ) (rows : List FrameRow) (hlimit : 0 ≤ limit) :
    badReturns limit rows = [] ↔ ¬∃ p ∈ pairs (rows.filterMap FrameRow.close),
      returnExceeds limit (some p.1) (some p.2) = true := by
  have hpad : ∀ (rows : List FrameRow) (last : Option ℚ),
      ((rows.zip ((last :: padFrom last (rows.map FrameRow.close)).zip
        (padFrom last (rows.map FrameRow.close)))).filter fun r =>
          returnExceeds limit r.2.1 r.2.2) = [] ↔
      ¬∃ p ∈ pairs (last.toList ++ rows.filterMap FrameRow.close),
        returnExceeds limit (some p.1) (some p.2) = true := by
    intro rows
    induction rows with
    | nil =>
      intro last
      cases last <;> simp [padFrom]
    | cons row rows ih =>
      intro last
      cases hclose : row.close with
      | none =>
        have hself : returnExceeds limit last last = false := by
          cases last with
          | none => rfl
          | some a =>
            by_cases ha : a = 0
            · simp [returnExceeds, ha]
            · simp [returnExceeds, ha, hlimit]
        simpa [padFrom, hclose, hself] using ih last
      | some x =>
        cases last with
        | none => simpa [padFrom, hclose, returnExceeds] using ih (some x)
        | some a =>
          by_cases hx : returnExceeds limit (some a) (some x) = true
          · simp [padFrom, hclose, hx]
          · simpa [padFrom, hclose, hx] using ih (some x)
  rw [badReturns, List.map_eq_nil_iff]
  exact hpad rows none

theorem maxAbsReturn_nonneg (timeframe : String) : 0 ≤ maxAbsReturn timeframe := by
  unfold maxAbsReturn
  split <;> norm_num

theorem checkAnomalousPrices_eq_nil (hlimit : 0 ≤ limit) :
    checkAnomalousPrices sortValues df limit = [] ↔
      ¬((∃ row ∈ df.rows, row.badRange = true ∨ row.nonPositive = true) ∨
        ∃ p ∈ pairs ((sortValues.sort df.rows).filterMap FrameRow.close),
          returnExceeds limit (some p.1) (some p.2) = true) := by
  have hnil : checkAnomalousPrices sortValues df limit = [] ↔
      badReturns limit (sortValues.sort df.rows) = [] ∧
        ∀ row ∈ df.rows, ¬row.badRange = true ∧ ¬row.nonPositive = true := by
    rw [checkAnomalousPrices, sortedTimestamps_eq_nil]
    simp only [List.eq_nil_iff_forall_not_mem, List.mem_dedup, List.mem_map, List.mem_append, List.mem_filter,
      (sortValues.perm df.rows).mem_iff]
    grind
  rw [hnil, badReturns_eq_nil limit _ hlimit, not_or, and_comm]
  simp only [not_exists, not_and, not_or]

variable (sortValues df now) in
/-- A frame is valid if no check finds anything. -/
theorem validateDataset_ok (h : timeframeMs timeframe = some ms) :
    ∃ report, validateDataset sortValues df timeframe now = .ok report ∧
      report.missingCandleGaps = gapsOf (ms * 1000000) (sortedTimestamps df.timestamps) ∧
      (report.isValid = true ↔ ¬Flawed sortValues (ms * 1000000) (maxAbsReturn timeframe) df) := by
  obtain ⟨last, hlast⟩ := checkIncompleteTrailingCandle_ok df now h
  refine ⟨_, bind_eq_ok.mpr ⟨_, checkMissingCandles_ok h, bind_eq_ok.mpr ⟨last, hlast, rfl⟩⟩, rfl, ?_⟩
  simp only [ValidationReport.isValid, Flawed, Bool.and_eq_true, List.isEmpty_iff, gapsOf_eq_nil,
    checkDuplicates_eq_nil, checkAnomalousPrices_eq_nil (maxAbsReturn_nonneg timeframe),
    Bool.not_not, checkUtc, decide_eq_true_eq, ne_eq, not_or, not_not, and_assoc]
  exact ⟨fun ⟨hgaps, hnodup, hutc, h⟩ => ⟨hutc, hnodup, hgaps, h⟩,
    fun ⟨hutc, hnodup, hgaps, h⟩ => ⟨hgaps, hnodup, hutc, h⟩⟩

/-! ## Gaps -/

/-- On a grid, neighbours are whole steps apart. -/
theorem gapsOf_exact (hstep : 0 < step) (hnodup : ts.Nodup) (hgrid : OnGrid step ts) :
    ExactGaps step ts (gapsOf step (sortedTimestamps ts)) := by
  have hstrict := strict_sortedTimestamps hnodup
  have hpair : ∀ a b, (a, b) ∈ pairs (sortedTimestamps ts) →
      a < b ∧ b = a + (b - a) / step * step := by
    intro a b hab
    obtain ⟨ha, hb, hlt, -⟩ := (mem_pairs hstrict).mp hab
    have hdvd := hgrid a (mem_sortedTimestamps.mp ha) b (mem_sortedTimestamps.mp hb)
    exact ⟨hlt, by rw [Int.ediv_mul_cancel hdvd]; ring⟩
  have hmul : ∀ i j : ℤ, i * step < j * step ↔ i < j := fun i j => mul_lt_mul_iff_left₀ hstep
  refine ⟨fun a b missing => ?_, ?_, ?_⟩
  · simp only [gapsOf, List.mem_map, List.mem_filter, decide_eq_true_eq, Prod.exists,
      Prod.mk.injEq]
    constructor
    · rintro ⟨a, b, ⟨hab, hgap⟩, rfl, rfl, rfl⟩
      obtain ⟨ha, hb, hlt, hnone⟩ := (mem_pairs hstrict).mp hab
      have hlen := (hpair a b hab).2
      set k := (b - a) / step
      have hk : 1 < k := (hmul 1 k).mp (by omega)
      refine ⟨mem_sortedTimestamps.mp ha, mem_sortedTimestamps.mp hb, by omega, by simpa using hlen,
        fun j hj hjk hmem => ?_⟩
      have hlo := (hmul 0 j).mpr hj
      have hhi := (hmul j k).mpr (by omega)
      exact hnone _ (mem_sortedTimestamps.mpr hmem) ⟨by omega, by omega⟩
    · rintro ⟨ha, hb, hpos, hlen, habsent⟩
      have hgap := (hmul 1 (missing + 1)).mpr (by omega)
      have hdiff : b - a = (missing + 1) * step := by omega
      refine ⟨a, b, ⟨(mem_pairs hstrict).mpr ⟨mem_sortedTimestamps.mpr ha,
        mem_sortedTimestamps.mpr hb, by omega, fun x hx hbetween => ?_⟩, by omega⟩, rfl, rfl, ?_⟩
      · obtain ⟨j, hj⟩ := hgrid a ha x (mem_sortedTimestamps.mp hx)
        rw [mul_comm] at hj
        have hlo : 0 < j := (hmul 0 j).mp (by omega)
        have hhi : j < missing + 1 := (hmul j (missing + 1)).mp (by omega)
        refine habsent j hlo (by omega) ?_
        rw [← hj, add_sub_cancel]
        exact mem_sortedTimestamps.mp hx
      · rw [hdiff, Int.mul_ediv_cancel _ hstep.ne', add_sub_cancel_right]
  · rw [gapsOf, List.pairwise_map]
    exact (pairwise_pairs le_refl (pairwise_sortedTimestamps ts)).filter _
  · rcases hsorted : sortedTimestamps ts with _ | ⟨t, l⟩
    · rw [sortedTimestamps_eq_nil.mp hsorted]
      rfl
    have hmem : ∀ x, x ∈ ts ↔ x ∈ t :: l := fun x => hsorted ▸ mem_sortedTimestamps.symm
    have hordered : (t :: l).Pairwise (· ≤ ·) := hsorted ▸ pairwise_sortedTimestamps ts
    have hfirst : ts.min? = some t := List.min?_eq_some_iff.mpr ⟨(hmem t).mpr List.mem_cons_self,
      fun x hx => (List.mem_cons.mp ((hmem x).mp hx)).elim (fun h => h.ge)
        ((List.pairwise_cons.mp hordered).1 x)⟩
    have hlast : ts.max? = some ((t :: l).getLast (by simp)) := by
      refine List.max?_eq_some_iff.mpr ⟨(hmem _).mpr (List.getLast_mem _), fun x hx => ?_⟩
      exact hordered.rel_getLast ((hmem x).mp hx)
    have hsum := sum_far_pairs hstep t l (hsorted ▸ hstrict) fun p hp =>
      hgrid _ ((hmem _).mpr (mem_of_mem_pairs hp).1) _ ((hmem _).mpr (mem_of_mem_pairs hp).2)
    generalize (t :: l).getLast _ = last at hlast hsum
    have hle : t ≤ last := (List.min?_eq_some_iff.mp hfirst).2 _ (List.max?_eq_some_iff.mp hlast).1
    have hpoints : ∀ x ∈ ts, x ∈ points t step (((last - t) / step).toNat + 1) := by
      intro x hx
      obtain ⟨j, hj⟩ := hgrid t ((hmem t).mpr List.mem_cons_self) x hx
      rw [mul_comm] at hj
      have hfrom := (List.min?_eq_some_iff.mp hfirst).2 x hx
      have hto := (List.max?_eq_some_iff.mp hlast).2 x hx
      have hpos : -1 < j := (hmul (-1) j).mp (by omega)
      have hbound : j ≤ (last - t) / step := Int.le_ediv_of_mul_le hstep (by omega)
      refine mem_points.mpr ⟨j.toNat, by omega, ?_⟩
      rw [Int.toNat_of_nonneg (by omega), ← hj, add_sub_cancel]
    have hlen : ts.length = l.length + 1 := by
      rw [← length_sortedTimestamps, hsorted, List.length_cons]
    have habsent := length_absent hstep hnodup hpoints
    have hnonneg := Int.ediv_nonneg (sub_nonneg.mpr hle) hstep.le
    rw [gapsOf, List.map_map]
    simp only [absentPoints, hfirst, hlast]
    refine hsum.trans ?_
    omega

/-! ## Soundness -/

theorem mem_pairs_close {p : FrameRow × FrameRow} {x y : ℚ} (hp : p ∈ pairs rows)
    (hx : p.1.close = some x) (hy : p.2.close = some y) :
    (x, y) ∈ pairs (rows.filterMap FrameRow.close) := by
  induction rows using pairs.induct with
  | case1 a b l ih =>
    rcases List.mem_cons.mp hp with rfl | hp
    · rw [List.filterMap_cons_some hx, List.filterMap_cons_some hy]
      exact List.mem_cons_self
    · cases ha : a.close with
      | none => simpa [ha] using ih hp
      | some z =>
        cases hrest : (b :: l).filterMap FrameRow.close with
        | nil =>
          have hmem := ih hp
          rw [hrest] at hmem
          cases hmem
        | cons w rest =>
          rw [List.filterMap_cons_some ha, hrest, pairs_cons_cons, ← hrest]
          exact List.mem_cons_of_mem _ (ih hp)
  | case2 l hl => rcases l with _ | ⟨x, _ | ⟨y, l⟩⟩ <;> simp_all

/-- A row the checks find nothing in has prices if none is missing. -/
theorem FrameRow.priced_iff {row : FrameRow} (hrange : ¬row.badRange = true)
    (hpositive : ¬row.nonPositive = true) :
    row.Priced ↔ none ∉ [row.openPrice, row.high, row.low, row.close] := by
  obtain ⟨timestamp, openPrice, high, low, close, volume⟩ := row
  cases openPrice <;> cases high <;> cases low <;> cases close <;>
    simp_all [FrameRow.Priced, FrameRow.badRange, FrameRow.nonPositive]

/-- A frame the checks find nothing in is sound if it is regular. -/
theorem sound_iff_regular (hms : timeframeMs timeframe = some ms)
    (h : ¬Flawed sortValues (ms * 1000000) limit df) :
    SoundFrame sortValues (ms * 1000000) limit df ↔ Regular (ms * 1000000) df := by
  have hstep : 0 < ms * 1000000 := mul_pos (timeframeMs_pos hms) (by decide)
  obtain ⟨-, hnodup, hgaps, hrows, hreturns⟩ : df.tz = some "UTC" ∧ df.timestamps.Nodup ∧
      (∀ p ∈ pairs (sortedTimestamps df.timestamps), p.2 - p.1 ≤ ms * 1000000) ∧
      (∀ row ∈ df.rows, ¬row.badRange = true ∧ ¬row.nonPositive = true) ∧
      ∀ p ∈ pairs ((sortValues.sort df.rows).filterMap FrameRow.close),
        ¬returnExceeds limit (some p.1) (some p.2) = true := by
    simpa only [Flawed, ne_eq, not_or, not_not, not_exists, not_and, not_lt] using h
  have hlength : (sortedTimestamps df.timestamps).length = df.rows.length := by
    rw [length_sortedTimestamps, KlineFrame.timestamps, List.length_map]
  constructor
  · intro hsound
    refine ⟨fun row hrow => (FrameRow.priced_iff (hrows row hrow).1 (hrows row hrow).2).mp
      (hsound.prices row hrow), ?_⟩
    obtain ⟨t, ht⟩ := hsound.grid
    rcases hsorted : sortedTimestamps df.timestamps with _ | ⟨u, l⟩
    · simp
    · rw [hsorted] at ht hlength
      rw [← hlength, List.length_cons] at ht
      obtain rfl : u = t := by
        rw [points_succ] at ht
        exact (List.cons.inj ht).1
      intro p hp
      have hdiff := (eq_points u l).mpr ht p hp
      omega
  · rintro ⟨hpresent, hfar⟩
    refine ⟨?_, fun row hrow => (FrameRow.priced_iff (hrows row hrow).1 (hrows row hrow).2).mpr
      (hpresent row hrow), fun p hp x hx y hy => ?_⟩
    · rcases hsorted : sortedTimestamps df.timestamps with _ | ⟨t, l⟩
      · rw [hsorted] at hlength
        exact ⟨0, by rw [← hlength]; rfl⟩
      · rw [hsorted] at hgaps hfar hlength
        refine ⟨t, ?_⟩
        rw [← hlength, List.length_cons]
        refine (eq_points t l).mp fun p hp => ?_
        have hle := hgaps p hp
        have hge := hfar p hp
        omega
    · have hrow := (sortValues.perm df.rows).mem_iff.mp (mem_of_mem_pairs hp).1
      obtain ⟨_, _, _, close, -, -, -, hclose, -, -, -, hpos, -⟩ :=
        (FrameRow.priced_iff (hrows _ hrow).1 (hrows _ hrow).2).mpr (hpresent _ hrow)
      have hx' : x = close := Option.some.inj (hx.symm.trans hclose)
      have hexceeds := hreturns _ (mem_pairs_close hp hx hy)
      simpa [returnExceeds, hx', hpos.ne'] using hexceeds

end Checks

/-- **Validation is sound on regular frames.** A frame that is reported as valid is sound, and the
gaps of a frame on the grid are exact, if and only if the frame is regular or has some defect that
the checks look for. -/
theorem validation_sound_iff (sortValues : SortValues) (df : KlineFrame) (timeframe : String)
    (now ms : ℤ) (hms : timeframeMs timeframe = some ms) :
    ∃ report, validateDataset sortValues df timeframe now = .ok report ∧
      ((report.isValid = true →
          SoundFrame sortValues (ms * 1000000) (maxAbsReturn timeframe) df) ∧
        (df.timestamps.Nodup → OnGrid (ms * 1000000) df.timestamps →
          ExactGaps (ms * 1000000) df.timestamps report.missingCandleGaps) ↔
      Flawed sortValues (ms * 1000000) (maxAbsReturn timeframe) df ∨ Regular (ms * 1000000) df) := by
  obtain ⟨report, hok, hgaps, hvalid⟩ := validateDataset_ok sortValues df now hms
  have hexact : df.timestamps.Nodup → OnGrid (ms * 1000000) df.timestamps →
      ExactGaps (ms * 1000000) df.timestamps report.missingCandleGaps := by
    rw [hgaps]
    exact gapsOf_exact (mul_pos (timeframeMs_pos hms) (by decide))
  refine ⟨report, hok, ?_⟩
  rw [hvalid]
  by_cases hflawed : Flawed sortValues (ms * 1000000) (maxAbsReturn timeframe) df
  · exact ⟨fun _ => .inl hflawed, fun _ => ⟨fun h => absurd hflawed h, hexact⟩⟩
  · rw [sound_iff_regular hms hflawed]
    exact ⟨fun h => .inr (h.1 hflawed), fun h => ⟨fun _ => h.resolve_left hflawed, hexact⟩⟩

/-! ## Two rows half a step apart -/

/-- A stable sort. -/
def stableSort : SortValues where
  sort := sorted fun a b => decide (a.timestamp ≤ b.timestamp)
  perm := List.perm_insertionSort _
  ascending := pairwise_sorted_key FrameRow.timestamp

def flatRow (timestamp : ℤ) : FrameRow :=
  ⟨timestamp, some 1, some 1, some 1, some 1, some 1⟩

def halfStep : KlineFrame := ⟨some "UTC", [flatRow 0, flatRow 30000000000]⟩

theorem validation_sound_iff_halfStep :
    ∃ report, validateDataset stableSort halfStep "1m" 0 = .ok report ∧
      ((report.isValid = true →
          SoundFrame stableSort (60000 * 1000000) (maxAbsReturn "1m") halfStep) ∧
        (halfStep.timestamps.Nodup → OnGrid (60000 * 1000000) halfStep.timestamps →
          ExactGaps (60000 * 1000000) halfStep.timestamps report.missingCandleGaps) ↔
      Flawed stableSort (60000 * 1000000) (maxAbsReturn "1m") halfStep ∨
        Regular (60000 * 1000000) halfStep) :=
  validation_sound_iff stableSort halfStep "1m" 0 60000 rfl

/-- Two rows half a step apart are valid. -/
theorem halfStep_valid : ¬∀ (sortValues : SortValues) (df : KlineFrame) (timeframe : String)
    (now ms : ℤ), timeframeMs timeframe = some ms →
      ∀ report, validateDataset sortValues df timeframe now = .ok report → report.isValid = true →
        SoundFrame sortValues (ms * 1000000) (maxAbsReturn timeframe) df := by
  intro h
  obtain ⟨report, hok, hvalid⟩ : ∃ report,
      validateDataset stableSort halfStep "1m" 0 = .ok report ∧ report.isValid = true :=
    ⟨_, rfl, by decide +kernel⟩
  obtain ⟨t, ht⟩ := (h stableSort halfStep "1m" 0 60000 rfl report hok hvalid).grid
  have hpoints : [(0 : ℤ), 30000000000] = [t + 0 * (60000 * 1000000), t + 1 * (60000 * 1000000)] := ht
  simp only [List.cons.injEq] at hpoints
  omega

end Greenfield.Data
