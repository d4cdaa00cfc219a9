import Greenfield.Lib.Tiling
import Greenfield.Py.Time
import Greenfield.Research.Queue

/-!
# Walk-forward windows

`generate_windows` of `src/backtesting/walk_forward.py`. The windows slide by the test period
while the test ends in time, and each overlaps the next, so together they cover everything from
the start to the end of the last test (`covered_iff`). Their tests follow one another without a
gap (`windows_tile`).
-/

namespace Greenfield.Research

open Py Tiling

/-- The bounds are instants. -/
structure WalkForwardWindow where
  trainStart : Int
  trainEnd : Int
  validationStart : Int
  validationEnd : Int
  testStart : Int
  testEnd : Int

/-- The window of one turn of the loop. -/
def windowFrom (trainStart train validation test : Int) : WalkForwardWindow where
  trainStart := trainStart
  trainEnd := trainStart + train
  validationStart := trainStart + train
  validationEnd := trainStart + train + validation
  testStart := trainStart + train + validation
  testEnd := trainStart + train + validation + test

/-- The loop of `generate_windows`, for a positive test period. -/
def slideWindows (trainStart stop train validation test : Int) (htest : 0 < test) :
    List WalkForwardWindow :=
  if stop < trainStart + train + validation + test then []
  else windowFrom trainStart train validation test ::
    slideWindows (trainStart + test) stop train validation test htest
termination_by (stop - trainStart - train - validation).toNat
decreasing_by omega

/-- `generate_windows`. -/
def generateWindows (start stop train validation test : Int) :
    Except PyError (List WalkForwardWindow) :=
  if h : train ≤ 0 ∨ validation ≤ 0 ∨ test ≤ 0 then
    .error (.valueError "train/validation/test periods must all be positive")
  else .ok (slideWindows start stop train validation test (by omega))

/-! ## What the windows cover -/

variable {start stop train validation test : Int} {htest : 0 < test}

theorem mem_slideWindows {w : WalkForwardWindow} :
    w ∈ slideWindows start stop train validation test htest ↔
      ∃ k : Nat, w = windowFrom (start + k * test) train validation test ∧ w.testEnd ≤ stop := by
  induction start using slideWindows.induct stop train validation test htest with
  | case1 start hend =>
    rw [slideWindows, if_pos hend]
    refine ⟨fun h => absurd h List.not_mem_nil, ?_⟩
    rintro ⟨k, rfl, hstop⟩
    have hk : 0 ≤ (k : Int) * test := Int.mul_nonneg (Int.natCast_nonneg k) htest.le
    simp only [windowFrom] at hstop
    omega
  | case2 start hend ih =>
    rw [slideWindows, if_neg hend, List.mem_cons, ih]
    constructor
    · rintro (rfl | ⟨k, rfl, hstop⟩)
      · refine ⟨0, ?_, ?_⟩
        · rw [Int.natCast_zero, Int.zero_mul, Int.add_zero]
        · simp only [windowFrom]
          omega
      · have hnext : start + test + k * test = start + ((k + 1 : Nat) : Int) * test := by
          rw [Int.natCast_succ, Int.add_mul, Int.one_mul]
          omega
        exact ⟨k + 1, by rw [hnext], hstop⟩
    · rintro ⟨k, rfl, hstop⟩
      cases k with
      | zero =>
        left
        rw [Int.natCast_zero, Int.zero_mul, Int.add_zero]
      | succ k =>
        have hnext : start + ((k + 1 : Nat) : Int) * test = start + test + k * test := by
          rw [Int.natCast_succ, Int.add_mul, Int.one_mul]
          omega
        exact .inr ⟨k, by rw [hnext], hstop⟩

/-- The end of the last test, if there is time for a window. -/
def lastTestEnd (start stop train validation test : Int) : Int :=
  start + train + validation + test +
    test * ((stop - start - train - validation - test) / test)

variable (start stop htest) in
/-- **Cover.** An instant is in a window, from its train period to its test period, exactly when
it is from the start to the end of the last test. -/
theorem covered_iff (htrain : 0 < train) (hvalidation : 0 < validation) (t : Int) :
    (∃ w ∈ slideWindows start stop train validation test htest,
        w.trainStart ≤ t ∧ t ≤ w.testEnd) ↔
      start + train + validation + test ≤ stop ∧ start ≤ t ∧
        t ≤ lastTestEnd start stop train validation test := by
  unfold lastTestEnd
  set room := stop - start - train - validation - test with hroom
  have hdiv := Int.emod_add_mul_ediv room test
  have hmod := Int.emod_nonneg room htest.ne'
  have hlt := Int.emod_lt_of_pos room htest
  constructor
  · rintro ⟨w, hw, hfrom, hto⟩
    obtain ⟨k, rfl, hstop⟩ := mem_slideWindows.mp hw
    simp only [windowFrom] at hfrom hto hstop
    have hk : 0 ≤ (k : Int) * test := Int.mul_nonneg (Int.natCast_nonneg k) htest.le
    -- the number of the window is at most that of the last one
    have hle : (k : Int) * test ≤ room / test * test :=
      Int.mul_le_mul_of_nonneg_right ((Int.le_ediv_iff_mul_le htest).mpr (by omega)) htest.le
    rw [Int.mul_comm (room / test) test] at hle
    omega
  · rintro ⟨hroom', hfrom, hto⟩
    have hlast : 0 ≤ room / test := Int.ediv_nonneg (by omega) htest.le
    -- the window that starts last before the instant, if it is not after the last window
    by_cases hinner : (t - start) / test ≤ room / test
    · have hk : 0 ≤ (t - start) / test := Int.ediv_nonneg (by omega) htest.le
      have hle : (t - start) / test * test ≤ room / test * test :=
        Int.mul_le_mul_of_nonneg_right hinner htest.le
      have hdiv' := Int.emod_add_mul_ediv (t - start) test
      have hmod' := Int.emod_nonneg (t - start) htest.ne'
      have hlt' := Int.emod_lt_of_pos (t - start) htest
      rw [Int.mul_comm (room / test) test, Int.mul_comm ((t - start) / test) test] at hle
      refine ⟨_, mem_slideWindows.mpr ⟨((t - start) / test).toNat, rfl, ?_⟩, ?_⟩
      all_goals
        simp only [windowFrom, Int.toNat_of_nonneg hk]
        rw [Int.mul_comm ((t - start) / test) test]
        omega
    · have hle : (room / test + 1) * test ≤ (t - start) / test * test :=
        Int.mul_le_mul_of_nonneg_right (by omega) htest.le
      have hdiv' := Int.emod_add_mul_ediv (t - start) test
      have hmod' := Int.emod_nonneg (t - start) htest.ne'
      rw [Int.add_mul, Int.one_mul, Int.mul_comm (room / test) test,
        Int.mul_comm ((t - start) / test) test] at hle
      refine ⟨_, mem_slideWindows.mpr ⟨(room / test).toNat, rfl, ?_⟩, ?_⟩
      all_goals
        simp only [windowFrom, Int.toNat_of_nonneg hlast]
        rw [Int.mul_comm (room / test) test]
        omega

/-! ## Tests -/

/-- The tests tile what is from the first one on, until less than a test period is left. -/
theorem tiles_slideWindows (train validation start stop : Int) (htest : 0 < test) : ∃ last,
    Tiles WalkForwardWindow.testStart WalkForwardWindow.testEnd (start + train + validation) last
      (slideWindows start stop train validation test htest) ∧ stop < last + test := by
  induction start using slideWindows.induct stop train validation test htest with
  | case1 start hend =>
    rw [slideWindows, if_pos hend]
    exact ⟨_, .nil _, hend⟩
  | case2 start hend ih =>
    obtain ⟨last, htiles, hrest⟩ := ih
    have hnext : start + test + train + validation = start + train + validation + test := by omega
    rw [slideWindows, if_neg hend]
    rw [hnext] at htiles
    refine ⟨last, .cons rfl ?_ htiles, hrest⟩
    show start + train + validation < start + train + validation + test
    omega

/-- The periods of a window follow one another, within the given range. -/
structure WalkForwardWindow.Within (w : WalkForwardWindow) (start stop : Int) : Prop where
  start_le : start ≤ w.trainStart
  train : w.trainStart < w.trainEnd
  trained : w.trainEnd = w.validationStart
  validation : w.validationStart < w.validationEnd
  validated : w.validationEnd = w.testStart
  test : w.testStart < w.testEnd
  le_stop : w.testEnd ≤ stop

/-- **Walk-forward windows tile the range.** The tests are consecutive and cover exactly what is
from the end of the first validation to the end of the last test, every window is in the range
with its test after its train and validation periods, and less than a test period is left. -/
theorem windows_tile (start stop train validation test : Int) (htrain : 0 < train)
    (hvalidation : 0 < validation) (htest : 0 < test) :
    ∃ ws last, generateWindows start stop train validation test = .ok ws ∧
      Tiles WalkForwardWindow.testStart WalkForwardWindow.testEnd (start + train + validation) last
        ws ∧
      (∀ t, (∃ w ∈ ws, w.testStart ≤ t ∧ t < w.testEnd) ↔
        start + train + validation ≤ t ∧ t < last) ∧
      ws.Pairwise (fun v w => v.testEnd ≤ w.testStart) ∧
      (∀ w ∈ ws, w.Within start stop ∧ ∀ t, w.testStart ≤ t → t < w.testEnd →
        ¬ (w.trainStart ≤ t ∧ t < w.trainEnd) ∧
          ¬ (w.validationStart ≤ t ∧ t < w.validationEnd)) ∧
      ((ws = [] ∧ stop < start + train + validation + test) ∨
        ∃ w, ws.getLast? = some w ∧ w.testEnd = last ∧ last ≤ stop ∧ stop - last < test) := by
  obtain ⟨last, htiles, hrest⟩ :=
    tiles_slideWindows train validation start stop htest
  have hpositive : ¬ (train ≤ 0 ∨ validation ≤ 0 ∨ test ≤ 0) := by omega
  have hwithin : ∀ w ∈ slideWindows start stop train validation test htest,
      w.Within start stop := by
    intro w hw
    obtain ⟨k, rfl, hstop⟩ := mem_slideWindows.mp hw
    have hk : 0 ≤ (k : Int) * test := Int.mul_nonneg (Int.natCast_nonneg k) htest.le
    constructor <;> simp only [windowFrom] at hstop ⊢ <;> omega
  refine ⟨_, last, by rw [generateWindows, dif_neg hpositive], htiles, fun t => htiles.covers,
    htiles.pairwise, fun w hw => ⟨hwithin w hw, fun t hfrom hto => ?_⟩, ?_⟩
  · have hw := hwithin w hw
    have htrain := hw.trained
    have hvalidation := hw.validation
    have hvalidated := hw.validated
    omega
  · cases hlast : (slideWindows start stop train validation test htest).getLast? with
    | none =>
      rw [List.getLast?_eq_none_iff] at hlast
      rw [hlast] at htiles
      cases htiles
      exact .inl ⟨hlast, hrest⟩
    | some w =>
      have hend := htiles.hi_getLast w hlast
      have hstop := (hwithin w (List.mem_of_getLast? hlast)).le_stop
      exact .inr ⟨w, rfl, hend, by omega, by omega⟩

theorem windows_tile_days :
    ∃ ws last, generateWindows 0 10 3 1 2 = .ok ws ∧ 8 < last ∧ last ≤ 10 ∧
      ∀ t, (∃ w ∈ ws, w.testStart ≤ t ∧ t < w.testEnd) ↔ 0 + 3 + 1 ≤ t ∧ t < last := by
  obtain ⟨ws, last, hws, -, hcovers, -, -, hlast⟩ :=
    windows_tile 0 10 3 1 2 (by decide) (by decide) (by decide)
  rcases hlast with ⟨-, hnone⟩ | ⟨w, -, -, hle, hrest⟩
  · exact absurd hnone (by decide)
  · exact ⟨ws, last, hws, by omega, hle, hcovers⟩

end Greenfield.Research
