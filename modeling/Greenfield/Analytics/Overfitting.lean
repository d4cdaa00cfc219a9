import Greenfield.Lib.Combinations
import Greenfield.Lib.Ranks
import Greenfield.Py.Basic
import Mathlib.Data.Finset.Range

/-!
# Probability of backtest overfitting

`probability_of_backtest_overfitting` of `src/analytics/robustness.py`. The score of a trial on
some blocks is the mean of its scores on each of them, and those are computed once. The blocks have
one length, so with the mean as metric it is the score on the pooled rows (`score_pooled`), and the
result is the one of the rows themselves (`pbo_direct`).
-/

namespace Greenfield.Analytics

open Py Combinations

/-- Periods by trials: a column of returns for each trial. -/
structure PerformanceMatrix where
  periods : ℕ
  trials : List (List ℚ)
  rectangular : ∀ column ∈ trials, column.length = periods

structure PboResult where
  nCombinations : ℕ
  probabilityOfBacktestOverfitting : ℚ
  logits : List (Option ℚ)
  deriving DecidableEq

/-! ## Numbers that may be NaN -/

/-- The mean of an axis, where `none` is NaN. -/
def axisMean (scores : List (Option ℚ)) : Option ℚ :=
  if scores = [] then none else (scores.mapM id).map Ranks.mean

/-- The default of `metric_fn`. -/
def seriesMean (series : List ℚ) : Option ℚ := if series = [] then none else some (Ranks.mean series)

/-- The order of `np.argmax`, which takes the first NaN. -/
def scoreLe : Option ℚ → Option ℚ → Bool
  | _, none => true
  | none, some _ => false
  | some a, some b => a ≤ b

/-- The first of the greatest. -/
def argmax (scores : List (Option ℚ)) : ℕ := scores.findIdx fun s => scores.all (scoreLe · s)

/-- `stats.rankdata(scores)[i]`. -/
def rankdata (scores : List (Option ℚ)) (i : ℕ) : Option ℚ :=
  (scores.mapM id).bind fun xs => xs[i]?.map (Ranks.rank xs)

/-! ## The algorithm -/

/-- `performance_matrix.iloc[i * block_size : (i + 1) * block_size, j]`. -/
def block (blockSize : ℕ) (column : List ℚ) (i : ℕ) : List ℚ :=
  (column.drop (i * blockSize)).take blockSize

/-- The logit of the rank in testing of the trial that is the best in training. -/
def rankLogit (log : ℚ → ℚ) (trainScores testScores : List (Option ℚ)) : Option ℚ :=
  (rankdata testScores (argmax trainScores)).map fun rank : ℚ =>
    let omega : ℚ := rank / (trainScores.length + 1)
    let omega : ℚ := min (max omega (1 / 10 ^ 9)) (1 - 1 / 10 ^ 9)
    log (omega / (1 - omega))

/-- No NaN is at most zero. -/
def nonPositive (logit : Option ℚ) : Bool := logit.any (· ≤ 0)

/-- `logits`: one for each choice of half of `s` blocks for training. -/
def splitLogits (log : ℚ → ℚ) (metric : List ℚ → Option ℚ) (performanceMatrix : PerformanceMatrix)
    (s : ℕ) : List (Option ℚ) :=
  let blockSize := performanceMatrix.periods / s
  let allIds := List.range s
  -- the scores of the blocks of each trial
  let blockScores := performanceMatrix.trials.map fun column =>
    allIds.map fun i => metric (block blockSize column i)
  let scoresOf (ids : List ℕ) := blockScores.map fun scores => axisMean (ids.filterMap (scores[·]?))
  (combinations (s / 2) allIds).map fun trainIds =>
    rankLogit log (scoresOf trainIds) (scoresOf (allIds.filter (· ∉ trainIds)))

def probabilityOfBacktestOverfitting (log : ℚ → ℚ) (performanceMatrix : PerformanceMatrix)
    (nPartitions : ℤ) (metricFn : Option (List ℚ → Option ℚ)) : Except PyError PboResult :=
  if nPartitions < 2 then .error (.valueError "n_partitions must be >= 2")
  else if nPartitions % 2 ≠ 0 then
    .error (.valueError "n_partitions must be even (CSCV splits into training/testing halves)")
  else if performanceMatrix.trials.length < 2 then
    .error (.valueError "need at least 2 trials to rank")
  else if (performanceMatrix.periods : ℤ) % nPartitions ≠ 0 then
    .error (.valueError ("performance_matrix has " ++ toString performanceMatrix.periods ++
      " rows, not evenly divisible by n_partitions=" ++ toString nPartitions))
  else
    let logits := splitLogits log (metricFn.getD seriesMean) performanceMatrix nPartitions.toNat
    .ok
      { nCombinations := logits.length
        probabilityOfBacktestOverfitting := logits.countP nonPositive / logits.length
        logits }

/-! ## The rows themselves -/

/-- The rows of the blocks `ids`. -/
def pooled (blockSize : ℕ) (ids : Finset ℕ) (column : List ℚ) : List ℚ :=
  (column.zipIdx.filter fun entry => entry.2 / blockSize ∈ ids).map Prod.fst

/-- The logit of a split into the blocks `train` and the others, from its rows. -/
def directLogit (log : ℚ → ℚ) (performanceMatrix : PerformanceMatrix) (s : ℕ) (train : Finset ℕ) :
    Option ℚ :=
  let scoresOf (ids : Finset ℕ) := performanceMatrix.trials.map fun column =>
    seriesMean (pooled (performanceMatrix.periods / s) ids column)
  rankLogit log (scoresOf train) (scoresOf (Finset.range s \ train))

/-- The part of all splits into halves whose logit is at most zero. -/
def directPbo (log : ℚ → ℚ) (performanceMatrix : PerformanceMatrix) (s : ℕ) : ℚ :=
  (((Finset.range s).powersetCard (s / 2)).filter fun train =>
    nonPositive (directLogit log performanceMatrix s train)).card / s.choose (s / 2)

/-! ## Scores of pooled rows -/

variable {blockSize s : ℕ} {column : List ℚ} {ids : List ℕ} {m : PerformanceMatrix}

/-- One more block. -/
theorem pooled_take (hsize : 0 < blockSize) (t : Finset ℕ) (k : ℕ)
    (hk : k * blockSize ≤ column.length) :
    pooled blockSize t (column.take (k * blockSize)) =
      ((List.range k).filter (· ∈ t)).flatMap (block blockSize column) := by
  induction k with
  | zero => simp [pooled]
  | succ k ih =>
    have hle : k * blockSize ≤ column.length := by
      rw [Nat.succ_mul] at hk
      omega
    have hlast : ((column.drop (k * blockSize)).take blockSize).zipIdx (k * blockSize) =
        (block blockSize column k).zipIdx (k * blockSize) := rfl
    have hindex : ∀ entry ∈ (block blockSize column k).zipIdx (k * blockSize),
        entry.2 / blockSize = k := by
      intro entry hentry
      have hlow := List.le_snd_of_mem_zipIdx hentry
      have hhigh := List.snd_lt_add_of_mem_zipIdx hentry
      have hlength : (block blockSize column k).length ≤ blockSize := List.length_take_le _ _
      refine Nat.div_eq_of_lt_le hlow ?_
      rw [Nat.succ_mul]
      omega
    rw [Nat.succ_mul, List.take_add, pooled, List.zipIdx_append, List.filter_append, List.map_append,
      List.range_succ, List.filter_append, List.flatMap_append, ← ih hle, List.length_take,
      Nat.min_eq_left hle, Nat.zero_add, hlast]
    refine congrArg (pooled blockSize t (column.take (k * blockSize)) ++ ·) ?_
    by_cases hmem : k ∈ t
    · rw [List.filter_eq_self.mpr fun entry hentry => by simp [hindex entry hentry, hmem]]
      simp [hmem]
    · rw [List.filter_eq_nil_iff.mpr fun entry hentry => by simp [hindex entry hentry, hmem]]
      simp [hmem]

/-- The score of some blocks is the score of their rows. -/
theorem score_pooled (hlength : column.length = s * blockSize) (hids : ids.Sublist (List.range s)) :
    axisMean (ids.filterMap
      (((List.range s).map fun i => seriesMean (block blockSize column i))[·]?)) =
      seriesMean (pooled blockSize ids.toFinset column) := by
  have hselect : ids.filterMap
      (((List.range s).map fun i => seriesMean (block blockSize column i))[·]?) =
      ids.map fun i => seriesMean (block blockSize column i) := by
    rw [← List.filterMap_eq_map]
    refine List.filterMap_congr fun i hi => ?_
    simp [List.mem_range.mp (hids.subset hi)]
  rw [hselect]
  rcases Nat.eq_zero_or_pos blockSize with rfl | hsize
  · have hempty : column = [] := List.eq_nil_of_length_eq_zero hlength
    cases ids with
    | nil => simp [hempty, axisMean, seriesMean, pooled]
    | cons i ids => simp [hempty, axisMean, seriesMean, pooled, block]
  · have hpooled : pooled blockSize ids.toFinset column = (ids.map (block blockSize column)).flatten := by
      have htake := pooled_take hsize ids.toFinset s hlength.ge
      rw [← hlength, List.take_length] at htake
      simp only [List.mem_toFinset] at htake
      rw [htake, filter_members List.nodup_range hids, List.flatMap_def]
    have hblocks : ∀ b ∈ ids.map (block blockSize column), b.length = blockSize := by
      intro b hb
      obtain ⟨i, hi, rfl⟩ := List.mem_map.mp hb
      have hlast : (i + 1) * blockSize ≤ s * blockSize :=
        Nat.mul_le_mul_right _ (List.mem_range.mp (hids.subset hi))
      rw [Nat.succ_mul] at hlast
      simp only [block, List.length_take, List.length_drop, hlength]
      omega
    have hscores : (ids.map fun i => seriesMean (block blockSize column i)) =
        ((ids.map (block blockSize column)).map Ranks.mean).map some := by
      rw [List.map_map, List.map_map]
      refine List.map_congr_left fun i hi => if_neg fun hnil => ?_
      have hblock := hblocks _ (List.mem_map_of_mem hi)
      rw [hnil, List.length_nil] at hblock
      omega
    rw [hscores, hpooled, axisMean, seriesMean, Ranks.mean_flatten hblocks]
    have hmapM : ∀ xs : List ℚ, (xs.map some).mapM id = some xs := by
      intro xs
      induction xs with
      | nil => rfl
      | cons x xs ih => simp [ih]
    cases ids with
    | nil => rfl
    | cons i ids =>
      have hblock : ((i :: ids).map (block blockSize column)).flatten ≠ [] := by
        intro hnil
        have hlen := hblocks _ List.mem_cons_self
        rw [List.flatten_eq_nil_iff.mp hnil _ List.mem_cons_self, List.length_nil] at hlen
        omega
      rw [if_neg (by simp), if_neg hblock, hmapM]
      rfl

/-- The splits are scored from their rows. -/
theorem splitLogits_direct (log : ℚ → ℚ) (hdvd : s ∣ m.periods) :
    splitLogits log seriesMean m s =
      (combinations (s / 2) (List.range s)).map fun trainIds =>
        directLogit log m s trainIds.toFinset := by
  have hscores : ∀ {ids : List ℕ}, ids.Sublist (List.range s) →
      ((m.trials.map fun column => (List.range s).map fun i =>
        seriesMean (block (m.periods / s) column i)).map
          fun scores => axisMean (ids.filterMap (scores[·]?))) =
      m.trials.map fun column => seriesMean (pooled (m.periods / s) ids.toFinset column) := by
    intro ids hids
    rw [List.map_map]
    refine List.map_congr_left fun column hcolumn => ?_
    have hlength := m.rectangular column hcolumn
    exact score_pooled (hlength.trans (Nat.mul_div_cancel' hdvd).symm) hids
  refine List.map_congr_left fun trainIds htrain => ?_
  have htest : ((List.range s).filter (· ∉ trainIds)).toFinset =
      Finset.range s \ trainIds.toFinset := by
    ext i
    simp
  dsimp only
  rw [hscores (mem_combinations.mp htrain).1, hscores List.filter_sublist, htest]
  rfl

/-- **The precomputed scores give the probability of the rows.** -/
theorem pbo_direct (log : ℚ → ℚ) (m : PerformanceMatrix) (nPartitions : ℤ) :
    ((∃ result, probabilityOfBacktestOverfitting log m nPartitions none = .ok result) ↔
      2 ≤ nPartitions ∧ nPartitions % 2 = 0 ∧ 2 ≤ m.trials.length ∧
        (m.periods : ℤ) % nPartitions = 0) ∧
    ∀ result, probabilityOfBacktestOverfitting log m nPartitions none = .ok result →
      result.nCombinations = nPartitions.toNat.choose (nPartitions.toNat / 2) ∧
      result.probabilityOfBacktestOverfitting = directPbo log m nPartitions.toNat ∧
      0 ≤ result.probabilityOfBacktestOverfitting ∧ result.probabilityOfBacktestOverfitting ≤ 1 := by
  unfold probabilityOfBacktestOverfitting
  split
  · next h => exact ⟨⟨nofun, fun h' => by omega⟩, nofun⟩
  split
  · next h => exact ⟨⟨nofun, fun h' => absurd h'.2.1 h⟩, nofun⟩
  split
  · next h => exact ⟨⟨nofun, fun h' => by omega⟩, nofun⟩
  split
  · next h => exact ⟨⟨nofun, fun h' => absurd h'.2.2.2 h⟩, nofun⟩
  next hpartitions heven htrials hrows =>
  refine ⟨⟨fun _ => ⟨?_, not_not.mp heven, not_lt.mp htrials, not_not.mp hrows⟩, fun _ => ⟨_, rfl⟩⟩,
    fun result hresult => ?_⟩
  · omega
  cases hresult
  have hdvd : nPartitions.toNat ∣ m.periods := by
    rw [← Int.natCast_dvd_natCast, Int.toNat_of_nonneg (by omega)]
    exact Int.dvd_of_emod_eq_zero (not_not.mp hrows)
  have hlength : (splitLogits log seriesMean m nPartitions.toNat).length =
      nPartitions.toNat.choose (nPartitions.toNat / 2) := by
    rw [splitLogits_direct log hdvd, List.length_map, length_combinations, List.length_range]
  have hcount : (splitLogits log seriesMean m nPartitions.toNat).countP nonPositive =
      (((Finset.range nPartitions.toNat).powersetCard (nPartitions.toNat / 2)).filter fun train =>
        nonPositive (directLogit log m nPartitions.toNat train)).card := by
    have hrange : Finset.range nPartitions.toNat = (List.range nPartitions.toNat).toFinset := by
      ext i
      simp
    rw [splitLogits_direct log hdvd, List.countP_map, hrange]
    exact countP_combinations List.nodup_range
      fun train => nonPositive (directLogit log m nPartitions.toNat train)
  have hle := List.countP_le_length (p := nonPositive)
    (l := splitLogits log seriesMean m nPartitions.toNat)
  refine ⟨hlength, ?_, by positivity, div_le_one_of_le₀ (by exact_mod_cast hle) (by positivity)⟩
  rw [directPbo, ← hlength, ← hcount]
  rfl

-- each of two trials is the best in one half, and the worst in the other
example : probabilityOfBacktestOverfitting (· - 1) ⟨2, [[1, 0], [0, 1]], by decide⟩ 2 none =
    .ok ⟨2, 1, [some (-1 / 2), some (-1 / 2)]⟩ := by decide +kernel

end Greenfield.Analytics
