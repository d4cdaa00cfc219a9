import Greenfield.Ml.SetupDataset
import Mathlib.Algebra.Order.Floor.Ring
import Mathlib.Data.Prod.Lex
import Mathlib.Data.Rat.Floor
import Mathlib.Data.String.Basic

/-!
# Tournament splits

`expanding_walk_forward_splits` and `split_fit_and_calibration` of `src/ml/tournament.py`. The
positions are those of a copy sorted by `(timestamp, symbol)`. Its timestamps are those of the given
dataset (`ordered_times`), but inside one timestamp its rows may stand in another order, so a label
that the purge was to leave out may be trained on (`expandingWalkForwardSplits_pastOnly_iff`).
-/

namespace Greenfield.Ml

open Py

/-- A row of a dataset, with the columns that the splits read. -/
structure LabeledRow where
  timestamp : ℤ
  labelEndTime : Option ℤ
  symbol : String
  deriving DecidableEq

structure TournamentSplit where
  name : String
  trainIndex : List ℕ
  testIndex : List ℕ
  deriving DecidableEq

/-- `sort_values(["timestamp", "symbol"])`. -/
def rowLe (a b : LabeledRow) : Bool :=
  toLex (a.timestamp, a.symbol) ≤ toLex (b.timestamp, b.symbol)

/-- `np.flatnonzero` of a mask. -/
def positions (rows : List LabeledRow) (mask : LabeledRow → Bool) : List ℕ :=
  (List.range rows.length).filter fun i => (rows[i]?).any mask

/-- `dataset.iloc[index]` of positions of the dataset. -/
def rowsAt (dataset : List LabeledRow) (index : List ℕ) : List LabeledRow :=
  index.filterMap (dataset[·]?)

/-- A maximum that is not before a minimum; neither of a missing one. -/
def reaches (latest earliest : Option ℤ) : Bool :=
  latest.any fun l => earliest.any (· ≤ l)

/-- `_validate_split`. -/
def validateSplit (dataset : List LabeledRow) (trainIndex testIndex : List ℕ) (name : String) :
    Except MlError Unit :=
  let train := rowsAt dataset trainIndex
  let test := rowsAt dataset testIndex
  let testStart := (test.map LabeledRow.timestamp).min?
  if trainIndex = [] ∨ testIndex = [] then
    .error (.valueError (name ++ " contains an empty train/test side"))
  else if trainIndex.any (testIndex.contains ·) then
    .error (.valueError (name ++ " train/test overlap"))
  else if reaches (train.filterMap LabeledRow.labelEndTime).max? testStart then
    .error (.valueError (name ++ " violates label purging"))
  else if reaches (train.map LabeledRow.timestamp).max? testStart then
    .error (.valueError (name ++ " is not chronological"))
  else .ok ()

/-- `times[i]`. -/
def timeAt (times : List ℤ) (i : ℕ) : Except MlError ℤ :=
  times[i]?.elim (.error (.indexError "index out of bounds")) .ok

/-- `np.linspace(0, stop, num, dtype=int)[i]`. -/
def linspace (stop num i : ℕ) : ℕ := i * stop / (num - 1)

/-- `int(count * (1 - fraction))`. -/
def keptCount (count : ℕ) (fraction : ℚ) : ℕ := ⌊count * (1 - fraction)⌋.toNat

/-- The rows before a boundary whose label ends before it. -/
def isTrain (boundary : ℤ) (row : LabeledRow) : Bool :=
  row.timestamp < boundary && row.labelEndTime.any (· < boundary)

/-- The rows of a test set that begins at `start`, and ends before a next boundary if there is one. -/
def isTest (start : ℤ) (next : Option ℤ) (row : LabeledRow) : Bool :=
  start ≤ row.timestamp && next.all (row.timestamp < ·)

/-- A split of the sorted copy. -/
def splitAt (ordered : List LabeledRow) (boundary embargo : ℤ) (next : Option ℤ) (name : String) :
    Except MlError TournamentSplit := do
  let trainIndex := positions ordered (isTrain boundary)
  let testIndex := positions ordered (isTest (boundary + embargo) next)
  validateSplit ordered trainIndex testIndex name
  return ⟨name, trainIndex, testIndex⟩

/-- `next_boundary` of a fold. -/
def nextBoundary (developmentTimes : List ℤ) (holdoutBoundary : ℤ) (position : ℕ) :
    Except MlError ℤ :=
  if position = developmentTimes.length then .ok holdoutBoundary else timeAt developmentTimes position

/-- The body of the loop over the folds. -/
def foldSplit (ordered : List LabeledRow) (developmentTimes : List ℤ) (holdoutBoundary embargo : ℤ)
    (nSplits fold : ℕ) : Except MlError TournamentSplit := do
  let bound := linspace developmentTimes.length (nSplits + 2)
  let boundary ← timeAt developmentTimes (bound (fold + 1))
  let next ← nextBoundary developmentTimes holdoutBoundary (bound (fold + 2))
  splitAt ordered boundary embargo (some next) ("fold-" ++ toString fold)

/-- `expanding_walk_forward_splits`. -/
def expandingWalkForwardSplits (dataset : List LabeledRow) (nSplits : ℤ) (holdoutFraction : ℚ)
    (embargo : ℤ) : Except MlError (List TournamentSplit × TournamentSplit) :=
  if nSplits < 2 ∨ ¬ (1 / 10 ≤ holdoutFraction ∧ holdoutFraction ≤ 4 / 10) then
    .error (.valueError "invalid split count or holdout fraction")
  else
    let ordered := sorted rowLe dataset
    -- both indexes are fresh ranges, so only the lengths are compared
    if List.range ordered.length ≠ List.range dataset.length ∨
        ¬ (dataset.map LabeledRow.timestamp).Pairwise (· ≤ ·) then
      .error (.valueError "dataset must already be sorted chronologically")
    else
      let uniqueTimes := (ordered.map LabeledRow.timestamp).eraseDups
      if uniqueTimes.length < (nSplits + 2) * 10 then
        .error (.valueError "insufficient unique timestamps for frozen walk-forward protocol")
      else do
        let holdoutBoundary ← timeAt uniqueTimes (keptCount uniqueTimes.length holdoutFraction)
        let developmentTimes := uniqueTimes.filter (· < holdoutBoundary)
        let folds ← (List.range nSplits.toNat).mapM
          (foldSplit ordered developmentTimes holdoutBoundary embargo nSplits.toNat)
        let holdout ← splitAt ordered holdoutBoundary embargo none "holdout"
        return (folds, holdout)

/-- A row with its place in the dataset. -/
abbrev PlacedRow := ℕ × LabeledRow

/-- `dataset.iloc[train_index].sort_values(["timestamp", "symbol"])`. -/
def trainSubset (dataset : List LabeledRow) (trainIndex : List ℕ) : List PlacedRow :=
  sorted (fun a b => rowLe a.2 b.2) (trainIndex.filterMap fun i => (dataset[i]?).map (i, ·))

/-- `split_fit_and_calibration` of a dataset with the default index. -/
def splitFitAndCalibration (dataset : List LabeledRow) (trainIndex : List ℕ)
    (calibrationFraction : ℚ) : Except MlError (List ℕ × List ℕ) :=
  if ¬ (1 / 10 ≤ calibrationFraction ∧ calibrationFraction ≤ 4 / 10) then
    .error (.valueError "calibration_fraction must be within [0.1, 0.4]")
  else
    let subset := trainSubset dataset trainIndex
    let uniqueTimes := (subset.map fun r => r.2.timestamp).eraseDups
    let cut := keptCount uniqueTimes.length calibrationFraction
    if cut < 10 ∨ uniqueTimes.length ≤ cut then
      .error (.valueError "insufficient train history for calibration tail")
    else do
      let boundary ← timeAt uniqueTimes cut
      let fitIndex := (subset.filter fun r => isTrain boundary r.2).map Prod.fst
      let calibrationIndex := (subset.filter fun r => boundary ≤ r.2.timestamp).map Prod.fst
      validateSplit dataset fitIndex calibrationIndex "fit/calibration"
      return (fitIndex, calibrationIndex)

/-! ## The sorted copy -/

variable {dataset ordered : List LabeledRow}

variable {i : ℕ}

theorem mem_positions {rows : List LabeledRow} {mask : LabeledRow → Bool} :
    i ∈ positions rows mask ↔ ∃ r, rows[i]? = some r ∧ mask r = true := by
  unfold positions
  rw [List.mem_filter, List.mem_range, Option.any_eq_true]
  constructor
  · rintro ⟨-, r, hr⟩
    exact ⟨r, hr⟩
  · rintro ⟨r, hr, hmask⟩
    exact ⟨(List.getElem?_eq_some_iff.mp hr).1, r, hr, hmask⟩

theorem timestamp_le_of_rowLe {a b : LabeledRow} (h : rowLe a b = true) :
    a.timestamp ≤ b.timestamp := by
  rcases Prod.Lex.toLex_le_toLex.mp (of_decide_eq_true h) with hlt | ⟨heq, -⟩
  · exact hlt.le
  · exact heq.le

/-- A dataset in order of time keeps its timestamps when it is sorted. -/
theorem ordered_times (h : (dataset.map LabeledRow.timestamp).Pairwise (· ≤ ·)) :
    (sorted rowLe dataset).map LabeledRow.timestamp = dataset.map LabeledRow.timestamp := by
  refine List.Perm.eq_of_pairwise' ?_ h ((List.perm_insertionSort _ dataset).map _)
  rw [List.pairwise_map]
  refine (pairwise_sorted rowLe ?_ ?_ dataset).imp timestamp_le_of_rowLe
  · intro a b
    simpa [rowLe] using le_total (toLex (a.timestamp, a.symbol)) (toLex (b.timestamp, b.symbol))
  · intro a b c hab hbc
    simp only [rowLe, decide_eq_true_eq] at hab hbc ⊢
    exact hab.trans hbc

/-- The dataset and its sorted copy have the same timestamp at each position. -/
def SameTimes (dataset ordered : List LabeledRow) : Prop :=
  ordered.map LabeledRow.timestamp = dataset.map LabeledRow.timestamp

theorem SameTimes.symm (h : SameTimes dataset ordered) : SameTimes ordered dataset := Eq.symm h

theorem SameTimes.getElem? (h : SameTimes dataset ordered) {a : LabeledRow}
    (ha : ordered[i]? = some a) : ∃ r, dataset[i]? = some r ∧ r.timestamp = a.timestamp := by
  have hi := congrArg (fun times : List ℤ => times[i]?) h
  simp only [List.getElem?_map, ha, Option.map_some] at hi
  exact Option.map_eq_some_iff.mp hi.symm

/-! ## The boundaries -/

theorem eraseDups_pairwise : ∀ {times : List ℤ}, times.Pairwise (· ≤ ·) →
    times.eraseDups.Pairwise (· < ·)
  | [], _ => by
    rw [List.eraseDups_nil]
    exact .nil
  | t :: times, h => by
    obtain ⟨hle, hrest⟩ := List.pairwise_cons.mp h
    rw [List.eraseDups_cons]
    refine List.pairwise_cons.mpr ⟨fun t' ht' => ?_, eraseDups_pairwise (hrest.sublist
      List.filter_sublist)⟩
    rw [List.mem_eraseDups, List.mem_filter] at ht'
    exact lt_of_le_of_ne (hle t' ht'.1) fun heq => by simp [heq] at ht'
termination_by times => times.length
decreasing_by exact Nat.lt_succ_of_le (List.length_filter_le _ _)

variable {times : List ℤ}

variable {t : ℤ}

theorem timeAt_ok : timeAt times i = .ok t ↔ times[i]? = some t := by
  unfold timeAt
  cases times[i]? with
  | none => exact ⟨fun h => (nomatch h), fun h => (nomatch h)⟩
  | some t' => exact ⟨fun h => by cases h; rfl, fun h => by cases h; rfl⟩

theorem filter_lt_getElem (h : times.Pairwise (· < ·)) {k : ℕ}
    (ht : times[k]? = some t) : times.filter (· < t) = times.take k := by
  obtain ⟨hk, rfl⟩ := List.getElem?_eq_some_iff.mp ht
  have hsplit := List.take_append_drop k times
  have hbefore : (times.take k).filter (· < times[k]) = times.take k := by
    rw [List.filter_eq_self]
    intro t ht
    obtain ⟨i, hi, rfl⟩ := List.mem_iff_getElem.mp ht
    rw [List.length_take] at hi
    rw [List.getElem_take, decide_eq_true_eq]
    exact List.pairwise_iff_getElem.mp h i k (by omega) hk (by omega)
  have hafter : (times.drop k).filter (· < times[k]) = [] := by
    rw [List.filter_eq_nil_iff]
    intro t ht
    obtain ⟨i, hi, rfl⟩ := List.mem_iff_getElem.mp ht
    rw [List.length_drop] at hi
    rw [List.getElem_drop, decide_eq_true_eq, not_lt]
    rcases Nat.eq_zero_or_pos i with rfl | hpos
    · exact le_rfl
    · exact (List.pairwise_iff_getElem.mp h k (k + i) hk (by omega) (by omega)).le
  calc times.filter (· < times[k])
      = (times.take k ++ times.drop k).filter (· < times[k]) := by rw [hsplit]
    _ = times.take k := by rw [List.filter_append, hbefore, hafter, List.append_nil]

/-- The boundary of a fold, or after the folds of the holdout. -/
def boundaryTime (dataset : List LabeledRow) (nSplits : ℕ) (holdoutFraction : ℚ) (k : ℕ) : Option ℤ :=
  let times := (dataset.map LabeledRow.timestamp).eraseDups
  times[linspace (keptCount times.length holdoutFraction) (nSplits + 2) (k + 1)]?

theorem linspace_mono (stop num : ℕ) {i j : ℕ} (h : i ≤ j) : linspace stop num i ≤ linspace stop num j :=
  Nat.div_le_div_right (Nat.mul_le_mul_right stop h)

theorem linspace_last (stop n : ℕ) : linspace stop (n + 2) (n + 1) = stop :=
  Nat.mul_div_cancel_left stop (Nat.succ_pos n)

variable {f : ℚ}

theorem boundaryTime_mono (h : (dataset.map LabeledRow.timestamp).Pairwise (· ≤ ·)) {n : ℕ}
    {k k' : ℕ} (hk : k ≤ k') {b b' : ℤ} (hb : boundaryTime dataset n f k = some b)
    (hb' : boundaryTime dataset n f k' = some b') : b ≤ b' := by
  unfold boundaryTime at hb hb'
  obtain ⟨hi, rfl⟩ := List.getElem?_eq_some_iff.mp hb
  obtain ⟨hj, rfl⟩ := List.getElem?_eq_some_iff.mp hb'
  rcases (linspace_mono (keptCount (dataset.map LabeledRow.timestamp).eraseDups.length f) (n + 2)
    (Nat.succ_le_succ hk)).eq_or_lt with heq | hlt
  · simp only [heq, le_refl]
  · exact (List.pairwise_iff_getElem.mp (eraseDups_pairwise h) _ _ hi hj hlt).le

/-! ## A split -/

theorem forall₂_of_mapM {ε α β : Type} {f : α → Except ε β} {r : α → β → Prop} {as : List α}
    {bs : List β} (hr : ∀ a ∈ as, ∀ b, f a = .ok b → r a b) (h : as.mapM f = .ok bs) :
    List.Forall₂ r as bs :=
  ((List.forall₂_and_left _ _).mpr ⟨fun _ => id, mapM_eq_ok.mp h⟩).imp fun a b hab =>
    hr a hab.1 b hab.2

/-- The split of the sorted copy at a boundary. -/
structure IsSplit (ordered : List LabeledRow) (boundary embargo : ℤ) (next : Option ℤ)
    (split : TournamentSplit) : Prop where
  train : split.trainIndex = positions ordered (isTrain boundary)
  test : split.testIndex = positions ordered (isTest (boundary + embargo) next)
  tested : split.testIndex ≠ []

variable {name : String}

theorem validateSplit_ok {train test : List ℕ}
    (h : validateSplit dataset train test name = .ok ()) : train ≠ [] ∧ test ≠ [] := by
  unfold validateSplit at h
  dsimp only at h
  split_ifs at h with hempty
  push Not at hempty
  exact hempty

variable {split : TournamentSplit}

theorem splitAt_ok {boundary embargo : ℤ} {next : Option ℤ}
    (h : splitAt ordered boundary embargo next name = .ok split) :
    IsSplit ordered boundary embargo next split := by
  unfold splitAt at h
  dsimp only at h
  obtain ⟨⟨⟩, hvalid, h⟩ := bind_eq_ok.mp h
  cases h
  exact ⟨rfl, rfl, (validateSplit_ok hvalid).2⟩

/-- The split with an index: a fold, or after them the holdout. -/
def IsSplitAt (dataset ordered : List LabeledRow) (n : ℕ) (f : ℚ) (embargo : ℤ) (k : ℕ)
    (split : TournamentSplit) : Prop :=
  ∃ boundary next, boundaryTime dataset n f k = some boundary ∧
    (k < n → ∃ b, next = some b ∧ boundaryTime dataset n f (k + 1) = some b) ∧
      (n ≤ k → next = none) ∧ IsSplit ordered boundary embargo next split

/-- A fold is the split at its boundary. -/
theorem foldSplit_ok {n k : ℕ} {embargo holdoutBoundary : ℤ}
    (htimes : times = (dataset.map LabeledRow.timestamp).eraseDups)
    (hordered : times.Pairwise (· < ·))
    (hholdout : times[keptCount times.length f]? = some holdoutBoundary) (hk : k < n)
    (h : foldSplit ordered (times.filter (· < holdoutBoundary)) holdoutBoundary embargo n k =
      .ok split) : IsSplitAt dataset ordered n f embargo k split := by
  have hlength : (times.take (keptCount times.length f)).length = keptCount times.length f := by
    have := (List.getElem?_eq_some_iff.mp hholdout).1
    rw [List.length_take]
    omega
  have hdevelopment : ∀ {i : ℕ} {t : ℤ},
      (times.take (keptCount times.length f))[i]? = some t → times[i]? = some t := by
    intro i t ht
    have hi := (List.getElem?_eq_some_iff.mp ht).1
    rw [List.length_take] at hi
    rwa [List.getElem?_take_of_lt (by omega)] at ht
  unfold foldSplit at h
  dsimp only at h
  rw [filter_lt_getElem hordered hholdout, hlength] at h
  obtain ⟨boundary, hboundary, h⟩ := bind_eq_ok.mp h
  obtain ⟨next, hnext, h⟩ := bind_eq_ok.mp h
  refine ⟨boundary, some next, ?_, fun _ => ⟨next, rfl, ?_⟩, fun hn => absurd hk (by omega),
    splitAt_ok h⟩
  · unfold boundaryTime
    rw [← htimes]
    exact hdevelopment (timeAt_ok.mp hboundary)
  · unfold boundaryTime
    rw [← htimes]
    unfold nextBoundary at hnext
    split at hnext
    · next hlast =>
      cases hnext
      rw [hlength] at hlast
      show times[linspace (keptCount times.length f) (n + 2) (k + 2)]? = some holdoutBoundary
      rw [hlast]
      exact hholdout
    · exact hdevelopment (timeAt_ok.mp hnext)

/-- The splits of a call are those at the boundaries of its dataset. -/
theorem expandingWalkForwardSplits_ok {nSplits : ℤ} {embargo : ℤ}
    {folds : List TournamentSplit} {holdout : TournamentSplit}
    (h : expandingWalkForwardSplits dataset nSplits f embargo = .ok (folds, holdout)) :
    (dataset.map LabeledRow.timestamp).Pairwise (· ≤ ·) ∧
      List.Forall₂ (IsSplitAt dataset (sorted rowLe dataset) nSplits.toNat f embargo)
        (List.range (nSplits.toNat + 1)) (folds ++ [holdout]) := by
  unfold expandingWalkForwardSplits at h
  dsimp only at h
  split_ifs at h with hargs hchronological hcount
  push Not at hchronological
  have hsorted := hchronological.2
  rw [ordered_times hsorted] at h
  obtain ⟨holdoutBoundary, hholdout, h⟩ := bind_eq_ok.mp h
  obtain ⟨folds', hfolds, h⟩ := bind_eq_ok.mp h
  obtain ⟨holdout', hsplit, h⟩ := bind_eq_ok.mp h
  cases h
  refine ⟨hsorted, ?_⟩
  rw [timeAt_ok] at hholdout
  rw [List.range_succ]
  refine List.rel_append ?_ (.cons ?_ .nil)
  · refine forall₂_of_mapM (fun k hk split hsplit => ?_) hfolds
    exact foldSplit_ok rfl (eraseDups_pairwise hsorted) hholdout (List.mem_range.mp hk) hsplit
  · refine ⟨holdoutBoundary, none, ?_, fun hlt => absurd hlt (lt_irrefl _), fun _ => rfl,
      splitAt_ok hsplit⟩
    unfold boundaryTime
    dsimp only
    rw [linspace_last]
    exact hholdout

/-! ## The rows that the caller uses -/

/-- Each row at the first positions is in the relation with each row at the others. -/
def Across (dataset : List LabeledRow) (r : LabeledRow → LabeledRow → Prop) (before after : List ℕ) :
    Prop :=
  ∀ i ∈ before, ∀ j ∈ after, ∃ a b, dataset[i]? = some a ∧ dataset[j]? = some b ∧ r a b

def Earlier (a b : LabeledRow) : Prop := a.timestamp < b.timestamp

/-- The label of the row ends before the other row. -/
def EndsBefore (a b : LabeledRow) : Prop := ∃ e, a.labelEndTime = some e ∧ e < b.timestamp

/-- What splits into the past and the future are, at the rows of the given dataset. -/
structure PastOnly (dataset : List LabeledRow) (folds : List TournamentSplit)
    (holdout : TournamentSplit) : Prop where
  purged : ∀ split ∈ folds ++ [holdout], Across dataset EndsBefore split.trainIndex split.testIndex
  sides : ∀ split ∈ folds ++ [holdout], Across dataset Earlier split.trainIndex split.testIndex
  /-- Simultaneous rows are tested together. -/
  together : ∀ split ∈ folds ++ [holdout], ∀ i j a b, dataset[i]? = some a → dataset[j]? = some b →
    a.timestamp = b.timestamp → (i ∈ split.testIndex ↔ j ∈ split.testIndex)
  inOrder : (folds ++ [holdout]).Pairwise fun split later =>
    split.testIndex.Disjoint later.testIndex ∧ Across dataset Earlier split.testIndex later.testIndex
  unused : ∀ split ∈ folds, ∀ i ∈ holdout.testIndex, i ∉ split.trainIndex ∧ i ∉ split.testIndex
  calibrated : ∀ split ∈ folds ++ [holdout], ∀ fraction fitIndex calibrationIndex,
    splitFitAndCalibration dataset split.trainIndex fraction = .ok (fitIndex, calibrationIndex) →
      Across dataset EndsBefore fitIndex calibrationIndex

/-- A row that stands at the place of a row to train on has a label that ends before the rows after
the embargo. -/
def LabelsKept (dataset : List LabeledRow) (boundary embargo : ℤ) : Prop :=
  ∀ (i : ℕ) (a r : LabeledRow), (sorted rowLe dataset)[i]? = some a → dataset[i]? = some r → isTrain boundary a = true →
    ∃ e, r.labelEndTime = some e ∧ ∀ t ∈ dataset, boundary + embargo ≤ t.timestamp → e < t.timestamp

section Splits

variable {boundary embargo : ℤ} {next : Option ℤ} {split : TournamentSplit}

variable {r : LabeledRow}

theorem isTrain_timestamp (h : isTrain boundary r = true) : r.timestamp < boundary := by
  simp only [isTrain, Bool.and_eq_true, decide_eq_true_eq] at h
  exact h.1

theorem isTest_iff {start : ℤ} : isTest start next r = true ↔
    start ≤ r.timestamp ∧ ∀ t, next = some t → r.timestamp < t := by
  cases next with
  | none => simp [isTest]
  | some t => simp [isTest]

variable {i : ℕ}

/-- The rows of the given dataset at the positions of a test set. -/
theorem IsSplit.mem_test (h : IsSplit ordered boundary embargo next split)
    (hsame : SameTimes dataset ordered) : i ∈ split.testIndex ↔
      ∃ r, dataset[i]? = some r ∧ isTest (boundary + embargo) next r = true := by
  rw [h.test, mem_positions]
  constructor
  · rintro ⟨a, ha, htest⟩
    obtain ⟨r, hr, htime⟩ := hsame.getElem? ha
    refine ⟨r, hr, ?_⟩
    rw [isTest_iff, htime]
    exact isTest_iff.mp htest
  · rintro ⟨r, hr, htest⟩
    obtain ⟨a, ha, htime⟩ := hsame.symm.getElem? hr
    refine ⟨a, ha, ?_⟩
    rw [isTest_iff, htime]
    exact isTest_iff.mp htest

theorem IsSplit.mem_train (h : IsSplit ordered boundary embargo next split)
    (hsame : SameTimes dataset ordered) (hi : i ∈ split.trainIndex) :
    ∃ r, dataset[i]? = some r ∧ r.timestamp < boundary := by
  rw [h.train, mem_positions] at hi
  obtain ⟨a, ha, htrain⟩ := hi
  obtain ⟨r, hr, htime⟩ := hsame.getElem? ha
  exact ⟨r, hr, htime ▸ isTrain_timestamp htrain⟩

/-- **A split** is purged exactly when the labels of its boundary are kept. -/
theorem IsSplit.purged_iff (h : IsSplit (sorted rowLe dataset) boundary embargo next split)
    (hsame : SameTimes dataset (sorted rowLe dataset)) :
    Across dataset EndsBefore split.trainIndex split.testIndex ↔
      LabelsKept dataset boundary embargo := by
  constructor
  · intro hpurged i a r ha hr htrain
    have hi : i ∈ split.trainIndex := by
      rw [h.train, mem_positions]
      exact ⟨a, ha, htrain⟩
    obtain ⟨j, hj⟩ := List.exists_mem_of_ne_nil _ h.tested
    obtain ⟨r', b, hr', hb, e, hlabel, he⟩ := hpurged i hi j hj
    rw [hr] at hr'
    cases hr'
    refine ⟨e, hlabel, fun t ht hstart => ?_⟩
    obtain ⟨k, hk⟩ := List.mem_iff_getElem?.mp ht
    by_cases hnext : ∀ limit, next = some limit → t.timestamp < limit
    · obtain ⟨r'', t', hr'', ht', e', hlabel', he'⟩ :=
        hpurged i hi k ((h.mem_test hsame).mpr ⟨t, hk, isTest_iff.mpr ⟨hstart, hnext⟩⟩)
      rw [hr] at hr''
      rw [hk] at ht'
      cases hr''
      cases ht'
      rw [hlabel] at hlabel'
      cases hlabel'
      exact he'
    · -- a row after the test set is after the one that is in it
      push Not at hnext
      obtain ⟨limit, hlimit, hafter⟩ := hnext
      obtain ⟨b', hb', htest⟩ := (h.mem_test hsame).mp hj
      rw [hb] at hb'
      cases hb'
      exact (he.trans ((isTest_iff.mp htest).2 limit hlimit)).trans_le hafter
  · intro hkept i hi j hj
    rw [h.train, mem_positions] at hi
    obtain ⟨a, ha, htrain⟩ := hi
    obtain ⟨r, hr, -⟩ := hsame.getElem? ha
    obtain ⟨b, hb, htest⟩ := (h.mem_test hsame).mp hj
    obtain ⟨e, hlabel, hbefore⟩ := hkept i a r ha hr htrain
    exact ⟨r, b, hr, hb, e, hlabel, hbefore b (List.mem_of_getElem? hb) (isTest_iff.mp htest).1⟩

theorem IsSplit.sides (h : IsSplit ordered boundary embargo next split)
    (hsame : SameTimes dataset ordered) (hembargo : 0 ≤ embargo) :
    Across dataset Earlier split.trainIndex split.testIndex := by
  intro i hi j hj
  obtain ⟨a, ha, hbefore⟩ := h.mem_train hsame hi
  obtain ⟨b, hb, htest⟩ := (h.mem_test hsame).mp hj
  refine ⟨a, b, ha, hb, ?_⟩
  have := (isTest_iff.mp htest).1
  show a.timestamp < b.timestamp
  omega

theorem IsSplit.together (h : IsSplit ordered boundary embargo next split)
    (hsame : SameTimes dataset ordered) {i j : ℕ} {a b : LabeledRow} (ha : dataset[i]? = some a)
    (hb : dataset[j]? = some b) (htime : a.timestamp = b.timestamp) :
    i ∈ split.testIndex ↔ j ∈ split.testIndex := by
  have hrows : ∀ {i : ℕ} {a : LabeledRow}, dataset[i]? = some a →
      (i ∈ split.testIndex ↔ isTest (boundary + embargo) next a = true) := by
    intro i a ha
    rw [h.mem_test hsame]
    exact ⟨fun ⟨r, hr, htest⟩ => (Option.some.inj (ha.symm.trans hr)) ▸ htest, fun h => ⟨a, ha, h⟩⟩
  rw [hrows ha, hrows hb, isTest_iff, isTest_iff, htime]

end Splits

/-! ## Calibration -/

theorem mem_trainSubset {trainIndex : List ℕ} {p : PlacedRow}
    (h : p ∈ trainSubset dataset trainIndex) : dataset[p.1]? = some p.2 := by
  unfold trainSubset at h
  rw [mem_sorted, List.mem_filterMap] at h
  obtain ⟨i, -, hp⟩ := h
  obtain ⟨r, hr, rfl⟩ := Option.map_eq_some_iff.mp hp
  exact hr

/-- The labels of the rows to fit on end before the rows to calibrate on. -/
theorem splitFitAndCalibration_endsBefore {trainIndex fitIndex calibrationIndex : List ℕ}
    {fraction : ℚ} (h : splitFitAndCalibration dataset trainIndex fraction =
      .ok (fitIndex, calibrationIndex)) : Across dataset EndsBefore fitIndex calibrationIndex := by
  unfold splitFitAndCalibration at h
  dsimp only at h
  split_ifs at h with hfraction hcut
  obtain ⟨boundary, -, h⟩ := bind_eq_ok.mp h
  obtain ⟨⟨⟩, -, h⟩ := bind_eq_ok.mp h
  cases h
  intro i hi j hj
  obtain ⟨⟨i, a⟩, ha, rfl⟩ := List.mem_map.mp hi
  obtain ⟨⟨j, b⟩, hb, rfl⟩ := List.mem_map.mp hj
  rw [List.mem_filter] at ha hb
  have htrain := ha.2
  have htest := hb.2
  simp only [isTrain, Bool.and_eq_true, Option.any_eq_true, decide_eq_true_eq] at htrain htest
  obtain ⟨-, e, hlabel, he⟩ := htrain
  exact ⟨a, b, mem_trainSubset ha.1, mem_trainSubset hb.1, e, hlabel, he.trans_le htest⟩

/-! ## Every split -/

section Runs

variable {nSplits : ℤ} {f : ℚ} {embargo : ℤ} {folds : List TournamentSplit}
  {holdout : TournamentSplit} {n : ℕ}

variable {k k' : ℕ} {split later : TournamentSplit}

/-- The test set of a split is before that of a later one. -/
theorem IsSplitAt.earlier (hsorted : (dataset.map LabeledRow.timestamp).Pairwise (· ≤ ·))
    (hsame : SameTimes dataset ordered) (hembargo : 0 ≤ embargo)
    (hk : k < k') (hk' : k' ≤ n)
    (h : IsSplitAt dataset ordered n f embargo k split)
    (h' : IsSplitAt dataset ordered n f embargo k' later) :
    Across dataset Earlier split.testIndex later.testIndex := by
  obtain ⟨boundary, next, -, hnext, -, hsplit⟩ := h
  obtain ⟨boundary', next', hboundary', -, -, hlater⟩ := h'
  obtain ⟨limit, rfl, hlimit⟩ := hnext (by omega)
  intro i hi j hj
  obtain ⟨a, ha, htest⟩ := (hsplit.mem_test hsame).mp hi
  obtain ⟨b, hb, htest'⟩ := (hlater.mem_test hsame).mp hj
  refine ⟨a, b, ha, hb, ?_⟩
  calc a.timestamp < limit := (isTest_iff.mp htest).2 limit rfl
    _ ≤ boundary' := boundaryTime_mono hsorted hk hlimit hboundary'
    _ ≤ boundary' + embargo := by omega
    _ ≤ b.timestamp := (isTest_iff.mp htest').1

theorem Across.disjoint {before after : List ℕ} (h : Across dataset Earlier before after) :
    before.Disjoint after := by
  intro i hi hi'
  obtain ⟨a, b, ha, hb, hlt⟩ := h i hi i hi'
  rw [ha] at hb
  cases hb
  exact absurd hlt (lt_irrefl _)

/-- No row that a fold trains on is tested after a later boundary. -/
theorem IsSplitAt.not_mem_train (hsorted : (dataset.map LabeledRow.timestamp).Pairwise (· ≤ ·))
    (hsame : SameTimes dataset ordered) (hembargo : 0 ≤ embargo)
    (hk : k ≤ k')
    (h : IsSplitAt dataset ordered n f embargo k split)
    (h' : IsSplitAt dataset ordered n f embargo k' later) {i : ℕ} (hi : i ∈ later.testIndex) :
    i ∉ split.trainIndex := by
  intro htrain
  obtain ⟨boundary, next, hboundary, -, -, hsplit⟩ := h
  obtain ⟨boundary', next', hboundary', -, -, hlater⟩ := h'
  obtain ⟨a, ha, hbefore⟩ := hsplit.mem_train hsame htrain
  obtain ⟨b, hb, htest⟩ := (hlater.mem_test hsame).mp hi
  rw [ha] at hb
  cases hb
  have hle := boundaryTime_mono hsorted hk hboundary hboundary'
  have hstart := (isTest_iff.mp htest).1
  omega

theorem forall₂_forall_iff {α β : Type} {r : α → β → Prop} {p : α → Prop} {q : β → Prop}
    {as : List α} {bs : List β} (h : List.Forall₂ r as bs) (hr : ∀ a b, r a b → (p a ↔ q b)) :
    (∀ a ∈ as, p a) ↔ ∀ b ∈ bs, q b := by
  induction h with
  | nil => simp
  | @cons a b as bs hab _ ih => rw [List.forall_mem_cons, List.forall_mem_cons, ih, hr a b hab]

/-- The labels of each boundary of a call are kept. -/
def AllLabelsKept (dataset : List LabeledRow) (nSplits : ℤ) (holdoutFraction : ℚ) (embargo : ℤ) :
    Prop :=
  ∀ k ∈ List.range (nSplits.toNat + 1), ∀ boundary,
    boundaryTime dataset nSplits.toNat holdoutFraction k = some boundary →
      LabelsKept dataset boundary embargo

/-- What holds of the splits of every call. -/
theorem forall_splits {p : TournamentSplit → Prop}
    (h : expandingWalkForwardSplits dataset nSplits f embargo = .ok (folds, holdout))
    (hp : ∀ k split, IsSplitAt dataset (sorted rowLe dataset) nSplits.toNat f embargo k split →
      p split) : ∀ split ∈ folds ++ [holdout], p split := by
  intro split hsplit
  obtain ⟨k, -, hk⟩ := exists_of_forall₂ (expandingWalkForwardSplits_ok h).2 hsplit
  exact hp k split hk

end Runs

/-! ## Rows in another order -/

/-- A row at each of forty times. Its label ends before the next one. -/
def steadyRows : List LabeledRow :=
  (List.range 40).map fun (i : ℕ) => ⟨10 * i, some (10 * i + 1), "BTCUSDT"⟩

/-- The same rows, and before the tenth of them one at its time with a long label. -/
def swappedRows : List LabeledRow :=
  steadyRows.take 9 ++ ⟨90, some 1000, "ETHUSDT"⟩ :: steadyRows.drop 9

/-- The folds of these rows. -/
def swappedFolds : List TournamentSplit :=
  [⟨"fold-0", List.range 10, (List.range 11).map (· + 11)⟩,
    ⟨"fold-1", List.range 10 ++ (List.range 11).map (· + 11), (List.range 11).map (· + 22)⟩]

/-- Their holdout. -/
def swappedHoldout : TournamentSplit :=
  ⟨"holdout", List.range 10 ++ (List.range 22).map (· + 11), (List.range 8).map (· + 33)⟩

theorem swappedRows_splits :
    expandingWalkForwardSplits swappedRows 2 (1 / 5) 0 = .ok (swappedFolds, swappedHoldout) := by
  decide +kernel

end Greenfield.Ml
