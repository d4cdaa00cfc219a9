import Greenfield.Lib.Run
import Greenfield.Research.WalkForward
import Mathlib.Algebra.Order.Ring.Rat
import Mathlib.Tactic.NormNum

/-!
# The frozen holdout

What `_run_hypothesis` of `src/research/orchestrator.py` does up to its walk-forward windows, and
the trial ledger. A cycle cuts the last days off the history that it finds, so its windows stay
out of the holdout of that history, but those of a later cycle reach into it as the history
grows, and no cycle asks the ledger. When they do not is told by the dates alone
(`holdout_kept_iff`).
-/

namespace Greenfield.Research

open Py

/-! ## Data sets -/

structure Kline where
  timestamp : Int
  openPrice : ℚ
  high : ℚ
  low : ℚ
  close : ℚ
  deriving DecidableEq

/-- The rows of all partitions, by symbol and timeframe. -/
abbrev KlineStore := String → String → List Kline

/-- `read_klines`. -/
def readKlines (data : KlineStore) (symbol timeframe : String) (start stop : Option Int) :
    List Kline :=
  (sorted (fun a b => decide (a.timestamp ≤ b.timestamp)) (data symbol timeframe)).filter
    fun bar => start.all (fun s => decide (s ≤ bar.timestamp)) &&
      stop.all fun s => decide (bar.timestamp ≤ s)

/-- `TIMEFRAME_MS`. -/
def timeframeMs : String → Option Int
  | "1m" => some 60000
  | "5m" => some (5 * 60000)
  | "15m" => some (15 * 60000)
  | "1h" => some (60 * 60000)
  | "4h" => some (4 * 60 * 60000)
  | "1d" => some (24 * 60 * 60000)
  | _ => none

/-- `check_missing_candles`, of the step in milliseconds: whether there are none. -/
def noMissingCandles (df : List Kline) (step : Int) : Bool :=
  (df.zip df.tail).all fun (a, b) => b.timestamp - a.timestamp ≤ 1000 * step

/-- `check_duplicates`: whether there are none. -/
def noDuplicates (df : List Kline) : Bool := (df.map (·.timestamp)).Nodup

/-- `check_anomalous_prices`: whether there are none. -/
def noAnomalousPrices (df : List Kline) (maxAbsReturn : ℚ) : Bool :=
  ((df.zip df.tail).all fun (a, b) => |b.close / a.close - 1| ≤ maxAbsReturn) &&
    df.all fun bar => decide (bar.low ≤ bar.high) &&
      [bar.openPrice, bar.high, bar.low, bar.close].all (0 < ·)

/-- `is_valid` of `validate_dataset`, for sorted rows with UTC timestamps. -/
def isValid (df : List Kline) (timeframe : String) : Except PyError Bool :=
  match timeframeMs timeframe with
  | none => .error (.keyError timeframe)
  | some step => .ok (noMissingCandles df step && noDuplicates df &&
      noAnomalousPrices df (if timeframe = "1d" then 3 / 4 else 1 / 2))

/-! ## Hypotheses -/

structure DataSplitConfig where
  trainDays : Int
  validationDays : Int
  testDays : Int
  maxLookbackDays : Option Int := none

structure HoldoutConfig where
  enabled : Bool
  holdoutId : String
  days : Int

/-- The protocol, with what the walk-forward run reads of it. -/
structure SplitProtocol extends ResearchProtocol where
  dataSplit : DataSplitConfig
  holdout : HoldoutConfig

/-- Why a hypothesis has no windows: the cycle raises, or the trial fails. -/
inductive Halt where
  | raised (e : PyError)
  | failed (reason : String)
  deriving DecidableEq

def orRaise {α : Type} : Except PyError α → Except Halt α
  | .ok a => .ok a
  | .error e => .error (.raised e)

/-- A data set up to `asOf`, if there is one and it is valid. -/
def checkDataset (data : KlineStore) (asOf : Int) (symbol timeframe missing invalid : String) :
    Except Halt (List Kline) := do
  let df := readKlines data symbol timeframe none (some asOf)
  if df.isEmpty then throw (.failed missing)
  if !(← orRaise (isValid df timeframe)) then throw (.failed invalid)
  return df

/-- The data set of a hypothesis. The data that confirm it are checked as well. -/
def checkedData (data : KlineStore) (asOf : Int) (qh : QueuedHypothesis) :
    Except Halt (List Kline) := do
  let symbol := qh.symbols.headD ""
  let timeframe := qh.timeframes.headD ""
  let df ← checkDataset data asOf symbol timeframe "no data available for this symbol/timeframe"
    "data quality check failed (gaps/duplicates/non-UTC/anomalous prices)"
  let _ ← qh.referenceSymbol.toList.mapM fun reference =>
    checkDataset data asOf reference timeframe
      ("no data available for reference symbol " ++ reference ++ "/" ++ timeframe)
      ("data quality check failed for reference symbol " ++ reference)
  let _ ← qh.higherTimeframe.toList.mapM fun higher =>
    checkDataset data asOf symbol higher
      ("no data available for confirming timeframe " ++ symbol ++ "/" ++ higher)
      ("data quality check failed for confirming timeframe " ++ symbol ++ "/" ++ higher)
  return df

/-- `_clip_lookback`. -/
def clipLookback (earliestAvailable stop : Int) (maxLookbackDays : Option Int) : Int :=
  match maxLookbackDays with
  | none => earliestAvailable
  | some days => max earliestAvailable (stop - days * microsPerDay)

/-- `df["timestamp"].max()` and `df["timestamp"].min()`. -/
def latest (df : List Kline) : Int := (df.map (·.timestamp)).max?.getD 0

def earliest (df : List Kline) : Int := (df.map (·.timestamp)).min?.getD 0

/-- The end of what the windows may cover: the holdout is cut off. -/
def windowsStop (protocol : SplitProtocol) (df : List Kline) : Int :=
  if protocol.holdout.enabled then latest df - protocol.holdout.days * microsPerDay else latest df

def windowsStart (protocol : SplitProtocol) (df : List Kline) : Int :=
  clipLookback (earliest df) (windowsStop protocol df) protocol.dataSplit.maxLookbackDays

/-- The call of `generate_windows`. -/
def dataWindows (protocol : SplitProtocol) (df : List Kline) :
    Except PyError (List WalkForwardWindow) :=
  generateWindows (windowsStart protocol df) (windowsStop protocol df)
    (protocol.dataSplit.trainDays * microsPerDay) (protocol.dataSplit.validationDays * microsPerDay)
    (protocol.dataSplit.testDays * microsPerDay)

/-- `_run_hypothesis`, up to its windows. -/
def hypothesisWindows (protocol : SplitProtocol) (data : KlineStore) (asOf : Int)
    (qh : QueuedHypothesis) : Except Halt (List WalkForwardWindow) :=
  match checkedData data asOf qh with
  | .error halt => .error halt
  | .ok df =>
    match dataWindows protocol df with
    | .error e => .error (.raised e)
    | .ok [] => .error (.failed "insufficient history for train/validation/test windows")
    | .ok windows => .ok windows

/-! ## The ledger -/

inductive TrialStatus where
  | pending
  | running
  | passed
  | failedGate
  | error
  | rejected
  deriving DecidableEq

structure TrialRecord where
  hypothesisId : String
  family : String
  status : TrialStatus
  holdoutUsed : Bool := false
  holdoutId : Option String := none

/-- `holdout_already_used`. -/
def holdoutAlreadyUsed (ledger : List TrialRecord) (family holdoutId : String) : Bool :=
  ledger.any fun row => row.family = family && row.holdoutId = some holdoutId && row.holdoutUsed

/-! ## Cycles -/

structure ResearchState where
  data : KlineStore
  ledger : List TrialRecord

/-- What happens to the history and the ledger. A cycle runs some first hypotheses of its queue,
until its budget is spent. -/
inductive ResearchStep where
  /-- New rows of the history. -/
  | download (rows : KlineStore)
  /-- A trial that another runner records. -/
  | record (trial : TrialRecord)
  /-- `outcome` is what the backtests over the windows come to, if they do not raise. -/
  | cycle (asOf : Int) (started : Nat)
      (outcome : QueuedHypothesis → List WalkForwardWindow → Option TrialStatus)

def isRaised {α : Type} : Except Halt α → Bool
  | .error (.raised _) => true
  | _ => false

/-- The hypotheses that a cycle runs. -/
def startedHypotheses (protocol : SplitProtocol) (s : ResearchState) (asOf : Int) (started : Nat) :
    List QueuedHypothesis :=
  ((buildHypothesisQueue protocol.toResearchProtocol 1).queued.take started).takeWhile fun qh =>
    !isRaised (hypothesisWindows protocol s.data asOf qh)

/-- The record of a hypothesis that has run. -/
def trialOf (windows : Except Halt (List WalkForwardWindow))
    (outcome : List WalkForwardWindow → Option TrialStatus) (qh : QueuedHypothesis) :
    Option TrialRecord :=
  match windows with
  | .error _ => some { hypothesisId := qh.hypothesisId, family := qh.family, status := .failedGate }
  | .ok windows => (outcome windows).map fun status =>
    { hypothesisId := qh.hypothesisId, family := qh.family, status := status }

def ResearchState.step (protocol : SplitProtocol) (s : ResearchState) :
    ResearchStep → ResearchState
  | .download rows =>
    { s with data := fun symbol timeframe => s.data symbol timeframe ++ rows symbol timeframe }
  | .record trial => { s with ledger := s.ledger ++ [trial] }
  | .cycle asOf started outcome =>
    { s with
      ledger := s.ledger ++ (startedHypotheses protocol s asOf started).filterMap fun qh =>
        trialOf (hypothesisWindows protocol s.data asOf qh) (outcome qh) qh }

/-! ## The frozen holdout -/

/-- The data sets that the backtests of a hypothesis load. -/
def QueuedHypothesis.datasets (qh : QueuedHypothesis) : List (String × String) :=
  let symbol := qh.symbols.headD ""
  let timeframe := qh.timeframes.headD ""
  (symbol, timeframe) :: (qh.referenceSymbol.toList.map (·, timeframe) ++
    qh.higherTimeframe.toList.map (symbol, ·))

/-- The most recent days of the history that is there at `asOf`. -/
def frozenHoldout (protocol : SplitProtocol) (data : KlineStore) (asOf : Int) : KlineStore :=
  fun symbol timeframe =>
    let df := readKlines data symbol timeframe none (some asOf)
    if protocol.holdout.enabled then
      df.filter fun bar => latest df - protocol.holdout.days * microsPerDay < bar.timestamp
    else []

section

variable (protocol : SplitProtocol) (frozen : KlineStore)

/-- No bar of the holdout is in a window of the cycle, from its train to its test period, unless
the holdout is recorded as used. -/
def HoldoutKept (s : ResearchState) : ResearchStep → Prop
  | .cycle asOf started _ => ∀ qh ∈ startedHypotheses protocol s asOf started,
    holdoutAlreadyUsed s.ledger qh.family protocol.holdout.holdoutId = true ∨
      ∀ windows, hypothesisWindows protocol s.data asOf qh = .ok windows →
        ∀ dataset ∈ qh.datasets, ∀ bar ∈ frozen dataset.1 dataset.2, ∀ w ∈ windows,
          bar ∉ readKlines s.data dataset.1 dataset.2 (some w.trainStart) (some w.testEnd)
  | _ => True

/-- There is no time for a window, or the bars of the holdout are before the history that the
windows may cover or after the end of their last test. -/
def OutOfReach (qh : QueuedHypothesis) (df : List Kline) : Prop :=
  let start := windowsStart protocol df
  let stop := windowsStop protocol df
  let train := protocol.dataSplit.trainDays * microsPerDay
  let validation := protocol.dataSplit.validationDays * microsPerDay
  let test := protocol.dataSplit.testDays * microsPerDay
  stop < start + train + validation + test ∨
    ∀ dataset ∈ qh.datasets, ∀ bar ∈ frozen dataset.1 dataset.2,
      bar.timestamp < start ∨ lastTestEnd start stop train validation test < bar.timestamp

/-- The data that a hypothesis of the cycle runs on put the holdout out of its reach. -/
def HoldoutAvoided (s : ResearchState) : ResearchStep → Prop
  | .cycle asOf started _ => ∀ qh ∈ startedHypotheses protocol s asOf started,
    holdoutAlreadyUsed s.ledger qh.family protocol.holdout.holdoutId = true ∨
      ∀ df, checkedData s.data asOf qh = .ok df → OutOfReach protocol frozen qh df
  | _ => True

end

/-! ## Windows of a hypothesis -/

variable {protocol : SplitProtocol} {data : KlineStore} {asOf : Int} {qh : QueuedHypothesis}

variable {bar : Kline} {symbol timeframe : String}

theorem mem_readKlines {start stop : Int} :
    bar ∈ readKlines data symbol timeframe (some start) (some stop) ↔
      bar ∈ data symbol timeframe ∧ start ≤ bar.timestamp ∧ bar.timestamp ≤ stop := by
  unfold readKlines
  rw [List.mem_filter, mem_sorted]
  simp

theorem mem_of_frozen
    (h : bar ∈ frozenHoldout protocol data asOf symbol timeframe) : bar ∈ data symbol timeframe := by
  unfold frozenHoldout at h
  simp only at h
  split at h
  · exact mem_sorted.mp (List.mem_filter.mp (List.mem_filter.mp h).1).1
  · cases h

variable {windows : List WalkForwardWindow}

/-- The windows of a hypothesis are those of the loop over its data. -/
theorem hypothesisWindows_eq_ok :
    hypothesisWindows protocol data asOf qh = .ok windows ↔ ∃ df,
      checkedData data asOf qh = .ok df ∧ dataWindows protocol df = .ok windows ∧ windows ≠ [] := by
  unfold hypothesisWindows
  cases checkedData data asOf qh with
  | error halt => simp
  | ok df =>
    simp only [Except.ok.injEq, exists_eq_left']
    split
    · next h => simp [h]
    · next h =>
      rw [h]
      refine ⟨fun hfailed => ?_, ?_⟩
      · cases hfailed
      · rintro ⟨hnil, hne⟩
        cases hnil
        exact absurd rfl hne
    · next ws hne h =>
      rw [h]
      constructor
      · intro hws
        cases hws
        exact ⟨rfl, hne⟩
      · rintro ⟨hws, -⟩
        cases hws
        rfl

variable {df : List Kline}

/-- A hypothesis with data that are fine raises unless its periods are positive. -/
theorem isRaised_eq_false_iff (h : checkedData data asOf qh = .ok df) :
    isRaised (hypothesisWindows protocol data asOf qh) = false ↔
      0 < protocol.dataSplit.trainDays * microsPerDay ∧
        0 < protocol.dataSplit.validationDays * microsPerDay ∧
          0 < protocol.dataSplit.testDays * microsPerDay := by
  unfold hypothesisWindows dataWindows generateWindows
  rw [h]
  by_cases hperiods : protocol.dataSplit.trainDays * microsPerDay ≤ 0 ∨
      protocol.dataSplit.validationDays * microsPerDay ≤ 0 ∨
        protocol.dataSplit.testDays * microsPerDay ≤ 0
  · simp only [dif_pos hperiods]
    refine ⟨fun hraised => ?_, fun _ => by omega⟩
    cases hraised
  · simp only [dif_neg hperiods]
    refine ⟨fun _ => by omega, fun _ => ?_⟩
    split
    · next hwindows => cases hwindows
    · rfl
    · rfl

/-- The windows of a hypothesis stay out of the bars of the holdout exactly when these are out of
its reach. -/
theorem avoids_iff {frozen : KlineStore}
    (h : checkedData data asOf qh = .ok df)
    (hraised : isRaised (hypothesisWindows protocol data asOf qh) = false)
    (hfrozen : ∀ symbol timeframe, ∀ bar ∈ frozen symbol timeframe, bar ∈ data symbol timeframe) :
    (∀ windows, hypothesisWindows protocol data asOf qh = .ok windows →
      ∀ dataset ∈ qh.datasets, ∀ bar ∈ frozen dataset.1 dataset.2, ∀ w ∈ windows,
        bar ∉ readKlines data dataset.1 dataset.2 (some w.trainStart) (some w.testEnd)) ↔
      OutOfReach protocol frozen qh df := by
  obtain ⟨htrain, hvalidation, htest⟩ := (isRaised_eq_false_iff h).mp hraised
  have hdata : dataWindows protocol df = .ok (slideWindows (windowsStart protocol df)
      (windowsStop protocol df) (protocol.dataSplit.trainDays * microsPerDay)
      (protocol.dataSplit.validationDays * microsPerDay)
      (protocol.dataSplit.testDays * microsPerDay) htest) := by
    unfold dataWindows generateWindows
    rw [dif_neg (by omega)]
  have hcovered := covered_iff (windowsStart protocol df) (windowsStop protocol df) htest htrain
    hvalidation
  unfold OutOfReach
  constructor
  · intro hkept
    by_cases hroom : windowsStop protocol df < windowsStart protocol df +
        protocol.dataSplit.trainDays * microsPerDay +
        protocol.dataSplit.validationDays * microsPerDay + protocol.dataSplit.testDays * microsPerDay
    · exact .inl hroom
    · refine .inr fun dataset hdataset bar hbar => ?_
      by_contra hreach
      obtain ⟨w, hw, hfrom, hto⟩ := (hcovered bar.timestamp).mpr (by omega)
      refine hkept _ (hypothesisWindows_eq_ok.mpr ⟨df, h, hdata, List.ne_nil_of_mem hw⟩) dataset
        hdataset bar hbar w hw ?_
      exact mem_readKlines.mpr ⟨hfrozen _ _ bar hbar, hfrom, hto⟩
  · intro hreach windows hwindows dataset hdataset bar hbar w hw hmem
    obtain ⟨df', hdf', hdata', -⟩ := hypothesisWindows_eq_ok.mp hwindows
    rw [h] at hdf'
    cases hdf'
    rw [hdata] at hdata'
    cases hdata'
    obtain ⟨-, hfrom, hto⟩ := mem_readKlines.mp hmem
    obtain ⟨hroom, hstart, hlast⟩ := (hcovered bar.timestamp).mp ⟨w, hw, hfrom, hto⟩
    rcases hreach with hshort | hout
    · omega
    · have := hout dataset hdataset bar hbar
      omega

/-! ## Runs -/

/-- **The holdout.** In a run from the state of the first cycle, every later cycle keeps its
windows out of the holdout exactly when the data that it runs on put the holdout out of reach. -/
theorem holdout_kept_iff (protocol : SplitProtocol) (first : ResearchState) (firstAsOf : Int)
    (steps : List ResearchStep) :
    Runs.Meets (ResearchState.step protocol)
        (HoldoutKept protocol (frozenHoldout protocol first.data firstAsOf)) first steps ↔
      Runs.Meets (ResearchState.step protocol)
        (HoldoutAvoided protocol (frozenHoldout protocol first.data firstAsOf)) first steps := by
  refine Runs.meets_congr (I := fun s => ∀ symbol timeframe,
    ∀ bar ∈ frozenHoldout protocol first.data firstAsOf symbol timeframe,
      bar ∈ s.data symbol timeframe) ?_ ?_ steps fun _ _ _ => mem_of_frozen
  · intro s i h _ symbol timeframe bar hbar
    cases i with
    | download rows => exact List.mem_append_left _ (h symbol timeframe bar hbar)
    | record trial => exact h symbol timeframe bar hbar
    | cycle asOf started outcome => exact h symbol timeframe bar hbar
  · intro s i h
    cases i with
    | cycle asOf started outcome =>
      refine forall₂_congr fun qh hqh => or_congr_right ?_
      have hraised : isRaised (hypothesisWindows protocol s.data asOf qh) = false := by
        simpa using List.all_eq_true.mp List.all_takeWhile qh hqh
      cases hchecked : checkedData s.data asOf qh with
      | ok df => simpa using avoids_iff hchecked hraised h
      | error halt =>
        have hnone : ∀ windows, hypothesisWindows protocol s.data asOf qh ≠ .ok windows := by
          intro windows hwindows
          obtain ⟨df, hdf, -⟩ := hypothesisWindows_eq_ok.mp hwindows
          rw [hchecked] at hdf
          cases hdf
        simp [hnone]
    | _ => exact Iff.rfl

/-! ## Two cycles -/

/-- The protocol of `configs/research_protocol.yaml` for one family, symbol and timeframe. -/
def shippedProtocol : SplitProtocol where
  market := ⟨["BTCUSDT"], ["1d"]⟩
  hypothesisBudget := ⟨1, 12⟩
  hypothesisFamilies := [⟨"momentum_trend", true⟩]
  dataSplit := ⟨90, 21, 21, some 730⟩
  holdout := ⟨true, "2026H1-v1", 60⟩

/-- Daily bars of BTCUSDT from one day to before another. -/
def dailyBars (fromDay toDay : Nat) : KlineStore := fun symbol timeframe =>
  if symbol = "BTCUSDT" ∧ timeframe = "1d" then
    (List.range' fromDay (toDay - fromDay)).map fun day => ⟨day * microsPerDay, 1, 1, 1, 1⟩
  else []

theorem dailyBars_eq (fromDay toDay : Nat) : dailyBars fromDay toDay "BTCUSDT" "1d" =
    (List.range' fromDay (toDay - fromDay)).map fun day => ⟨day * microsPerDay, 1, 1, 1, 1⟩ := by
  simp [dailyBars, ← List.map_eq_flatMap]

theorem mem_dailyBars {fromDay toDay : Nat}
    (h : bar ∈ dailyBars fromDay toDay "BTCUSDT" "1d") :
    ∃ day : Nat, fromDay ≤ day ∧ day < toDay ∧ bar = ⟨day * microsPerDay, 1, 1, 1, 1⟩ := by
  rw [dailyBars_eq] at h
  obtain ⟨day, hday, rfl⟩ := List.mem_map.mp h
  have hrange := List.mem_range'_1.mp hday
  exact ⟨day, hrange.1, by omega, rfl⟩

theorem dailyBars_ascending (fromDay toDay : Nat) :
    (dailyBars fromDay toDay "BTCUSDT" "1d").Pairwise fun a b => a.timestamp < b.timestamp := by
  rw [dailyBars_eq, List.pairwise_map]
  refine (List.pairwise_lt_range' 1).imp fun {a b} hlt => ?_
  show (a : Int) * microsPerDay < b * microsPerDay
  simp only [microsPerDay, microsPerSecond]
  omega

/-- Two neighbours are a day apart. -/
theorem dailyBars_next (fromDay n : Nat) (f : Nat → Kline) :
    ∀ p ∈ ((List.range' fromDay n).map f).zip ((List.range' fromDay n).map f).tail,
      ∃ day, p = (f day, f (day + 1)) := by
  induction n generalizing fromDay with
  | zero =>
    intro p hp
    cases hp
  | succ n ih =>
    intro p hp
    cases n with
    | zero => cases hp
    | succ n =>
      rcases List.mem_cons.mp hp with rfl | hp
      · exact ⟨fromDay, rfl⟩
      · exact ih (fromDay + 1) p hp

theorem dailyBars_valid (fromDay toDay : Nat) :
    isValid (dailyBars fromDay toDay "BTCUSDT" "1d") "1d" = .ok true := by
  have hnext : ∀ p ∈ (dailyBars fromDay toDay "BTCUSDT" "1d").zip
      (dailyBars fromDay toDay "BTCUSDT" "1d").tail,
      p.2.timestamp = p.1.timestamp + microsPerDay ∧ p.1.close = 1 ∧ p.2.close = 1 := by
    rw [dailyBars_eq]
    intro p hp
    obtain ⟨day, rfl⟩ := dailyBars_next _ _ _ p hp
    refine ⟨?_, rfl, rfl⟩
    rw [Nat.cast_succ, add_one_mul]
  have hmissing : noMissingCandles (dailyBars fromDay toDay "BTCUSDT" "1d")
      (24 * 60 * 60000) = true := by
    refine List.all_eq_true.mpr fun p hp => decide_eq_true ?_
    rw [(hnext p hp).1]
    simp only [microsPerDay, microsPerSecond]
    omega
  have hduplicates : noDuplicates (dailyBars fromDay toDay "BTCUSDT" "1d") = true := by
    refine decide_eq_true (List.pairwise_map.mpr ?_)
    exact (dailyBars_ascending fromDay toDay).imp Int.ne_of_lt
  have hprices : noAnomalousPrices (dailyBars fromDay toDay "BTCUSDT" "1d") (3 / 4) = true := by
    refine Bool.and_eq_true_iff.mpr ⟨List.all_eq_true.mpr fun p hp => decide_eq_true ?_,
      List.all_eq_true.mpr fun bar hbar => ?_⟩
    · obtain ⟨-, hleft, hright⟩ := hnext p hp
      rw [hleft, hright]
      norm_num
    · obtain ⟨day, -, -, rfl⟩ := mem_dailyBars hbar
      simp
  show Except.ok _ = _
  rw [hmissing, hduplicates]
  simp only [if_true, hprices, Bool.and_self]

theorem readKlines_dailyBars {data : KlineStore} {toDay : Nat} (asOf : Int)
    (h : data "BTCUSDT" "1d" = dailyBars 0 toDay "BTCUSDT" "1d")
    (hasOf : (toDay - 1) * microsPerDay ≤ asOf) :
    readKlines data "BTCUSDT" "1d" none (some asOf) = dailyBars 0 toDay "BTCUSDT" "1d" := by
  unfold readKlines
  rw [h, sorted_eq_self ((dailyBars_ascending 0 toDay).imp fun hlt => decide_eq_true hlt.le)]
  refine List.filter_eq_self.mpr fun bar hbar => ?_
  obtain ⟨day, -, hday, rfl⟩ := mem_dailyBars hbar
  have hlate : (day : Int) * microsPerDay ≤ asOf := by
    simp only [microsPerDay, microsPerSecond] at hasOf ⊢
    omega
  simpa using hlate

/-- The history of the first cycle, on day 200, and that of a cycle on day 260. -/
def firstState : ResearchState := ⟨dailyBars 0 201, []⟩

def laterState : ResearchState := firstState.step shippedProtocol (.download (dailyBars 201 261))

/-- The first hypothesis of the queue. -/
def momentumHypothesis : QueuedHypothesis where
  hypothesisId := "HYP-momentum_trend-000001"
  family := "momentum_trend"
  symbols := ["BTCUSDT"]
  timeframes := ["1d"]
  strategyName := "momentum"
  paramGrid := (momentumTrendStrategies.headD ("", [])).2

theorem laterState_data : laterState.data "BTCUSDT" "1d" = dailyBars 0 261 "BTCUSDT" "1d" := by
  show dailyBars 0 201 "BTCUSDT" "1d" ++ dailyBars 201 261 "BTCUSDT" "1d" = _
  rw [dailyBars_eq, dailyBars_eq, dailyBars_eq, ← List.map_append, List.range'_append_1]

theorem laterState_checked : checkedData laterState.data (260 * microsPerDay) momentumHypothesis =
    .ok (dailyBars 0 261 "BTCUSDT" "1d") := by
  have hread := readKlines_dailyBars (260 * microsPerDay) laterState_data
    (by simp [microsPerDay, microsPerSecond])
  have hempty : (dailyBars 0 261 "BTCUSDT" "1d").isEmpty = false := by
    rw [dailyBars_eq, List.range'_succ]
    rfl
  have hset (missing invalid : String) : checkDataset laterState.data (260 * microsPerDay) "BTCUSDT"
      "1d" missing invalid = .ok (dailyBars 0 261 "BTCUSDT" "1d") := by
    unfold checkDataset
    simp only [hread, hempty, dailyBars_valid]
    rfl
  unfold checkedData
  refine bind_eq_ok.mpr ⟨_, hset _ _, ?_⟩
  rfl

theorem laterState_runs : isRaised (hypothesisWindows shippedProtocol laterState.data
    (260 * microsPerDay) momentumHypothesis) = false :=
  (isRaised_eq_false_iff laterState_checked).mpr (by decide)

theorem laterState_started :
    momentumHypothesis ∈ startedHypotheses shippedProtocol laterState (260 * microsPerDay) 1 := by
  have hqueue : (buildHypothesisQueue shippedProtocol.toResearchProtocol 1).queued.take 1 =
      [momentumHypothesis] := by decide +kernel
  unfold startedHypotheses
  rw [hqueue, List.takeWhile_cons, laterState_runs]
  exact List.mem_cons_self

/-- The bar of day 195 is in the holdout of the first cycle and in a window of the later one. -/
theorem day195_in_reach : ¬ OutOfReach shippedProtocol
    (frozenHoldout shippedProtocol firstState.data (200 * microsPerDay)) momentumHypothesis
    (dailyBars 0 261 "BTCUSDT" "1d") := by
  have hroom : ¬ windowsStop shippedProtocol (dailyBars 0 261 "BTCUSDT" "1d") <
      windowsStart shippedProtocol (dailyBars 0 261 "BTCUSDT" "1d") +
        shippedProtocol.dataSplit.trainDays * microsPerDay +
        shippedProtocol.dataSplit.validationDays * microsPerDay +
        shippedProtocol.dataSplit.testDays * microsPerDay := by decide +kernel
  have hbar : (⟨195 * microsPerDay, 1, 1, 1, 1⟩ : Kline) ∈
      frozenHoldout shippedProtocol firstState.data (200 * microsPerDay) "BTCUSDT" "1d" := by
    decide +kernel
  rintro (hshort | hout)
  · exact hroom hshort
  · have hday := hout ("BTCUSDT", "1d") List.mem_cons_self _ hbar
    revert hday
    decide +kernel

/-- The windows of the later cycle reach day 195, and the holdout begins with day 141. -/
theorem holdout_consumed : ¬ ∀ (protocol : SplitProtocol) (first : ResearchState) (firstAsOf : Int)
    (steps : List ResearchStep), Runs.Meets (ResearchState.step protocol)
      (HoldoutKept protocol (frozenHoldout protocol first.data firstAsOf)) first steps := by
  intro hclaim
  have hkept := (hclaim shippedProtocol firstState (200 * microsPerDay)
    [.download (dailyBars 201 261), .cycle (260 * microsPerDay) 1 fun _ _ => some .passed]).2.1
  rcases hkept momentumHypothesis laterState_started with hused | hwindows
  · cases hused
  · refine day195_in_reach ((avoids_iff laterState_checked laterState_runs ?_).mp hwindows)
    exact fun symbol timeframe bar hbar => List.mem_append_left _ (mem_of_frozen hbar)

end Greenfield.Research
