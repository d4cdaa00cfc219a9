import Greenfield.Execution.QuoteJoin
import Greenfield.Lib.Buckets
import Greenfield.Lib.Interpolate
import Mathlib.Data.List.GetD
import Mathlib.Data.Rat.Floor
import Mathlib.Data.String.Basic

/-!
# Execution calibration

`calibrate_execution` and `assumptions_from_calibration` of `src/execution/calibration.py`. A
quantile interpolates between the ordered samples, so it rises with its probability
(`quantile_mono`), and the scenarios that read higher quantiles of the costs and lower ones of the
fills are ordered (`scenarios_ordered`).
-/

namespace Greenfield.Execution

open Buckets Interpolation Paper Py

-- the order of the integers that computes, whatever is imported
local instance calibrationIntLinearOrder : LinearOrder ℤ := Int.instLinearOrder

inductive CalibrationError where
  | valueError (msg : String)
  | keyError (msg : String)
  | indexError
  deriving DecidableEq

structure ExecutionCalibrationConfig where
  minimumFilledSamplesPerMarket : ℕ := 100
  maximumJoinIssueFraction : ℚ := 1 / 100
  maximumObservationAgeSeconds : ℚ := 7 * 24 * 3600
  samples : 1 ≤ minimumFilledSamplesPerMarket
  fraction : 0 ≤ maximumJoinIssueFraction ∧ maximumJoinIssueFraction ≤ 1
  age : 0 < maximumObservationAgeSeconds

structure ExecutionBucketCalibration where
  symbol : String
  venue : String
  observationCount : ℕ
  filledCount : ℕ
  rejectedCount : ℕ
  partialFillCount : ℕ
  joinIssueCount : ℕ
  rejectionProbability : ℚ
  partialFillProbability : ℚ
  spreadBpsP50 : ℚ
  spreadBpsP95 : ℚ
  spreadBpsP99 : ℚ
  slippageBpsP50 : ℚ
  slippageBpsP95 : ℚ
  slippageBpsP99 : ℚ
  latencySecondsP50 : ℚ
  latencySecondsP95 : ℚ
  latencySecondsP99 : ℚ
  fillRatioP01 : ℚ
  fillRatioP05 : ℚ
  feeBpsP50 : ℚ
  feeBpsP95 : ℚ
  feeBpsP99 : ℚ
  fundingBpsP50 : ℚ
  fundingBpsP95 : ℚ
  fundingBpsP99 : ℚ
  latestObservationUtc : Instant
  deriving DecidableEq

structure ExecutionCalibration where
  calibratedAtUtc : Instant
  datasetFingerprint : String
  modelVersion : String
  buckets : List ExecutionBucketCalibration
  deriving DecidableEq

inductive CalibrationScenario where
  | base
  | adverse
  | severe
  deriving DecidableEq

structure SimulatedAdapterConfig where
  slippageBps : ℚ := 5
  latencySeconds : ℚ := 1 / 5
  rejectProbability : ℚ := 0
  spreadBps : ℚ := 0
  takerFeeBps : ℚ := 0
  fundingBps : ℚ := 0
  partialFillProbability : ℚ := 0
  minimumFillFraction : ℚ := 1 / 4
  latencyJitterSeconds : ℚ := 0
  slippageJitterBps : ℚ := 0
  seed : Option ℤ := none
  deriving DecidableEq

/-! ## Quantiles -/

/-- `values[index]`; an index below zero counts from the end. -/
def item (values : List ℚ) (index : ℤ) : Except CalibrationError ℚ :=
  let i := if 0 ≤ index then index else values.length + index
  if 0 ≤ i then
    match values[i.toNat]? with
    | some value => .ok value
    | none => .error .indexError
  else .error .indexError

/-- `_quantile`. -/
def quantile (values : List ℚ) (probability : ℚ) : Except CalibrationError ℚ :=
  let ordered := sorted (fun a b => a ≤ b) values
  let position := ((ordered.length : ℚ) - 1) * probability
  let lower := ⌊position⌋
  let upper := ⌈position⌉
  if lower = upper then item ordered lower
  else
    let weight := position - lower
    match item ordered lower, item ordered upper with
    | .ok low, .ok high => .ok (low * (1 - weight) + high * weight)
    | .error e, _ => .error e
    | _, .error e => .error e

/-! ## Buckets -/

/-- `_spread_bps`. -/
def spreadBps (quote : TopOfBookQuote) : ℚ :=
  let midpoint := (quote.bidPrice + quote.askPrice) / 2
  (quote.askPrice - quote.bidPrice) / midpoint * 10000

/-- `_slippage_bps`. -/
def slippageBps (order : PaperOrderObservation) (quote : TopOfBookQuote) : ℚ :=
  let touch := if order.side = .buy then quote.askPrice else quote.bidPrice
  let adverse := if order.side = .buy then order.filledPrice - touch else touch - order.filledPrice
  adverse / touch * 10000

/-- What a cost is of the notional that was filled, in basis points. -/
def costBps (order : PaperOrderObservation) (cost : ℚ) : ℚ :=
  max 0 (cost / (order.filledPrice * order.filledQuantity) * 10000)

/-- The samples that `_calibrate_bucket` collects of the filled orders. -/
structure Samples where
  spread : List ℚ
  slippage : List ℚ
  latency : List ℚ
  fillRatio : List ℚ
  fees : List ℚ
  funding : List ℚ

/-- The orders with their quotes that costs are calibrated with. -/
def filledOf (observations : List JoinedExecutionObservation) :
    List (PaperOrderObservation × TopOfBookQuote) :=
  observations.filterMap fun o =>
    if o.validForCostCalibration then o.quote.map fun quote => (o.order, quote) else none

def samplesOf (filled : List (PaperOrderObservation × TopOfBookQuote)) : Samples where
  spread := filled.map fun (_, quote) => spreadBps quote
  slippage := filled.map fun (order, quote) => slippageBps order quote
  latency := filled.map fun (order, _) =>
    ((order.resolvedAtUtc - order.submittedAtUtc : ℤ) : ℚ) / microsPerSecond
  fillRatio := filled.map fun (order, _) => order.filledQuantity / order.requestedQuantity
  fees := filled.map fun (order, _) => costBps order order.feeCostQuote
  funding := filled.map fun (order, _) => costBps order order.fundingCostQuote

/-- `_calibrate_bucket`. -/
def calibrateBucket (symbol venue : String) (observations : List JoinedExecutionObservation)
    (calibratedAt : Instant) (config : ExecutionCalibrationConfig) :
    Except CalibrationError ExecutionBucketCalibration := do
  let latest : ℤ := ((observations.map fun o => (o.order.decisionTimestampUtc : ℤ)).max?).getD 0
  let issues := observations.countP fun o => o.issue.isSome
  let filled := filledOf observations
  let rejected := observations.countP fun o => o.order.rejected
  let partialFills := filled.countP fun (order, _) => order.filledQuantity < order.requestedQuantity
  let samples := samplesOf filled
  if config.maximumObservationAgeSeconds < ((calibratedAt - latest : ℤ) : ℚ) / microsPerSecond then
    .error (.valueError ("execution observations are stale for " ++ symbol ++ " on " ++ venue))
  else if config.maximumJoinIssueFraction < (issues : ℚ) / observations.length then
    .error (.valueError ("execution quote-join quality failed for " ++ symbol ++ " on " ++ venue))
  else if filled.length < config.minimumFilledSamplesPerMarket then
    .error (.valueError ("insufficient execution samples for " ++ symbol ++ " on " ++ venue))
  else
    return {
      symbol, venue
      observationCount := observations.length
      filledCount := filled.length
      rejectedCount := rejected
      partialFillCount := partialFills
      joinIssueCount := issues
      rejectionProbability := (rejected : ℚ) / observations.length
      partialFillProbability := (partialFills : ℚ) / filled.length
      spreadBpsP50 := ← quantile samples.spread (50 / 100)
      spreadBpsP95 := ← quantile samples.spread (95 / 100)
      spreadBpsP99 := ← quantile samples.spread (99 / 100)
      slippageBpsP50 := ← quantile samples.slippage (50 / 100)
      slippageBpsP95 := ← quantile samples.slippage (95 / 100)
      slippageBpsP99 := ← quantile samples.slippage (99 / 100)
      latencySecondsP50 := ← quantile samples.latency (50 / 100)
      latencySecondsP95 := ← quantile samples.latency (95 / 100)
      latencySecondsP99 := ← quantile samples.latency (99 / 100)
      fillRatioP01 := ← quantile samples.fillRatio (1 / 100)
      fillRatioP05 := ← quantile samples.fillRatio (5 / 100)
      feeBpsP50 := ← quantile samples.fees (50 / 100)
      feeBpsP95 := ← quantile samples.fees (95 / 100)
      feeBpsP99 := ← quantile samples.fees (99 / 100)
      fundingBpsP50 := ← quantile samples.funding (50 / 100)
      fundingBpsP95 := ← quantile samples.funding (95 / 100)
      fundingBpsP99 := ← quantile samples.funding (99 / 100)
      latestObservationUtc := latest }

/-! ## Calibrations -/

/-- `(item.order.symbol, item.order.venue.lower())`, in the order of tuples. -/
def marketKey (lower : String → String) (o : JoinedExecutionObservation) : String ×ₗ String :=
  toLex (o.order.market lower)

/-- `ExecutionCalibration.__post_init__`. -/
def ExecutionCalibration.checked (lower : String → String) (c : ExecutionCalibration) :
    Except CalibrationError ExecutionCalibration :=
  if isBlank c.datasetFingerprint ∨ isBlank c.modelVersion then
    .error (.valueError "execution calibration requires dataset and model versions")
  else if c.buckets = [] ∨ ¬ (c.buckets.map fun b => (b.symbol, lower b.venue)).Nodup then
    .error (.valueError "execution calibration buckets must be non-empty and unique")
  else .ok c

/-- `calibrate_execution`. -/
def calibrateExecution (lower : String → String) (observations : List JoinedExecutionObservation)
    (calibratedAtUtc : Instant) (datasetFingerprint modelVersion : String)
    (config : ExecutionCalibrationConfig) : Except CalibrationError ExecutionCalibration :=
  if isBlank datasetFingerprint ∨ isBlank modelVersion then
    .error (.valueError "execution calibration requires dataset and model versions")
  else if observations.any fun o => calibratedAtUtc < o.order.decisionTimestampUtc then
    .error (.valueError "execution calibration cannot consume future observations")
  else if ¬ (observations.map (·.order.orderId)).Nodup then
    .error (.valueError "execution calibration order ids must be unique")
  else do
    let buckets ← (groups (marketKey lower) observations).mapM fun (market, items) =>
      calibrateBucket (ofLex market).1 (ofLex market).2 items calibratedAtUtc config
    ExecutionCalibration.checked lower ⟨calibratedAtUtc, datasetFingerprint, modelVersion, buckets⟩

/-- `ExecutionCalibration.bucket`. -/
def ExecutionCalibration.bucket (lower : String → String) (c : ExecutionCalibration)
    (symbol venue : String) : Except CalibrationError ExecutionBucketCalibration :=
  match c.buckets.find? fun b => b.symbol = symbol ∧ lower b.venue = lower venue with
  | some b => .ok b
  | none => .error (.keyError ("no execution calibration for " ++ symbol ++ " on " ++ venue))

/-- `SimulatedAdapterConfig.__post_init__`. -/
def SimulatedAdapterConfig.checked (c : SimulatedAdapterConfig) :
    Except CalibrationError SimulatedAdapterConfig :=
  if [c.slippageBps, c.latencySeconds, c.spreadBps, c.takerFeeBps, c.fundingBps,
      c.latencyJitterSeconds, c.slippageJitterBps].any (· < 0) then
    .error (.valueError "simulated execution costs and latency must be non-negative")
  else if [c.rejectProbability, c.partialFillProbability].any fun p => ¬ (0 ≤ p ∧ p ≤ 1) then
    .error (.valueError "simulated execution probabilities must be in [0, 1]")
  else if ¬ (0 < c.minimumFillFraction ∧ c.minimumFillFraction ≤ 1) then
    .error (.valueError "minimum fill fraction must be in (0, 1]")
  else .ok c

/-- What the scenarios of `assumptions_from_calibration` read of a bucket. -/
structure ScenarioValues where
  spread : ℚ
  slippage : ℚ
  latency : ℚ
  fee : ℚ
  funding : ℚ
  minimumFill : ℚ
  jitterSlippage : ℚ
  jitterLatency : ℚ

def ExecutionBucketCalibration.values (bucket : ExecutionBucketCalibration) :
    CalibrationScenario → ScenarioValues
  | .base =>
    { spread := bucket.spreadBpsP50, slippage := bucket.slippageBpsP50
      latency := bucket.latencySecondsP50, fee := bucket.feeBpsP50
      funding := bucket.fundingBpsP50, minimumFill := bucket.fillRatioP05
      jitterSlippage := max 0 (bucket.slippageBpsP95 - bucket.slippageBpsP50)
      jitterLatency := max 0 (bucket.latencySecondsP95 - bucket.latencySecondsP50) }
  | .adverse =>
    { spread := bucket.spreadBpsP95, slippage := bucket.slippageBpsP95
      latency := bucket.latencySecondsP95, fee := bucket.feeBpsP95
      funding := bucket.fundingBpsP95, minimumFill := bucket.fillRatioP01
      jitterSlippage := max 0 (bucket.slippageBpsP99 - bucket.slippageBpsP95)
      jitterLatency := max 0 (bucket.latencySecondsP99 - bucket.latencySecondsP95) }
  | .severe =>
    { spread := bucket.spreadBpsP99, slippage := bucket.slippageBpsP99
      latency := bucket.latencySecondsP99, fee := bucket.feeBpsP99
      funding := bucket.fundingBpsP99, minimumFill := bucket.fillRatioP01
      jitterSlippage := 0, jitterLatency := 0 }

/-- The configuration that the values of a scenario give. -/
def ExecutionBucketCalibration.adapter (bucket : ExecutionBucketCalibration)
    (scenario : CalibrationScenario) (seed : Option ℤ) : SimulatedAdapterConfig :=
  let v := bucket.values scenario
  { slippageBps := max 0 v.slippage
    latencySeconds := max 0 v.latency
    rejectProbability := bucket.rejectionProbability
    spreadBps := max 0 v.spread
    takerFeeBps := max 0 v.fee
    fundingBps := max 0 v.funding
    partialFillProbability := bucket.partialFillProbability
    minimumFillFraction := min 1 (max (1 / 1000000000) v.minimumFill)
    latencyJitterSeconds := v.jitterLatency
    slippageJitterBps := v.jitterSlippage
    seed }

/-- `assumptions_from_calibration`. -/
def assumptionsFromCalibration (lower : String → String) (calibration : ExecutionCalibration)
    (symbol venue : String) (scenario : CalibrationScenario) (seed : Option ℤ) :
    Except CalibrationError SimulatedAdapterConfig := do
  let bucket ← calibration.bucket lower symbol venue
  (bucket.adapter scenario seed).checked

/-! ## Quantiles of samples -/

section Quantiles

variable {values values' : List ℚ} {p q : ℚ}

/-- The ordered samples, by their index. -/
def orderedAt (values : List ℚ) (i : ℤ) : ℚ := (sorted (fun a b => a ≤ b) values).getD i.toNat 0

theorem length_ordered (values : List ℚ) :
    (sorted (fun a b => decide (a ≤ b)) values).length = values.length :=
  List.length_insertionSort ..

theorem pairwise_ordered (values : List ℚ) :
    (sorted (fun a b => decide (a ≤ b)) values).Pairwise (· ≤ ·) :=
  (pairwise_sorted _ (fun a b => by simpa using le_total a b)
    (fun a b c hab hbc => by simpa using le_trans (of_decide_eq_true hab) (of_decide_eq_true hbc))
    values).imp fun h => by simpa using h

theorem rises_orderedAt (hne : values ≠ []) : Rises (orderedAt values) (values.length - 1) := by
  intro i j hi hij hj
  have hpos := List.length_pos_iff.mpr hne
  have hlength := length_ordered values
  have hjn : j.toNat < (sorted (fun a b => decide (a ≤ b)) values).length := by omega
  have hin : i.toNat < (sorted (fun a b => decide (a ≤ b)) values).length := by omega
  unfold orderedAt
  rw [List.getD_eq_getElem _ _ hin, List.getD_eq_getElem _ _ hjn]
  rcases Nat.eq_or_lt_of_le (Int.toNat_le_toNat hij) with heq | hlt
  · simp only [heq, le_refl]
  · exact List.pairwise_iff_getElem.mp (pairwise_ordered values) _ _ hin hjn hlt

variable {i : ℤ}

theorem item_ordered (h0 : 0 ≤ i) (hn : i < values.length) :
    item (sorted (fun a b => a ≤ b) values) i = .ok (orderedAt values i) := by
  have hlength := length_ordered values
  have hin : i.toNat < (sorted (fun a b => decide (a ≤ b)) values).length := by omega
  unfold item orderedAt
  rw [if_pos h0, if_pos h0, List.getD_eq_getElem _ _ hin, List.getElem?_eq_getElem hin]

/-- The position of a probability among the samples. -/
def positionOf (values : List ℚ) (p : ℚ) : ℚ := ((values.length : ℚ) - 1) * p

theorem positionOf_mem (hne : values ≠ []) (h0 : 0 ≤ p) (h1 : p ≤ 1) :
    0 ≤ positionOf values p ∧ positionOf values p ≤ ((values.length - 1 : ℤ) : ℚ) := by
  have hpos : (1 : ℚ) ≤ values.length := by exact_mod_cast List.length_pos_iff.mpr hne
  unfold positionOf
  push_cast
  exact ⟨mul_nonneg (by linarith) h0, mul_le_of_le_one_right (by linarith) h1⟩

/-- **A quantile** interpolates between the ordered samples. -/
theorem quantile_eq (hne : values ≠ []) (h0 : 0 ≤ p) (h1 : p ≤ 1) :
    quantile values p = .ok (interpolate (orderedAt values) (positionOf values p)) := by
  obtain ⟨hlow, hhigh⟩ := positionOf_mem hne h0 h1
  have hfloor : 0 ≤ ⌊positionOf values p⌋ := Int.floor_nonneg.mpr hlow
  have hceil : ⌈positionOf values p⌉ ≤ values.length - 1 := Int.ceil_le.mpr hhigh
  have hbetween := Int.floor_le_ceil (positionOf values p)
  have hposition : (((sorted (fun a b => decide (a ≤ b)) values).length : ℚ) - 1) * p =
      positionOf values p := by rw [length_ordered, positionOf]
  unfold quantile
  simp only [hposition]
  split
  · next hsame =>
    have hfract : Int.fract (positionOf values p) = 0 := by
      have hle := Int.le_ceil (positionOf values p)
      rw [← hsame] at hle
      exact sub_eq_zero.mpr (le_antisymm hle (Int.floor_le _))
    rw [item_ordered hfloor (by omega)]
    unfold interpolate
    rw [hfract]
    simp
  · rw [item_ordered hfloor (by omega), item_ordered (hfloor.trans hbetween) (by omega)]
    rfl

/-- What a quantile of samples is, whatever the samples. -/
def quantileOf (values : List ℚ) (p : ℚ) : ℚ := interpolate (orderedAt values) (positionOf values p)

theorem quantileOf_mono (hne : values ≠ []) (h0 : 0 ≤ p) (hpq : p ≤ q) (h1 : q ≤ 1) :
    quantileOf values p ≤ quantileOf values q := by
  have hpos : (1 : ℚ) ≤ values.length := by exact_mod_cast List.length_pos_iff.mpr hne
  refine interpolate_mono (rises_orderedAt hne) (positionOf_mem hne h0 (hpq.trans h1)).1 ?_
    (positionOf_mem hne (h0.trans hpq) h1).2
  exact mul_le_mul_of_nonneg_left hpq (by linarith)

theorem orderedAt_mem (hne : values ≠ []) (h0 : 0 ≤ i) (hn : i ≤ values.length - 1) :
    orderedAt values i ∈ values := by
  have hpos := List.length_pos_iff.mpr hne
  have hlength := length_ordered values
  have hin : i.toNat < (sorted (fun a b => decide (a ≤ b)) values).length := by omega
  unfold orderedAt
  rw [List.getD_eq_getElem _ _ hin]
  exact mem_sorted.mp (List.getElem_mem hin)

/-- A quantile lies between two of the samples. -/
theorem quantileOf_between (hne : values ≠ []) (h0 : 0 ≤ p) (h1 : p ≤ 1) :
    (∃ low ∈ values, low ≤ quantileOf values p) ∧ ∃ high ∈ values, quantileOf values p ≤ high := by
  obtain ⟨hlow, hhigh⟩ := positionOf_mem hne h0 h1
  have hmem := interpolate_mem (rises_orderedAt hne) hlow hhigh
  have hfloor : 0 ≤ ⌊positionOf values p⌋ := Int.floor_nonneg.mpr hlow
  have hceil : ⌈positionOf values p⌉ ≤ values.length - 1 := Int.ceil_le.mpr hhigh
  have hbetween := Int.floor_le_ceil (positionOf values p)
  exact ⟨⟨_, orderedAt_mem hne hfloor (hbetween.trans hceil), hmem.1⟩,
    ⟨_, orderedAt_mem hne (hfloor.trans hbetween) hceil, hmem.2⟩⟩

theorem ordered_perm (h : values.Perm values') : sorted (fun a b => decide (a ≤ b)) values' =
    sorted (fun a b => decide (a ≤ b)) values := by
  refine sorted_eq_of_perm (fun a b => by simpa using le_total a b)
    (fun a b c hab hbc => by simpa using le_trans (of_decide_eq_true hab) (of_decide_eq_true hbc))
    (h.symm.trans (List.perm_insertionSort _ _).symm)
    ((pairwise_ordered values).imp fun h => decide_eq_true h) fun a _ b _ hab hba => ?_
  exact le_antisymm (of_decide_eq_true hab) (of_decide_eq_true hba)

/-- Quantiles do not depend on the order of the samples. -/
theorem quantile_perm (h : values.Perm values') (p : ℚ) : quantile values' p = quantile values p := by
  unfold quantile
  rw [ordered_perm h]

end Quantiles

/-! ## Scenarios -/

/-- What holds of a bucket that is calibrated. -/
structure Graded (b : ExecutionBucketCalibration) : Prop where
  spread : b.spreadBpsP50 ≤ b.spreadBpsP95 ∧ b.spreadBpsP95 ≤ b.spreadBpsP99
  slippage : b.slippageBpsP50 ≤ b.slippageBpsP95 ∧ b.slippageBpsP95 ≤ b.slippageBpsP99
  latency : b.latencySecondsP50 ≤ b.latencySecondsP95 ∧ b.latencySecondsP95 ≤ b.latencySecondsP99
  fee : b.feeBpsP50 ≤ b.feeBpsP95 ∧ b.feeBpsP95 ≤ b.feeBpsP99
  funding : b.fundingBpsP50 ≤ b.fundingBpsP95 ∧ b.fundingBpsP95 ≤ b.fundingBpsP99
  fill : b.fillRatioP01 ≤ b.fillRatioP05
  rejection : 0 ≤ b.rejectionProbability ∧ b.rejectionProbability ≤ 1
  partialFill : 0 ≤ b.partialFillProbability ∧ b.partialFillProbability ≤ 1

/-- The quantiles of costs, and their order. -/
theorem cost_quantiles {values : List ℚ} (hne : values ≠ []) :
    quantile values (50 / 100) = .ok (quantileOf values (50 / 100)) ∧
    quantile values (95 / 100) = .ok (quantileOf values (95 / 100)) ∧
    quantile values (99 / 100) = .ok (quantileOf values (99 / 100)) ∧
    quantileOf values (50 / 100) ≤ quantileOf values (95 / 100) ∧
    quantileOf values (95 / 100) ≤ quantileOf values (99 / 100) :=
  ⟨quantile_eq hne (by norm_num) (by norm_num), quantile_eq hne (by norm_num) (by norm_num),
    quantile_eq hne (by norm_num) (by norm_num),
    quantileOf_mono hne (by norm_num) (by norm_num) (by norm_num),
    quantileOf_mono hne (by norm_num) (by norm_num) (by norm_num)⟩

theorem fraction_mem {α : Type} (p : α → Bool) (l : List α) :
    0 ≤ (l.countP p : ℚ) / l.length ∧ (l.countP p : ℚ) / l.length ≤ 1 := by
  have hle : (l.countP p : ℚ) ≤ l.length := by exact_mod_cast List.countP_le_length
  exact ⟨div_nonneg (Nat.cast_nonneg _) (Nat.cast_nonneg _),
    div_le_one_of_le₀ hle (Nat.cast_nonneg _)⟩

variable {b : ExecutionBucketCalibration}

variable {observations : List JoinedExecutionObservation} {config : ExecutionCalibrationConfig}

/-- **A bucket** that is calibrated is graded. -/
theorem graded_bucket {symbol venue : String}
    {calibratedAt : Instant}
    (h : calibrateBucket symbol venue observations calibratedAt config = .ok b) : Graded b := by
  unfold calibrateBucket at h
  dsimp only at h
  split at h
  · cases h
  · split at h
    · cases h
    · split at h
      · cases h
      · next henough =>
        have hne : filledOf observations ≠ [] := by
          have hsamples := config.samples
          exact List.ne_nil_of_length_pos (by omega)
        have hspread : (samplesOf (filledOf observations)).spread ≠ [] := by simpa [samplesOf] using hne
        have hslippage : (samplesOf (filledOf observations)).slippage ≠ [] := by
          simpa [samplesOf] using hne
        have hlatency : (samplesOf (filledOf observations)).latency ≠ [] := by
          simpa [samplesOf] using hne
        have hratio : (samplesOf (filledOf observations)).fillRatio ≠ [] := by
          simpa [samplesOf] using hne
        have hfees : (samplesOf (filledOf observations)).fees ≠ [] := by simpa [samplesOf] using hne
        have hfunding : (samplesOf (filledOf observations)).funding ≠ [] := by
          simpa [samplesOf] using hne
        obtain ⟨s1, s2, s3, hs, hs'⟩ := cost_quantiles hspread
        obtain ⟨l1, l2, l3, hl, hl'⟩ := cost_quantiles hslippage
        obtain ⟨t1, t2, t3, ht, ht'⟩ := cost_quantiles hlatency
        obtain ⟨e1, e2, e3, he, he'⟩ := cost_quantiles hfees
        obtain ⟨f1, f2, f3, hf, hf'⟩ := cost_quantiles hfunding
        have r1 := quantile_eq (p := 1 / 100) hratio (by norm_num) (by norm_num)
        have r5 := quantile_eq (p := 5 / 100) hratio (by norm_num) (by norm_num)
        have hr := quantileOf_mono (p := 1 / 100) (q := 5 / 100) hratio (by norm_num) (by norm_num)
          (by norm_num)
        rw [s1, s2, s3, l1, l2, l3, t1, t2, t3, r1, r5, e1, e2, e3, f1, f2, f3] at h
        cases h
        exact ⟨⟨hs, hs'⟩, ⟨hl, hl'⟩, ⟨ht, ht'⟩, ⟨he, he'⟩, ⟨hf, hf'⟩, hr, fraction_mem .., fraction_mem ..⟩

theorem graded_calibration {lower : String → String}
    {calibratedAtUtc : Instant}
    {datasetFingerprint modelVersion : String}
    {c : ExecutionCalibration} (h : calibrateExecution lower observations calibratedAtUtc
      datasetFingerprint modelVersion config = .ok c) : ∀ b ∈ c.buckets, Graded b := by
  unfold calibrateExecution at h
  split at h
  · cases h
  · split at h
    · cases h
    · split at h
      · cases h
      · obtain ⟨buckets, hbuckets, hchecked⟩ := bind_eq_ok.mp h
        have hc : c = ⟨calibratedAtUtc, datasetFingerprint, modelVersion, buckets⟩ := by
          unfold ExecutionCalibration.checked at hchecked
          split at hchecked
          · cases hchecked
          · split at hchecked
            · cases hchecked
            · exact (Except.ok.inj hchecked).symm
        rw [hc]
        exact forall_of_mapM (fun _ _ hb => graded_bucket hb) hbuckets

/-- A scenario whose costs are not below another's, and whose fills are not above. -/
structure NotMilder (a b : SimulatedAdapterConfig) : Prop where
  spread : a.spreadBps ≤ b.spreadBps
  slippage : a.slippageBps ≤ b.slippageBps
  latency : a.latencySeconds ≤ b.latencySeconds
  fee : a.takerFeeBps ≤ b.takerFeeBps
  funding : a.fundingBps ≤ b.fundingBps
  fill : b.minimumFillFraction ≤ a.minimumFillFraction

theorem Graded.base_adverse (h : Graded b) (seed : Option ℤ) :
    NotMilder (b.adapter .base seed) (b.adapter .adverse seed) where
  spread := max_le_max_left 0 h.spread.1
  slippage := max_le_max_left 0 h.slippage.1
  latency := max_le_max_left 0 h.latency.1
  fee := max_le_max_left 0 h.fee.1
  funding := max_le_max_left 0 h.funding.1
  fill := min_le_min_left 1 (max_le_max_left _ h.fill)

theorem Graded.adverse_severe (h : Graded b) (seed : Option ℤ) :
    NotMilder (b.adapter .adverse seed) (b.adapter .severe seed) where
  spread := max_le_max_left 0 h.spread.2
  slippage := max_le_max_left 0 h.slippage.2
  latency := max_le_max_left 0 h.latency.2
  fee := max_le_max_left 0 h.fee.2
  funding := max_le_max_left 0 h.funding.2
  fill := le_refl _

/-- The configurations of a graded bucket pass their checks. -/
theorem Graded.checked (h : Graded b)
    (scenario : CalibrationScenario) (seed : Option ℤ) :
    (b.adapter scenario seed).checked = .ok (b.adapter scenario seed) := by
  have hjitter : 0 ≤ (b.adapter scenario seed).slippageJitterBps ∧
      0 ≤ (b.adapter scenario seed).latencyJitterSeconds := by
    cases scenario with
    | base => exact ⟨le_max_left .., le_max_left ..⟩
    | adverse => exact ⟨le_max_left .., le_max_left ..⟩
    | severe => exact ⟨le_refl _, le_refl _⟩
  have hcosts : [(b.adapter scenario seed).slippageBps, (b.adapter scenario seed).latencySeconds,
      (b.adapter scenario seed).spreadBps, (b.adapter scenario seed).takerFeeBps,
      (b.adapter scenario seed).fundingBps, (b.adapter scenario seed).latencyJitterSeconds,
      (b.adapter scenario seed).slippageJitterBps].any (· < 0) = false := by
    have hmax : ∀ x : ℚ, ¬ max 0 x < 0 := fun x => not_lt.mpr (le_max_left 0 x)
    simp only [List.any_cons, List.any_nil, Bool.or_false, Bool.or_eq_false_iff, decide_eq_false_iff_not]
    exact ⟨hmax _, hmax _, hmax _, hmax _, hmax _, not_lt.mpr hjitter.2, not_lt.mpr hjitter.1⟩
  have hprobabilities : [(b.adapter scenario seed).rejectProbability,
      (b.adapter scenario seed).partialFillProbability].any
        (fun p => ¬ (0 ≤ p ∧ p ≤ 1)) = false := by
    simp only [List.any_cons, List.any_nil, Bool.or_false, Bool.or_eq_false_iff,
      decide_eq_false_iff_not, not_not]
    exact ⟨h.rejection, h.partialFill⟩
  have hfill : 0 < (b.adapter scenario seed).minimumFillFraction ∧
      (b.adapter scenario seed).minimumFillFraction ≤ 1 :=
    ⟨lt_min one_pos (lt_max_of_lt_left (by norm_num)), min_le_left _ _⟩
  unfold SimulatedAdapterConfig.checked
  rw [hcosts, hprobabilities, if_neg (not_not.mpr hfill)]
  rfl

/-- **Scenarios are ordered.** A quantile of samples rises with its probability, lies between two of
them and does not depend on their order; and of every calibration, each market that has a bucket
has the three scenarios, each not milder than the one before. -/
theorem scenarios_ordered (lower : String → String) :
    (∀ values : List ℚ, values ≠ [] →
      (∀ p, 0 ≤ p → p ≤ 1 → ∃ x, quantile values p = .ok x ∧
        (∃ low ∈ values, low ≤ x) ∧ (∃ high ∈ values, x ≤ high) ∧
        (∀ q y, p ≤ q → q ≤ 1 → quantile values q = .ok y → x ≤ y)) ∧
      ∀ values', values.Perm values' → ∀ p, quantile values' p = quantile values p) ∧
    ∀ observations calibratedAtUtc datasetFingerprint modelVersion config calibration,
      calibrateExecution lower observations calibratedAtUtc datasetFingerprint modelVersion config =
        .ok calibration →
      ∀ symbol venue seed bucket, calibration.bucket lower symbol venue = .ok bucket →
        ∃ base adverse severe,
          assumptionsFromCalibration lower calibration symbol venue .base seed = .ok base ∧
          assumptionsFromCalibration lower calibration symbol venue .adverse seed = .ok adverse ∧
          assumptionsFromCalibration lower calibration symbol venue .severe seed = .ok severe ∧
          NotMilder base adverse ∧ NotMilder adverse severe := by
  refine ⟨fun values hne => ⟨fun p h0 h1 => ?_, fun values' h p => quantile_perm h p⟩, ?_⟩
  · obtain ⟨hlow, hhigh⟩ := quantileOf_between hne h0 h1
    refine ⟨_, quantile_eq hne h0 h1, hlow, hhigh, fun q y hpq hq1 hy => ?_⟩
    rw [quantile_eq hne (h0.trans hpq) hq1] at hy
    cases hy
    exact quantileOf_mono hne h0 hpq hq1
  · intro observations calibratedAtUtc datasetFingerprint modelVersion config calibration hc
      symbol venue seed bucket hbucket
    have hmem : bucket ∈ calibration.buckets := by
      unfold ExecutionCalibration.bucket at hbucket
      split at hbucket
      · next hfind =>
        cases hbucket
        exact List.mem_of_find?_eq_some hfind
      · cases hbucket
    have hgraded := graded_calibration hc bucket hmem
    have hassumptions : ∀ scenario,
        assumptionsFromCalibration lower calibration symbol venue scenario seed =
          .ok (bucket.adapter scenario seed) := fun scenario =>
      bind_eq_ok.mpr ⟨bucket, hbucket, hgraded.checked scenario seed⟩
    exact ⟨_, _, _, hassumptions _, hassumptions _, hassumptions _, hgraded.base_adverse seed,
      hgraded.adverse_severe seed⟩

end Greenfield.Execution
