import Mathlib.Algebra.Order.Ring.Rat

/-!
# The hypothesis queue

`build_hypothesis_queue` of `src/research/queue.py`: a pass over the enabled families, their
strategies, symbols and timeframes, which ends at the budget. A hypothesis is named after its
family and its place in the queue only, so every queue of one protocol has the same names.
-/

namespace Greenfield.Research

structure UniverseConfig where
  symbols : List String
  timeframesPrimary : List String

structure HypothesisBudgetConfig where
  maxNewHypothesesPerCycle : Nat
  maxVariantsPerHypothesis : Nat

structure HypothesisFamilyConfig where
  id : String
  enabled : Bool

/-- The fields of `ResearchProtocol` that the queue reads. -/
structure ResearchProtocol where
  /-- `universe`. -/
  market : UniverseConfig
  hypothesisBudget : HypothesisBudgetConfig
  hypothesisFamilies : List HypothesisFamilyConfig

def ResearchProtocol.enabledFamilies (protocol : ResearchProtocol) : List HypothesisFamilyConfig :=
  protocol.hypothesisFamilies.filter (·.enabled)

inductive ParamValue where
  | number (value : ℚ)
  | text (value : String)
  deriving DecidableEq

/-- The overrides of one variant. -/
abbrev Variant := List (String × ParamValue)

def numbers (overrides : List (String × ℚ)) : Variant :=
  overrides.map fun (name, value) => (name, .number value)

structure QueuedHypothesis where
  hypothesisId : String
  family : String
  symbols : List String
  timeframes : List String
  strategyName : String
  paramGrid : List Variant
  referenceSymbol : Option String := none
  higherTimeframe : Option String := none
  deriving DecidableEq

structure HypothesisQueue where
  queued : List QueuedHypothesis
  skippedFamilies : List (String × String)
  deriving DecidableEq

/-- `f"HYP-{family}-{sequence:06d}"`. -/
def makeHypothesisId (family : String) (sequence : Nat) : String :=
  let digits := toString sequence
  "HYP-" ++ family ++ "-" ++ String.ofList (List.replicate (6 - digits.length) '0') ++ digits

/-! ## Strategies -/

def momentumTrendStrategies : List (String × List Variant) :=
  [("momentum",
      [numbers [("lookback_bars", 10), ("threshold", 1 / 100)],
        numbers [("lookback_bars", 20), ("threshold", 5 / 1000)],
        numbers [("lookback_bars", 20), ("threshold", 2 / 100)]]),
    ("trend_following", [numbers [("lookback_bars", 10)], numbers [("lookback_bars", 20)]])]

def crossAssetReferenceSymbol : String := "BTCUSDT"

def crossAssetStrategies : List (String × List Variant) :=
  [("cross_asset_momentum",
    [numbers [("lookback_bars", 10), ("threshold", 1 / 100)],
      numbers [("lookback_bars", 20), ("threshold", 5 / 1000)]])]

def fundingOiStrategies : List (String × List Variant) :=
  [("funding_contrarian",
    [numbers [("funding_zscore_lookback", 30), ("funding_zscore_threshold", 3 / 2),
        ("oi_confirmation_bars", 5)],
      numbers [("funding_zscore_lookback", 60), ("funding_zscore_threshold", 2),
        ("oi_confirmation_bars", 10)]])]

def priceActionStrategies : List (String × List Variant) :=
  [("liquidity_sweep_confluence",
    [numbers [("structure_lookback", 10), ("oi_confirmation_bars", 5)],
      numbers [("structure_lookback", 20), ("oi_confirmation_bars", 5)]])]

def multiHorizonTrendBaseTimeframe : String := "4h"

def multiHorizonTrendConfirmingTimeframe : String := "1d"

def multiHorizonTrendStrategies : List (String × List Variant) :=
  [("funding_aware_multi_horizon_trend",
    [30, 60, 90].flatMap fun lookback4h => [10, 20].flatMap fun lookback1d =>
      [15 / 100, 25 / 100].map fun volatilityTarget =>
        numbers [("lookback_bars_4h", lookback4h), ("lookback_bars_1d", lookback1d),
          ("volatility_target", volatilityTarget)])]

def marketCipherLikeStrategies : List (String × List Variant) :=
  [("market_cipher_like",
    [numbers [("channel_span", 9), ("momentum_span", 13), ("signal_window", 4)],
      numbers [("channel_span", 10), ("momentum_span", 21), ("signal_window", 4)],
      numbers [("channel_span", 10), ("momentum_span", 21), ("signal_window", 8)]])]

/-! ## The pass -/

/-- What the pass comes to: a family that it skips, or a hypothesis that has no name yet. -/
inductive QueueEntry where
  | skip (family reason : String)
  | hypothesis (h : QueuedHypothesis)

/-- The hypotheses of a family: for every strategy, symbol and timeframe. -/
def gridEntries (protocol : ResearchProtocol) (family : String)
    (strategies : List (String × List Variant)) (symbols timeframes : List String)
    (finish : QueuedHypothesis → QueuedHypothesis) : List QueueEntry :=
  strategies.flatMap fun (strategyName, grid) => symbols.flatMap fun symbol =>
    timeframes.map fun timeframe => .hypothesis (finish {
      hypothesisId := ""
      family
      symbols := [symbol]
      timeframes := [timeframe]
      strategyName
      paramGrid := grid.take protocol.hypothesisBudget.maxVariantsPerHypothesis })

def runnableFamilies : List String :=
  ["momentum_trend", "cross_asset_regime", "funding_oi", "price_action_confluence",
    "funding_aware_multi_horizon_trend", "market_cipher_like"]

section

variable (protocol : ResearchProtocol)

def unrunnableEntries : List QueueEntry :=
  (protocol.enabledFamilies.filter fun family => !runnableFamilies.contains family.id).map
    fun family => .skip family.id ("no runnable strategy implementation yet - see " ++
      "docs/AUTONOMOUS_RESEARCH_AUDIT.md known limitations")

def crossAssetEntries (family : String) : List QueueEntry :=
  if !protocol.market.symbols.contains crossAssetReferenceSymbol then
    [.skip family ("reference symbol '" ++ crossAssetReferenceSymbol ++
      "' is not in universe.symbols - cannot confirm a regime without it")]
  else
    gridEntries protocol family crossAssetStrategies
      (protocol.market.symbols.filter (· ≠ crossAssetReferenceSymbol))
      protocol.market.timeframesPrimary
      fun h => { h with referenceSymbol := some crossAssetReferenceSymbol }

def multiHorizonEntries (family : String) : List QueueEntry :=
  if !protocol.market.timeframesPrimary.contains multiHorizonTrendBaseTimeframe then
    [.skip family ("base timeframe '" ++ multiHorizonTrendBaseTimeframe ++
      "' is not in universe.timeframes_primary")]
  else if !protocol.market.timeframesPrimary.contains multiHorizonTrendConfirmingTimeframe then
    [.skip family ("confirming timeframe '" ++ multiHorizonTrendConfirmingTimeframe ++
      "' is not in universe.timeframes_primary")]
  else
    gridEntries protocol family multiHorizonTrendStrategies protocol.market.symbols
      [multiHorizonTrendBaseTimeframe] fun h => { h with
        timeframes := [multiHorizonTrendBaseTimeframe, multiHorizonTrendConfirmingTimeframe]
        higherTimeframe := some multiHorizonTrendConfirmingTimeframe }

/-- `{**variant, "timeframe": timeframe}`. -/
def withTimeframe (h : QueuedHypothesis) : QueuedHypothesis :=
  { h with paramGrid := h.paramGrid.map fun variant =>
      variant ++ h.timeframes.map fun timeframe => ("timeframe", .text timeframe) }

/-- What the pass does for a family, if it is enabled. -/
def familyEntries (family : String) (entries : String → List QueueEntry) : List QueueEntry :=
  if protocol.enabledFamilies.any (·.id = family) then entries family else []

def queueEntries : List QueueEntry :=
  unrunnableEntries protocol ++
  familyEntries protocol "momentum_trend" (gridEntries protocol · momentumTrendStrategies
    protocol.market.symbols protocol.market.timeframesPrimary id) ++
  familyEntries protocol "cross_asset_regime" (crossAssetEntries protocol) ++
  familyEntries protocol "funding_oi" (gridEntries protocol · fundingOiStrategies
    protocol.market.symbols protocol.market.timeframesPrimary id) ++
  familyEntries protocol "price_action_confluence" (gridEntries protocol · priceActionStrategies
    protocol.market.symbols protocol.market.timeframesPrimary id) ++
  familyEntries protocol "funding_aware_multi_horizon_trend" (multiHorizonEntries protocol) ++
  familyEntries protocol "market_cipher_like" (gridEntries protocol · marketCipherLikeStrategies
    protocol.market.symbols protocol.market.timeframesPrimary withTimeframe)

end

/-- The pass: it names the hypotheses, and returns at the first one beyond the budget. -/
def fillQueue (budget : Nat) : List QueueEntry → Nat → HypothesisQueue → HypothesisQueue
  | [], _, queue => queue
  | .skip family reason :: entries, sequence, queue =>
    fillQueue budget entries sequence
      { queue with skippedFamilies := queue.skippedFamilies ++ [(family, reason)] }
  | .hypothesis h :: entries, sequence, queue =>
    if budget ≤ queue.queued.length then queue
    else
      let named := { h with hypothesisId := makeHypothesisId h.family sequence }
      fillQueue budget entries (sequence + 1) { queue with queued := queue.queued ++ [named] }

/-- `build_hypothesis_queue`. -/
def buildHypothesisQueue (protocol : ResearchProtocol) (startSequence : Nat) : HypothesisQueue :=
  fillQueue protocol.hypothesisBudget.maxNewHypothesesPerCycle (queueEntries protocol)
    startSequence ⟨[], []⟩

end Greenfield.Research
