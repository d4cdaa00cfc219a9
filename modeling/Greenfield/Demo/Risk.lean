import Greenfield.Demo.Gateway

/-!
# Sizing and exits of the autonomous Demo

`src/execution/demo_autonomous_risk.py`.
-/

namespace Greenfield.Demo

open Py Paper

inductive SetupAction where
  | long
  | short
  | wait
  | arbitrage
  deriving DecidableEq, Repr

structure AutonomousDemoRiskConfig where
  leverage : Int := 100
  marginFractionPerTrade : ℚ := 1 / 100
  maximumOpenPositions : Int := 1
  maximumTradesPerUtcDay : Int := 6
  stopLossBps : ℚ := 20
  takeProfitBps : ℚ := 30
  maximumHoldingSeconds : Int := 1800
  cooldownSeconds : Int := 900
  maximumDailyLossFraction : ℚ := 1 / 100
  operatorSelected : leverage = 100 ∧ marginFractionPerTrade = 1 / 100 ∧ maximumOpenPositions = 1
  thresholds : 0 < stopLossBps ∧ 0 < takeProfitBps ∧ 0 < maximumDailyLossFraction
  stopBelow : stopLossBps < 100
  limits : 1 ≤ maximumTradesPerUtcDay ∧ 1 ≤ maximumHoldingSeconds ∧ 0 ≤ cooldownSeconds

/-- `AutonomousDemoRiskConfig()`. -/
def defaultRiskConfig : AutonomousDemoRiskConfig where
  operatorSelected := ⟨rfl, rfl, rfl⟩
  thresholds := by decide +kernel
  stopBelow := by decide +kernel
  limits := by decide

structure AutonomousDemoSizing where
  accountEquityUsd : ℚ
  sizingCapitalUsd : ℚ
  targetMarginUsd : ℚ
  targetNotionalUsd : ℚ
  quantity : ℚ
  estimatedNotionalUsd : ℚ
  estimatedMarginUsd : ℚ
  deriving DecidableEq

/-- `AutonomousDemoSizing.__post_init__`. -/
def AutonomousDemoSizing.checked (z : AutonomousDemoSizing) :
    Except PyError AutonomousDemoSizing := do
  require ([z.accountEquityUsd, z.sizingCapitalUsd, z.targetMarginUsd, z.targetNotionalUsd,
    z.quantity, z.estimatedNotionalUsd, z.estimatedMarginUsd].all fun v => 0 < v)
    (.valueError "autonomous Demo sizing values must be positive")
  require (z.estimatedMarginUsd ≤ z.targetMarginUsd)
    (.valueError "quantized Demo order exceeds the 1% margin envelope")
  .ok z

inductive DemoExitReason where
  | stopLoss
  | takeProfit
  | maxHoldingTime
  deriving DecidableEq, Repr

def DemoExitReason.value : DemoExitReason → String
  | .stopLoss => "STOP_LOSS"
  | .takeProfit => "TAKE_PROFIT"
  | .maxHoldingTime => "MAX_HOLDING_TIME"

/-- `DemoExitReason(value)`. -/
def DemoExitReason.ofValue (value : String) : Except PyError DemoExitReason :=
  if value = "STOP_LOSS" then .ok .stopLoss
  else if value = "TAKE_PROFIT" then .ok .takeProfit
  else if value = "MAX_HOLDING_TIME" then .ok .maxHoldingTime
  else .error (.valueError (quoted value ++ " is not a valid DemoExitReason"))

def sizeAutonomousDemoTrade (balance : DemoAccountBalance)
    (market : PublicLinearInstrumentSnapshot) (config : AutonomousDemoRiskConfig) :
    Except PyError AutonomousDemoSizing := do
  let equity := balance.totalEquityUsd
  let capital := min equity balance.totalAvailableBalanceUsd
  require (0 < capital) (.valueError "autonomous Demo deployable capital must be positive")
  let margin := capital * config.marginFractionPerTrade
  let notional := margin * config.leverage
  let rawQuantity := notional / market.lastPrice
  let quantity := roundDown (rawQuantity / market.quantityStep) * market.quantityStep
  require (market.minimumOrderQuantity ≤ quantity)
    (.valueError "1% Demo margin is below the venue minimum order quantity")
  let actualNotional := quantity * market.lastPrice
  AutonomousDemoSizing.checked
    { accountEquityUsd := equity
      sizingCapitalUsd := capital
      targetMarginUsd := margin
      targetNotionalUsd := notional
      quantity
      estimatedNotionalUsd := actualNotional
      estimatedMarginUsd := actualNotional / config.leverage }

def autonomousDemoExitReason (action : SetupAction) (entryPrice currentPrice : ℚ)
    (openedAtUtc nowUtc : Datetime) (config : AutonomousDemoRiskConfig)
    (stopLossBps takeProfitBps : Option ℚ) : Except PyError (Option DemoExitReason) := do
  let effectiveStop := stopLossBps.getD config.stopLossBps
  let effectiveTarget := takeProfitBps.getD config.takeProfitBps
  require (0 < effectiveStop)
    (.valueError "autonomous Demo effective stop-loss must be positive")
  require (0 < effectiveTarget)
    (.valueError "autonomous Demo effective take-profit must be positive")
  require (action = .long ∨ action = .short)
    (.valueError "autonomous Demo exit requires LONG or SHORT")
  require (0 < entryPrice ∧ 0 < currentPrice)
    (.valueError "autonomous Demo exit prices must be positive")
  let opened ← utc openedAtUtc "autonomous Demo opened timestamp"
  let now ← utc nowUtc "autonomous Demo exit timestamp"
  require (opened ≤ now) (.valueError "autonomous Demo exit cannot precede entry")
  let direction : ℚ := if action = .long then 1 else -1
  let returnBps := direction * (currentPrice / entryPrice - 1) * 10000
  if returnBps ≤ -effectiveStop then .ok (some .stopLoss)
  else if returnBps ≥ effectiveTarget then .ok (some .takeProfit)
  else if now - opened ≥ config.maximumHoldingSeconds * microsPerSecond then
    .ok (some .maxHoldingTime)
  else .ok none

/-! ## Volatility-scaled exits -/

structure AtrExitConfig where
  window : Nat := 14
  stopMultiple : ℚ := 1 / 2
  targetMultiple : ℚ := 6 / 5
  minimumStopBps : ℚ := 8
  maximumStopBps : ℚ := 60
  covers : 2 ≤ window
  positive : 0 < stopMultiple ∧ 0 < targetMultiple ∧ 0 < minimumStopBps
  ordered : minimumStopBps < maximumStopBps
  stopBelow : maximumStopBps < 100

structure Candle where
  high : ℚ
  low : ℚ
  close : ℚ
  deriving DecidableEq

/-- The columns of a frame, and its rows' `high`, `low` and `close`. -/
structure Candles where
  columns : List String
  rows : List Candle
  deriving DecidableEq

/-- The true ranges of consecutive candles. -/
def trueRanges : List Candle → List ℚ
  | a :: b :: rest =>
    max (max (b.high - b.low) |b.high - a.close|) |b.low - a.close| :: trueRanges (b :: rest)
  | _ => []

def atrStopTakeProfitBps (candles : Candles) (config : AtrExitConfig) :
    Except PyError (ℚ × ℚ) := do
  let missing := ["close", "high", "low"].filter fun c => c ∉ candles.columns
  require missing.isEmpty (.valueError ("ATR computation missing columns: [" ++
    String.intercalate ", " (missing.map quoted) ++ "]"))
  require (config.window + 1 ≤ candles.rows.length)
    (.valueError "insufficient candle history for ATR computation")
  let frame := candles.rows.drop (candles.rows.length - (config.window + 1))
  let trueRange := trueRanges frame
  require (!trueRange.isEmpty ∧ trueRange.all fun r => 0 ≤ r)
    (.valueError "invalid ATR true-range series")
  let atr := trueRange.sum / trueRange.length
  let lastClose := (frame.getLast?.map Candle.close).getD 0
  require (0 < lastClose) (.valueError "invalid ATR inputs")
  let atrBps := atr / lastClose * 10000
  let stopBps := min (max (atrBps * config.stopMultiple) config.minimumStopBps) config.maximumStopBps
  let targetBps := atrBps * config.targetMultiple
  .ok (stopBps,
    if targetBps ≤ stopBps then stopBps * (config.targetMultiple / config.stopMultiple)
    else targetBps)

/-! ## The daily limit -/

def dailyLossLimitUsd (startingEquityUsd : ℚ) (config : AutonomousDemoRiskConfig) :
    Except PyError ℚ := do
  require (0 < startingEquityUsd) (.valueError "daily starting Demo equity must be positive")
  .ok (startingEquityUsd * config.maximumDailyLossFraction)

theorem dailyLossLimitUsd_eq_ok {capital limit : ℚ} {config : AutonomousDemoRiskConfig} :
    dailyLossLimitUsd capital config = .ok limit ↔
      0 < capital ∧ limit = capital * config.maximumDailyLossFraction := by
  simp only [dailyLossLimitUsd, bind_eq_ok, require_eq_ok, decide_eq_true_eq, Except.ok.injEq]
  constructor
  · rintro ⟨-, hpos, rfl⟩
    exact ⟨hpos, rfl⟩
  · rintro ⟨hpos, rfl⟩
    exact ⟨(), hpos, rfl⟩

end Greenfield.Demo
