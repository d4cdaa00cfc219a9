import Greenfield.Demo.Reconciler

/-!
# The strategy executor

`DemoStrategyExecutor` of `src/execution/demo_strategy_executor.py`, with the environment
checks of `src/execution/demo_operator.py` and `src/execution/mode.py`. A cycle is one call
of `advance`. `now` is the time that `now_utc` stands for, and `preflightVerifiedAt` what
the process remembers of its last preflight.
-/

namespace Greenfield.Demo

open Keyed Py Paper Effects

/-! ## Environment checks -/

inductive TradingMode where
  | research
  | backtest
  | shadow
  | paper
  | live
  deriving DecidableEq, Repr

def TradingMode.value : TradingMode → String
  | .research => "RESEARCH"
  | .backtest => "BACKTEST"
  | .shadow => "SHADOW"
  | .paper => "PAPER"
  | .live => "LIVE"

def tradingModes : List TradingMode := [.research, .backtest, .shadow, .paper, .live]

/-- An environment: a mapping of strings. -/
abbrev Env := String → Option String

def resolveTradingMode (rawMode : String) (env : Env) : Except PyError TradingMode :=
  match tradingModes.find? fun m => m.value = (strip rawMode).toUpper with
  | none => .error (.valueError ("unknown TRADING_MODE " ++ quoted rawMode ++ ", expected one of [" ++
      String.intercalate ", " (tradingModes.map fun m => quoted m.value) ++ "]"))
  | some mode => do
    require (!(mode = .live ∧ env "CONFIRM_LIVE_TRADING" ≠ some "I_UNDERSTAND_THE_RISK"))
      (.liveTradingBlocked "TRADING_MODE=LIVE requires the environment variable CONFIRM_LIVE_TRADING=I_UNDERSTAND_THE_RISK to be set explicitly. This is a deliberate safety gate, not a bug - see docs/VPS_DEPLOYMENT.md. PAPER mode (Bybit testnet) requires no such confirmation.")
    .ok mode

def requireDemoPaperEnvironment (env : Env) (orderSubmission : Bool) : Except PyError Unit := do
  let mode ← resolveTradingMode ((env "TRADING_MODE").getD "") env
  require (mode = .paper) (.valueError
    ("Bybit Demo operator command requires TRADING_MODE=PAPER, got " ++ mode.value))
  require (!(truthy (env "BYBIT_API_KEY") ∨ truthy (env "BYBIT_API_SECRET")))
    (.valueError "mainnet BYBIT_API_KEY/BYBIT_API_SECRET must not be present")
  require (!truthy (env "CONFIRM_LIVE_TRADING"))
    (.valueError "CONFIRM_LIVE_TRADING must not be present in a Demo environment")
  require (truthy (env "BYBIT_DEMO_API_KEY") ∧ truthy (env "BYBIT_DEMO_API_SECRET"))
    (.valueError "BYBIT_DEMO_API_KEY and BYBIT_DEMO_API_SECRET are required")
  require (!(orderSubmission ∧ env "GREENFIELD_DEMO_ORDER_CONFIRMATION" ≠ some "BYBIT_DEMO_ONLY"))
    (.valueError
      "Demo order submission requires GREENFIELD_DEMO_ORDER_CONFIRMATION=BYBIT_DEMO_ONLY")

/-! ## The executor -/

structure DemoStrategyExecutor where
  config : AutonomousDemoRiskConfig
  atrExitConfig : Option AtrExitConfig := none
  usePostOnlyEntry : Bool := false

/-- The arguments of `advance`, and what the process remembers. -/
structure AdvanceArgs where
  env : Env
  symbol : String
  action : SetupAction
  observationId : String
  candidateId : String
  now : Instant
  candles : Option Candles := none
  preflightVerifiedAt : Option Instant := none

structure DemoStrategyCycleResult where
  status : String
  trade : Option AutonomousTradeRecord
  detail : String
  deriving DecidableEq

/-- `assert value` of an optional text. -/
def asserted (value : Option String) : Except PyError String :=
  match value with
  | some s => if s = "" then .error .assertionError else .ok s
  | none => .error .assertionError

theorem asserted_eq_ok {value : Option String} {id : String} (h : asserted value = .ok id) :
    value = some id := by
  unfold asserted at h
  split at h
  · split at h
    · cases h
    · cases h
      rfl
  · cases h

/-- The body of `try`, with `None` for a `DemoExecutionLagError`. -/
def orLag {α : Type} (p : DemoProg α) : DemoProg (Option α) := do
  match ← p.attempt with
  | .ok a => return some a
  | .error (.demoExecutionLag _) => return none
  | .error e => Prog.raise e

/-- The sum in `_signed_position`. -/
def signedSize (positions : List DemoPositionSnapshot) : ℚ :=
  (positions.map fun p =>
    if p.side = some "Buy" then p.size else if p.side = some "Sell" then -p.size else 0).sum

/-- `f"demo-strategy:{trade_id}:{suffix}"`. -/
def legKey (tradeId suffix : String) : String := "demo-strategy:" ++ tradeId ++ ":" ++ suffix

/-- Whether `_next_exit_attempt` counts the order. -/
def isExitOrder (tradeId : String) (order : PaperOrderRecord) : Bool :=
  startsWith order.idempotencyKey (legKey tradeId "exit-v")

/-- The side of a leg. -/
def legSide (action : SetupAction) (exitReason : Option DemoExitReason) : IntentSide :=
  let side : IntentSide := if action = .long then .buy else .sell
  if exitReason.isNone then side else if side = .buy then .sell else .buy

namespace DemoStrategyExecutor

variable (D : Digests) (self : DemoStrategyExecutor)

/-! ### Submitting -/

/-- `_next_exit_attempt`. -/
def nextExitAttempt (trade : AutonomousTradeRecord) : DemoProg Nat := do
  let orders ← askOrders (.listByLegGroup trade.tradeId)
  return 1 + orders.countP (isExitOrder trade.tradeId)

/-- `_signed_position`. -/
def signedPosition (symbol : String) : DemoProg ℚ := do
  let positions ← ask (.fetchPositions symbol)
  return signedSize positions

/-- The suffix of the key that `_submit` makes. -/
def legSuffix (trade : AutonomousTradeRecord) (exitReason : Option DemoExitReason) :
    DemoProg String :=
  match exitReason with
  | none => return "entry-v1"
  | some _ => do
    let n ← nextExitAttempt trade
    return "exit-v" ++ toString n

/-- The order of a leg. -/
def legRequest (trade : AutonomousTradeRecord) (exitReason : Option DemoExitReason)
    (suffix : String) (quantity referencePrice : ℚ) : OrderRequest where
  idempotencyKey := legKey trade.tradeId suffix
  symbol := trade.symbol
  side := legSide trade.action exitReason
  quantity
  referencePrice
  legGroupId := some trade.tradeId

/-- The transition that records the order of a leg. -/
def markLeg (trade : AutonomousTradeRecord) (exitReason : Option DemoExitReason)
    (clientOrderId : String) (now : Instant) : DemoProg AutonomousTradeRecord :=
  match exitReason with
  | none => askState (.markEntrySubmitted trade.tradeId clientOrderId (.ofInstant now))
  | some reason =>
    askState (.markExitSubmitted trade.tradeId clientOrderId reason.value (.ofInstant now))

/-- `place_post_only` for an entry that the executor was configured to make so. -/
def legOrderType (exitReason : Option DemoExitReason) (referencePrice : ℚ) : OrderType :=
  if exitReason.isNone ∧ self.usePostOnlyEntry then .postOnly referencePrice
  else .market exitReason.isSome

/-- The part of `_submit` for an order that is pending. -/
def send (trade : AutonomousTradeRecord) (exitReason : Option DemoExitReason)
    (quantity referencePrice : ℚ) (now : Instant) (order : PaperOrderRecord) :
    DemoProg PaperOrderRecord := do
  let order ← askOrders (.markSubmitted order.clientOrderId (.ofInstant now))
  let orderLinkId ← Prog.lift (demoOrderLinkIdFor D order.clientOrderId)
  let ack ← place now order.clientOrderId
    { orderLinkId, symbol := trade.symbol, side := legSide trade.action exitReason, quantity
      orderType := self.legOrderType exitReason referencePrice }
  Prog.check (ack.orderLinkId = orderLinkId)
    (.autonomousDemoState "Bybit Demo order identity mismatch")
  return order

/-- `_submit`. -/
def submit (trade : AutonomousTradeRecord) (exitReason : Option DemoExitReason)
    (quantity referencePrice : ℚ) (now : Instant) : DemoProg PaperOrderRecord := do
  let suffix ← legSuffix trade exitReason
  let order ← askOrders
    (.beginOrder (legRequest trade exitReason suffix quantity referencePrice) (.ofInstant now))
  let _ ← markLeg trade exitReason order.clientOrderId now
  if order.state = .pendingSubmit then self.send D trade exitReason quantity referencePrice now order
  else return order

/-! ### Closing -/

/-- `_close_rejected_entry`. -/
def closeRejectedEntry (trade : AutonomousTradeRecord) (now : Instant) (order : PaperOrderRecord) :
    DemoProg (Option DemoStrategyCycleResult) :=
  if order.state ≠ .rejected ∨ order.filledQuantity ≠ 0 then return none
  else do
    let closed ← askState (.markClosed trade.tradeId 0 (.ofInstant now))
    return some ⟨"CLOSED", some closed,
      "entry order rejected before any fill (post-only did not cross)"⟩

/-- A cycle that ends by holding the trade. -/
def hold (trade : AutonomousTradeRecord) (reason : String) (now : Instant) :
    DemoProg DemoStrategyCycleResult := do
  let held ← askState (.markSafetyHold trade.tradeId reason (.ofInstant now))
  return ⟨"SAFETY_HOLD", some held, held.safetyReason.getD ""⟩

/-- The realized PnL of a trade with these orders. -/
def realizedPnl (action : SetupAction) (entry : PaperOrderRecord)
    (exitOrders : List PaperOrderRecord) : ℚ :=
  let direction : ℚ := if action = .long then 1 else -1
  let entryNotional := entry.averageFillPrice.getD 0 * entry.filledQuantity
  let exitNotional := (exitOrders.map fun o => o.averageFillPrice.getD 0 * o.filledQuantity).sum
  let gross := direction * (exitNotional - entryNotional)
  let costs := entry.feeCostQuote + entry.slippageCostQuote +
    (exitOrders.map fun o => o.feeCostQuote + o.slippageCostQuote).sum
  gross - costs

/-- The last part of `_close`, once the PnL is known. -/
def book (trade : AutonomousTradeRecord) (pnl : ℚ) (now : Instant) :
    DemoProg DemoStrategyCycleResult := do
  let closed ← askState (.markClosed trade.tradeId pnl (.ofInstant now))
  let balance ← ask .accountBalance
  let capital := min balance.totalEquityUsd balance.totalAvailableBalanceUsd
  let _ ← askState (.recordClose (.ofInstant now) capital pnl self.config)
  return ⟨"CLOSED", some closed, "realized_pnl_usd=" ++ toString pnl⟩

/-- `_close`. -/
def close (trade : AutonomousTradeRecord) (now : Instant) : DemoProg DemoStrategyCycleResult := do
  let entryId ← Prog.lift (asserted trade.entryClientOrderId)
  let _ ← Prog.lift (asserted trade.exitClientOrderId)
  let found ← askOrders (.get entryId)
  let orders ← askOrders (.listByLegGroup trade.tradeId)
  let exitOrders := orders.filter fun o => o.clientOrderId ≠ entryId
  let entry ← Prog.lift (existingOrder found .assertionError)
  Prog.check (!exitOrders.isEmpty) .assertionError
  let exitedQuantity := (exitOrders.map (·.filledQuantity)).sum
  if |exitedQuantity - entry.filledQuantity| > 1 / 10 ^ 9 then
    hold trade "flat exchange position does not match durable exit executions" now
  else do
    Prog.check (entry.averageFillPrice.isSome ∧
        exitOrders.all fun o => o.filledQuantity ≤ 0 ∨ o.averageFillPrice.isSome)
      (.autonomousDemoState "filled Demo strategy orders require average prices")
    self.book trade (realizedPnl trade.action entry exitOrders) now

/-- `self._close(self.state.active_trade() or trade, now)`. -/
def closeActive (trade : AutonomousTradeRecord) (now : Instant) :
    DemoProg DemoStrategyCycleResult := do
  let active ← askState .activeTrade
  self.close (active.getD trade) now

/-- A cycle that ends with the active trade. -/
def report (status detail : String) : DemoProg DemoStrategyCycleResult := do
  let active ← askState .activeTrade
  return ⟨status, active, detail⟩

/-- `reconcile`, of which `_advance_active` uses the order. -/
def reconcileOrder (clientOrderId : String) : DemoProg (Option PaperOrderRecord) := orLag do
  let (order, _, _) ← reconcile D clientOrderId
  return order

/-! ### `_advance_active` -/

/-- Its last part, for a position that is open. -/
def advanceOpen (trade : AutonomousTradeRecord) (signed : ℚ) (now : Instant) :
    DemoProg DemoStrategyCycleResult :=
  match trade.entryFillPrice, trade.openedAtUtc with
  | some entryPrice, some openedAt =>
    if signed = 0 then hold trade "exchange/state position mismatch" now
    else do
      let market ← ask (.instrumentSnapshot trade.symbol)
      let reason ← Prog.lift (autonomousDemoExitReason trade.action entryPrice market.lastPrice
        (.ofInstant openedAt) (.ofInstant now) self.config trade.stopLossBps trade.takeProfitBps)
      match reason with
      | none => return ⟨"OPEN", some trade, "stop/target/time exit not reached"⟩
      | some reason => do
        let order ← self.submit D trade (some reason) |signed| market.lastPrice now
        match ← reconcileOrder D order.clientOrderId with
        | none => report "EXIT_SUBMITTED" "exit execution feed is lagging; reconciliation will retry"
        | some order => do
          let signed ← signedPosition trade.symbol
          if signed = 0 ∧ order.state = .filled then self.closeActive trade now
          else report "EXIT_SUBMITTED" "reduce-only exit submitted"
  | _, _ => hold trade "exchange/state position mismatch" now

/-- The replacement of an exit order that ended with a position left. -/
def replaceExit (trade : AutonomousTradeRecord) (signed : ℚ) (now : Instant) :
    DemoProg DemoStrategyCycleResult := do
  let n ← nextExitAttempt trade
  if n > 5 then hold trade "maximum residual exit attempts reached" now
  else do
    let market ← ask (.instrumentSnapshot trade.symbol)
    let residualReason ← Prog.lift (DemoExitReason.ofValue (trade.exitReason.getD ""))
    let replacement ← self.submit D trade (some residualReason) |signed| market.lastPrice now
    let _ ← reconcileOrder D replacement.clientOrderId
    let signed ← signedPosition trade.symbol
    if signed = 0 then self.closeActive trade now
    else report "EXIT_SUBMITTED" "residual reduce-only exit submitted"

/-- Its part for `EXIT_SUBMITTED`. -/
def advanceExit (trade : AutonomousTradeRecord) (now : Instant) :
    DemoProg DemoStrategyCycleResult := do
  let exitId ← Prog.lift (asserted trade.exitClientOrderId)
  match ← reconcileOrder D exitId with
  | none => return ⟨"EXIT_SUBMITTED", some trade,
      "exit execution feed is lagging; reconciliation will retry"⟩
  | some order => do
    let signed ← signedPosition trade.symbol
    if signed = 0 ∧ 0 < order.filledQuantity then self.close trade now
    else if order.state = .canceled ∨ order.state = .rejected then
      if signed = 0 then self.close trade now
      else self.replaceExit D trade signed now
    else return ⟨"EXIT_SUBMITTED", some trade, "reduce-only exit awaiting reconciliation"⟩

/-- Its part after the entry. -/
def advancePosition (trade : AutonomousTradeRecord) (now : Instant) :
    DemoProg DemoStrategyCycleResult := do
  let positions ← ask (.fetchPositions trade.symbol)
  if trade.phase = .exitSubmitted then self.advanceExit D trade now
  else self.advanceOpen D trade (signedSize positions) now

/-- Its part for `ENTRY_SUBMITTED`. -/
def advanceEntry (trade : AutonomousTradeRecord) (now : Instant) :
    DemoProg DemoStrategyCycleResult := do
  let entryId ← Prog.lift (asserted trade.entryClientOrderId)
  match ← reconcileOrder D entryId with
  | none => return ⟨"ENTRY_SUBMITTED", some trade,
      "entry execution feed is lagging; reconciliation will retry"⟩
  | some order =>
    match order.state, order.averageFillPrice with
    | .filled, some price => do
      let trade ← askState (.markOpen trade.tradeId price (.ofInstant now))
      self.advancePosition D trade now
    | _, _ => do
      match ← closeRejectedEntry trade now order with
      | some rejected => return rejected
      | none => return ⟨"ENTRY_SUBMITTED", some trade, "entry awaiting reconciliation"⟩

/-- `_advance_active`. -/
def advanceActive (trade : AutonomousTradeRecord) (now : Instant) :
    DemoProg DemoStrategyCycleResult :=
  match trade.phase with
  | .safetyHold => return ⟨"SAFETY_HOLD", some trade,
      if truthy trade.safetyReason then trade.safetyReason.getD "" else "manual review"⟩
  | .entrySubmitted => self.advanceEntry D trade now
  | _ => self.advancePosition D trade now

/-! ### `advance` -/

/-- The ATR overrides of a new trade. -/
def atrOverrides (candles : Option Candles) : Except PyError (Option ℚ × Option ℚ) :=
  match self.atrExitConfig, candles with
  | none, _ => .ok (none, none)
  | some _, none => .error (.valueError "ATR-scaled exits require candles to be supplied")
  | some config, some candles => do
    let (stopLossBps, takeProfitBps) ← atrStopTakeProfitBps candles config
    .ok (some stopLossBps, some takeProfitBps)

/-- Its part after the entry order is booked. -/
def followEntry (trade : AutonomousTradeRecord) (now : Instant) (clientOrderId : String) :
    DemoProg DemoStrategyCycleResult := do
  match ← reconcileOrder D clientOrderId with
  | none => report "ENTRY_SUBMITTED" "entry execution feed is lagging; reconciliation will retry"
  | some order =>
    match order.state, order.averageFillPrice with
    | .filled, some price => do
      let trade ← askState (.markOpen trade.tradeId price (.ofInstant now))
      return ⟨"OPEN", some trade, "Demo entry filled"⟩
    | _, _ => do
      match ← closeRejectedEntry trade now order with
      | some rejected => return rejected
      | none => report "ENTRY_SUBMITTED" "entry awaiting reconciliation"

/-- The trade that an entry begins. -/
def tradeRequest (args : AdvanceArgs) (quantity lastPrice : ℚ) (overrides : Option ℚ × Option ℚ) :
    TradeRequest where
  observationId := args.observationId
  candidateId := args.candidateId
  symbol := args.symbol
  action := args.action
  targetQuantity := quantity
  referencePrice := lastPrice
  stopLossBps := overrides.1
  takeProfitBps := overrides.2

/-- Its part after the entry was authorized. -/
def beginEntry (args : AdvanceArgs) (balance : DemoAccountBalance) (dailyCapital : ℚ) :
    DemoProg DemoStrategyCycleResult := do
  let market ← ask (.instrumentSnapshot args.symbol)
  let sizing ← Prog.lift (sizeAutonomousDemoTrade balance market self.config)
  let overrides ← Prog.lift (self.atrOverrides args.candles)
  let trade ← askState (.beginTrade
    (tradeRequest args sizing.quantity market.lastPrice overrides) (.ofInstant args.now))
  let _ ← ask (.setLeverage args.symbol self.config.leverage)
  let order ← self.submit D trade none sizing.quantity market.lastPrice args.now
  let _ ← askState (.recordEntry (.ofInstant args.now) dailyCapital self.config)
  followEntry D trade args.now order.clientOrderId

/-- Its part without an active trade. -/
def enter (args : AdvanceArgs) : DemoProg DemoStrategyCycleResult := do
  let exposure ← ask .accountExposure
  Prog.check (exposure.positions.isEmpty ∧ exposure.openOrders.isEmpty)
    (.autonomousDemoState "unowned Demo exposure/order found; refusing to trade")
  if args.action ≠ .long ∧ args.action ≠ .short then
    return ⟨"WAIT", none, "strategy adapter returned WAIT"⟩
  else do
    let balance ← ask .accountBalance
    let capital := min balance.totalEquityUsd balance.totalAvailableBalanceUsd
    let daily ← askState (.dailyRiskState (.ofInstant args.now))
    let dailyCapital := match daily with
      | some day => day.startingCapitalUsd
      | none => capital
    let _ ← askState (.authorizeEntry (.ofInstant args.now) dailyCapital self.config)
    self.beginEntry D args balance dailyCapital

/-- Whether the gateway is asked for a preflight again. -/
def preflightDue (verifiedAt : Option Instant) (now : Instant) : Bool :=
  match verifiedAt with
  | none => true
  | some at_ => now < at_ ∨ now - at_ ≥ 15 * 60 * microsPerSecond

/-- The checks of `advance`, and its preflight. -/
def gate (args : AdvanceArgs) : DemoProg Unit := do
  Prog.lift (requireDemoPaperEnvironment args.env true)
  Prog.check (args.env "GREENFIELD_DEMO_STRATEGY_CONFIRMATION" =
      some "CONTINUOUS_BYBIT_DEMO_STRATEGY_ONLY")
    (.valueError "Demo strategy execution requires GREENFIELD_DEMO_STRATEGY_CONFIRMATION=CONTINUOUS_BYBIT_DEMO_STRATEGY_ONLY")
  if preflightDue args.preflightVerifiedAt args.now then ask .preflight else return

def advance (args : AdvanceArgs) : DemoProg DemoStrategyCycleResult := do
  gate args
  match ← askState .activeTrade with
  | some trade => self.advanceActive D trade args.now
  | none => self.enter D args

end DemoStrategyExecutor

end Greenfield.Demo
