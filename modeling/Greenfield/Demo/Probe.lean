import Greenfield.Demo.Executor

/-!
# The execution probe

`PaperExecutionProbeExecutor` of `src/execution/paper_execution_probe.py`. The orders and
the trades of a probe are those of a `World`; what else a run does (it reads the clock,
sleeps, asks for a ticker, cancels, writes evidence) leaves the world as it is. A loop
polls as often as `polls` says; a run that is cut off there is one that was stopped.
-/

namespace Greenfield.Demo

open Keyed Py Paper Effects

/-! ## Configuration -/

inductive ProbeOrderType where
  | taker
  | maker
  deriving DecidableEq, Repr

def ProbeOrderType.value : ProbeOrderType → String
  | .taker => "TAKER"
  | .maker => "MAKER"

/-- `ProbeOrderType(value)`. -/
def ProbeOrderType.ofValue (value : String) : Except PyError ProbeOrderType :=
  if value = "TAKER" then .ok .taker
  else if value = "MAKER" then .ok .maker
  else .error (.valueError (quoted value ++ " is not a valid ProbeOrderType"))

/-- `SYNTHETIC_RISK_BUDGET_USD`. -/
def syntheticRiskBudgetUsd : ℚ := 1000

/-- `HARD_MAXIMUM_NOTIONAL_QUOTE_USD`. -/
def hardMaximumNotionalQuoteUsd : ℚ := 100

/-- `PROBE_LEVERAGE`. -/
def probeLeverage : Int := 1

/-- `PROBE_VENUE`. -/
def probeVenue : String := "bybit-demo"

/-- `MARKOUT_HORIZONS_SECONDS`. -/
def markoutHorizons : List ℚ := [1 / 10, 1 / 4, 1 / 2, 1, 2, 5, 10, 30, 60]

structure PaperExecutionProbeConfig where
  targetNotionalQuoteUsd : ℚ := 30
  maximumNotionalQuoteUsd : ℚ := 60
  makerFillTimeoutSeconds : Int := 20
  maximumOrdersPerUtcDay : Int := 12
  cooldownSeconds : Int := 30
  maximumDailyLossUsd : ℚ := 10
  markoutHorizonsSeconds : List ℚ := markoutHorizons
  reconcilePollSeconds : ℚ := 1
  reconcileTimeoutSeconds : ℚ := 15
  maximumExitAttempts : Int := 5
  notionals : 0 < targetNotionalQuoteUsd ∧ targetNotionalQuoteUsd ≤ maximumNotionalQuoteUsd ∧
    0 < maximumNotionalQuoteUsd ∧ maximumNotionalQuoteUsd ≤ hardMaximumNotionalQuoteUsd
  makerTimeout : 1 ≤ makerFillTimeoutSeconds ∧ makerFillTimeoutSeconds ≤ 120
  daily : 1 ≤ maximumOrdersPerUtcDay ∧ maximumOrdersPerUtcDay ≤ 50 ∧ 0 ≤ cooldownSeconds ∧
    cooldownSeconds ≤ 3600 ∧ 0 < maximumDailyLossUsd ∧ maximumDailyLossUsd ≤ 50
  horizons : markoutHorizonsSeconds ≠ [] ∧ ∀ h ∈ markoutHorizonsSeconds, 0 < h
  polling : 1 / 10 ≤ reconcilePollSeconds ∧ reconcilePollSeconds ≤ 5 ∧
    5 ≤ reconcileTimeoutSeconds ∧ reconcileTimeoutSeconds ≤ 120
  exits : 1 ≤ maximumExitAttempts ∧ maximumExitAttempts ≤ 5

theorem PaperExecutionProbeConfig.dailyLossFraction_pos (c : PaperExecutionProbeConfig) :
    0 < c.maximumDailyLossUsd / syntheticRiskBudgetUsd := by
  apply div_pos c.daily.2.2.2.2.1
  norm_num [syntheticRiskBudgetUsd]

/-- `risk_config`. -/
def PaperExecutionProbeConfig.riskConfig (c : PaperExecutionProbeConfig) :
    AutonomousDemoRiskConfig where
  maximumTradesPerUtcDay := c.maximumOrdersPerUtcDay
  cooldownSeconds := c.cooldownSeconds
  maximumDailyLossFraction := c.maximumDailyLossUsd / syntheticRiskBudgetUsd
  operatorSelected := defaultRiskConfig.operatorSelected
  thresholds :=
    ⟨defaultRiskConfig.thresholds.1, defaultRiskConfig.thresholds.2.1, c.dailyLossFraction_pos⟩
  stopBelow := defaultRiskConfig.stopBelow
  limits := ⟨c.daily.1, defaultRiskConfig.limits.2.1, c.daily.2.2.1⟩

structure ProbeCycleResult where
  status : String
  trade : Option AutonomousTradeRecord
  detail : String
  deriving DecidableEq

/-! ## Evidence -/

structure TopOfBookQuote where
  symbol : String
  venue : String
  timestampUtc : Instant
  bidPrice : ℚ
  askPrice : ℚ
  bidQuantity : ℚ
  askQuantity : ℚ

/-- `TopOfBookQuote.__post_init__`. -/
def TopOfBookQuote.checked (q : TopOfBookQuote) : Except PyError TopOfBookQuote := do
  require (!isBlank q.symbol ∧ !isBlank q.venue)
    (.valueError "top-of-book quote requires symbol and venue")
  require ([q.bidPrice, q.askPrice, q.bidQuantity, q.askQuantity].all fun v => 0 < v)
    (.valueError "top-of-book prices and quantities must be positive")
  require (q.bidPrice < q.askPrice) (.valueError "top-of-book quote must not be locked or crossed")
  .ok q

structure PaperOrderObservation where
  orderId : String
  symbol : String
  venue : String
  side : IntentSide
  requestedQuantity : ℚ
  decisionTimestampUtc : Instant
  submittedAtUtc : Instant
  resolvedAtUtc : Instant
  filledPrice : ℚ
  filledQuantity : ℚ
  rejected : Bool
  feeCostQuote : ℚ
  fundingCostQuote : ℚ

/-- `PaperOrderObservation.__post_init__`. -/
def PaperOrderObservation.checked (o : PaperOrderObservation) :
    Except PyError PaperOrderObservation := do
  require (!isBlank o.orderId ∧ !isBlank o.symbol ∧ !isBlank o.venue)
    (.valueError "paper observation requires order, symbol, and venue")
  require (o.decisionTimestampUtc ≤ o.submittedAtUtc ∧ o.submittedAtUtc ≤ o.resolvedAtUtc)
    (.valueError "paper order timestamps must be monotonic")
  require (0 < o.requestedQuantity) (.valueError "paper requested quantity must be positive")
  if o.rejected then
    require (o.filledPrice = 0 ∧ o.filledQuantity = 0)
      (.valueError "rejected paper order cannot contain a fill")
  else
    require (0 < o.filledPrice ∧ 0 < o.filledQuantity ∧ o.filledQuantity ≤ o.requestedQuantity)
      (.valueError "filled paper order has invalid price or quantity")
  .ok o

/-- The prices and sizes that `get_ticker` answers. -/
structure Ticker where
  bid1Price : ℚ
  ask1Price : ℚ
  bid1Size : ℚ
  ask1Size : ℚ

/-! ## Programs of a probe -/

/-- What a probe does: the operations of a Demo process, and what leaves the world. -/
inductive ProbeOp where
  | demo (o : Op)
  | clock
  | sleep (seconds : ℚ)
  | getTicker (symbol : String)
  | cancel (orderLinkId symbol : String)
  | listFills (clientOrderId : String)
  | recordQuote (probeTradeId horizonLabel : String) (quote : TopOfBookQuote)
  | recordOrderObservation (probeTradeId probeMode requestId : String)
      (observation : PaperOrderObservation) (nowUtc : Instant)

abbrev ProbeOp.Res : ProbeOp → Type
  | .demo o => o.Res
  | .clock => Instant
  | .getTicker _ => Ticker
  | .cancel _ _ => DemoOrderAck
  | .listFills _ => List FillRow
  | _ => Unit

/-- A program of a probe. -/
abbrev ProbeProg := Prog ProbeOp ProbeOp.Res PyError

/-- A program of a Demo process, as a part of a probe. -/
def asProbe {α : Type} : DemoProg α → ProbeProg α
  | .ret a => .ret a
  | .raise e => .raise e
  | .call o k => .call (.demo o) fun r => asProbe (k r)

/-- One operation on the world. -/
def probeExec (D : Digests) : Sem ProbeOp ProbeOp.Res PyError World
  | .demo o, w, r, w' => exec D (fun _ _ _ => True) o w r w'
  | .listFills c, w, r, w' => w' = w ∧ r = .ok (w.orders.listFills c)
  | _, w, _, w' => w' = w

/-! ## Helpers -/

/-- `s.removeprefix(p)`. -/
def removePrefix (s p : String) : String :=
  if startsWith s p then String.ofList (s.toList.drop p.toList.length) else s

/-- `_mode_from_candidate_id`. -/
def modeFromCandidateId (candidateId : String) : Except PyError ProbeOrderType := do
  require (startsWith candidateId "EXECUTION_PROBE:") (.autonomousDemoState
    ("unexpected non-probe candidate_id in the execution probe state store: " ++ quoted candidateId))
  ProbeOrderType.ofValue (removePrefix candidateId "EXECUTION_PROBE:")

/-- `_size_probe_quantity`. -/
def sizeProbeQuantity (target maximum price : ℚ) (market : PublicLinearInstrumentSnapshot) :
    Except PyError ℚ := do
  let rawQuantity := target / price
  let stepped := roundDown (rawQuantity / market.quantityStep) * market.quantityStep
  let quantity := if stepped < market.minimumOrderQuantity then market.minimumOrderQuantity else stepped
  let actualNotional := quantity * price
  require (actualNotional ≤ maximum) (.valueError (market.symbol ++
    "'s minimum tradable notional (~" ++ toString actualNotional ++ " USDT) exceeds the " ++
    "execution probe's maximum notional cap (" ++ toString maximum ++
    " USDT); exclude this symbol or raise the cap, bounded by HARD_MAXIMUM_NOTIONAL_QUOTE_USD"))
  .ok quantity

/-- `_utc(now_utc)`. -/
def probeUtc (value : Datetime) : Except PyError Instant :=
  utcOr value "execution probe timestamp must be timezone-aware"

/-- `f"execution-probe:{trade_id}:{suffix}"`. -/
def probeKey (tradeId suffix : String) : String := "execution-probe:" ++ tradeId ++ ":" ++ suffix

/-- Whether `_collect_markouts` goes on after the error: a `KeyError`, a `ValueError` or a
`RuntimeError`. -/
def skipsMarkout : PyError → Bool
  | .typeError _ | .assertionError | .integrityError _ | .osError | .databaseError _ => false
  | _ => true

/-- The orders of a trade without its entry. -/
def exitOrdersOf (entryId : String) (orders : List PaperOrderRecord) : List PaperOrderRecord :=
  orders.filter fun o => o.clientOrderId ≠ entryId

/-- Whether `_close` finds that the exits make up the entry. -/
def evenedOut (entry : PaperOrderRecord) (exitOrders : List PaperOrderRecord) : Bool :=
  |(exitOrders.map (·.filledQuantity)).sum - entry.filledQuantity| ≤ 1 / 10 ^ 9

/-! ## The executor -/

structure PaperExecutionProbeExecutor where
  config : PaperExecutionProbeConfig

/-- The arguments of `run`. -/
structure ProbeArgs where
  env : Env
  symbol : String
  requestId : String
  nowUtc : Option Datetime := none
  modeOverride : Option ProbeOrderType := none
  sideOverride : Option IntentSide := none

namespace PaperExecutionProbeExecutor

variable (D : Digests) (self : PaperExecutionProbeExecutor)

/-- `self._clock()`. -/
def clock : ProbeProg Instant := Prog.perform ProbeOp.clock

/-- `_sleep` between two polls. -/
def pause : ProbeProg Unit := Prog.perform (ProbeOp.sleep self.config.reconcilePollSeconds)

/-- `_fetch_quote`. -/
def fetchQuote (symbol : String) (now : Instant) : ProbeProg TopOfBookQuote := do
  let raw ← Prog.perform (ProbeOp.getTicker symbol)
  Prog.lift (TopOfBookQuote.checked
    { symbol, venue := probeVenue, timestampUtc := now, bidPrice := raw.bid1Price
      askPrice := raw.ask1Price, bidQuantity := raw.bid1Size, askQuantity := raw.ask1Size })

/-- `_signed_position`. -/
def probePosition (symbol : String) : ProbeProg ℚ := do
  let positions ← asProbe (ask (.fetchPositions symbol))
  return signedSize positions

/-- `_next_exit_attempt`. -/
def nextProbeExit (record : AutonomousTradeRecord) : ProbeProg Nat := do
  let orders ← asProbe (askOrders (.listByLegGroup record.tradeId))
  return 1 + orders.countP fun o => startsWith o.idempotencyKey (probeKey record.tradeId "exit-v")

/-- A result with the active trade. -/
def pendingResult (detail : String) : ProbeProg ProbeCycleResult := do
  let active ← asProbe (askState .activeTrade)
  return ⟨"PENDING_RECONCILIATION", active, detail⟩

/-- A cycle that ends by holding the trade. -/
def holdProbe (record : AutonomousTradeRecord) (reason : String) (now : Instant) :
    ProbeProg ProbeCycleResult := do
  let held ← asProbe (askState (.markSafetyHold record.tradeId reason (.ofInstant now)))
  return ⟨"SAFETY_HOLD", some held, held.safetyReason.getD ""⟩

/-! ### Evidence -/

/-- What `_journal_entry` observes of an order. -/
def observationOf (record : AutonomousTradeRecord) (order : PaperOrderRecord)
    (resolvedAt : Instant) : PaperOrderObservation where
  orderId := order.clientOrderId
  symbol := record.symbol
  venue := probeVenue
  side := order.side
  requestedQuantity := order.quantity
  decisionTimestampUtc := record.createdAtUtc
  submittedAtUtc := order.createdAtUtc
  resolvedAtUtc := resolvedAt
  filledPrice := order.averageFillPrice.getD 0
  filledQuantity := order.filledQuantity
  rejected := (order.state = .rejected ∨ order.state = .canceled) ∧ order.filledQuantity = 0
  feeCostQuote := order.feeCostQuote
  fundingCostQuote := order.fundingCostQuote

/-- `_journal_entry`. -/
def journalEntry (record : AutonomousTradeRecord) (order : PaperOrderRecord)
    (resolvedAt : Instant) : ProbeProg Unit := do
  let observation ← Prog.lift (observationOf record order resolvedAt).checked
  let mode ← Prog.lift (modeFromCandidateId record.candidateId)
  let now ← clock
  Prog.perform (ProbeOp.recordOrderObservation record.tradeId mode.value
    (removePrefix record.observationId "execution-probe:") observation now)

/-- `_collect_markouts`, for the horizons that are left. -/
def collectMarkouts (tradeId symbol : String) (filledAt : Instant) : List ℚ → ProbeProg Unit
  | [] => return
  | horizon :: rest => do
    let now ← clock
    let wait : ℚ := (filledAt + timedelta horizon - now : Int) / (microsPerSecond : ℚ)
    let _ ← (if 0 < wait then Prog.perform (ProbeOp.sleep wait) else pure ())
    let now ← clock
    match ← (fetchQuote symbol now).attempt with
    | .ok quote =>
      Prog.perform (ProbeOp.recordQuote tradeId ("T+" ++ toString horizon ++ "s") quote)
      collectMarkouts tradeId symbol filledAt rest
    | .error e =>
      if skipsMarkout e then collectMarkouts tradeId symbol filledAt rest else Prog.raise e

/-! ### Closing -/

/-- `_close`. -/
def closeProbe (record : AutonomousTradeRecord) (now : Instant) : ProbeProg ProbeCycleResult := do
  let entryId ← Prog.lift (asserted record.entryClientOrderId)
  let _ ← Prog.lift (asserted record.exitClientOrderId)
  let found ← asProbe (askOrders (.get entryId))
  let orders ← asProbe (askOrders (.listByLegGroup record.tradeId))
  let exitOrders := exitOrdersOf entryId orders
  let entry ← Prog.lift (existingOrder found .assertionError)
  Prog.check (!exitOrders.isEmpty) .assertionError
  if !evenedOut entry exitOrders then
    holdProbe record "flat exchange position does not match durable exit executions" now
  else do
    Prog.check entry.averageFillPrice.isSome .assertionError
    let pnl := DemoStrategyExecutor.realizedPnl record.action entry exitOrders
    let closed ← asProbe (askState (.markClosed record.tradeId pnl (.ofInstant now)))
    let _ ← asProbe (askState
      (.recordClose (.ofInstant now) syntheticRiskBudgetUsd pnl self.config.riskConfig))
    return ⟨"CLOSED", some closed, "realized_pnl_usd=" ++ toString pnl⟩

/-- `_close_zero_fill`. -/
def closeZeroFill (record : AutonomousTradeRecord) (order : PaperOrderRecord) (now : Instant)
    (detail : String) : ProbeProg ProbeCycleResult := do
  journalEntry record order order.updatedAtUtc
  let closed ← asProbe (askState (.markClosed record.tradeId 0 (.ofInstant now)))
  return ⟨"CLOSED_NO_FILL", some closed, detail⟩

/-! ### The exit -/

/-- The part of `_flatten` for an order that is pending. -/
def sendExit (record : AutonomousTradeRecord) (side : IntentSide) (quantity : ℚ) (now : Instant)
    (order : PaperOrderRecord) : ProbeProg Unit := do
  let order ← asProbe (askOrders (.markSubmitted order.clientOrderId (.ofInstant now)))
  let orderLinkId ← Prog.lift (demoOrderLinkIdFor D order.clientOrderId)
  let ack ← asProbe (place now order.clientOrderId
    { orderLinkId, symbol := record.symbol, side, quantity, orderType := .market true })
  Prog.check (ack.orderLinkId = orderLinkId)
    (.autonomousDemoState "Bybit Demo order identity mismatch")

/-- `_flatten`, where `continueExit` is what it ends with. -/
def flattenWith (continueExit : AutonomousTradeRecord → ProbeProg ProbeCycleResult)
    (record : AutonomousTradeRecord) (now : Instant) : ProbeProg ProbeCycleResult := do
  let signed ← probePosition record.symbol
  if signed = 0 then
    holdProbe record "exchange/state position mismatch: OPEN phase but zero exchange exposure" now
  else do
    let attempt ← nextProbeExit record
    if attempt > self.config.maximumExitAttempts then
      holdProbe record "maximum residual exit attempts reached" now
    else do
      let side : IntentSide := if 0 < signed then .sell else .buy
      let quantity := |signed|
      let market ← asProbe (ask (.instrumentSnapshot record.symbol))
      let order ← asProbe (askOrders (.beginOrder
        { idempotencyKey := probeKey record.tradeId ("exit-v" ++ toString attempt)
          symbol := record.symbol, side, quantity, referencePrice := market.lastPrice
          legGroupId := some record.tradeId } (.ofInstant now)))
      let _ ← asProbe (askState (.markExitSubmitted record.tradeId order.clientOrderId
        "EXECUTION_PROBE_IMMEDIATE_FLATTEN" (.ofInstant now)))
      let _ ← (if order.state = .pendingSubmit then sendExit D record side quantity now order
        else pure ())
      let current ← asProbe (askState .activeTrade)
      continueExit (current.getD record)

/-- `_continue_exit`, where `poll` is its loop. -/
def continueExitWith
    (poll : AutonomousTradeRecord → String → Instant → ProbeProg ProbeCycleResult)
    (record : AutonomousTradeRecord) : ProbeProg ProbeCycleResult := do
  let exitId ← Prog.lift (asserted record.exitClientOrderId)
  let now ← clock
  poll record exitId (now + timedelta self.config.reconcileTimeoutSeconds)

/-- The loop of `_continue_exit`. -/
def pollExit : Nat → AutonomousTradeRecord → String → Instant → ProbeProg ProbeCycleResult
  | 0, _, _, _ => Prog.raise .assertionError
  | polls + 1, record, exitId, deadline => do
    let wallNow ← clock
    match ← asProbe (DemoStrategyExecutor.reconcileOrder D exitId) with
    | none =>
      if wallNow ≥ deadline then
        return ⟨"PENDING_RECONCILIATION", some record,
          "exit execution feed is lagging; rerun with the SAME --request-id"⟩
      else do
        self.pause
        pollExit polls record exitId deadline
    | some order => do
      let signed ← probePosition record.symbol
      if signed = 0 ∧ 0 < order.filledQuantity then self.closeProbe record wallNow
      else if order.state = .canceled ∨ order.state = .rejected then
        if signed = 0 then self.closeProbe record wallNow
        else self.flattenWith D (self.continueExitWith (pollExit polls)) record wallNow
      else if wallNow ≥ deadline then
        return ⟨"PENDING_RECONCILIATION", some record,
          "reduce-only exit awaiting reconciliation; rerun with the SAME --request-id"⟩
      else do
        self.pause
        pollExit polls record exitId deadline

/-- `_continue_exit`. -/
def continueExit (polls : Nat) : AutonomousTradeRecord → ProbeProg ProbeCycleResult :=
  self.continueExitWith (self.pollExit D polls)

/-- `_flatten`. -/
def flatten (polls : Nat) : AutonomousTradeRecord → Instant → ProbeProg ProbeCycleResult :=
  self.flattenWith D (self.continueExit D polls)

/-! ### The entry -/

/-- `max((f.filled_at_utc for f in fills), default=order.updated_at_utc)`. -/
def filledAtOf (fills : List FillRow) (order : PaperOrderRecord) : Instant :=
  match fills.map FillRow.filledAtUtc with
  | [] => order.updatedAtUtc
  | t :: ts => ts.foldl max t

/-- `_finalize_filled_entry`. -/
def finalizeFilledEntry (polls : Nat) (record : AutonomousTradeRecord) (order : PaperOrderRecord) :
    ProbeProg ProbeCycleResult :=
  match order.averageFillPrice with
  | none => Prog.raise .assertionError
  | some price => do
    let fills ← Prog.perform (ProbeOp.listFills order.clientOrderId)
    let filledAt := filledAtOf fills order
    let opened ← asProbe (askState (.markOpen record.tradeId price (.ofInstant filledAt)))
    journalEntry opened order filledAt
    let now ← clock
    let result ← self.flatten D polls opened now
    collectMarkouts opened.tradeId opened.symbol filledAt self.config.markoutHorizonsSeconds
    return result

/-- The loop of `_await_and_resolve_entry`. -/
def pollEntry (record : AutonomousTradeRecord) (mode : ProbeOrderType) (clientOrderId : String)
    (makerDeadline overallDeadline : Instant) : Nat → Bool → ProbeProg ProbeCycleResult
  | 0, _ => Prog.raise .assertionError
  | polls + 1, cancelAttempted => do
    let wallNow ← clock
    match ← asProbe (DemoStrategyExecutor.reconcileOrder D clientOrderId) with
    | none =>
      if wallNow ≥ overallDeadline then
        pendingResult "entry execution feed is lagging; rerun with the SAME --request-id"
      else do
        self.pause
        pollEntry record mode clientOrderId makerDeadline overallDeadline polls cancelAttempted
    | some order =>
      if order.state = .filled then self.finalizeFilledEntry D polls record order
      else if order.state = .rejected then
        closeZeroFill record order wallNow "entry order rejected before any fill"
      else if order.state = .canceled then
        (if order.filledQuantity > 0 then self.finalizeFilledEntry D polls record order
        else closeZeroFill record order wallNow
          "maker entry canceled unfilled after the fill-probability timeout")
      else if mode = .maker ∧ !cancelAttempted ∧ wallNow ≥ makerDeadline then do
        let orderLinkId ← Prog.lift (demoOrderLinkIdFor D clientOrderId)
        let _ ← Prog.perform (ProbeOp.cancel orderLinkId record.symbol)
        pollEntry record mode clientOrderId makerDeadline overallDeadline polls true
      else if wallNow ≥ overallDeadline then
        if order.filledQuantity > 0 then self.finalizeFilledEntry D polls record order
        else pendingResult "entry order still open past the probe deadline; rerun with the SAME --request-id"
      else do
        self.pause
        pollEntry record mode clientOrderId makerDeadline overallDeadline polls cancelAttempted

/-- `_await_and_resolve_entry`. -/
def awaitAndResolveEntry (polls : Nat) (record : AutonomousTradeRecord) (mode : ProbeOrderType)
    (order : PaperOrderRecord) (startedAt : Instant) : ProbeProg ProbeCycleResult := do
  let makerDeadline := startedAt + timedelta self.config.makerFillTimeoutSeconds
  let overallDeadline := startedAt + timedelta (self.config.reconcileTimeoutSeconds +
    if mode = .maker then self.config.makerFillTimeoutSeconds else 0)
  let _ ← Prog.lift (demoOrderLinkIdFor D order.clientOrderId)
  self.pollEntry D record mode order.clientOrderId makerDeadline overallDeadline polls false

/-- How an entry is placed. -/
def entryOrderType (symbol : String) (mode : ProbeOrderType) (side : IntentSide) (now : Instant) :
    ProbeProg OrderType :=
  match mode with
  | .maker => do
    let quote ← fetchQuote symbol now
    return .postOnly (if side = .buy then quote.bidPrice else quote.askPrice)
  | .taker => return .market false

/-- The part of `_submit_entry` for an order that is pending. -/
def sendEntry (record : AutonomousTradeRecord) (mode : ProbeOrderType) (side : IntentSide)
    (now : Instant) (order : PaperOrderRecord) : ProbeProg PaperOrderRecord := do
  let order ← asProbe (askOrders (.markSubmitted order.clientOrderId (.ofInstant now)))
  let orderLinkId ← Prog.lift (demoOrderLinkIdFor D order.clientOrderId)
  let orderType ← entryOrderType record.symbol mode side now
  let ack ← asProbe (place now order.clientOrderId
    { orderLinkId, symbol := record.symbol, side, quantity := record.targetQuantity, orderType })
  Prog.check (ack.orderLinkId = orderLinkId)
    (.autonomousDemoState "Bybit Demo order identity mismatch")
  return order

/-- `_submit_entry`. -/
def submitEntry (record : AutonomousTradeRecord) (mode : ProbeOrderType) (now : Instant) :
    ProbeProg PaperOrderRecord := do
  let side : IntentSide := if record.action = .long then .buy else .sell
  let order ← asProbe (askOrders (.beginOrder
    { idempotencyKey := probeKey record.tradeId "entry-v1", symbol := record.symbol, side
      quantity := record.targetQuantity, referencePrice := record.referencePrice
      legGroupId := some record.tradeId } (.ofInstant now)))
  let _ ← asProbe (askState
    (.markEntrySubmitted record.tradeId order.clientOrderId (.ofInstant now)))
  if order.state = .pendingSubmit then sendEntry D record mode side now order else return order

/-! ### `run` -/

/-- `_advance`. -/
def advanceProbe (polls : Nat) (record : AutonomousTradeRecord) (now : Instant) :
    ProbeProg ProbeCycleResult :=
  match record.phase with
  | .safetyHold => return ⟨"SAFETY_HOLD", some record,
      if truthy record.safetyReason then record.safetyReason.getD "" else "manual review"⟩
  | .closed => return ⟨"CLOSED", some record,
      "realized_pnl_usd=" ++ record.realizedPnlUsd.elim "None" toString⟩
  | .observed => do
    let mode ← Prog.lift (modeFromCandidateId record.candidateId)
    let _ ← asProbe (ask (.setLeverage record.symbol probeLeverage))
    let order ← submitEntry D record mode now
    self.awaitAndResolveEntry D polls record mode order record.createdAtUtc
  | .entrySubmitted => do
    let mode ← Prog.lift (modeFromCandidateId record.candidateId)
    let entryId ← Prog.lift (asserted record.entryClientOrderId)
    let found ← asProbe (askOrders (.get entryId))
    let order ← Prog.lift (existingOrder found .assertionError)
    self.awaitAndResolveEntry D polls record mode order record.createdAtUtc
  | .open => do
    let _ ← Prog.lift (modeFromCandidateId record.candidateId)
    self.flatten D polls record now
  | .exitSubmitted => do
    let _ ← Prog.lift (modeFromCandidateId record.candidateId)
    self.continueExit D polls record

/-- The checks of `run`. -/
def checkRun (args : ProbeArgs) : Except PyError Unit := do
  requireDemoPaperEnvironment args.env true
  require (args.env "GREENFIELD_DEMO_EXECUTION_PROBE_CONFIRMATION" = some "EXECUTION_EVIDENCE_ONLY")
    (.valueError "execution probe order submission requires GREENFIELD_DEMO_EXECUTION_PROBE_CONFIRMATION=EXECUTION_EVIDENCE_ONLY")
  require (args.symbol ∈ ["BTCUSDT", "ETHUSDT", "SOLUSDT"])
    (.valueError "execution probe symbol must be one of ['BTCUSDT', 'ETHUSDT', 'SOLUSDT']")
  require (!isBlank args.requestId) (.valueError "execution probe request_id must be non-empty")

/-- The result of a `begin_trade` that raised an `AutonomousDemoStateError`. -/
def alreadyResolved (requestId detail : String) : ProbeCycleResult where
  status := "REQUEST_ID_ALREADY_RESOLVED"
  trade := none
  detail := "request_id " ++ quoted requestId ++ " already maps to a completed execution probe trade " ++
    "with different parameters at the current market; use a new --request-id for a " ++
    "new probe attempt (" ++ detail ++ ")"

/-- The trade that `run` begins. -/
def probeRequest (args : ProbeArgs) (mode : ProbeOrderType) (side : IntentSide)
    (quantity midPrice : ℚ) : TradeRequest where
  observationId := "execution-probe:" ++ args.requestId
  candidateId := "EXECUTION_PROBE:" ++ mode.value
  symbol := args.symbol
  action := if side = .buy then .long else .short
  targetQuantity := quantity
  referencePrice := midPrice

/-- The part of `run` for a trade that is new. -/
def bookEntry (record : AutonomousTradeRecord) (quote : TopOfBookQuote) (now : Instant) :
    ProbeProg Unit := do
  let _ ← asProbe (askState
    (.recordEntry (.ofInstant now) syntheticRiskBudgetUsd self.config.riskConfig))
  Prog.perform (ProbeOp.recordQuote record.tradeId "REFERENCE" quote)

/-- The part of `run` after the trade is begun. -/
def advanceNew (polls : Nat) (record : AutonomousTradeRecord) (quote : TopOfBookQuote)
    (now : Instant) : ProbeProg ProbeCycleResult := do
  let _ ← (if record.phase = .observed then self.bookEntry record quote now else pure ())
  self.advanceProbe D polls record now

/-- The part of `run` without an active trade. -/
def beginProbe (polls : Nat) (args : ProbeArgs) (now : Instant) : ProbeProg ProbeCycleResult := do
  let exposure ← asProbe (ask .accountExposure)
  Prog.check (exposure.positions.isEmpty ∧ exposure.openOrders.isEmpty) (.autonomousDemoState
    "unowned Demo exposure/order found; refusing to start an execution probe")
  let daily ← asProbe (askState
    (.authorizeEntry (.ofInstant now) syntheticRiskBudgetUsd self.config.riskConfig))
  let mode := args.modeOverride.getD (if daily.entries % 4 < 2 then .taker else .maker)
  let side := args.sideOverride.getD (if daily.entries % 2 = 0 then .buy else .sell)
  let quote ← fetchQuote args.symbol now
  let midPrice := (quote.bidPrice + quote.askPrice) / 2
  let market ← asProbe (ask (.instrumentSnapshot args.symbol))
  let quantity ← Prog.lift (sizeProbeQuantity self.config.targetNotionalQuoteUsd
    self.config.maximumNotionalQuoteUsd midPrice market)
  match ← (asProbe (askState (.beginTrade (probeRequest args mode side quantity midPrice)
      (.ofInstant now)))).attempt with
  | .ok record => self.advanceNew D polls record quote now
  | .error (.autonomousDemoState msg) | .error (.entryNotAuthorized msg) =>
    return alreadyResolved args.requestId msg
  | .error e => Prog.raise e

/-- `now_utc`, or the time of the clock. -/
def runTime (nowUtc : Option Datetime) : ProbeProg Instant :=
  match nowUtc with
  | some value => Prog.lift (probeUtc value)
  | none => clock

/-- `run`. -/
def run (polls : Nat) (args : ProbeArgs) : ProbeProg ProbeCycleResult := do
  Prog.lift (checkRun args)
  let now ← runTime args.nowUtc
  asProbe (ask .preflight)
  match ← asProbe (askState .activeTrade) with
  | some record => self.advanceProbe D polls record now
  | none => self.beginProbe D polls args now

end PaperExecutionProbeExecutor

end Greenfield.Demo
