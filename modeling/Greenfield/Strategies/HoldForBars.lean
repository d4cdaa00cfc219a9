import Greenfield.Risk.Engine

/-!
# The hold-for-bars strategy and its risk slot

`HoldForBarsStrategy` of `src/strategies/base.py`, with its `RiskEngine`. `signal` of a subclass,
the instrument, the equity, the order id and the outcome of `submit_order` come with each bar;
`root` is `** 0.5`. A `World` adds what the platform knows: the entry orders that are
outstanding, with the risk committed for each, and whether a position is open. The slot is
released by a rejection and by a closed position only, so it agrees with the platform over a run
exactly when no step leaves an entry without its slot or a slot without an entry
(`slot_agrees_iff`).
-/

namespace Greenfield.Strategies

open Risk Py

inductive OrderSide where
  | buy
  | sell
  deriving DecidableEq

structure BenchmarkStrategyConfig where
  instrumentId : String
  holdingPeriodBars : ℤ := 24
  riskPerTrade : ℚ := 1 / 10
  maxPortfolioRisk : ℚ := 1 / 2
  maxDailyLoss : ℚ := 1 / 2
  maxDrawdown : ℚ := 1 / 2
  maxConcurrentPositions : ℤ := 1
  maxLeverage : ℚ := 10
  volatilityTarget : Option ℚ := none
  volLookbackBars : ℕ := 20
  sessionStartHour : Option ℤ := none
  sessionEndHour : Option ℤ := none
  useAtrExit : Bool := false
  atrPeriod : ℕ := 14
  atrExitMultiple : ℚ := 2
  entryDelayBars : ℕ := 0
  together : sessionStartHour.isSome = sessionEndHour.isSome := by decide
  hours : ∀ start ∈ sessionStartHour, ∀ stop ∈ sessionEndHour,
    (0 ≤ start ∧ start ≤ 23) ∧ (0 ≤ stop ∧ stop ≤ 23) ∧ start ≠ stop := by decide
  atr : useAtrExit = true → 2 ≤ atrPeriod ∧ 0 < atrExitMultiple := by decide

/-- The `RiskConfig` of the strategy's engine. -/
def BenchmarkStrategyConfig.riskConfig (c : BenchmarkStrategyConfig) : RiskConfig where
  riskPerTrade := c.riskPerTrade
  maxPortfolioRisk := c.maxPortfolioRisk
  maxDailyLoss := c.maxDailyLoss
  maxDrawdown := c.maxDrawdown
  maxConcurrentPositions := c.maxConcurrentPositions
  maxLeverage := c.maxLeverage
  volatilityTarget := c.volatilityTarget

/-- What `on_bar` reads of a bar; `tsEvent` in nanoseconds. -/
structure Bar where
  high : ℚ
  low : ℚ
  close : ℚ
  tsEvent : ℤ

/-- A bar, and what the platform and the subclass answer while it is handled. -/
structure BarEvent where
  bar : Bar
  instrument : Option Instrument
  signal : Except PyError (Option OrderSide)
  equity : Except PyError ℚ
  now : Instant
  orderId : String
  submitError : Option PyError

/-- An entry that the risk engine approved. -/
structure Entry where
  side : OrderSide
  decision : RiskDecision
  atr : Option ℚ

inductive BarAnswer where
  | nothing
  | closeAll
  | submitted (orderId : String) (side : OrderSide) (decision : RiskDecision)
  | raised (e : PyError)

structure HoldForBars where
  config : BenchmarkStrategyConfig
  barsInPosition : ℤ := 0
  volCloses : List ℚ := []
  ohlcHistory : List Bar := []
  entrySide : Option OrderSide := none
  stopPrice : Option ℚ := none
  targetPrice : Option ℚ := none
  pendingSignal : Option OrderSide := none
  pendingBarsWaited : ℕ := 0
  pendingEntryOrderIds : List String := []
  riskEngine : RiskEngine

namespace HoldForBars

/-- `HoldForBarsStrategy(config)`. -/
def init (config : BenchmarkStrategyConfig) : HoldForBars where
  config
  riskEngine := { config := config.riskConfig }

/-- `_risk_key`. -/
def riskKey (s : HoldForBars) : String := s.config.instrumentId

/-- `append` of a `deque` with `maxlen`. -/
def pushBounded {α : Type} (maxlen : ℕ) (q : List α) (x : α) : List α :=
  (q ++ [x]).drop (q.length + 1 - maxlen)

/-- `_reset_position_state`. -/
def resetPositionState (s : HoldForBars) : HoldForBars :=
  { s with barsInPosition := 0, entrySide := none, stopPrice := none, targetPrice := none }

/-- `_in_session`. -/
def inSession (s : HoldForBars) (bar : Bar) : Bool :=
  match s.config.sessionStartHour, s.config.sessionEndHour with
  | some start, some stop =>
    let hour := bar.tsEvent / 3600000000000 % 24
    if start < stop then start ≤ hour ∧ hour < stop else start ≤ hour ∨ hour < stop
  | _, _ => true

/-- `_atr_stop_or_target_hit`. -/
def atrStopOrTargetHit (s : HoldForBars) (bar : Bar) (stop target : ℚ) : Bool :=
  if s.entrySide = some .buy then bar.low ≤ stop ∨ target ≤ bar.high
  else stop ≤ bar.high ∨ bar.low ≤ target

/-- `indicators.true_range` of the rows after the first. -/
def trueRanges : List Bar → List ℚ
  | previous :: bar :: rest =>
    max (bar.high - bar.low) (max |bar.high - previous.close| |bar.low - previous.close|) ::
      trueRanges (bar :: rest)
  | _ => []

/-- `_current_atr`: the mean over the window does not reach the first row. -/
def currentAtr (s : HoldForBars) : Option ℚ :=
  if s.ohlcHistory.length < s.config.atrPeriod + 1 then none
  else some ((trueRanges s.ohlcHistory).sum / s.config.atrPeriod)

/-- The returns between successive closes, where the earlier is not zero. -/
def returns : List ℚ → List ℚ
  | previous :: close :: rest =>
    if previous = 0 then returns (close :: rest)
    else (close - previous) / previous :: returns (close :: rest)
  | _ => []

/-- `_realized_vol`. -/
def realizedVol (root : ℚ → ℚ) (s : HoldForBars) : Option ℚ :=
  let rs := returns s.volCloses
  if s.volCloses.length < s.config.volLookbackBars + 1 ∨ rs.length < 2 then none
  else
    let mean := rs.sum / rs.length
    some (root ((rs.map fun r => (r - mean) ^ 2).sum / (rs.length - 1 : ℕ)))

/-- What `on_bar` notes of every bar. -/
def noteBar (s : HoldForBars) (bar : Bar) : HoldForBars :=
  { s with
    volCloses := pushBounded (s.config.volLookbackBars + 1) s.volCloses bar.close
    ohlcHistory := pushBounded (s.config.atrPeriod + 1) s.ohlcHistory bar }

/-- Whether the stop or the target of the position is reached. -/
def atrExit (s : HoldForBars) (bar : Bar) : Bool :=
  match s.config.useAtrExit, s.stopPrice, s.targetPrice with
  | true, some stop, some target => s.atrStopOrTargetHit bar stop target
  | _, _, _ => false

/-- `on_bar` while a position is open. -/
def holdBar (s : HoldForBars) (bar : Bar) : HoldForBars × BarAnswer :=
  if s.inSession bar = false ∨ s.atrExit bar = true then (s.resetPositionState, .closeAll)
  else
    let s := { s with barsInPosition := s.barsInPosition + 1 }
    if s.barsInPosition ≥ s.config.holdingPeriodBars then (s.resetPositionState, .closeAll)
    else (s, .nothing)

/-- The side that is due on this bar: that of the signal, or of the one that has waited. -/
def dueSide (s : HoldForBars) (newSide : Option OrderSide) : Option OrderSide × HoldForBars :=
  match s.pendingSignal with
  | some side =>
    if s.pendingBarsWaited + 1 < s.config.entryDelayBars then
      (none, { s with pendingBarsWaited := s.pendingBarsWaited + 1 })
    else (some side, { s with pendingSignal := none, pendingBarsWaited := 0 })
  | none =>
    if newSide.isSome = true ∧ 0 < s.config.entryDelayBars then
      (none, { s with pendingSignal := newSide, pendingBarsWaited := 0 })
    else (newSide, s)

/-- `on_bar` from the side of an entry to the decision of the risk engine. -/
def approve (root : ℚ → ℚ) (s : HoldForBars) (instrument : Instrument) (e : BarEvent)
    (side : OrderSide) : Except PyError (Option Entry) × HoldForBars :=
  if s.config.useAtrExit = true ∧ s.currentAtr = none then (.ok none, s)
  else
    match e.equity with
    | .error err => (.error err, s)
    | .ok equity =>
      let evaluated := s.riskEngine.evaluate instrument e.bar.close equity (.ofInstant e.now)
        (s.realizedVol root)
      let atr := if s.config.useAtrExit then s.currentAtr else none
      (evaluated.1.map fun decision =>
        if decision.approved then some ⟨side, decision, atr⟩ else none,
        { s with riskEngine := evaluated.2 })

/-- `on_bar` while no position is open, up to the order. -/
def decideEntry (root : ℚ → ℚ) (s : HoldForBars) (instrument : Instrument) (e : BarEvent) :
    Except PyError (Option Entry) × HoldForBars :=
  if s.inSession e.bar = false then (.ok none, s)
  else
    match e.signal with
    | .error err => (.error err, s)
    | .ok newSide =>
      match s.dueSide newSide with
      | (none, s) => (.ok none, s)
      | (some side, s) => s.approve root instrument e side

/-- The stop and the target of an entry that was submitted. -/
def setStops (s : HoldForBars) (price : ℚ) (entry : Entry) : HoldForBars :=
  match entry.atr with
  | none => s
  | some atr =>
    let distance := s.config.atrExitMultiple * atr
    match entry.side with
    | .buy => { s with entrySide := some .buy, stopPrice := some (price - distance),
                       targetPrice := some (price + distance) }
    | .sell => { s with entrySide := some .sell, stopPrice := some (price + distance),
                        targetPrice := some (price - distance) }

/-- `discard` of the id, and `close_position` without a result. -/
def release (s : HoldForBars) (orderId : String) (now : Instant) : HoldForBars :=
  { s with
    pendingEntryOrderIds := s.pendingEntryOrderIds.filter (· ≠ orderId)
    riskEngine := s.riskEngine.closePosition s.riskKey 0 (.ofInstant now) }

/-- `on_bar` from the order on: the slot is reserved before the order is submitted. -/
def submitEntry (s : HoldForBars) (e : BarEvent) (entry : Entry) : HoldForBars × BarAnswer :=
  let s := { s with
    pendingEntryOrderIds := s.pendingEntryOrderIds.insert e.orderId
    riskEngine := s.riskEngine.openPosition s.riskKey entry.decision.riskFraction }
  match e.submitError with
  | some err => (s.release e.orderId e.now, .raised err)
  | none =>
    (({ s with barsInPosition := 0 } : HoldForBars).setStops e.bar.close entry,
      .submitted e.orderId entry.side entry.decision)

def onBar (root : ℚ → ℚ) (s : HoldForBars) (isFlat : Bool) (e : BarEvent) :
    HoldForBars × BarAnswer :=
  let s := s.noteBar e.bar
  match e.instrument with
  | none => (s, .nothing)
  | some instrument =>
    if isFlat = false then s.holdBar e.bar
    else
      match s.decideEntry root instrument e with
      | (.error err, s) => (s, .raised err)
      | (.ok none, s) => (s, .nothing)
      | (.ok (some entry), s) => s.submitEntry e entry

/-- The entry that a bar comes to, before its order is submitted. -/
def entryOn (root : ℚ → ℚ) (s : HoldForBars) (isFlat : Bool) (e : BarEvent) : Option Entry :=
  match e.instrument with
  | none => none
  | some instrument =>
    if isFlat = false then none
    else
      match ((s.noteBar e.bar).decideEntry root instrument e).1 with
      | .ok entry => entry
      | .error _ => none

def onPositionClosed (s : HoldForBars) (realizedPnl : ℚ) (now : Instant) : HoldForBars :=
  { s with riskEngine := s.riskEngine.closePosition s.riskKey realizedPnl (.ofInstant now) }

def onOrderFilled (s : HoldForBars) (orderId : String) : HoldForBars :=
  { s with pendingEntryOrderIds := s.pendingEntryOrderIds.filter (· ≠ orderId) }

def onOrderRejected (s : HoldForBars) (orderId : String) (now : Instant) : HoldForBars :=
  if orderId ∈ s.pendingEntryOrderIds then (s.release orderId now).resetPositionState else s

/-- The slot of the strategy's own key. -/
def slot (s : HoldForBars) : Option RiskSlot := s.riskEngine.openPositions.find s.riskKey

end HoldForBars

/-! ## The platform -/

/-- An end of an order for which the strategy has no handler. -/
inductive Unhandled where
  | denied
  | canceled
  | expired
  deriving DecidableEq

inductive Event where
  | bar (e : BarEvent)
  /-- A fill of an order, its last one or not. -/
  | orderFilled (orderId : String) (last : Bool)
  | orderRejected (orderId : String) (now : Instant)
  | orderEnded (orderId : String) (how : Unhandled)
  | positionClosed (realizedPnl : ℚ) (now : Instant)

/-- An entry order, and the risk that was committed for it. -/
structure EntryOrder where
  orderId : String
  riskFraction : ℚ
  deriving DecidableEq

structure World where
  strategy : HoldForBars
  outstanding : List EntryOrder := []
  positionOpen : Bool := false
  /-- The ids that the order factory gave. -/
  orderIds : List String := []

/-- The entry that a bar submitted. -/
def BarAnswer.orders : BarAnswer → List EntryOrder
  | .submitted orderId _ decision => [⟨orderId, decision.riskFraction⟩]
  | _ => []

namespace World

def start (config : BenchmarkStrategyConfig) : World := { strategy := .init config }

def slot (w : World) : Option RiskSlot := w.strategy.slot

/-- The id is that of an entry order that is outstanding. -/
def IsOutstanding (w : World) (orderId : String) : Prop :=
  ∃ o ∈ w.outstanding, o.orderId = orderId

instance (w : World) (orderId : String) : Decidable (w.IsOutstanding orderId) :=
  inferInstanceAs (Decidable (∃ o ∈ w.outstanding, o.orderId = orderId))

/-- The entries that are outstanding besides one. -/
def without (w : World) (orderId : String) : List EntryOrder :=
  w.outstanding.filter fun o => o.orderId ≠ orderId

def step (root : ℚ → ℚ) (w : World) : Event → World
  | .bar e =>
    let handled := w.strategy.onBar root (!w.positionOpen) e
    { w with
      strategy := handled.1
      outstanding := w.outstanding ++ handled.2.orders
      orderIds := e.orderId :: w.orderIds }
  | .orderFilled orderId last =>
    { w with
      strategy := w.strategy.onOrderFilled orderId
      outstanding := if last then w.without orderId else w.outstanding
      positionOpen := w.positionOpen ∨ w.IsOutstanding orderId }
  | .orderRejected orderId now =>
    { w with
      strategy := w.strategy.onOrderRejected orderId now
      outstanding := w.without orderId }
  | .orderEnded orderId _ => { w with outstanding := w.without orderId }
  | .positionClosed realizedPnl now =>
    { w with strategy := w.strategy.onPositionClosed realizedPnl now, positionOpen := false }

/-- The event follows the life cycle of orders and positions: ids are new, the events of an
order are those of an outstanding entry or of an exit, and what closes was open. -/
def Follows (w : World) : Event → Prop
  | .bar e => e.orderId ∉ w.orderIds
  | .orderFilled orderId _ | .orderRejected orderId _ | .orderEnded orderId _ =>
    w.IsOutstanding orderId ∨ orderId ∉ w.orderIds
  | .positionClosed .. => w.positionOpen = true

instance (w : World) : (event : Event) → Decidable (w.Follows event)
  | .bar e => inferInstanceAs (Decidable (e.orderId ∉ w.orderIds))
  | .orderFilled orderId _ | .orderRejected orderId _ | .orderEnded orderId _ =>
    inferInstanceAs (Decidable (w.IsOutstanding orderId ∨ orderId ∉ w.orderIds))
  | .positionClosed .. => inferInstanceAs (Decidable (w.positionOpen = true))

/-- **The slot agrees with the platform**: there is none without an outstanding entry and without
a position, and otherwise it commits at least the risk of each outstanding entry. -/
structure SlotAgrees (w : World) : Prop where
  free : w.outstanding = [] → w.positionOpen = false → w.slot = none
  held : w.outstanding ≠ [] ∨ w.positionOpen = true →
    ∃ slot, w.slot = some slot ∧ ∀ o ∈ w.outstanding, o.riskFraction ≤ slot.riskFraction

/-- The entry that a bar comes to. -/
def entryOf (root : ℚ → ℚ) (w : World) (e : BarEvent) : Option Entry :=
  w.strategy.entryOn root (!w.positionOpen) e

/-- The event does not part the slot from what it stands for. -/
def KeepsSlot (root : ℚ → ℚ) (w : World) : Event → Prop
  | .bar e => ∀ entry ∈ w.entryOf root e, ∀ o ∈ w.outstanding,
      e.submitError = none ∧ o.riskFraction ≤ entry.decision.riskFraction
  | .orderFilled .. => True
  | .orderRejected orderId _ => orderId ∈ w.strategy.pendingEntryOrderIds →
      w.positionOpen = false ∧ ∀ o ∈ w.outstanding, o.orderId = orderId
  | .orderEnded orderId _ => w.IsOutstanding orderId →
      w.positionOpen = true ∨ ∃ o ∈ w.outstanding, o.orderId ≠ orderId
  | .positionClosed .. => w.outstanding = []

instance (root : ℚ → ℚ) (w : World) : (event : Event) → Decidable (w.KeepsSlot root event)
  | .bar e => inferInstanceAs (Decidable (∀ entry ∈ w.entryOf root e, ∀ o ∈ w.outstanding,
      e.submitError = none ∧ o.riskFraction ≤ entry.decision.riskFraction))
  | .orderFilled .. => .isTrue trivial
  | .orderRejected orderId _ => inferInstanceAs (Decidable
      (orderId ∈ w.strategy.pendingEntryOrderIds →
        w.positionOpen = false ∧ ∀ o ∈ w.outstanding, o.orderId = orderId))
  | .orderEnded orderId _ => inferInstanceAs (Decidable (w.IsOutstanding orderId →
      w.positionOpen = true ∨ ∃ o ∈ w.outstanding, o.orderId ≠ orderId))
  | .positionClosed .. => inferInstanceAs (Decidable (w.outstanding = []))

end World

end Greenfield.Strategies
