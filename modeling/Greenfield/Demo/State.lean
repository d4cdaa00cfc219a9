import Greenfield.Lib.Table
import Greenfield.Lib.Effect
import Greenfield.Demo.Risk

/-!
# The autonomous Demo state store

`src/execution/demo_autonomous_state.py`: the trades with their phases, and one row of
daily risk for each UTC day. Every method is one `BEGIN IMMEDIATE` transaction, except
`close_unsubmitted_safety_hold`, which reads in one and writes in another.
-/

namespace Greenfield.Demo

open Keyed Py Paper Effects

inductive AutonomousTradePhase where
  | observed
  | entrySubmitted
  | open
  | exitSubmitted
  | closed
  | safetyHold
  deriving DecidableEq, Repr

def AutonomousTradePhase.value : AutonomousTradePhase → String
  | .observed => "OBSERVED"
  | .entrySubmitted => "ENTRY_SUBMITTED"
  | .open => "OPEN"
  | .exitSubmitted => "EXIT_SUBMITTED"
  | .closed => "CLOSED"
  | .safetyHold => "SAFETY_HOLD"

/-- `_ACTIVE_PHASES`. -/
def activePhases : List AutonomousTradePhase :=
  [.observed, .entrySubmitted, .open, .exitSubmitted, .safetyHold]

structure AutonomousTradeRecord where
  tradeId : String
  observationId : String
  candidateId : String
  symbol : String
  action : SetupAction
  phase : AutonomousTradePhase
  targetQuantity : ℚ
  referencePrice : ℚ
  stopLossBps : Option ℚ
  takeProfitBps : Option ℚ
  entryClientOrderId : Option String := none
  entryFillPrice : Option ℚ := none
  openedAtUtc : Option Instant := none
  exitClientOrderId : Option String := none
  exitReason : Option String := none
  realizedPnlUsd : Option ℚ := none
  closedAtUtc : Option Instant := none
  safetyReason : Option String := none
  createdAtUtc : Instant
  updatedAtUtc : Instant
  deriving DecidableEq

structure AutonomousDailyRiskRecord where
  utcDate : Int
  startingCapitalUsd : ℚ
  entries : Int := 0
  realizedPnlUsd : ℚ := 0
  cooldownUntilUtc : Option Instant := none
  killSwitchReason : Option String := none
  updatedAtUtc : Instant
  deriving DecidableEq

structure AutonomousDemoStateStore where
  trades : Table AutonomousTradeRecord.tradeId
  daily : Table AutonomousDailyRiskRecord.utcDate

/-! ## Columns that a transition writes -/

inductive TradeField where
  | entryClientOrderId
  | entryFillPrice
  | openedAtUtc
  | exitClientOrderId
  | exitReason
  | realizedPnlUsd
  | closedAtUtc
  | safetyReason
  deriving DecidableEq, Repr

/-- A field with its new value. -/
inductive FieldUpdate where
  | entryClientOrderId (v : String)
  | entryFillPrice (v : ℚ)
  | openedAtUtc (v : Instant)
  | exitClientOrderId (v : String)
  | exitReason (v : String)
  | realizedPnlUsd (v : ℚ)
  | closedAtUtc (v : Instant)
  | safetyReason (v : String)

def FieldUpdate.field : FieldUpdate → TradeField
  | .entryClientOrderId _ => .entryClientOrderId
  | .entryFillPrice _ => .entryFillPrice
  | .openedAtUtc _ => .openedAtUtc
  | .exitClientOrderId _ => .exitClientOrderId
  | .exitReason _ => .exitReason
  | .realizedPnlUsd _ => .realizedPnlUsd
  | .closedAtUtc _ => .closedAtUtc
  | .safetyReason _ => .safetyReason

/-- The current value is set and is another one. -/
def FieldUpdate.conflicts (t : AutonomousTradeRecord) : FieldUpdate → Bool
  | .entryClientOrderId v => t.entryClientOrderId ≠ none ∧ t.entryClientOrderId ≠ some v
  | .entryFillPrice v => t.entryFillPrice ≠ none ∧ t.entryFillPrice ≠ some v
  | .openedAtUtc v => t.openedAtUtc ≠ none ∧ t.openedAtUtc ≠ some v
  | .exitClientOrderId v => t.exitClientOrderId ≠ none ∧ t.exitClientOrderId ≠ some v
  | .exitReason v => t.exitReason ≠ none ∧ t.exitReason ≠ some v
  | .realizedPnlUsd v => t.realizedPnlUsd ≠ none ∧ t.realizedPnlUsd ≠ some v
  | .closedAtUtc v => t.closedAtUtc ≠ none ∧ t.closedAtUtc ≠ some v
  | .safetyReason v => t.safetyReason ≠ none ∧ t.safetyReason ≠ some v

def FieldUpdate.set (t : AutonomousTradeRecord) : FieldUpdate → AutonomousTradeRecord
  | .entryClientOrderId v => { t with entryClientOrderId := some v }
  | .entryFillPrice v => { t with entryFillPrice := some v }
  | .openedAtUtc v => { t with openedAtUtc := some v }
  | .exitClientOrderId v => { t with exitClientOrderId := some v }
  | .exitReason v => { t with exitReason := some v }
  | .realizedPnlUsd v => { t with realizedPnlUsd := some v }
  | .closedAtUtc v => { t with closedAtUtc := some v }
  | .safetyReason v => { t with safetyReason := some v }

@[simp] theorem FieldUpdate.set_tradeId (t : AutonomousTradeRecord) (u : FieldUpdate) :
    (u.set t).tradeId = t.tradeId := by
  cases u <;> rfl

@[simp] theorem FieldUpdate.set_phase (t : AutonomousTradeRecord) (u : FieldUpdate) :
    (u.set t).phase = t.phase := by
  cases u <;> rfl

/-- The row after `UPDATE autonomous_demo_trades SET phase, updated_at_utc, ..`. -/
def transitionRow (target : AutonomousTradePhase) (updates : List FieldUpdate) (now : Instant)
    (t : AutonomousTradeRecord) : AutonomousTradeRecord :=
  updates.foldl FieldUpdate.set { t with phase := target, updatedAtUtc := now }

theorem foldl_set (updates : List FieldUpdate) (t : AutonomousTradeRecord) :
    (updates.foldl FieldUpdate.set t).tradeId = t.tradeId ∧
      (updates.foldl FieldUpdate.set t).phase = t.phase := by
  induction updates generalizing t with
  | nil => exact ⟨rfl, rfl⟩
  | cons u us ih => exact ⟨(ih _).1.trans (u.set_tradeId t), (ih _).2.trans (u.set_phase t)⟩

theorem transitionRow_key (target : AutonomousTradePhase) (updates : List FieldUpdate)
    (now : Instant) (t : AutonomousTradeRecord) :
    (transitionRow target updates now t).tradeId = t.tradeId := (foldl_set updates _).1

@[simp] theorem transitionRow_phase (target : AutonomousTradePhase) (updates : List FieldUpdate)
    (now : Instant) (t : AutonomousTradeRecord) :
    (transitionRow target updates now t).phase = target := (foldl_set updates _).2

/-! ## Helpers -/

/-- `_iso(value)`. -/
def iso (value : Datetime) : Except PyError Instant :=
  utcOr value "autonomous Demo timestamp must be timezone-aware"

@[simp] theorem iso_ofInstant (i : Instant) : iso (.ofInstant i) = .ok i := by
  simp [iso, utcOr, Datetime.ofInstant]

/-- `_positive(value, name)`. -/
def positive (value : ℚ) (name : String) : Except PyError Unit :=
  require (0 < value) (.valueError ("autonomous Demo " ++ name ++ " must be positive"))

/-- `if value is not None: _positive(value, name)`. -/
def positiveOpt (value : Option ℚ) (name : String) : Except PyError Unit :=
  match value with
  | none => .ok ()
  | some v => positive v name

@[simp] theorem positive_eq_ok {v : ℚ} {name : String} {u : Unit} :
    positive v name = .ok u ↔ 0 < v := by
  simp [positive]

@[simp] theorem positiveOpt_eq_ok {v : Option ℚ} {name : String} {u : Unit} :
    positiveOpt v name = .ok u ↔ ∀ b, v = some b → 0 < b := by
  cases v <;> simp [positiveOpt]

/-- A transaction that returns a trade. -/
abbrev TradeTxn := Except PyError (AutonomousTradeRecord × AutonomousDemoStateStore)

/-- A transaction that returns a day. -/
abbrev DayTxn := Except PyError (AutonomousDailyRiskRecord × AutonomousDemoStateStore)

section

variable (D : Digests)

def tradeNamespace : String := "7f40d3c8-87bb-4a4d-92bd-cb2c43a122c8"

def tradeIdFor (observationId : String) : String :=
  "demo-" ++ D.uuid5Hex tradeNamespace observationId

/-- The arguments of `begin_trade`, without the time. -/
structure TradeRequest where
  observationId : String
  candidateId : String
  symbol : String
  action : SetupAction
  targetQuantity : ℚ
  referencePrice : ℚ
  stopLossBps : Option ℚ := none
  takeProfitBps : Option ℚ := none
  deriving DecidableEq

namespace AutonomousDemoStateStore

def empty : AutonomousDemoStateStore := ⟨.empty, .empty⟩

/-! ## Reads -/

/-- `_fetch`. -/
def fetch (s : AutonomousDemoStateStore) (tradeId : String) : Option AutonomousTradeRecord :=
  s.trades.find tradeId

def activeRows (s : AutonomousDemoStateStore) : List AutonomousTradeRecord :=
  s.trades.rows.filter fun t => t.phase ∈ activePhases

/-- `_fetch_active`. -/
def fetchActive (s : AutonomousDemoStateStore) : Except PyError (Option AutonomousTradeRecord) := do
  let rows := sorted (fun a b => a.createdAtUtc ≤ b.createdAtUtc) s.activeRows
  require (rows.length ≤ 1) (.autonomousDemoState "multiple active autonomous Demo trades")
  .ok rows.head?

/-- `_fetch_day`. -/
def fetchDay (s : AutonomousDemoStateStore) (utcDate : Int) : Option AutonomousDailyRiskRecord :=
  s.daily.find utcDate

def activeTrade (s : AutonomousDemoStateStore) :
    Except PyError (Option AutonomousTradeRecord × AutonomousDemoStateStore) := do
  let active ← s.fetchActive
  .ok (active, s)

def dailyRiskState (s : AutonomousDemoStateStore) (nowUtc : Datetime) :
    Except PyError (Option AutonomousDailyRiskRecord × AutonomousDemoStateStore) := do
  let now ← iso nowUtc
  .ok (s.fetchDay (utcDate now), s)

/-! ## Trades -/

def unknownTrade : PyError := .autonomousDemoState "unknown autonomous Demo trade"

/-- The row that `begin_trade` inserts. -/
def newTrade (req : TradeRequest) (tradeId : String) (now : Instant) : AutonomousTradeRecord where
  tradeId
  observationId := req.observationId
  candidateId := req.candidateId
  symbol := req.symbol
  action := req.action
  phase := .observed
  targetQuantity := req.targetQuantity
  referencePrice := req.referencePrice
  stopLossBps := req.stopLossBps
  takeProfitBps := req.takeProfitBps
  createdAtUtc := now
  updatedAtUtc := now

/-- Whether a durable trade was asked for with other arguments. -/
def tradeConflicts (existing : AutonomousTradeRecord) (req : TradeRequest) : Bool :=
  existing.candidateId ≠ req.candidateId ∨ existing.symbol ≠ req.symbol ∨
    existing.action ≠ req.action ∨ existing.targetQuantity ≠ req.targetQuantity ∨
    existing.referencePrice ≠ req.referencePrice ∨ existing.stopLossBps ≠ req.stopLossBps ∨
    existing.takeProfitBps ≠ req.takeProfitBps

def beginTrade (s : AutonomousDemoStateStore) (req : TradeRequest) (nowUtc : Datetime) :
    TradeTxn := do
  require (req.action = .long ∨ req.action = .short)
    (.valueError "autonomous Demo trade requires LONG or SHORT")
  require (!isBlank req.observationId ∧ !isBlank req.candidateId ∧ !isBlank req.symbol)
    (.valueError "autonomous Demo trade identity is incomplete")
  positive req.targetQuantity "target quantity"
  positive req.referencePrice "reference price"
  positiveOpt req.stopLossBps "stop-loss override"
  positiveOpt req.takeProfitBps "take-profit override"
  let now ← iso nowUtc
  match s.fetch (tradeIdFor D req.observationId) with
  | some existing =>
    require (!tradeConflicts existing req)
      (.autonomousDemoState "observation id conflicts with durable trade")
    .ok (existing, s)
  | none =>
    let active ← s.fetchActive
    require active.isNone (.autonomousDemoState "another autonomous Demo trade is active")
    -- `observation_id TEXT NOT NULL UNIQUE`
    require (s.trades.rows.all fun t => t.observationId ≠ req.observationId)
      (.integrityError "UNIQUE constraint failed: autonomous_demo_trades.observation_id")
    match s.trades.insert (newTrade req (tradeIdFor D req.observationId) now) with
    | none => .error (.integrityError "UNIQUE constraint failed: autonomous_demo_trades.trade_id")
    | some trades =>
      match trades.find (tradeIdFor D req.observationId) with
      | none => .error .assertionError
      | some record => .ok (record, { s with trades })

/-- Whether another row has the entry or the exit order id of `t`, both `UNIQUE`. -/
def idTaken (s : AutonomousDemoStateStore) (t : AutonomousTradeRecord) : Bool :=
  s.trades.rows.any fun x => x.tradeId ≠ t.tradeId ∧
    (x.entryClientOrderId ≠ none ∧ x.entryClientOrderId = t.entryClientOrderId ∨
      x.exitClientOrderId ≠ none ∧ x.exitClientOrderId = t.exitClientOrderId)

/-- `_transition`. -/
def transition (s : AutonomousDemoStateStore) (tradeId : String)
    (allowed : List AutonomousTradePhase) (target : AutonomousTradePhase)
    (updates : List FieldUpdate) (nowUtc : Datetime) (replaceableFields : List TradeField := []) :
    TradeTxn :=
  match s.fetch tradeId with
  | none => .error unknownTrade
  | some existing => do
    require (existing.phase ∈ allowed) (.autonomousDemoState ("cannot move autonomous Demo trade from "
      ++ existing.phase.value ++ " to " ++ target.value))
    require (updates.all fun u => !(existing.phase = target ∧ u.field ∉ replaceableFields ∧
      u.conflicts existing)) (.autonomousDemoState "idempotent transition payload conflicts")
    let now ← iso nowUtc
    let row := transitionRow target updates now
    require (!s.idTaken (row existing)) (.integrityError "UNIQUE constraint failed")
    let s' := { s with trades := s.trades.modify tradeId row (transitionRow_key target updates now) }
    match s'.fetch tradeId with
    | none => .error .assertionError
    | some record => .ok (record, s')

def markEntrySubmitted (s : AutonomousDemoStateStore) (tradeId clientOrderId : String)
    (nowUtc : Datetime) : TradeTxn :=
  s.transition tradeId [.observed, .entrySubmitted] .entrySubmitted
    [.entryClientOrderId clientOrderId] nowUtc

def markOpen (s : AutonomousDemoStateStore) (tradeId : String) (fillPrice : ℚ)
    (openedAtUtc : Datetime) : TradeTxn := do
  positive fillPrice "entry fill price"
  let opened ← iso openedAtUtc
  s.transition tradeId [.entrySubmitted, .open] .open
    [.entryFillPrice fillPrice, .openedAtUtc opened] openedAtUtc

def markExitSubmitted (s : AutonomousDemoStateStore) (tradeId clientOrderId reason : String)
    (nowUtc : Datetime) : TradeTxn := do
  require (!isBlank reason) (.valueError "autonomous Demo exit reason is required")
  s.transition tradeId [.open, .exitSubmitted] .exitSubmitted
    [.exitClientOrderId clientOrderId, .exitReason reason] nowUtc [.exitClientOrderId]

def markClosed (s : AutonomousDemoStateStore) (tradeId : String) (realizedPnlUsd : ℚ)
    (closedAtUtc : Datetime) : TradeTxn := do
  let closed ← iso closedAtUtc
  s.transition tradeId [.entrySubmitted, .exitSubmitted, .closed] .closed
    [.realizedPnlUsd realizedPnlUsd, .closedAtUtc closed] closedAtUtc

def markSafetyHold (s : AutonomousDemoStateStore) (tradeId reason : String) (nowUtc : Datetime) :
    TradeTxn := do
  require (!isBlank reason) (.valueError "autonomous Demo safety reason is required")
  s.transition tradeId activePhases .safetyHold [.safetyReason reason] nowUtc

/-- The read of `close_unsubmitted_safety_hold`, and its tests. -/
def checkUnsubmittedSafetyHold (s : AutonomousDemoStateStore) (tradeId : String) :
    Except PyError (Unit × AutonomousDemoStateStore) :=
  match s.fetch tradeId with
  | none => .error unknownTrade
  | some existing => do
    require (existing.phase = .safetyHold)
      (.autonomousDemoState "trade is not in Demo safety hold")
    require (existing.entryClientOrderId.isNone ∧ existing.openedAtUtc.isNone ∧
      existing.exitClientOrderId.isNone)
      (.autonomousDemoState "cannot close a safety hold with order exposure")
    .ok ((), s)

/-- The write of `close_unsubmitted_safety_hold`. -/
def closeCheckedSafetyHold (s : AutonomousDemoStateStore) (tradeId : String)
    (closedAtUtc : Datetime) : TradeTxn := do
  let closed ← iso closedAtUtc
  s.transition tradeId [.safetyHold] .closed [.exitReason "UNSUBMITTED_ATTEMPT_CLEARED",
    .realizedPnlUsd 0, .closedAtUtc closed] closedAtUtc

/-! ## Daily risk -/

/-- `_ensure_day`. -/
def ensureDay (s : AutonomousDemoStateStore) (now : Instant) (capital : ℚ) :
    DayTxn :=
  match s.fetchDay (utcDate now) with
  | some existing => .ok (existing, s)
  | none =>
    match s.daily.insert
      { utcDate := utcDate now, startingCapitalUsd := capital, updatedAtUtc := now } with
    | none => .error (.integrityError "UNIQUE constraint failed: autonomous_demo_daily_risk.utc_date")
    | some daily =>
      match daily.find (utcDate now) with
      | none => .error .assertionError
      | some result => .ok (result, { s with daily })

/-- `_validate_entry_authorization`. -/
def validateEntryAuthorization (daily : AutonomousDailyRiskRecord) (now : Instant) (capital : ℚ)
    (config : AutonomousDemoRiskConfig) : Except PyError Unit := do
  positive capital "current capital"
  require daily.killSwitchReason.isNone
    (.entryNotAuthorized "autonomous Demo daily kill switch is active")
  require (daily.entries < config.maximumTradesPerUtcDay)
    (.entryNotAuthorized "autonomous Demo daily trade limit reached")
  require (daily.cooldownUntilUtc.all fun until_ => until_ ≤ now)
    (.entryNotAuthorized "autonomous Demo cooldown is active")
  let limit ← dailyLossLimitUsd daily.startingCapitalUsd config
  require (-limit < daily.realizedPnlUsd)
    (.entryNotAuthorized "autonomous Demo daily loss limit reached")

/-- `UPDATE autonomous_demo_daily_risk SET .. WHERE utc_date = ?`, and the row it leaves. -/
def updateDay (s : AutonomousDemoStateStore) (day : Int)
    (f : AutonomousDailyRiskRecord → AutonomousDailyRiskRecord)
    (hf : ∀ r, (f r).utcDate = r.utcDate) : DayTxn :=
  let s' := { s with daily := s.daily.modify day f hf }
  match s'.fetchDay day with
  | none => .error .assertionError
  | some result => .ok (result, s')

/-- The columns that `record_entry` writes. -/
def enterRow (now : Instant) (r : AutonomousDailyRiskRecord) : AutonomousDailyRiskRecord :=
  { r with entries := r.entries + 1, updatedAtUtc := now }

/-- The columns that `record_close` writes. -/
def closeRow (total : ℚ) (cooldown : Instant) (kill : Option String) (now : Instant)
    (r : AutonomousDailyRiskRecord) : AutonomousDailyRiskRecord :=
  { r with realizedPnlUsd := total, cooldownUntilUtc := some cooldown, killSwitchReason := kill,
           updatedAtUtc := now }

/-- The columns that `activate_kill_switch` writes. -/
def killRow (reason : String) (now : Instant) (r : AutonomousDailyRiskRecord) :
    AutonomousDailyRiskRecord :=
  { r with killSwitchReason := some reason, updatedAtUtc := now }

theorem enterRow_key (now : Instant) (r : AutonomousDailyRiskRecord) :
    (enterRow now r).utcDate = r.utcDate := rfl

theorem closeRow_key (total : ℚ) (cooldown : Instant) (kill : Option String) (now : Instant)
    (r : AutonomousDailyRiskRecord) : (closeRow total cooldown kill now r).utcDate = r.utcDate := rfl

theorem killRow_key (reason : String) (now : Instant) (r : AutonomousDailyRiskRecord) :
    (killRow reason now r).utcDate = r.utcDate := rfl

def authorizeEntry (s : AutonomousDemoStateStore) (nowUtc : Datetime) (startingCapitalUsd : ℚ)
    (config : AutonomousDemoRiskConfig) : DayTxn := do
  positive startingCapitalUsd "daily starting capital"
  let now ← iso nowUtc
  let (daily, s) ← s.ensureDay now startingCapitalUsd
  validateEntryAuthorization daily now startingCapitalUsd config
  .ok (daily, s)

def recordEntry (s : AutonomousDemoStateStore) (nowUtc : Datetime) (startingCapitalUsd : ℚ)
    (config : AutonomousDemoRiskConfig) : DayTxn := do
  let now ← iso nowUtc
  let (daily, s) ← s.ensureDay now startingCapitalUsd
  validateEntryAuthorization daily now startingCapitalUsd config
  s.updateDay (utcDate now) (enterRow now) (enterRow_key now)

def recordClose (s : AutonomousDemoStateStore) (nowUtc : Datetime)
    (startingCapitalUsd realizedPnlUsd : ℚ) (config : AutonomousDemoRiskConfig) :
    DayTxn := do
  let now ← iso nowUtc
  let (daily, s) ← s.ensureDay now startingCapitalUsd
  let total := daily.realizedPnlUsd + realizedPnlUsd
  let limit ← dailyLossLimitUsd daily.startingCapitalUsd config
  let kill := if total ≤ -limit then some "DAILY_LOSS_LIMIT" else daily.killSwitchReason
  let cooldown := now + config.cooldownSeconds * microsPerSecond
  s.updateDay (utcDate now) (closeRow total cooldown kill now) (closeRow_key total cooldown kill now)

def activateKillSwitch (s : AutonomousDemoStateStore) (nowUtc : Datetime) (startingCapitalUsd : ℚ)
    (reason : String) : DayTxn := do
  require (!isBlank reason) (.valueError "kill switch reason is required")
  let now ← iso nowUtc
  let (_, s) ← s.ensureDay now startingCapitalUsd
  s.updateDay (utcDate now) (killRow reason now) (killRow_key reason now)

end AutonomousDemoStateStore

/-! ## Transactions as operations -/

inductive StateOp where
  | activeTrade
  | dailyRiskState (nowUtc : Datetime)
  | beginTrade (req : TradeRequest) (nowUtc : Datetime)
  | markEntrySubmitted (tradeId clientOrderId : String) (nowUtc : Datetime)
  | markOpen (tradeId : String) (fillPrice : ℚ) (openedAtUtc : Datetime)
  | markExitSubmitted (tradeId clientOrderId reason : String) (nowUtc : Datetime)
  | markClosed (tradeId : String) (realizedPnlUsd : ℚ) (closedAtUtc : Datetime)
  | markSafetyHold (tradeId reason : String) (nowUtc : Datetime)
  | checkUnsubmittedSafetyHold (tradeId : String)
  | closeCheckedSafetyHold (tradeId : String) (closedAtUtc : Datetime)
  | authorizeEntry (nowUtc : Datetime) (startingCapitalUsd : ℚ) (config : AutonomousDemoRiskConfig)
  | recordEntry (nowUtc : Datetime) (startingCapitalUsd : ℚ) (config : AutonomousDemoRiskConfig)
  | recordClose (nowUtc : Datetime) (startingCapitalUsd realizedPnlUsd : ℚ)
      (config : AutonomousDemoRiskConfig)
  | activateKillSwitch (nowUtc : Datetime) (startingCapitalUsd : ℚ) (reason : String)

abbrev StateOp.Res : StateOp → Type
  | .activeTrade => Option AutonomousTradeRecord
  | .dailyRiskState _ => Option AutonomousDailyRiskRecord
  | .checkUnsubmittedSafetyHold _ => Unit
  | .authorizeEntry .. | .recordEntry .. | .recordClose .. | .activateKillSwitch .. =>
    AutonomousDailyRiskRecord
  | _ => AutonomousTradeRecord

def StateOp.txn (s : AutonomousDemoStateStore) : (o : StateOp) →
    Except PyError (o.Res × AutonomousDemoStateStore)
  | .activeTrade => s.activeTrade
  | .dailyRiskState now => s.dailyRiskState now
  | .beginTrade req now => s.beginTrade D req now
  | .markEntrySubmitted t c now => s.markEntrySubmitted t c now
  | .markOpen t p at_ => s.markOpen t p at_
  | .markExitSubmitted t c reason now => s.markExitSubmitted t c reason now
  | .markClosed t pnl at_ => s.markClosed t pnl at_
  | .markSafetyHold t reason now => s.markSafetyHold t reason now
  | .checkUnsubmittedSafetyHold t => s.checkUnsubmittedSafetyHold t
  | .closeCheckedSafetyHold t at_ => s.closeCheckedSafetyHold t at_
  | .authorizeEntry now capital config => s.authorizeEntry now capital config
  | .recordEntry now capital config => s.recordEntry now capital config
  | .recordClose now capital pnl config => s.recordClose now capital pnl config
  | .activateKillSwitch now capital reason => s.activateKillSwitch now capital reason

/-- A transaction answers and commits, or raises and is rolled back. -/
def execState : Sem StateOp StateOp.Res PyError AutonomousDemoStateStore :=
  fun o s r s' => (r, s') = outcome (o.txn D s) s

end

/-- `close_unsubmitted_safety_hold`. -/
def closeUnsubmittedSafetyHold (tradeId : String) (closedAtUtc : Datetime) :
    Prog StateOp StateOp.Res PyError AutonomousTradeRecord := do
  let _ ← Prog.perform (StateOp.checkUnsubmittedSafetyHold tradeId)
  Prog.perform (StateOp.closeCheckedSafetyHold tradeId closedAtUtc)

end Greenfield.Demo
