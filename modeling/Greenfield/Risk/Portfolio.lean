import Greenfield.Lib.Table
import Greenfield.Py.Basic
import Mathlib.Algebra.BigOperators.Group.List.Basic

/-!
# The portfolio risk engine

`src/risk/portfolio_engine.py`. A method can change the engine before it raises, so it
answers with what it returns or raises and with the engine it leaves. Dictionaries are
keyed tables.
-/

namespace Greenfield.Risk

open Keyed Py

structure PortfolioRiskConfig where
  maximumGrossExposureMultiple : ℚ := 2
  maximumNetExposureMultiple : ℚ := 1
  maximumSymbolExposureMultiple : ℚ := 1 / 2
  maximumVenueExposureMultiple : ℚ := 1
  maximumStrategyExposureMultiple : ℚ := 3 / 4
  maximumEngineExposureMultiple : ℚ := 1
  maximumCorrelatedExposureMultiple : ℚ := 3 / 4
  maximumCommittedRiskFraction : ℚ := 1 / 20
  maximumDailyLossFraction : ℚ := 3 / 100
  maximumDrawdownFraction : ℚ := 3 / 20
  maximumOpenPositions : Int := 10
  minimumOrderNotional : ℚ := 10
  positive : ∀ v ∈ [maximumGrossExposureMultiple, maximumNetExposureMultiple,
    maximumSymbolExposureMultiple, maximumVenueExposureMultiple, maximumStrategyExposureMultiple,
    maximumEngineExposureMultiple, maximumCorrelatedExposureMultiple,
    maximumCommittedRiskFraction, maximumDailyLossFraction, maximumDrawdownFraction,
    minimumOrderNotional], 0 < v
  slot : 1 ≤ maximumOpenPositions
  fractions : maximumCommittedRiskFraction ≤ 1 ∧ maximumDailyLossFraction ≤ 1 ∧
    maximumDrawdownFraction ≤ 1

/-- `PortfolioRiskConfig()`. -/
def defaultPortfolioRiskConfig : PortfolioRiskConfig where
  positive := by decide +kernel
  slot := by decide
  fractions := by decide +kernel

structure PortfolioPosition where
  key : String
  symbol : String
  venue : String
  strategy : String
  engine : String
  signedNotional : ℚ
  committedRiskFraction : ℚ
  openedAtUtc : Datetime
  identifiers : ∀ v ∈ [key, symbol, venue, strategy, engine], isBlank v = false
  notional : signedNotional ≠ 0
  risk : 0 < committedRiskFraction ∧ committedRiskFraction ≤ 1
  aware : openedAtUtc.utcOffset ≠ none

structure PortfolioEntryProposal where
  key : String
  symbol : String
  venue : String
  strategy : String
  engine : String
  signedNotional : ℚ
  committedRiskFraction : ℚ
  correlationCheckedSymbols : List String
  correlatedSymbols : List String
  proposedAtUtc : Datetime
  identifiers : ∀ v ∈ [key, symbol, venue, strategy, engine], isBlank v = false
  notional : signedNotional ≠ 0
  risk : 0 < committedRiskFraction ∧ committedRiskFraction ≤ 1
  unique : correlationCheckedSymbols.Nodup ∧ correlatedSymbols.Nodup
  covered : ∀ s ∈ correlatedSymbols, s ∈ correlationCheckedSymbols
  other : symbol ∉ correlationCheckedSymbols ∧ symbol ∉ correlatedSymbols
  aware : proposedAtUtc.utcOffset ≠ none

structure PortfolioRiskDecision where
  proposalKey : String
  approved : Bool
  approvedSignedNotional : ℚ
  approvedRiskFraction : ℚ
  reason : String
  projectedGrossExposure : ℚ
  projectedNetExposure : ℚ
  projectedCommittedRiskFraction : ℚ
  deriving DecidableEq

/-- `PortfolioRiskDecision.__post_init__`. -/
def PortfolioRiskDecision.checked (d : PortfolioRiskDecision) :
    Except PyError PortfolioRiskDecision := do
  require (!isBlank d.proposalKey ∧ !isBlank d.reason)
    (.valueError "risk decision identifiers must be non-empty")
  if d.approved then
    require (d.approvedSignedNotional ≠ 0 ∧ 0 < d.approvedRiskFraction)
      (.valueError "approved risk decision must allocate notional and risk")
  else
    require (d.approvedSignedNotional = 0 ∧ d.approvedRiskFraction = 0)
      (.valueError "rejected risk decision cannot allocate notional or risk")
  .ok d

structure PortfolioRiskSnapshot where
  positions : List PortfolioPosition
  peakEquity : ℚ
  dailyRealizedPnl : ℚ
  currentDay : Option Int
  killSwitchReason : Option String
  unique : (positions.map PortfolioPosition.key).Nodup
  peak : 0 ≤ peakEquity
  reason : killSwitchReason.all (fun r => !isBlank r) = true

structure PortfolioRiskEngine where
  config : PortfolioRiskConfig
  positions : Table PortfolioPosition.key := .empty
  peakEquity : ℚ := 0
  dailyRealizedPnl : ℚ := 0
  currentDay : Option Int := none
  killSwitchReason : Option String := none
  pendingDecisions : Table PortfolioRiskDecision.proposalKey := .empty

namespace PortfolioRiskEngine

/-- What a method returns or raises, and the engine it leaves. -/
abbrev Method (α : Type) := Except PyError α × PortfolioRiskEngine

def fromSnapshot (snapshot : PortfolioRiskSnapshot) (config : PortfolioRiskConfig) :
    Except PyError PortfolioRiskEngine := do
  require ((snapshot.positions.length : Int) ≤ config.maximumOpenPositions)
    (.valueError "risk snapshot exceeds the configured position limit")
  .ok
    { config
      positions := ⟨snapshot.positions, snapshot.unique⟩
      peakEquity := snapshot.peakEquity
      dailyRealizedPnl := snapshot.dailyRealizedPnl
      currentDay := snapshot.currentDay
      killSwitchReason := snapshot.killSwitchReason }

/-! ## Exposure -/

/-- The summed size of the positions that satisfy `p`. -/
def grossWhere (e : PortfolioRiskEngine) (p : PortfolioPosition → Bool) : ℚ :=
  ((e.positions.rows.filter p).map fun x => |x.signedNotional|).sum

def grossExposure (e : PortfolioRiskEngine) : ℚ := e.grossWhere fun _ => true

def netExposure (e : PortfolioRiskEngine) : ℚ :=
  (e.positions.rows.map PortfolioPosition.signedNotional).sum

def committedRiskFraction (e : PortfolioRiskEngine) : ℚ :=
  (e.positions.rows.map PortfolioPosition.committedRiskFraction).sum

/-! ## Entries -/

/-- `_roll_day`. -/
def rollDay (e : PortfolioRiskEngine) (now : Instant) : Bool × PortfolioRiskEngine :=
  let eventDay := utcDate now
  let advance := ({ e with currentDay := some eventDay, dailyRealizedPnl := 0 } : PortfolioRiskEngine)
  match e.currentDay with
  | none => (true, advance)
  | some day => if eventDay > day then (true, advance) else (eventDay = day, e)

/-- `_positive_equity`. -/
def positiveEquity (equity : ℚ) : Except PyError Unit :=
  require (0 < equity) (.valueError "portfolio equity must be finite and positive")

/-- `_blocking_reason`. -/
def blockingReason (e : PortfolioRiskEngine) (proposal : PortfolioEntryProposal) (equity : ℚ) :
    Option String :=
  let otherSymbols := (e.positions.rows.map PortfolioPosition.symbol).filter fun s =>
    s ≠ proposal.symbol
  match e.killSwitchReason with
  | some reason => some ("KILL_SWITCH_ACTIVE:" ++ reason)
  | none =>
    if (e.positions.find proposal.key).isSome then some "POSITION_KEY_ALREADY_OPEN"
    else if (e.positions.rows.length : Int) ≥ e.config.maximumOpenPositions then
      some "MAXIMUM_OPEN_POSITIONS"
    else if e.dailyRealizedPnl ≤ -e.config.maximumDailyLossFraction * equity then
      some "MAXIMUM_DAILY_LOSS"
    else if e.peakEquity > 0 ∧ 1 - equity / e.peakEquity ≥ e.config.maximumDrawdownFraction then
      some "MAXIMUM_DRAWDOWN"
    else if otherSymbols.all (· ∈ proposal.correlationCheckedSymbols) then none
    else some "MISSING_CORRELATION_EVIDENCE"

/-- `_rejected`. -/
def rejected (e : PortfolioRiskEngine) (reason proposalKey : String) :
    Except PyError PortfolioRiskDecision :=
  PortfolioRiskDecision.checked
    { proposalKey
      approved := false
      approvedSignedNotional := 0
      approvedRiskFraction := 0
      reason
      projectedGrossExposure := e.grossExposure
      projectedNetExposure := e.netExposure
      projectedCommittedRiskFraction := e.committedRiskFraction }

/-- The notional that fits every exposure limit and the committed risk. -/
def approvedNotional (e : PortfolioRiskEngine) (proposal : PortfolioEntryProposal) (equity : ℚ) :
    ℚ :=
  let requested := |proposal.signedNotional|
  let room := fun (multiple used : ℚ) => max 0 (multiple * equity - used)
  let correlatedSymbols := proposal.symbol :: proposal.correlatedSymbols
  let riskRoomFraction := max 0 (e.config.maximumCommittedRiskFraction - e.committedRiskFraction)
  let riskScaledNotional := requested * min 1 (riskRoomFraction / proposal.committedRiskFraction)
  let netRoom := if proposal.signedNotional > 0 then
      e.config.maximumNetExposureMultiple * equity - e.netExposure
    else e.config.maximumNetExposureMultiple * equity + e.netExposure
  [room e.config.maximumGrossExposureMultiple e.grossExposure,
    max 0 netRoom,
    room e.config.maximumSymbolExposureMultiple (e.grossWhere (·.symbol = proposal.symbol)),
    room e.config.maximumVenueExposureMultiple (e.grossWhere (·.venue = proposal.venue)),
    room e.config.maximumStrategyExposureMultiple (e.grossWhere (·.strategy = proposal.strategy)),
    room e.config.maximumEngineExposureMultiple (e.grossWhere (·.engine = proposal.engine)),
    room e.config.maximumCorrelatedExposureMultiple (e.grossWhere (·.symbol ∈ correlatedSymbols)),
    riskScaledNotional].foldl min requested

/-- The decision that approves `approved` of the proposal. -/
def approval (e : PortfolioRiskEngine) (proposal : PortfolioEntryProposal) (approved : ℚ) :
    PortfolioRiskDecision :=
  let requested := |proposal.signedNotional|
  let approvedRisk := proposal.committedRiskFraction * approved / requested
  let signed := (if proposal.signedNotional > 0 then 1 else -1) * approved
  { proposalKey := proposal.key
    approved := true
    approvedSignedNotional := signed
    approvedRiskFraction := approvedRisk
    reason := "APPROVED"
    projectedGrossExposure := e.grossExposure + approved
    projectedNetExposure := e.netExposure + signed
    projectedCommittedRiskFraction := e.committedRiskFraction + approvedRisk }

def evaluateEntry (e : PortfolioRiskEngine) (proposal : PortfolioEntryProposal) (equity : ℚ) :
    Method PortfolioRiskDecision :=
  match utc proposal.proposedAtUtc "proposal timestamp" with
  | .error err => (.error err, e)
  | .ok now =>
    let (rolled, e) := e.rollDay now
    if rolled = false then (e.rejected "OUT_OF_ORDER_TIMESTAMP" proposal.key, e)
    else
      match positiveEquity equity with
      | .error err => (.error err, e)
      | .ok () =>
        let e := { e with peakEquity := max e.peakEquity equity }
        match e.blockingReason proposal equity with
        | some reason => (e.rejected reason proposal.key, e)
        | none =>
          let approved := e.approvedNotional proposal equity
          if approved < e.config.minimumOrderNotional then
            (e.rejected "NO_PORTFOLIO_RISK_CAPACITY" proposal.key, e)
          else
            match (e.approval proposal approved).checked with
            | .error err => (.error err, e)
            | .ok decision =>
              (.ok decision, { e with pendingDecisions := e.pendingDecisions.upsert decision })

/-- The peak that `evaluate_entry` and `update_equity` note. -/
def raisePeak (e : PortfolioRiskEngine) (equity : ℚ) : PortfolioRiskEngine :=
  { e with peakEquity := max e.peakEquity equity }

/-- What `evaluate_entry` does once it has noted the day and the peak. -/
def judge (e : PortfolioRiskEngine) (proposal : PortfolioEntryProposal) (equity : ℚ) :
    Method PortfolioRiskDecision :=
  match e.blockingReason proposal equity with
  | some reason => (e.rejected reason proposal.key, e)
  | none =>
    if e.approvedNotional proposal equity < e.config.minimumOrderNotional then
      (e.rejected "NO_PORTFOLIO_RISK_CAPACITY" proposal.key, e)
    else
      match (e.approval proposal (e.approvedNotional proposal equity)).checked with
      | .error err => (.error err, e)
      | .ok decision =>
        (.ok decision, { e with pendingDecisions := e.pendingDecisions.upsert decision })

theorem evaluateEntry_eq (e : PortfolioRiskEngine) (proposal : PortfolioEntryProposal) (equity : ℚ) :
    e.evaluateEntry proposal equity =
    match utc proposal.proposedAtUtc "proposal timestamp" with
    | .error err => (.error err, e)
    | .ok now =>
      if (e.rollDay now).1 = false then
        ((e.rollDay now).2.rejected "OUT_OF_ORDER_TIMESTAMP" proposal.key, (e.rollDay now).2)
      else
        match positiveEquity equity with
        | .error err => (.error err, (e.rollDay now).2)
        | .ok () => ((e.rollDay now).2.raisePeak equity).judge proposal equity := rfl

/-- The position of a decision, whose constructor tests its notional and risk. -/
def positionOf (proposal : PortfolioEntryProposal) (decision : PortfolioRiskDecision) :
    Except PyError PortfolioPosition :=
  if notional : decision.approvedSignedNotional ≠ 0 then
    if risk : 0 < decision.approvedRiskFraction ∧ decision.approvedRiskFraction ≤ 1 then
      .ok
        { key := proposal.key
          symbol := proposal.symbol
          venue := proposal.venue
          strategy := proposal.strategy
          engine := proposal.engine
          signedNotional := decision.approvedSignedNotional
          committedRiskFraction := decision.approvedRiskFraction
          openedAtUtc := proposal.proposedAtUtc
          identifiers := proposal.identifiers
          notional
          risk
          aware := proposal.aware }
    else .error (.valueError "portfolio position committed risk must be positive")
  else .error (.valueError "portfolio position notional must be finite and non-zero")

/-- The tests of `record_open`, with the position it opens. -/
def openable (e : PortfolioRiskEngine) (proposal : PortfolioEntryProposal)
    (decision : PortfolioRiskDecision) : Except PyError PortfolioPosition := do
  require decision.approved (.valueError "cannot open a risk-rejected portfolio position")
  require (decision.proposalKey = proposal.key)
    (.valueError "risk decision does not belong to this proposal")
  require (e.positions.find proposal.key).isNone
    (.valueError "portfolio position key is already open")
  require (e.pendingDecisions.find proposal.key = some decision)
    (.valueError "risk decision was not issued by this engine")
  let requested := |proposal.signedNotional|
  let approved := |decision.approvedSignedNotional|
  require (approved ≤ requested ∧ e.config.minimumOrderNotional ≤ approved)
    (.valueError "risk decision has an invalid approved notional")
  require (0 < decision.approvedSignedNotional * proposal.signedNotional)
    (.valueError "risk decision changed the proposal direction")
  let maximumRisk := proposal.committedRiskFraction * approved / requested
  require (isclose decision.approvedRiskFraction maximumRisk (1 / 10 ^ 12) (1 / 10 ^ 12))
    (.valueError "risk decision has an invalid approved risk")
  positionOf proposal decision

def recordOpen (e : PortfolioRiskEngine) (proposal : PortfolioEntryProposal)
    (decision : PortfolioRiskDecision) : Method Unit :=
  match e.openable proposal decision with
  | .error err => (.error err, e)
  | .ok position =>
    (.ok (), { e with positions := e.positions.upsert position
                      pendingDecisions := e.pendingDecisions.erase proposal.key })

def recordClose (e : PortfolioRiskEngine) (key : String) (realizedPnl : ℚ)
    (closedAtUtc : Datetime) : Method Unit :=
  match utc closedAtUtc "position closed timestamp" with
  | .error err => (.error err, e)
  | .ok now =>
    let e := (e.rollDay now).2
    match e.positions.find key with
    | none => (.error (.keyError ("unknown portfolio position: " ++ key)), e)
    | some _ => (.ok (), { e with positions := e.positions.erase key
                                  dailyRealizedPnl := e.dailyRealizedPnl + realizedPnl })

/-! ## Kill switch, equity and snapshots -/

def activateKillSwitch (e : PortfolioRiskEngine) (reason : String) : Method Unit :=
  match require (!isBlank reason) (.valueError "kill switch activation requires a reason") with
  | .error err => (.error err, e)
  | .ok () => (.ok (), { e with killSwitchReason := some reason })

def clearKillSwitch (e : PortfolioRiskEngine) (operatorReason : String) : Method Unit :=
  match require (!isBlank operatorReason)
    (.valueError "kill switch reset requires an operator reason") with
  | .error err => (.error err, e)
  | .ok () => (.ok (), { e with killSwitchReason := none })

def updateEquity (e : PortfolioRiskEngine) (equity : ℚ) : Method Unit :=
  match positiveEquity equity with
  | .error err => (.error err, e)
  | .ok () => (.ok (), { e with peakEquity := max e.peakEquity equity })

/-- `positions`, in the order of their keys. -/
def sortedPositions (e : PortfolioRiskEngine) : List PortfolioPosition :=
  sorted (fun a b => a.key ≤ b.key) e.positions.rows

theorem sortedPositions_perm (e : PortfolioRiskEngine) :
    e.sortedPositions.Perm e.positions.rows := List.perm_insertionSort _ _

/-- `snapshot`, whose constructor tests the peak and the reason. -/
def snapshot (e : PortfolioRiskEngine) : Except PyError PortfolioRiskSnapshot :=
  if peak : 0 ≤ e.peakEquity then
    if reason : e.killSwitchReason.all (fun r => !isBlank r) = true then
      .ok
        { positions := e.sortedPositions
          peakEquity := e.peakEquity
          dailyRealizedPnl := e.dailyRealizedPnl
          currentDay := e.currentDay
          killSwitchReason := e.killSwitchReason
          unique := (e.sortedPositions_perm.map _).nodup_iff.mpr e.positions.nodup
          peak
          reason }
    else .error (.valueError "risk snapshot kill switch reason must be non-empty")
  else .error (.valueError "risk snapshot peak equity must be finite and non-negative")

end PortfolioRiskEngine

/-- A proposal of 100 with one percent of risk, in a book without correlated symbols. -/
def sampleProposal (key symbol : String)
    (identifiers : ∀ v ∈ [key, symbol, "bybit", "sample", "paper"], isBlank v = false) :
    PortfolioEntryProposal where
  key
  symbol
  venue := "bybit"
  strategy := "sample"
  engine := "paper"
  signedNotional := 100
  committedRiskFraction := 1 / 100
  correlationCheckedSymbols := []
  correlatedSymbols := []
  proposedAtUtc := .ofInstant 0
  identifiers
  notional := by decide +kernel
  risk := by decide +kernel
  unique := ⟨List.nodup_nil, List.nodup_nil⟩
  covered := fun _ hs => absurd hs List.not_mem_nil
  other := ⟨List.not_mem_nil, List.not_mem_nil⟩
  aware := by decide

end Greenfield.Risk
