import Greenfield.Risk.Restart
import Greenfield.Shadow.Decision
import Greenfield.Shadow.Journal

/-!
# The SHADOW runtime

`ShadowRuntime` of `src/execution/shadow_runtime.py`, with the files it writes: the risk
store and the journal. A call answers with what it returns or raises, and leaves the
runtime. A write can fail before it changes its file, after it, and a journal line in the
middle. The trading mode is SHADOW, which the constructor demands; `str.lower` is a
parameter.
-/

namespace Greenfield.Shadow

open Keyed Py Risk Json PortfolioRiskEngine

structure ShadowSessionContext where
  sessionId : String
  datasetFingerprint : String
  codeCommit : String
  configFingerprint : String
  complete : ∀ v ∈ [sessionId, datasetFingerprint, codeCommit, configFingerprint],
    isBlank v = false

/-- How the write of the risk state fails: before its file is replaced, or once it is. -/
inductive SaveFault where
  | before
  | after
  deriving DecidableEq

/-- How the writes of a call fail. -/
structure Faults where
  save : Option SaveFault := none
  append : Option WriteFault := none

structure ShadowRuntime where
  context : ShadowSessionContext
  riskEngine : PortfolioRiskEngine
  riskStore : PortfolioRiskStateStore
  journal : ShadowAuditJournal

/-- What `_record` is given. -/
structure AuditEntry where
  observationId : String
  decisionTimestampUtc : Datetime
  action : String
  status : ShadowStatus
  selectedEngineId : Option String := none
  proposalKeys : List String := []
  riskReasons : List String := []
  reasonCodes : List String
  riskStateSha256 : Option String := none

/-- The record of an entry in the session. -/
def ShadowSessionContext.fields (context : ShadowSessionContext) (entry : AuditEntry) :
    AuditFields where
  observationId := entry.observationId
  sessionId := context.sessionId
  decisionTimestampUtc := entry.decisionTimestampUtc
  action := entry.action
  status := entry.status
  selectedEngineId := entry.selectedEngineId
  proposalKeys := entry.proposalKeys
  riskReasons := entry.riskReasons
  reasonCodes := entry.reasonCodes
  datasetFingerprint := context.datasetFingerprint
  codeCommit := context.codeCommit
  configFingerprint := context.configFingerprint
  riskStateSha256 := entry.riskStateSha256

namespace ShadowRuntime

variable (D : Digests) (F : Floats) (lower : String → String)

/-! ## Writes -/

/-- `_record`. -/
def record (r : ShadowRuntime) (entry : AuditEntry) (fault : Option WriteFault) :
    Except PyError ShadowAuditRecord × ShadowRuntime :=
  match (r.context.fields entry).checked with
  | .error err => (.error err, r)
  | .ok record =>
    match r.journal.append D F record fault with
    | (.error err, journal) => (.error err, { r with journal })
    | (.ok _, journal) => (.ok record, { r with journal })

/-- `self.risk_store.save(staged.snapshot(), saved_at_utc=..)`. -/
def save (store : PortfolioRiskStateStore) (staged : PortfolioRiskEngine)
    (savedAtUtc : Datetime) (fault : Option SaveFault) :
    Except PyError String × PortfolioRiskStateStore :=
  match (do store.save D F (← staged.snapshot) savedAtUtc) with
  | .error err => (.error err, store)
  | .ok (checksum, saved) =>
    match fault with
    | some .before => (.error .osError, store)
    | some .after => (.error .osError, saved)
    | none => (.ok checksum, saved)

/-- Save the staged engine, take it over, and record the entry with the checksum. -/
def adopt (r : ShadowRuntime) (staged : PortfolioRiskEngine) (entry : AuditEntry)
    (faults : Faults) : Except PyError ShadowAuditRecord × ShadowRuntime :=
  match save D F r.riskStore staged entry.decisionTimestampUtc faults.save with
  | (.error err, riskStore) => (.error err, { r with riskStore })
  | (.ok checksum, riskStore) =>
    { r with riskStore, riskEngine := staged }.record D F
      { entry with riskStateSha256 := some checksum } faults.append

/-- What a call is to write: an entry, or an entry with the engine to take over. -/
inductive Plan where
  | audited (entry : AuditEntry)
  | adopted (staged : PortfolioRiskEngine) (entry : AuditEntry)

/-- The part of a call that writes. -/
def perform (r : ShadowRuntime) (plan : Except PyError Plan) (faults : Faults) :
    Except PyError ShadowAuditRecord × ShadowRuntime :=
  match plan with
  | .error err => (.error err, r)
  | .ok (.audited entry) => r.record D F entry faults.append
  | .ok (.adopted staged entry) => r.adopt D F staged entry faults

/-- `PortfolioRiskEngine.from_snapshot(self.risk_engine.snapshot(), self.risk_engine.config)`. -/
def staged (r : ShadowRuntime) : Except PyError PortfolioRiskEngine := do
  fromSnapshot (← r.riskEngine.snapshot) r.riskEngine.config

/-! ## `observe` -/

/-- The symbol, venue and direction of a leg and of a proposal. -/
def legKey (leg : SetupLeg) : String × String × Int :=
  (leg.symbol, lower leg.venue, if leg.side = .buy then 1 else -1)

def proposalKey (proposal : PortfolioEntryProposal) : String × String × Int :=
  (proposal.symbol, lower proposal.venue, if proposal.signedNotional > 0 then 1 else -1)

/-- `_validate_actionable`. -/
def validateActionable (decision : MetaDecision) (proposals : List PortfolioEntryProposal) :
    Except PyError Unit := do
  match decision.selectedSetup, decision.selectedEngineId with
  | some setup, some _ =>
    require (proposals ≠ [] ∧ proposals.length = setup.legs.length)
      (.valueError "shadow proposals must map one-to-one to setup legs")
    require ((proposals.map PortfolioEntryProposal.key).Nodup)
      (.valueError "shadow proposal keys must be unique")
    require ((proposals.map (proposalKey lower)).isPerm (setup.legs.map (legKey lower)))
      (.valueError "shadow proposals do not match selected setup legs")
    require (proposals.all fun p =>
        p.proposedAtUtc.instant = decision.decisionTimestampUtc.instant)
      (.valueError "shadow proposals must share the Meta decision timestamp")
    require (proposals.all fun p => |p.signedNotional| ≤ decision.allocatedNotional)
      (.valueError "shadow proposal exceeds Meta allocation")
    require (decision.action = .arbitrage ∨
        (proposals.map fun p => |p.signedNotional|).sum ≤ decision.allocatedNotional)
      (.valueError "directional shadow proposals exceed total Meta allocation")
    require (decision.action ≠ .arbitrage ∨
        (proposals.map fun p => |p.signedNotional|).tail.all fun v =>
          isclose v ((proposals.map fun p => |p.signedNotional|).headD 0) (1 / 10 ^ 12) (1 / 10 ^ 12))
      (.valueError "shadow arbitrage legs must start balanced")
  | _, _ => .error (.valueError "actionable shadow decision must select a setup")

/-- Where the evaluation of the proposals ends, with the decisions on them. -/
inductive Staging where
  | rejected (decisions : List PortfolioRiskDecision) (decision : PortfolioRiskDecision)
  | opened (staged : PortfolioRiskEngine) (decisions : List PortfolioRiskDecision)

/-- Evaluate and open one proposal after the other. -/
def evaluateAll (equity : ℚ) (staged : PortfolioRiskEngine)
    (decisions : List PortfolioRiskDecision) :
    List PortfolioEntryProposal → Except PyError Staging
  | [] => .ok (.opened staged decisions)
  | proposal :: proposals =>
    match staged.evaluateEntry proposal equity with
    | (.error err, _) => .error err
    | (.ok decision, staged) =>
      if decision.approved then
        match staged.recordOpen proposal decision with
        | (.error err, _) => .error err
        | (.ok (), staged) => evaluateAll equity staged (decisions ++ [decision]) proposals
      else .ok (.rejected (decisions ++ [decision]) decision)

/-- The entry of an actionable decision, without its status and reason codes. -/
def actionableEntry (decision : MetaDecision) (observationId : String)
    (proposals : List PortfolioEntryProposal) (decisions : List PortfolioRiskDecision)
    (status : ShadowStatus) (reasonCodes : List String) : AuditEntry where
  observationId
  decisionTimestampUtc := decision.decisionTimestampUtc
  action := decision.action.value
  status
  selectedEngineId := decision.selectedEngineId
  proposalKeys := proposals.map PortfolioEntryProposal.key
  riskReasons := decisions.map PortfolioRiskDecision.reason
  reasonCodes

/-- Some leg was approved for less than it asked. -/
def mismatched (proposals : List PortfolioEntryProposal) (decisions : List PortfolioRiskDecision) :
    Bool :=
  (proposals.zip decisions).any fun (proposal, decision) =>
    !isclose |decision.approvedSignedNotional| |proposal.signedNotional| (1 / 10 ^ 12) (1 / 10 ^ 12)

/-- The part of `observe` before it writes. -/
def observation (r : ShadowRuntime) (decision : MetaDecision) (observationId : String)
    (proposals : List PortfolioEntryProposal) (equity : ℚ) : Except PyError Plan := do
  r.journal.ensureAvailable observationId
  if decision.action = .wait then
    require proposals.isEmpty (.valueError "WAIT shadow observation cannot carry proposals")
    .ok (.audited
      { observationId
        decisionTimestampUtc := decision.decisionTimestampUtc
        action := decision.action.value
        status := .wait
        reasonCodes := decision.reasonCodes })
  else
    validateActionable lower decision proposals
    match ← evaluateAll equity (← r.staged) [] proposals with
    | .rejected decisions rejection =>
      .ok (.audited (actionableEntry decision observationId proposals decisions .riskRejected
        ["PORTFOLIO_RISK_REJECTED", rejection.reason]))
    | .opened staged decisions =>
      if decision.action = .arbitrage ∧ mismatched proposals decisions then
        .ok (.audited (actionableEntry decision observationId proposals decisions .riskRejected
          ["ARBITRAGE_LEG_CAPACITY_MISMATCH"]))
      else
        .ok (.adopted staged (actionableEntry decision observationId proposals decisions
          .eligibleNoOrder ["SHADOW_ONLY_NO_ORDER_SUBMISSION"]))

def observe (r : ShadowRuntime) (decision : MetaDecision) (observationId : String)
    (proposals : List PortfolioEntryProposal) (equity : ℚ) (faults : Faults) :
    Except PyError ShadowAuditRecord × ShadowRuntime :=
  r.perform D F (r.observation lower decision observationId proposals equity) faults

/-! ## `close_virtual` and `activate_safety_hold` -/

/-- Close one position after the other. -/
def closeAll (closedAtUtc : Datetime) (staged : PortfolioRiskEngine) :
    List (String × ℚ) → Except PyError PortfolioRiskEngine
  | [] => .ok staged
  | (key, realizedPnl) :: rest =>
    match staged.recordClose key realizedPnl closedAtUtc with
    | (.error err, _) => .error err
    | (.ok (), staged) => closeAll closedAtUtc staged rest

/-- The part of `close_virtual` before it writes. -/
def closing (r : ShadowRuntime) (observationId : String)
    (realizedPnlByKey : List (String × ℚ)) (closedAtUtc : Datetime) :
    Except PyError Plan := do
  r.journal.ensureAvailable observationId
  let closedAt ← utc closedAtUtc "shadow close timestamp"
  let keys := realizedPnlByKey.map Prod.fst
  require (keys ≠ [] ∧ keys.Nodup) (.valueError "shadow close requires unique position keys")
  let staged ← closeAll (.ofInstant closedAt) (← r.staged) realizedPnlByKey
  .ok (.adopted staged
    { observationId
      decisionTimestampUtc := .ofInstant closedAt
      action := "CLOSE"
      status := .virtualClose
      proposalKeys := keys
      reasonCodes := ["VIRTUAL_POSITION_CLOSED"] })

def closeVirtual (r : ShadowRuntime) (observationId : String)
    (realizedPnlByKey : List (String × ℚ)) (closedAtUtc : Datetime) (faults : Faults) :
    Except PyError ShadowAuditRecord × ShadowRuntime :=
  r.perform D F (r.closing observationId realizedPnlByKey closedAtUtc) faults

/-- The part of `activate_safety_hold` before it writes. -/
def holding (r : ShadowRuntime) (observationId reason : String) (activatedAtUtc : Datetime) :
    Except PyError Plan := do
  r.journal.ensureAvailable observationId
  let activatedAt ← utc activatedAtUtc "shadow safety-hold timestamp"
  require (!isBlank reason) (.valueError "shadow safety hold requires a reason")
  match (← r.staged).activateKillSwitch reason with
  | (.error err, _) => .error err
  | (.ok (), staged) =>
    .ok (.adopted staged
      { observationId
        decisionTimestampUtc := .ofInstant activatedAt
        action := "SAFETY_HOLD"
        status := .safetyHold
        riskReasons := [reason]
        reasonCodes := ["SHADOW_EVENT_LOOP_FAILURE_THRESHOLD"] })

def activateSafetyHold (r : ShadowRuntime) (observationId reason : String)
    (activatedAtUtc : Datetime) (faults : Faults) :
    Except PyError ShadowAuditRecord × ShadowRuntime :=
  r.perform D F (r.holding observationId reason activatedAtUtc) faults

/-! ## Starting -/

/-- `initialize_new`, whose writes succeed. -/
def initializeNew (context : ShadowSessionContext) (riskEngine : PortfolioRiskEngine)
    (riskStore : PortfolioRiskStateStore) (journal : ShadowAuditJournal)
    (initializedAtUtc : Datetime) : Except PyError ShadowRuntime := do
  let existing ← riskStore.load D F
  require existing.isNone
    (.valueError "cannot initialize shadow runtime over existing risk state")
  let records ← verify D F journal.file
  require records.isEmpty
    (.valueError "cannot initialize shadow runtime over existing audit records")
  match ({ context, riskEngine, riskStore, journal } : ShadowRuntime).adopt D F riskEngine
      { observationId := context.sessionId ++ ":initialize"
        decisionTimestampUtc := initializedAtUtc
        action := "INITIALIZE"
        status := .initialized
        reasonCodes := ["SHADOW_SESSION_INITIALIZED"] } {} with
  | (.error err, _) => .error err
  | (.ok _, r) => .ok r

/-- `resume`. -/
def resume (context : ShadowSessionContext) (riskStore : PortfolioRiskStateStore)
    (journal : ShadowAuditJournal) (riskConfig : PortfolioRiskConfig) :
    Except PyError ShadowRuntime := do
  let snapshot ← riskStore.loadRequired D F
  let records ← verify D F journal.file
  require (!records.isEmpty) (.shadowAudit "shadow audit is absent for persisted risk state")
  require (records.all fun record => record.sessionId = context.sessionId ∧
      record.datasetFingerprint = context.datasetFingerprint ∧
      record.codeCommit = context.codeCommit ∧
      record.configFingerprint = context.configFingerprint)
    (.shadowAudit "shadow context does not match the existing audit")
  let journalChecksum ← journal.latestRiskStateSha256 D F
  let storeChecksum ← riskStore.checksum D F
  require (journalChecksum = none ∨ journalChecksum = storeChecksum)
    (.shadowAudit "shadow audit and risk state are not reconciled")
  let riskEngine ← fromSnapshot snapshot riskConfig
  .ok { context, riskEngine, riskStore, journal }

end ShadowRuntime

/-! ## Runs -/

inductive RuntimeCall where
  | observe (decision : MetaDecision) (observationId : String)
      (proposals : List PortfolioEntryProposal) (equity : ℚ)
  | closeVirtual (observationId : String) (realizedPnlByKey : List (String × ℚ))
      (closedAtUtc : Datetime)
  | activateSafetyHold (observationId reason : String) (activatedAtUtc : Datetime)

inductive RuntimeOp where
  | call (c : RuntimeCall) (faults : Faults)
  /-- A new process opens the journal and resumes. -/
  | resume (context : ShadowSessionContext) (riskConfig : PortfolioRiskConfig)

namespace ShadowRuntime

variable (D : Digests) (F : Floats) (lower : String → String)

def plan (r : ShadowRuntime) : RuntimeCall → Except PyError Plan
  | .observe decision observationId proposals equity =>
    r.observation lower decision observationId proposals equity
  | .closeVirtual observationId realizedPnlByKey closedAtUtc =>
    r.closing observationId realizedPnlByKey closedAtUtc
  | .activateSafetyHold observationId reason activatedAtUtc =>
    r.holding observationId reason activatedAtUtc

def call (r : ShadowRuntime) (c : RuntimeCall) (faults : Faults) :
    Except PyError ShadowAuditRecord × ShadowRuntime :=
  match c with
  | .observe decision observationId proposals equity =>
    r.observe D F lower decision observationId proposals equity faults
  | .closeVirtual observationId realizedPnlByKey closedAtUtc =>
    r.closeVirtual D F observationId realizedPnlByKey closedAtUtc faults
  | .activateSafetyHold observationId reason activatedAtUtc =>
    r.activateSafetyHold D F observationId reason activatedAtUtc faults

theorem call_eq (r : ShadowRuntime) (c : RuntimeCall) (faults : Faults) :
    r.call D F lower c faults = r.perform D F (r.plan lower c) faults := by
  cases c <;> rfl

/-- The journal is opened anew. -/
def reopen (r : ShadowRuntime) (context : ShadowSessionContext)
    (riskConfig : PortfolioRiskConfig) : Except PyError ShadowRuntime := do
  resume D F context r.riskStore (← openJournal D F r.journal.file) riskConfig

/-- A resumption that raises leaves the files. -/
def step (r : ShadowRuntime) : RuntimeOp → ShadowRuntime
  | .call c faults => (r.call D F lower c faults).2
  | .resume context riskConfig =>
    match r.reopen D F context riskConfig with
    | .ok r' => r'
    | .error _ => r

end ShadowRuntime

end Greenfield.Shadow
