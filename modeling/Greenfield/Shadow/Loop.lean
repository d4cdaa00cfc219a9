import Greenfield.Lib.Effect
import Greenfield.Shadow.Decision
import Greenfield.Shadow.Queue

/-!
# Workers of the SHADOW queue

`ShadowEventLoop.run_once` and the producers, as programs over the queue's transactions
and the runtime's calls. The runtime may answer anything: what is proved of the queue does
not depend on it. A worker can crash between any two operations.

The text of an exception, `repr(exc)`, is a parameter.
-/

namespace Greenfield.Shadow

open Keyed Py Effects

inductive ShadowIterationResult where
  | idle
  | processed
  | idempotentRecovery
  | retryScheduled
  | deadLettered
  deriving DecidableEq, Repr

/-- An acknowledgement and a retry are given the worker's item, of which they use the id. -/
inductive LoopOp where
  /-- `self._now_fn()`. -/
  | clock
  | enqueue (itemId payloadUri : String) (availableAtUtc : Datetime)
  | claim (nowUtc : Instant) (leaseSeconds : ℚ)
  | acknowledge (item : ShadowQueueItem) (completedAtUtc : Instant)
  | retryOrDeadLetter (item : ShadowQueueItem) (error : String) (failedAtUtc retryAtUtc : Instant)
      (maximumAttempts : Int)
  | recordSuccess (nowUtc : Instant)
  | recordFailure (nowUtc : Instant) (error : String)
  | recordHeartbeat (nowUtc : Instant)
  /-- `self.work_loader(payload_uri)`. -/
  | load (payloadUri : String)
  | observe (work : ShadowWork)
  /-- `self.runtime.journal.find(observation_id) is not None`. -/
  | find (observationId : String)
  | killSwitchActive
  | activateSafetyHold (observationId reason : String) (activatedAtUtc : Instant)
  | publish

abbrev LoopOp.Res : LoopOp → Type
  | .clock => Datetime
  | .enqueue .. => Bool
  | .claim .. => Option ShadowQueueItem
  | .retryOrDeadLetter .. => ShadowQueueStatus
  | .recordFailure .. => Nat
  | .load _ => ShadowWork
  | .find _ | .killSwitchActive => Bool
  | _ => Unit

abbrev LoopProg := Prog LoopOp LoopOp.Res PyError

/-- Do an operation and return its answer. -/
def act (o : LoopOp) : LoopProg o.Res := Prog.perform o

structure ShadowEventLoop where
  config : ShadowLoopConfig
  /-- `self.runtime.context.session_id`. -/
  sessionId : String
  /-- `self.health_publisher is not None`. -/
  publishes : Bool

/-! ## `run_once` -/

namespace ShadowEventLoop

variable (repr : PyError → String) (self : ShadowEventLoop)

/-- `_publish`. -/
def publish : LoopProg Unit := if self.publishes then act .publish else pure ()

/-- The wait before the next attempt. -/
def delay (item : ShadowQueueItem) : ℚ :=
  min (self.config.retryBaseSeconds * 2 ^ (item.attempts - 1)) self.config.retryMaxSeconds

/-- The safety hold of `_handle_failure`, unless the journal has it. -/
def hold (item : ShadowQueueItem) (now : Instant) (error : String) : LoopProg Unit := do
  let holdId := self.sessionId ++ ":loop-safety-hold:" ++ item.itemId ++ ":" ++
    toString item.attempts
  let held ← act (.find holdId)
  if held then pure ()
  else act (.activateSafetyHold holdId ("shadow event loop failure threshold: " ++ error) now)

/-- What `_handle_failure` returns. -/
def resultOf (status : ShadowQueueStatus) : ShadowIterationResult :=
  if status = .dead then .deadLettered else .retryScheduled

/-- `_handle_failure`. -/
def handleFailure (item : ShadowQueueItem) (now : Instant) (error : String) :
    LoopProg ShadowIterationResult := do
  let status ← act (.retryOrDeadLetter item error now
    (now + timedelta (self.delay item)) self.config.maximumAttempts)
  let consecutive ← act (.recordFailure now error)
  if (consecutive : Int) ≥ self.config.maximumConsecutiveFailures then do
    let active ← act .killSwitchActive
    if active then pure (resultOf status)
    else
      match ← (self.hold item now error).attempt with
      | .ok () => pure (resultOf status)
      | .error _ => .raise (.shadowLoopFatal "failed to persist shadow event-loop safety hold")
  else pure (resultOf status)

/-- The item is done. -/
def finish (item : ShadowQueueItem) (now : Instant) : LoopProg Unit := do
  act (.acknowledge item now)
  act (.recordSuccess now)

/-- What is done with a claimed item. -/
def process (item : ShadowQueueItem) (now : Instant) : LoopProg ShadowIterationResult := do
  match ← (act (.load item.payloadUri)).attempt with
  | .error e => self.handleFailure item now (repr e)
  | .ok work =>
    let observed : LoopProg Unit := do
      act (.observe work)
      finish item now
    match ← observed.attempt with
    | .ok () => pure .processed
    | .error (.shadowAudit msg) =>
      let recorded ← act (.find work.observationId)
      if recorded then do
        finish item now
        pure .idempotentRecovery
      else self.handleFailure item now (repr (.shadowAudit msg))
    | .error e => self.handleFailure item now (repr e)

def runOnce : LoopProg ShadowIterationResult := do
  let t ← act .clock
  let now ← Prog.lift (utc t "shadow loop clock")
  match ← act (.claim now self.config.leaseSeconds) with
  | none => do
    act (.recordHeartbeat now)
    self.publish
    pure .idle
  | some item => do
    let result ← self.process repr item now
    self.publish
    pure result

end ShadowEventLoop

/-- An iteration of a loop that `allowed` admits, or a producer that enqueues. -/
def Worker (repr : PyError → String) (allowed : ShadowEventLoop → Prop)
    (p : LoopProg ShadowIterationResult) : Prop :=
  (∃ self : ShadowEventLoop, allowed self ∧ p = self.runOnce repr) ∨
    ∃ itemId payloadUri available, p = do
      let _ ← act (.enqueue itemId payloadUri available)
      pure .idle

/-! ## Semantics -/

/-- The transaction of an operation on the queue. -/
def LoopOp.txn (q : DurableShadowQueue) :
    (o : LoopOp) → Option (Except PyError (o.Res × DurableShadowQueue))
  | .enqueue itemId payloadUri available => some (q.enqueue itemId payloadUri available)
  | .claim now lease => some (q.claim now lease)
  | .acknowledge item completed => some (q.acknowledge item.itemId completed)
  | .retryOrDeadLetter item error failedAt retryAt m =>
    some (q.retryOrDeadLetter item.itemId error failedAt retryAt m)
  | .recordSuccess now => some (q.recordSuccess now)
  | .recordFailure now error => some (q.recordFailure now error)
  | .recordHeartbeat now => some (q.recordHeartbeat now)
  | _ => none

/-- A transaction does what it does, or fails in the database and is rolled back. The
clock, the loader and the runtime answer anything. -/
def loopExec : Sem LoopOp LoopOp.Res PyError DurableShadowQueue := fun o q r q' =>
  match o.txn q with
  | some t => (r, q') = outcome t q ∨ q' = q ∧ ∃ msg, r = .error (.databaseError msg)
  | none => q' = q

/-- The item that a claim returned. -/
def claimed : (o : LoopOp) → Except PyError o.Res → Option ShadowQueueItem
  | .claim _ _, .ok x => x
  | _, _ => none

/-- The queue, with the items that were claimed, the last one first. -/
abbrev Claimed := DurableShadowQueue × List ShadowQueueItem

def claimedExec : Sem LoopOp LoopOp.Res PyError Claimed :=
  withGhost loopExec fun o _ r _ claims => (claimed o r).toList ++ claims

end Greenfield.Shadow
