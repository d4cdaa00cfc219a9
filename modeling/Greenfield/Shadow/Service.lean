import Greenfield.Shadow.Loop
import Greenfield.Shadow.Runtime

/-!
# The SHADOW service

One worker that runs `run_once` over and over on the queue, the runtime and the payload
store, as `run_shadow_service` of `src/execution/shadow_service.py` puts them together. The
process can crash at any point, also within an operation, whose writes are then made in
full, in part or not at all; a new process opens the journal and resumes. Producers
enqueue all the while. A payload is any work that the checks of the loader accept for its
URI, or none.
-/

namespace Greenfield.Shadow

open Keyed Py Risk Effects

/-! ## URIs -/

/-- `_OBSERVATION_ID_PATTERN.match(observation_id)`. Its `$` matches before a last line feed. -/
def isObservationId (observationId : String) : Bool :=
  let cs := observationId.toList
  match if cs.getLast? = some '\n' then cs.dropLast else cs with
  | [] => false
  | c :: cs => c.isAlphanum && cs.length ≤ 255 &&
      cs.all fun c => c.isAlphanum || ['.', '_', ':', '-'].contains c

def shadowWorkUriScheme : String := "shadow-work:"

/-- `build_shadow_work_uri`, or `none` where it raises. -/
def buildShadowWorkUri (observationId : String) : Option String :=
  if isObservationId observationId then some (shadowWorkUriScheme ++ observationId) else none

/-- `parse_shadow_work_uri`, or `none` where it raises. -/
def parseShadowWorkUri (uri : String) : Option String :=
  if startsWith uri shadowWorkUriScheme then
    let observationId := String.ofList (uri.toList.drop shadowWorkUriScheme.length)
    if isObservationId observationId then some observationId else none
  else none

/-- `enqueue_shadow_work`, once the payload is written. -/
def enqueueShadowWork (q : DurableShadowQueue) (work : ShadowWork) (availableAtUtc : Datetime) :
    Option (Except PyError (Bool × DurableShadowQueue)) := do
  let uri ← buildShadowWorkUri work.observationId
  some (q.enqueue work.observationId uri availableAtUtc)

/-! ## Operations -/

structure ShadowService where
  queue : DurableShadowQueue
  runtime : ShadowRuntime
  /-- The process has not crashed. -/
  alive : Bool

/-- Which calls of the runtime may happen: whether the process goes on, the runtime before, the
answer, and the runtime after. -/
abbrev Permit := Bool → ShadowRuntime → Except PyError ShadowAuditRecord → ShadowRuntime → Prop

section

variable (D : Digests) (F : Floats) (lower : String → String) (permit : Permit)

/-- A call of the runtime, whose writes may fail. -/
def ShadowService.calls (s : ShadowService) (goesOn : Bool) (c : RuntimeCall)
    (answer : Except PyError Unit) (s' : ShadowService) : Prop :=
  ∃ faults result runtime, s.runtime.call D F lower c faults = (result, runtime) ∧
    permit goesOn s.runtime result runtime ∧ answer = result.map (fun _ => ()) ∧
    s' = { s with runtime }

/-- What an operation does to the service. -/
def LoopOp.does (goesOn : Bool) (s : ShadowService) :
    (o : LoopOp) → Except PyError o.Res → ShadowService → Prop
  | .clock, _, s' => s' = s
  | .publish, _, s' => s' = s
  | .load uri, answer, s' => s' = s ∧
      ∀ work, answer = .ok work → parseShadowWorkUri uri = some work.observationId
  | .observe work, answer, s' => s.calls D F lower permit goesOn
      (.observe work.decision work.observationId work.proposals work.equity) answer s'
  | .find observationId, answer, s' => s' = s ∧
      (answer = (s.runtime.journal.find D F observationId).map Option.isSome ∨
        answer = .error .osError)
  | .killSwitchActive, answer, s' => s' = s ∧
      answer = .ok s.runtime.riskEngine.killSwitchReason.isSome
  | .activateSafetyHold observationId reason activatedAt, answer, s' =>
      s.calls D F lower permit goesOn
        (.activateSafetyHold observationId reason (.ofInstant activatedAt)) answer s'
  | o, answer, s' => ∃ queue, loopExec o s.queue answer queue ∧ s' = { s with queue }

/-- An operation is done, or the process crashes before it or in it. What a process would do
after its crash is not done. -/
def serviceExec : Sem LoopOp LoopOp.Res PyError ShadowService := fun o s answer s' =>
  if s.alive then
    o.does D F lower permit true s answer s' ∨ s' = { s with alive := false } ∨
      ∃ answer s₁, o.does D F lower permit false s answer s₁ ∧ s' = { s₁ with alive := false }
  else s' = s

/-- A producer enqueues. -/
def Enqueues (s s' : ShadowService) : Prop :=
  ∃ work available added queue,
    enqueueShadowWork s.queue work available = some (.ok (added, queue)) ∧ s' = { s with queue }

/-- The service, and what its process is still to do. -/
abbrev RunningService := ShadowService × LoopProg ShadowIterationResult

/-- The process has crashed, or has come to its end. -/
def Down (c : RunningService) : Prop :=
  c.1.alive = false ∨ (∃ result, c.2 = .ret result) ∨ ∃ err, c.2 = .raise err

inductive ServiceStep (repr : PyError → String) : RunningService → RunningService → Prop where
  | enqueue {s s' : ShadowService} {p : LoopProg ShadowIterationResult} (h : Enqueues s s') :
      ServiceStep repr (s, p) (s', p)
  | op {s s' : ShadowService} {o : LoopOp}
      {k : Except PyError o.Res → LoopProg ShadowIterationResult} {answer : Except PyError o.Res}
      (h : serviceExec D F lower permit o s answer s') :
      ServiceStep repr (s, .call o k) (s', k answer)
  /-- `run_until` goes on. -/
  | again {s : ShadowService} {result : ShadowIterationResult} (self : ShadowEventLoop) :
      ServiceStep repr (s, .ret result) (s, self.runOnce repr)
  /-- A new process opens the journal, and resumes. -/
  | restart {s : ShadowService} {p : LoopProg ShadowIterationResult}
      {context : ShadowSessionContext} {riskConfig : PortfolioRiskConfig} {runtime : ShadowRuntime}
      (self : ShadowEventLoop) (hdown : Down (s, p))
      (h : s.runtime.reopen D F context riskConfig = .ok runtime) :
      ServiceStep repr (s, p) ({ s with runtime, alive := true }, self.runOnce repr)

/-- A service that was set up with a new session and no items. -/
def startedService (runtime : ShadowRuntime) : RunningService :=
  ({ queue := {}, runtime, alive := true }, .ret .idle)

/-- The services that are reached. -/
def ServiceReach (repr : PyError → String) (c c' : RunningService) : Prop :=
  Relation.ReflTransGen (ServiceStep D F lower permit repr) c c'

end

end Greenfield.Shadow
