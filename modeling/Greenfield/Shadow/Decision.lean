import Greenfield.Risk.Portfolio

/-!
# Decisions of the Meta Engine

What the SHADOW runtime reads of `src/engines/contracts.py` and `src/engines/meta.py`. A
record whose constructor checks its fields has the check as a field.
-/

namespace Greenfield.Shadow

open Py Risk

inductive SetupAction where
  | long
  | short
  | wait
  | arbitrage
  deriving DecidableEq, Repr

def SetupAction.value : SetupAction → String
  | .long => "LONG"
  | .short => "SHORT"
  | .wait => "WAIT"
  | .arbitrage => "ARBITRAGE"

inductive LegSide where
  | buy
  | sell
  deriving DecidableEq, Repr

structure SetupLeg where
  symbol : String
  venue : String
  side : LegSide
  trimmed : symbol ≠ "" ∧ symbol = strip symbol ∧ venue ≠ "" ∧ venue = strip venue

/-- The action and the legs of a setup, with the tests that relate them. -/
structure SetupDecision where
  action : SetupAction
  legs : List SetupLeg
  executable : action = .wait ↔ legs = []
  long : action = .long → ∀ leg ∈ legs, leg.side = .buy
  short : action = .short → ∀ leg ∈ legs, leg.side = .sell
  arbitrage : action = .arbitrage →
    (∃ leg ∈ legs, leg.side = .buy) ∧ ∃ leg ∈ legs, leg.side = .sell

structure MetaDecision where
  action : SetupAction
  decisionTimestampUtc : Datetime
  selectedEngineId : Option String
  selectedSetup : Option SetupDecision
  allocatedNotional : ℚ
  reasonCodes : List String
  aware : decisionTimestampUtc.utcOffset ≠ none
  wait : action = .wait → selectedSetup = none ∧ selectedEngineId = none ∧ reasonCodes ≠ [] ∧
    allocatedNotional = 0
  actionable : action ≠ .wait → selectedEngineId ≠ none ∧ 0 < allocatedNotional ∧
    ∃ setup, selectedSetup = some setup ∧ setup.action = action

/-- A decision to wait. -/
def noEdgeDecision : MetaDecision where
  action := .wait
  decisionTimestampUtc := .ofInstant 0
  selectedEngineId := none
  selectedSetup := none
  allocatedNotional := 0
  reasonCodes := ["NO_EDGE"]
  aware := epoch_aware
  wait _ := ⟨rfl, rfl, List.cons_ne_nil _ _, rfl⟩
  actionable h := absurd rfl h

/-- What a worker loads for a queued item. -/
structure ShadowWork where
  observationId : String
  decision : MetaDecision
  proposals : List PortfolioEntryProposal
  equity : ℚ
  named : isBlank observationId = false
  positive : 0 < equity

end Greenfield.Shadow
