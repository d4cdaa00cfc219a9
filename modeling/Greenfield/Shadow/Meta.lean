import Greenfield.Risk.Limits
import Greenfield.Shadow.Decision
import Mathlib.Tactic.Linarith

/-!
# The Meta Engine

`evaluate_meta_candidates` of `src/engines/meta.py`: it ranks the setups that were approved and
selects the best one, with an allocation that is bounded by the setup's capacity and by what the
portfolio has left in total, for each symbol, and for the symbols that are correlated with it.
-/

namespace Greenfield.Shadow

open Py Risk

/-! ## Setups and candidates -/

structure NumericRange where
  low : ℚ
  base : ℚ
  high : ℚ
  ordered : low ≤ base ∧ base ≤ high

structure MarketTarget where
  symbol : String
  trimmed : symbol ≠ "" ∧ symbol = strip symbol

inductive DataQualityStatus where
  | pass
  | degraded
  | fail
  deriving DecidableEq, Repr

/-- What the Meta Engine reads of a `SetupDecision`. -/
structure EngineSetup extends SetupDecision where
  targets : List MarketTarget
  decisionTimestampUtc : Instant
  dataCutoffUtc : Instant
  expectedValueAfterCostBps : NumericRange
  capacityNotional : ℚ
  dataQualityStatus : DataQualityStatus
  cutoff : dataCutoffUtc ≤ decisionTimestampUtc
  targeted : targets ≠ []
  distinct : (targets.map (·.symbol)).Nodup
  /-- `every setup leg must belong to a declared market target`, read of the symbols. -/
  declared : ∀ leg ∈ legs, leg.symbol ∈ targets.map (·.symbol)
  capacity : 0 ≤ capacityNotional

inductive EngineKind where
  | directional
  | neutral
  | research
  deriving DecidableEq, Repr

/-- `engine_kind.value.lower()`. -/
def EngineKind.lowerValue : EngineKind → String
  | .directional => "directional"
  | .neutral => "neutral"
  | .research => "research"

structure EngineCandidate where
  engineId : String
  engineKind : EngineKind
  setup : EngineSetup
  researchApproved : Bool
  named : isBlank engineId = false

structure CorrelationPair where
  firstSymbol : String
  secondSymbol : String
  correlation : ℚ
  named : isBlank firstSymbol = false ∧ isBlank secondSymbol = false
  distinct : firstSymbol ≠ secondSymbol
  bounded : -1 ≤ correlation ∧ correlation ≤ 1

/-- `{pair.first_symbol, pair.second_symbol} == {first, second}`. -/
def CorrelationPair.isOf (pair : CorrelationPair) (first second : String) : Bool :=
  (pair.firstSymbol = first ∧ pair.secondSymbol = second) ∨
    (pair.firstSymbol = second ∧ pair.secondSymbol = first)

structure MetaPortfolioState where
  grossExposureNotional : ℚ
  exposureBySymbol : List (String × ℚ)
  correlations : List CorrelationPair
  availableRiskNotional : ℚ
  killSwitchActive : Bool
  operationalHealthy : Bool
  portfolioRiskApproved : Bool
  riskReason : String
  magnitudes : 0 ≤ grossExposureNotional ∧ 0 ≤ availableRiskNotional ∧
    ∀ entry ∈ exposureBySymbol, 0 ≤ entry.2
  symbols : (exposureBySymbol.map (·.1)).Nodup ∧
    ∀ entry ∈ exposureBySymbol, isBlank entry.1 = false
  pairs : correlations.Pairwise fun a b => a.isOf b.firstSymbol b.secondSymbol = false
  reasoned : isBlank riskReason = false

/-- `dict(portfolio.exposure_by_symbol).get(symbol, 0.0)`. -/
def MetaPortfolioState.exposure (portfolio : MetaPortfolioState) (symbol : String) : ℚ :=
  (portfolio.exposureBySymbol.lookup symbol).getD 0

structure MetaEngineConfig where
  maximumSetupAgeSeconds : ℚ := 30
  maximumGrossExposureNotional : ℚ := 1000000
  maximumSymbolExposureNotional : ℚ := 300000
  maximumCorrelatedExposureNotional : ℚ := 500000
  correlationThreshold : ℚ := 7 / 10
  uncertaintyPenalty : ℚ := 1 / 2
  positive : ∀ v ∈ [maximumSetupAgeSeconds, maximumGrossExposureNotional,
    maximumSymbolExposureNotional, maximumCorrelatedExposureNotional], 0 < v := by decide +kernel
  threshold : 0 ≤ correlationThreshold ∧ correlationThreshold ≤ 1 := by decide +kernel
  penalty : 0 ≤ uncertaintyPenalty := by decide +kernel

structure CandidateRanking where
  engineId : String
  engineKind : EngineKind
  action : SetupAction
  eligible : Bool
  score : Option ℚ
  maximumAllocationNotional : ℚ
  reason : String

/-- A decision, with the tests of its constructor. -/
def makeDecision (action : SetupAction) (decision : Instant) (selectedEngineId : Option String)
    (selectedSetup : Option SetupDecision) (allocatedNotional : ℚ) (reasonCodes : List String) :
    Except PyError MetaDecision :=
  if hwait : action = .wait then
    if h : selectedSetup = none ∧ selectedEngineId = none then
      if h' : reasonCodes ≠ [] ∧ allocatedNotional = 0 then
        .ok ⟨action, .ofInstant decision, selectedEngineId, selectedSetup, allocatedNotional,
          reasonCodes, Option.some_ne_none _, fun _ => ⟨h.1, h.2, h'⟩, fun hne => absurd hwait hne⟩
      else .error (.valueError "WAIT Meta Decision requires reasons and zero allocation")
    else .error (.valueError "WAIT Meta Decision cannot select a setup")
  else
    match selectedEngineId, selectedSetup with
    | some engineId, some setup =>
      if h : setup.action = action ∧ 0 < allocatedNotional then
        .ok ⟨action, .ofInstant decision, some engineId, some setup, allocatedNotional,
          reasonCodes, Option.some_ne_none _, fun heq => absurd heq hwait,
          fun _ => ⟨Option.some_ne_none _, h.2, setup, rfl, h.1⟩⟩
      else .error (.valueError "Meta Decision cannot alter action or allocate zero")
    | _, _ => .error (.valueError "actionable Meta Decision requires a selected setup")

/-! ## Allocation -/

/-- `_correlation`. -/
def correlation (first second : String) (pairs : List CorrelationPair) : ℚ :=
  ((pairs.find? (·.isOf first second)).map (·.correlation)).getD 0

/-- The exposure that is correlated with `symbol`. -/
def correlatedExposure (portfolio : MetaPortfolioState) (config : MetaEngineConfig)
    (symbol : String) : ℚ :=
  ((portfolio.exposureBySymbol.filter fun (existing, _) => existing ≠ symbol ∧
    config.correlationThreshold ≤ |correlation symbol existing portfolio.correlations|).map
      (·.2)).sum

/-- `_maximum_allocation`. -/
def maximumAllocation (setup : EngineSetup) (portfolio : MetaPortfolioState)
    (config : MetaEngineConfig) : ℚ :=
  let allocation := min (min setup.capacityNotional portfolio.availableRiskNotional)
    (max 0 (config.maximumGrossExposureNotional - portfolio.grossExposureNotional))
  let symbols := setup.targets.map (·.symbol)
  let count : ℚ := symbols.length
  let perSymbolRequested := allocation / count
  let room := fun symbol => max 0 (config.maximumSymbolExposureNotional - portfolio.exposure symbol)
  let correlatedRoom := fun symbol =>
    max 0 (config.maximumCorrelatedExposureNotional - correlatedExposure portfolio config symbol)
  let perSymbolRoom := (symbols.map room).foldl min (room (symbols.headD ""))
  let allocation := min allocation (perSymbolRoom * count)
  let allocation := (symbols.map fun symbol => correlatedRoom symbol * count).foldl min allocation
  if perSymbolRequested ≤ 0 then 0 else allocation

/-- `_correlation_coverage_complete`. -/
def correlationCoverageComplete (setup : EngineSetup) (portfolio : MetaPortfolioState) : Bool :=
  let symbols := setup.targets.map (·.symbol)
  symbols.all fun target => portfolio.exposureBySymbol.all fun (existing, amount) =>
    symbols.contains existing || amount = 0 || portfolio.correlations.any (·.isOf target existing)

/-! ## Ranking -/

/-- `_ineligible`. -/
def ineligible (candidate : EngineCandidate) (reason : String) : CandidateRanking :=
  ⟨candidate.engineId, candidate.engineKind, candidate.setup.action, false, none, 0, reason⟩

/-- `_rank_candidate`. -/
def rankCandidate (decision : Instant) (portfolio : MetaPortfolioState) (config : MetaEngineConfig)
    (candidate : EngineCandidate) : CandidateRanking :=
  let setup := candidate.setup
  let age : ℚ := (decision - setup.dataCutoffUtc : Int) / microsPerSecond
  let allocation := maximumAllocation setup portfolio config
  let value := setup.expectedValueAfterCostBps
  let score := value.base - config.uncertaintyPenalty * ((value.high - value.low) / 2)
  if setup.action = .wait then ineligible candidate "ENGINE_RETURNED_WAIT"
  else if !candidate.researchApproved then ineligible candidate "RESEARCH_PROMOTION_NOT_APPROVED"
  else if setup.dataQualityStatus ≠ .pass then ineligible candidate "SETUP_DATA_QUALITY_NOT_PASS"
  else if decision < setup.decisionTimestampUtc then ineligible candidate "SETUP_FROM_FUTURE"
  else if age < 0 then ineligible candidate "SETUP_FROM_FUTURE"
  else if config.maximumSetupAgeSeconds < age then ineligible candidate "STALE_SETUP"
  else if !correlationCoverageComplete setup portfolio then
    ineligible candidate "MISSING_CORRELATION_EVIDENCE"
  else if allocation ≤ 0 then ineligible candidate "PORTFOLIO_EXPOSURE_LIMIT"
  else if score ≤ 0 ∨ value.low ≤ 0 then ineligible candidate "NON_POSITIVE_RISK_ADJUSTED_EDGE"
  else ⟨candidate.engineId, candidate.engineKind, setup.action, true, some score, allocation,
    "ELIGIBLE"⟩

/-- `_has_directional_conflict`: a symbol that is targeted by a `LONG` and by a `SHORT`. -/
def hasDirectionalConflict (eligible : List (EngineCandidate × CandidateRanking)) : Bool :=
  eligible.any fun a => eligible.any fun b => a.2.action = .long ∧ b.2.action = .short ∧
    (a.1.setup.targets.map (·.symbol)).any ((b.1.setup.targets.map (·.symbol)).contains ·)

/-- `_global_gate_reason`. -/
def globalGateReason (portfolio : MetaPortfolioState) : Option String :=
  if portfolio.killSwitchActive then some "GLOBAL_KILL_SWITCH_ACTIVE"
  else if !portfolio.operationalHealthy then some "GLOBAL_OPERATIONAL_HEALTH_FAILED"
  else if !portfolio.portfolioRiskApproved then
    some ("GLOBAL_RISK_REJECTED:" ++ portfolio.riskReason)
  else if portfolio.availableRiskNotional ≤ 0 then some "NO_AVAILABLE_PORTFOLIO_RISK"
  else none

/-- `_wait`. -/
def waitDecision (decision : Instant) (reason : String) : Except PyError MetaDecision :=
  makeDecision .wait decision none none 0 [reason]

/-- The order of the ranks: the greater score first, and then the identifier. -/
def ranksBefore (a b : EngineCandidate × CandidateRanking) : Bool :=
  let scoreOf (r : CandidateRanking) : ℚ := r.score.getD 0
  scoreOf b.2 < scoreOf a.2 ∨ (scoreOf a.2 = scoreOf b.2 ∧ a.2.engineId ≤ b.2.engineId)

/-- `evaluate_meta_candidates`, with the candidate that it selects. -/
def evaluateMetaCandidates (candidates : List EngineCandidate) (decisionTimestampUtc : Datetime)
    (portfolio : MetaPortfolioState) (config : MetaEngineConfig) :
    Except PyError (MetaDecision × Option EngineCandidate) := do
  let decision ← utc decisionTimestampUtc "meta decision timestamp"
  require ((candidates.map (·.engineId)).Nodup)
    (.valueError "Meta Engine candidate ids must be unique")
  match globalGateReason portfolio with
  | some reason => return (← waitDecision decision reason, none)
  | none =>
    let ranked := candidates.map fun candidate =>
      (candidate, rankCandidate decision portfolio config candidate)
    let eligible := ranked.filter (·.2.eligible)
    match (sorted ranksBefore eligible).head? with
    | none => return (← waitDecision decision "NO_ELIGIBLE_ENGINE_SETUP", none)
    | some (selected, rank) =>
      if hasDirectionalConflict eligible then
        return (← waitDecision decision "CONFLICTING_DIRECTIONAL_SETUPS", none)
      else
        return (← makeDecision selected.setup.action decision (some selected.engineId)
          (some selected.setup.toSetupDecision) rank.maximumAllocationNotional
          ["BEST_ELIGIBLE_EDGE_AFTER_COST_AND_UNCERTAINTY"], some selected)

/-! ## What an allocation leaves -/

theorem foldl_min_le_init (l : List ℚ) (a : ℚ) : l.foldl min a ≤ a := by
  induction l generalizing a with
  | nil => exact le_refl a
  | cons y ys ih => exact (ih _).trans (min_le_left a y)

variable {portfolio : MetaPortfolioState} {config : MetaEngineConfig}

/-- A positive allocation fits the gross exposure, and its share of each symbol fits the
exposure of the symbol. -/
theorem maximumAllocation_fits {setup : EngineSetup}
    (hpos : 0 < maximumAllocation setup portfolio config) :
    portfolio.grossExposureNotional + maximumAllocation setup portfolio config ≤
        config.maximumGrossExposureNotional ∧
      ∀ symbol ∈ setup.targets.map (·.symbol),
        portfolio.exposure symbol + maximumAllocation setup portfolio config /
          (setup.targets.length : ℚ) ≤ config.maximumSymbolExposureNotional := by
  have hcount : (0 : ℚ) < (setup.targets.length : ℚ) := by
    exact_mod_cast List.length_pos_iff.mpr setup.targeted
  unfold maximumAllocation at hpos ⊢
  simp only [List.length_map] at hpos ⊢
  split at hpos
  · exact absurd hpos (lt_irrefl 0)
  · next hrequested =>
    rw [if_neg hrequested]
    set gross := max 0 (config.maximumGrossExposureNotional - portfolio.grossExposureNotional)
      with hgross
    set base := min (min setup.capacityNotional portfolio.availableRiskNotional) gross with hbase
    set room := fun symbol =>
      max 0 (config.maximumSymbolExposureNotional - portfolio.exposure symbol) with hroom
    set perSymbol := ((setup.targets.map (·.symbol)).map room).foldl min
      (room ((setup.targets.map (·.symbol)).headD "")) with hper
    have hle := foldl_min_le_init ((setup.targets.map (·.symbol)).map fun symbol =>
      max 0 (config.maximumCorrelatedExposureNotional -
        correlatedExposure portfolio config symbol) * (setup.targets.length : ℚ))
      (min base (perSymbol * (setup.targets.length : ℚ)))
    set allocation := List.foldl min (min base (perSymbol * (setup.targets.length : ℚ)))
      ((setup.targets.map (·.symbol)).map fun symbol =>
        max 0 (config.maximumCorrelatedExposureNotional -
          correlatedExposure portfolio config symbol) * (setup.targets.length : ℚ))
    constructor
    · have hmax : allocation ≤ gross := hle.trans ((min_le_left _ _).trans (min_le_right _ _))
      rcases le_max_iff.mp hmax with h | h
      · linarith
      · linarith
    · intro symbol hsymbol
      have hshare : allocation / (setup.targets.length : ℚ) ≤ room symbol := by
        rw [div_le_iff₀ hcount]
        refine (hle.trans (min_le_right _ _)).trans ?_
        exact mul_le_mul_of_nonneg_right
          (PortfolioRiskEngine.foldl_min_le (List.mem_map_of_mem hsymbol)) hcount.le
      have hsharePos : 0 < allocation / (setup.targets.length : ℚ) := div_pos hpos hcount
      rcases le_max_iff.mp hshare with h | h
      · linarith
      · linarith

theorem rankCandidate_cases (decision : Instant) (portfolio : MetaPortfolioState)
    (config : MetaEngineConfig) (candidate : EngineCandidate) :
    (∃ reason, rankCandidate decision portfolio config candidate = ineligible candidate reason) ∨
      (rankCandidate decision portfolio config candidate).maximumAllocationNotional =
        maximumAllocation candidate.setup portfolio config ∧ candidate.setup.action ≠ .wait := by
  unfold rankCandidate
  simp only
  split
  · exact .inl ⟨_, rfl⟩
  · next haction =>
    -- each further test makes the candidate ineligible, and the last branch is the eligible one
    repeat' split
    all_goals first
      | exact .inl ⟨_, rfl⟩
      | exact .inr ⟨rfl, haction⟩

/-- A candidate that is eligible has its allocation. -/
theorem rankCandidate_eligible {decision : Instant}
    {candidate : EngineCandidate}
    (h : (rankCandidate decision portfolio config candidate).eligible = true) :
    (rankCandidate decision portfolio config candidate).maximumAllocationNotional =
        maximumAllocation candidate.setup portfolio config ∧ candidate.setup.action ≠ .wait := by
  rcases rankCandidate_cases decision portfolio config candidate with ⟨reason, hreason⟩ | hranked
  · rw [hreason] at h
    cases h
  · exact hranked

variable {decision : MetaDecision}

variable {action : SetupAction} {at' : Instant} {notional : ℚ} {reasons : List String}

/-- What the constructor checks of an actionable decision. -/
theorem makeDecision_eq_ok {engineId : String}
    {setup : SetupDecision}
    (hne : action ≠ .wait)
    (h : makeDecision action at' (some engineId) (some setup) notional reasons = .ok decision) :
    decision.action = action ∧ decision.selectedSetup = some setup ∧
      decision.selectedEngineId = some engineId ∧ decision.allocatedNotional = notional ∧
      decision.decisionTimestampUtc = .ofInstant at' ∧ 0 < notional := by
  unfold makeDecision at h
  rw [dif_neg hne] at h
  simp only at h
  split at h
  · next hchecked =>
    cases h
    exact ⟨rfl, rfl, rfl, rfl, rfl, hchecked.2⟩
  · cases h

theorem makeDecision_action {engineId : Option String}
    {setup : Option SetupDecision}
    (h : makeDecision action at' engineId setup notional reasons = .ok decision) :
    decision.action = action := by
  unfold makeDecision at h
  repeat' split at h
  all_goals cases h
  all_goals rfl

variable {candidates : List EngineCandidate} {decisionTimestampUtc : Datetime}

/-- Without a candidate the decision is to wait. -/
theorem evaluateMetaCandidates_none
    (h : evaluateMetaCandidates candidates decisionTimestampUtc portfolio config =
      .ok (decision, none)) : decision.action = .wait := by
  unfold evaluateMetaCandidates at h
  obtain ⟨at', -, h⟩ := bind_eq_ok.mp h
  obtain ⟨-, -, h⟩ := bind_eq_ok.mp h
  split at h
  · obtain ⟨d, hd, h⟩ := bind_eq_ok.mp h
    cases h
    exact makeDecision_action hd
  · simp only at h
    split at h
    · obtain ⟨d, hd, h⟩ := bind_eq_ok.mp h
      cases h
      exact makeDecision_action hd
    · split at h
      · obtain ⟨d, hd, h⟩ := bind_eq_ok.mp h
        cases h
        exact makeDecision_action hd
      · obtain ⟨d, -, h⟩ := bind_eq_ok.mp h
        cases h

/-- What an actionable decision is: of a candidate, with its allocation. -/
theorem evaluateMetaCandidates_selected
    {selected : EngineCandidate}
    (h : evaluateMetaCandidates candidates decisionTimestampUtc portfolio config =
      .ok (decision, some selected)) :
    selected ∈ candidates ∧ decision.action = selected.setup.action ∧
      decision.selectedSetup = some selected.setup.toSetupDecision ∧
      decision.allocatedNotional = maximumAllocation selected.setup portfolio config ∧
      0 < decision.allocatedNotional := by
  unfold evaluateMetaCandidates at h
  obtain ⟨at', -, h⟩ := bind_eq_ok.mp h
  obtain ⟨-, -, h⟩ := bind_eq_ok.mp h
  split at h
  · obtain ⟨d, -, h⟩ := bind_eq_ok.mp h
    cases h
  · simp only at h
    split at h
    · obtain ⟨d, -, h⟩ := bind_eq_ok.mp h
      cases h
    · next candidate rank hhead =>
      split at h
      · obtain ⟨d, -, h⟩ := bind_eq_ok.mp h
        cases h
      · obtain ⟨d, hd, h⟩ := bind_eq_ok.mp h
        cases h
        have hmem := mem_sorted.mp (List.mem_of_head? hhead)
        obtain ⟨hranked, heligible⟩ := List.mem_filter.mp hmem
        obtain ⟨c, hc, heq⟩ := List.mem_map.mp hranked
        cases heq
        obtain ⟨hallocation, hne⟩ := rankCandidate_eligible heligible
        obtain ⟨haction, hsetup, -, hnotional, -, hpos⟩ := makeDecision_eq_ok hne hd
        rw [hallocation] at hnotional hpos
        exact ⟨hc, haction, hsetup, hnotional, hnotional ▸ hpos⟩

end Greenfield.Shadow
