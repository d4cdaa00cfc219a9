import Greenfield.Shadow.Meta
import Mathlib.Algebra.Order.BigOperators.Group.List
import Mathlib.Tactic.Ring

/-!
# The SHADOW producer

`produce` of `src/execution/shadow_producer.py`, up to the work that it enqueues. The allocation
is divided between the legs of a directional setup, and every leg of an arbitrage has all of it.
So the legs of a directional setup fit the gross exposure together, and those of an arbitrage
each for itself (`producer_allocations`, `arbitrage_exceeds`).
-/

namespace Greenfield.Shadow

open Py Risk

structure ShadowProducerConfig where
  committedRiskFractionPerLeg : ℚ := 5 / 1000
  /-- `meta`. -/
  engine : MetaEngineConfig := {}
  risk : 0 < committedRiskFractionPerLeg ∧ committedRiskFractionPerLeg ≤ 1 := by decide +kernel

/-- A proposal, with the tests of its constructor. -/
def makeProposal (key symbol venue strategy engine : String)
    (signedNotional committedRiskFraction : ℚ)
    (correlationCheckedSymbols correlatedSymbols : List String) (proposedAtUtc : Datetime) :
    Except PyError PortfolioEntryProposal :=
  if identifiers : ∀ v ∈ [key, symbol, venue, strategy, engine], isBlank v = false then
    if notional : signedNotional ≠ 0 then
      if risk : 0 < committedRiskFraction ∧ committedRiskFraction ≤ 1 then
        if unique : correlationCheckedSymbols.Nodup then
          if unique' : correlatedSymbols.Nodup then
            if covered : ∀ s ∈ correlatedSymbols, s ∈ correlationCheckedSymbols then
              if other : symbol ∉ correlationCheckedSymbols ∧ symbol ∉ correlatedSymbols then
                if aware : proposedAtUtc.utcOffset ≠ none then
                  .ok ⟨key, symbol, venue, strategy, engine, signedNotional,
                    committedRiskFraction, correlationCheckedSymbols, correlatedSymbols,
                    proposedAtUtc, identifiers, notional, risk, ⟨unique, unique'⟩, covered, other,
                    aware⟩
                else .error (.valueError "proposal timestamp must be timezone-aware")
              else .error (.valueError "proposal symbol must not appear in correlation evidence")
            else .error (.valueError
              "correlated symbols must be covered by correlation evidence")
          else .error (.valueError "portfolio proposal correlated symbols must be unique")
        else .error (.valueError "correlation checked symbols must be unique")
      else .error (.valueError "portfolio proposal committed risk must be positive")
    else .error (.valueError "portfolio proposal notional must be finite and non-zero")
  else .error (.valueError "portfolio proposal identifiers must be non-empty")

/-- `tuple(sorted((symbols | existing) - {symbol}))`. -/
def checkedSymbols (setup : SetupDecision) (portfolio : MetaPortfolioState) (symbol : String) :
    List String :=
  let existing := (portfolio.exposureBySymbol.filter fun (_, amount) => 0 < amount).map (·.1)
  sorted (fun a b => decide (a ≤ b))
    ((setup.legs.map (·.symbol) ++ existing).dedup.filter (· ≠ symbol))

/-- `per_leg_notional`. -/
def perLegNotional (decision : MetaDecision) (setup : SetupDecision) : ℚ :=
  if decision.action = .arbitrage then decision.allocatedNotional
  else decision.allocatedNotional / setup.legs.length

/-- `_build_proposals`. -/
def buildProposals (observationId : String) (decision : MetaDecision) (candidate : EngineCandidate)
    (portfolio : MetaPortfolioState) (committedRiskFraction correlationThreshold : ℚ) :
    Except PyError (List PortfolioEntryProposal) :=
  match decision.selectedSetup, decision.selectedEngineId with
  | some setup, some engineId =>
    let pairOf (symbol other : String) := portfolio.correlations.find? (·.isOf symbol other)
    if setup.legs.any fun leg => (checkedSymbols setup portfolio leg.symbol).any fun other =>
      (pairOf leg.symbol other).isNone then .ok []
    else
      setup.legs.zipIdx.mapM fun (leg, index) =>
        let checked := checkedSymbols setup portfolio leg.symbol
        makeProposal (observationId ++ ":leg-" ++ toString index) leg.symbol leg.venue engineId
          candidate.engineKind.lowerValue
          (if leg.side = .buy then perLegNotional decision setup
            else -perLegNotional decision setup)
          committedRiskFraction checked
          (checked.filter fun other => (pairOf leg.symbol other).any fun pair =>
            correlationThreshold ≤ |pair.correlation|)
          decision.decisionTimestampUtc
  | _, _ => .error (.valueError "actionable Meta decision must contain its selected setup")

/-- The work, with the tests of its constructor. -/
def makeWork (observationId : String) (decision : MetaDecision)
    (proposals : List PortfolioEntryProposal) (equity : ℚ) : Except PyError ShadowWork :=
  if named : isBlank observationId = false then
    if positive : 0 < equity then
      .ok ⟨observationId, decision, proposals, equity, named, positive⟩
    else .error (.valueError "shadow work equity must be finite and positive")
  else .error (.valueError "shadow work requires an observation id")

/-- `ShadowDecisionProducer.produce`, up to the work that it enqueues. -/
def produce (config : ShadowProducerConfig) (observationId : String)
    (candidates : List EngineCandidate) (portfolio : MetaPortfolioState)
    (decisionTimestampUtc producedAtUtc : Datetime) (equity : ℚ) : Except PyError ShadowWork := do
  let decisionAt ← utc decisionTimestampUtc "shadow decision timestamp"
  let producedAt ← utc producedAtUtc "shadow produced timestamp"
  require (decisionAt ≤ producedAt)
    (.valueError "shadow work cannot be produced before its decision")
  require (0 < equity) (.valueError "shadow producer equity must be finite and positive")
  match ← evaluateMetaCandidates candidates (.ofInstant decisionAt) portfolio config.engine with
  | (decision, none) => makeWork observationId decision [] equity
  | (decision, some candidate) =>
    let proposals ← buildProposals observationId decision candidate portfolio
      config.committedRiskFractionPerLeg config.engine.correlationThreshold
    if proposals.isEmpty then
      let wait ← makeDecision .wait decisionAt none none 0
        ["MISSING_PROPOSAL_CORRELATION_EVIDENCE"]
      makeWork observationId wait [] equity
    else makeWork observationId decision proposals equity

/-! ## Proposals -/

/-- The notional of the proposals for a symbol. -/
def symbolNotional (proposals : List PortfolioEntryProposal) (symbol : String) : ℚ :=
  ((proposals.filter fun p => p.symbol = symbol).map fun p => |p.signedNotional|).sum

def totalNotional (proposals : List PortfolioEntryProposal) : ℚ :=
  (proposals.map fun p => |p.signedNotional|).sum

theorem makeProposal_eq_ok {key symbol venue strategy engine : String} {notional risk : ℚ}
    {checked correlated : List String} {proposedAt : Datetime} {p : PortfolioEntryProposal}
    (h : makeProposal key symbol venue strategy engine notional risk checked correlated proposedAt =
      .ok p) : p.key = key ∧ p.symbol = symbol ∧ p.venue = venue ∧ p.signedNotional = notional ∧
      p.proposedAtUtc = proposedAt := by
  unfold makeProposal at h
  repeat' split at h
  all_goals cases h
  exact ⟨rfl, rfl, rfl, rfl, rfl⟩

variable {observationId : String} {decision : MetaDecision}
  {proposals : List PortfolioEntryProposal}

variable {equity : ℚ} {work : ShadowWork}

theorem makeWork_eq_ok
    (h : makeWork observationId decision proposals equity = .ok work) :
    work.decision = decision ∧ work.proposals = proposals := by
  unfold makeWork at h
  repeat' split at h
  all_goals cases h
  exact ⟨rfl, rfl⟩

/-- The key, the symbol, the venue, the notional and the time of a proposal. -/
def proposalTerms (p : PortfolioEntryProposal) :
    String × String × String × ℚ × Datetime :=
  (p.key, p.symbol, p.venue, p.signedNotional, p.proposedAtUtc)

/-- The terms of the proposal for the leg at `index`. -/
def legTerms (observationId : String) (decision : MetaDecision) (setup : SetupDecision) :
    SetupLeg × Nat → String × String × String × ℚ × Datetime
  | (leg, index) => (observationId ++ ":leg-" ++ toString index, leg.symbol, leg.venue,
      (if leg.side = .buy then perLegNotional decision setup else -perLegNotional decision setup),
      decision.decisionTimestampUtc)

variable {portfolio : MetaPortfolioState}

variable {candidate : EngineCandidate} {risk threshold : ℚ} {setup : SetupDecision}

/-- The proposals are those of the legs, in their order. -/
theorem buildProposals_terms
    (hsetup : decision.selectedSetup = some setup)
    (h : buildProposals observationId decision candidate portfolio risk threshold = .ok proposals)
    (hne : proposals ≠ []) :
    proposals.map proposalTerms = setup.legs.zipIdx.map (legTerms observationId decision setup) := by
  unfold buildProposals at h
  rw [hsetup] at h
  split at h
  · next s engineId heq _ =>
    cases heq
    simp only at h
    split at h
    · cases h
      exact absurd rfl hne
    · apply map_of_mapM ?_ h
      rintro ⟨leg, index⟩ p hp
      obtain ⟨hkey, hsymbol, hvenue, hnotional, hat⟩ := makeProposal_eq_ok hp
      rw [proposalTerms, hkey, hsymbol, hvenue, hnotional, hat]
      rfl
  · cases h

theorem perLegNotional_nonneg (setup : SetupDecision)
    (hpos : 0 < decision.allocatedNotional) : 0 ≤ perLegNotional decision setup := by
  unfold perLegNotional
  split
  · exact hpos.le
  · exact div_nonneg hpos.le (Nat.cast_nonneg _)

/-- The proposals have the symbols of the legs, with the notional of a leg. -/
theorem buildProposals_eq_ok
    (hsetup : decision.selectedSetup = some setup) (hpos : 0 < decision.allocatedNotional)
    (h : buildProposals observationId decision candidate portfolio risk threshold = .ok proposals)
    (hne : proposals ≠ []) :
    proposals.map (fun p => (p.symbol, |p.signedNotional|)) =
      setup.legs.map fun leg => (leg.symbol, perLegNotional decision setup) := by
  have hleg := perLegNotional_nonneg setup hpos
  have hterms := congrArg (List.map fun t : String × String × String × ℚ × Datetime =>
    (t.2.1, |t.2.2.2.1|)) (buildProposals_terms hsetup h hne)
  rw [List.map_map, List.map_map] at hterms
  refine hterms.trans ?_
  conv_rhs => rw [← List.zipIdx_map_fst 0 setup.legs, List.map_map]
  refine List.map_congr_left fun x _ => ?_
  show (x.1.symbol, |if x.1.side = .buy then _ else _|) = (x.1.symbol, _)
  by_cases hside : x.1.side = .buy
  · rw [if_pos hside, abs_of_nonneg hleg]
  · rw [if_neg hside, abs_neg, abs_of_nonneg hleg]

/-- What the producer enqueues: a decision to wait, or that of a candidate with its proposals. -/
theorem produce_eq_ok {config : ShadowProducerConfig}
    {candidates : List EngineCandidate}
    {decisionTimestampUtc producedAtUtc : Datetime}
    (h : produce config observationId candidates portfolio decisionTimestampUtc producedAtUtc
      equity = .ok work) :
    (work.decision.action = .wait ∧ work.proposals = []) ∨ ∃ candidate ∈ candidates,
      work.decision.selectedSetup = some candidate.setup.toSetupDecision ∧
      work.decision.action = candidate.setup.action ∧
      work.decision.allocatedNotional = maximumAllocation candidate.setup portfolio config.engine ∧
      0 < work.decision.allocatedNotional ∧
      buildProposals observationId work.decision candidate portfolio
        config.committedRiskFractionPerLeg config.engine.correlationThreshold =
          .ok work.proposals ∧
      work.proposals ≠ [] := by
  unfold produce at h
  obtain ⟨decisionAt, -, h⟩ := bind_eq_ok.mp h
  obtain ⟨producedAt, -, h⟩ := bind_eq_ok.mp h
  obtain ⟨-, -, h⟩ := bind_eq_ok.mp h
  obtain ⟨-, -, h⟩ := bind_eq_ok.mp h
  obtain ⟨⟨decision, selected⟩, hevaluated, h⟩ := bind_eq_ok.mp h
  cases selected with
  | none =>
    obtain ⟨hdecision, hnil⟩ := makeWork_eq_ok h
    exact .inl ⟨hdecision ▸ evaluateMetaCandidates_none hevaluated, hnil⟩
  | some candidate =>
    obtain ⟨proposals, hproposals, h⟩ := bind_eq_ok.mp h
    split at h
    · obtain ⟨wait, hwait, h⟩ := bind_eq_ok.mp h
      obtain ⟨hdecision, hnil⟩ := makeWork_eq_ok h
      exact .inl ⟨hdecision ▸ makeDecision_action hwait, hnil⟩
    · next hne =>
      obtain ⟨hdecision, heq⟩ := makeWork_eq_ok h
      obtain ⟨hmem, haction, hsetup, hnotional, hpos⟩ := evaluateMetaCandidates_selected hevaluated
      rw [← hdecision] at haction hsetup hnotional hpos hproposals
      refine .inr ⟨candidate, hmem, hsetup, haction, hnotional, hpos, heq ▸ hproposals, ?_⟩
      rw [heq]
      exact fun hnil => hne (hnil ▸ rfl)

/-! ## The caps -/

/-- How the proposals for a setup stay within the caps that its allocation was sized against. -/
structure WithinCaps (config : MetaEngineConfig) (portfolio : MetaPortfolioState)
    (setup : EngineSetup) (allocated : ℚ) (proposals : List PortfolioEntryProposal) : Prop where
  legs : proposals.map (·.symbol) = setup.legs.map (·.symbol)
  notional : ∀ p ∈ proposals, |p.signedNotional| =
    if setup.action = .arbitrage then allocated else allocated / setup.legs.length
  gross : setup.action ≠ .arbitrage →
    portfolio.grossExposureNotional + totalNotional proposals ≤ config.maximumGrossExposureNotional
  legGross : ∀ p ∈ proposals,
    portfolio.grossExposureNotional + |p.signedNotional| ≤ config.maximumGrossExposureNotional
  share : ∀ symbol ∈ setup.targets.map (·.symbol),
    portfolio.exposure symbol + allocated / setup.targets.length ≤
      config.maximumSymbolExposureNotional
  /-- The legs of a symbol have no more than the equal share of the symbol. -/
  symbols : setup.action ≠ .arbitrage → ∀ symbol ∈ setup.targets.map (·.symbol),
    (setup.legs.map (·.symbol)).count symbol * setup.targets.length ≤ setup.legs.length →
    portfolio.exposure symbol + symbolNotional proposals symbol ≤
      config.maximumSymbolExposureNotional

variable {n : ℚ}

theorem totalNotional_eq
    (h : ∀ p ∈ proposals, |p.signedNotional| = n) :
    totalNotional proposals = proposals.length * n := by
  unfold totalNotional
  rw [List.map_congr_left h, List.map_const', List.sum_replicate, nsmul_eq_mul]

theorem symbolNotional_eq
    (h : ∀ p ∈ proposals, |p.signedNotional| = n) (symbol : String) :
    symbolNotional proposals symbol = (proposals.map (·.symbol)).count symbol * n := by
  have hlen : (proposals.filter fun p => p.symbol = symbol).length =
      (proposals.map (·.symbol)).count symbol := by
    rw [← List.countP_eq_length_filter, List.count, List.countP_map]
    exact List.countP_congr fun p _ => by simp
  rw [← hlen]
  exact totalNotional_eq fun p hp => h p (List.mem_filter.mp hp).1

/-- A positive allocation whose legs have their notional stays within the caps. -/
theorem withinCaps_of_legs {config : MetaEngineConfig}
    {setup : EngineSetup}
    (haction : decision.action = setup.action)
    (hallocated : decision.allocatedNotional = maximumAllocation setup portfolio config)
    (hpos : 0 < decision.allocatedNotional)
    (hlegs : proposals.map (fun p => (p.symbol, |p.signedNotional|)) =
      setup.legs.map fun leg => (leg.symbol, perLegNotional decision setup.toSetupDecision)) :
    WithinCaps config portfolio setup decision.allocatedNotional proposals := by
  have hsymbols : proposals.map (·.symbol) = setup.legs.map (·.symbol) := by
    have hfst := congrArg (List.map Prod.fst) hlegs
    rw [List.map_map, List.map_map] at hfst
    exact hfst
  have hlength : proposals.length = setup.legs.length := by
    simpa using congrArg List.length hlegs
  have hnotional : ∀ p ∈ proposals,
      |p.signedNotional| = perLegNotional decision setup.toSetupDecision := by
    intro p hp
    have hmem : (p.symbol, |p.signedNotional|) ∈ setup.legs.map fun leg =>
        (leg.symbol, perLegNotional decision setup.toSetupDecision) :=
      hlegs ▸ List.mem_map_of_mem hp
    obtain ⟨leg, -, heq⟩ := List.mem_map.mp hmem
    exact (congrArg Prod.snd heq).symm
  obtain ⟨hgross, hshare⟩ := maximumAllocation_fits (hallocated ▸ hpos)
  rw [← hallocated] at hgross hshare
  have hsome : setup.legs ≠ [] := by
    intro hnil
    have hwait := decision.wait (haction.trans (setup.executable.mpr hnil))
    exact absurd hwait.2.2.2 hpos.ne'
  have hone : (1 : ℚ) ≤ setup.legs.length := by
    exact_mod_cast List.length_pos_iff.mpr hsome
  have hper : perLegNotional decision setup.toSetupDecision =
      if setup.action = .arbitrage then decision.allocatedNotional
      else decision.allocatedNotional / setup.legs.length := by
    rw [perLegNotional, haction]
  -- a leg has no more than the allocation
  have hleg : perLegNotional decision setup.toSetupDecision ≤ decision.allocatedNotional := by
    rw [hper]
    by_cases harbitrage : setup.action = .arbitrage
    · rw [if_pos harbitrage]
    · rw [if_neg harbitrage]
      rw [div_le_iff₀ (by linarith)]
      exact le_mul_of_one_le_right hpos.le hone
  refine ⟨hsymbols, fun p hp => (hnotional p hp).trans hper, ?_, ?_, hshare, ?_⟩
  · intro hne
    rw [totalNotional_eq hnotional, hlength, hper, if_neg hne, mul_div_cancel₀ _ (by linarith)]
    exact hgross
  · intro p hp
    rw [hnotional p hp]
    linarith
  · intro hne symbol hsymbol hcount
    rw [symbolNotional_eq hnotional, hsymbols, hper, if_neg hne]
    have htargets : (0 : ℚ) < setup.targets.length := by
      exact_mod_cast List.length_pos_iff.mpr setup.targeted
    have hle : ((setup.legs.map (·.symbol)).count symbol : ℚ) * setup.targets.length ≤
        setup.legs.length := by
      exact_mod_cast hcount
    have hsum : ((setup.legs.map (·.symbol)).count symbol : ℚ) *
        (decision.allocatedNotional / setup.legs.length) ≤
          decision.allocatedNotional / setup.targets.length := by
      rw [le_div_iff₀ htargets, mul_div_assoc', div_mul_eq_mul_div, div_le_iff₀ (by linarith)]
      calc _ = decision.allocatedNotional *
            (((setup.legs.map (·.symbol)).count symbol : ℚ) * setup.targets.length) := by ring
        _ ≤ decision.allocatedNotional * setup.legs.length :=
            mul_le_mul_of_nonneg_left hle hpos.le
    linarith [hshare symbol hsymbol]

/-- **The proposals of the producer stay within the caps of the Meta Engine**: the legs of a
directional setup together, and each leg of an arbitrage by itself. -/
theorem producer_allocations {config : ShadowProducerConfig} {observationId : String}
    {candidates : List EngineCandidate} {portfolio : MetaPortfolioState}
    {decisionTimestampUtc producedAtUtc : Datetime} {equity : ℚ} {work : ShadowWork}
    (h : produce config observationId candidates portfolio decisionTimestampUtc producedAtUtc
      equity = .ok work) :
    work.proposals = [] ∨ ∃ candidate ∈ candidates,
      work.decision.selectedSetup = some candidate.setup.toSetupDecision ∧
      WithinCaps config.engine portfolio candidate.setup work.decision.allocatedNotional
        work.proposals := by
  rcases produce_eq_ok h with ⟨-, hnil⟩ |
    ⟨candidate, hmem, hsetup, haction, hnotional, hpos, hproposals, hne⟩
  · exact .inl hnil
  · exact .inr ⟨candidate, hmem, hsetup, withinCaps_of_legs haction hnotional hpos
      (buildProposals_eq_ok hsetup hpos hproposals hne)⟩

/-! ## A directional setup and an arbitrage -/

/-- A setup of one buying leg of BTCUSDT. -/
def longSetup : EngineSetup where
  action := .long
  legs := [⟨"BTCUSDT", "bybit", .buy, by decide⟩]
  executable := by decide
  long := by decide
  short := by decide
  arbitrage := by decide
  targets := [⟨"BTCUSDT", by decide⟩]
  decisionTimestampUtc := 0
  dataCutoffUtc := 0
  expectedValueAfterCostBps := ⟨5, 6, 7, by decide +kernel⟩
  capacityNotional := 20000
  dataQualityStatus := .pass
  cutoff := le_refl 0
  targeted := by decide
  distinct := by decide
  declared := by decide
  capacity := by decide +kernel

/-- A setup that buys BTCUSDT and sells ETHUSDT. -/
def arbitrageSetup : EngineSetup where
  action := .arbitrage
  legs := [⟨"BTCUSDT", "bybit", .buy, by decide⟩, ⟨"ETHUSDT", "bybit", .sell, by decide⟩]
  executable := by decide
  long := by decide
  short := by decide
  arbitrage := by decide
  targets := [⟨"BTCUSDT", by decide⟩, ⟨"ETHUSDT", by decide⟩]
  decisionTimestampUtc := 0
  dataCutoffUtc := 0
  expectedValueAfterCostBps := ⟨5, 6, 7, by decide +kernel⟩
  capacityNotional := 20000
  dataQualityStatus := .pass
  cutoff := le_refl 0
  targeted := by decide
  distinct := by decide
  declared := by decide
  capacity := by decide +kernel

/-- A portfolio without positions, and 10000 left to allocate. -/
def flatPortfolio : MetaPortfolioState where
  grossExposureNotional := 0
  exposureBySymbol := []
  correlations := [⟨"BTCUSDT", "ETHUSDT", 3 / 10, by decide, by decide, by decide +kernel⟩]
  availableRiskNotional := 10000
  killSwitchActive := false
  operationalHealthy := true
  portfolioRiskApproved := true
  riskReason := "PORTFOLIO_OK"
  magnitudes := by decide +kernel
  symbols := by decide
  pairs := List.pairwise_singleton _ _
  reasoned := by decide

/-- A cap of 15000 for the gross exposure. -/
def cappedConfig : ShadowProducerConfig where
  engine :=
    { maximumGrossExposureNotional := 15000
      positive := by decide +kernel }

/-- `produce` of one approved candidate with `setup`, at the epoch. -/
def produceOf (engineId : String) (engineKind : EngineKind) (setup : EngineSetup)
    (named : isBlank engineId = false) : Except PyError ShadowWork :=
  produce cappedConfig "obs-1" [⟨engineId, engineKind, setup, true, named⟩] flatPortfolio
    (.ofInstant 0) (.ofInstant 0) 100000

theorem producer_allocations_long : ∃ work, produceOf "directional-v1" .directional longSetup
      (by decide) = .ok work ∧ work.proposals ≠ [] ∧
    (work.proposals = [] ∨ ∃ candidate ∈
      [(⟨"directional-v1", .directional, longSetup, true, by decide⟩ : EngineCandidate)],
        work.decision.selectedSetup = some candidate.setup.toSetupDecision ∧
        WithinCaps cappedConfig.engine flatPortfolio candidate.setup
          work.decision.allocatedNotional work.proposals) := by
  have hsome : (produceOf "directional-v1" .directional longSetup (by decide)).toOption.any
      (fun work => !work.proposals.isEmpty) = true := by decide +kernel
  cases hwork : produceOf "directional-v1" .directional longSetup (by decide) with
  | error e =>
    rw [hwork] at hsome
    cases hsome
  | ok work =>
    rw [hwork] at hsome
    refine ⟨work, rfl, ?_, producer_allocations hwork⟩
    intro hnil
    rw [Except.toOption, Option.any_some, hnil] at hsome
    cases hsome

/-- Both legs of the arbitrage have the allocation of 10000: the gross exposure would be 20000. -/
theorem arbitrage_exceeds : ∃ work, produceOf "neutral-v1" .neutral arbitrageSetup (by decide) =
      .ok work ∧
    cappedConfig.engine.maximumGrossExposureNotional <
      flatPortfolio.grossExposureNotional + totalNotional work.proposals := by
  have hsome : (produceOf "neutral-v1" .neutral arbitrageSetup (by decide)).toOption.any
      (fun work => decide (cappedConfig.engine.maximumGrossExposureNotional <
        flatPortfolio.grossExposureNotional + totalNotional work.proposals)) = true := by
    decide +kernel
  cases hwork : produceOf "neutral-v1" .neutral arbitrageSetup (by decide) with
  | error e =>
    rw [hwork] at hsome
    cases hsome
  | ok work =>
    rw [hwork] at hsome
    exact ⟨work, rfl, of_decide_eq_true hsome⟩

end Greenfield.Shadow
