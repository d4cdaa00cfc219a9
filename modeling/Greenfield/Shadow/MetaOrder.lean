import Greenfield.Shadow.Producer
import Mathlib.Data.String.Basic

/-!
# The order of the candidates

`evaluate_meta_candidates` of `src/engines/meta.py` does not depend on the order in which the
candidates are given (`candidate_order`): which of them are eligible is a property of each one,
whether two of them are in conflict is a property of the set of them, and the best one is unique,
since no two have the same identifier.
-/

namespace Greenfield.Shadow

open Py Risk

/-! ## The gates -/

/-- The tests of `_global_gate_reason`. -/
structure GatesPass (portfolio : MetaPortfolioState) : Prop where
  killSwitch : portfolio.killSwitchActive = false
  healthy : portfolio.operationalHealthy = true
  approved : portfolio.portfolioRiskApproved = true
  available : 0 < portfolio.availableRiskNotional

theorem globalGateReason_eq_none {portfolio : MetaPortfolioState} :
    globalGateReason portfolio = none ↔ GatesPass portfolio := by
  unfold globalGateReason
  constructor
  · intro h
    split at h
    · cases h
    · next hkill =>
      split at h
      · cases h
      · next hhealthy =>
        split at h
        · cases h
        · next happroved =>
          split at h
          · cases h
          · next havailable =>
            exact ⟨by simpa using hkill, by simpa using hhealthy, by simpa using happroved,
              not_le.mp havailable⟩
  · intro h
    simp [h.killSwitch, h.healthy, h.approved, h.available]

/-- The score of `_rank_candidate`. -/
def riskAdjustedScore (config : MetaEngineConfig) (candidate : EngineCandidate) : ℚ :=
  let value := candidate.setup.expectedValueAfterCostBps
  value.base - config.uncertaintyPenalty * ((value.high - value.low) / 2)

/-- The tests of `_rank_candidate`. -/
structure Eligible (decision : Instant) (portfolio : MetaPortfolioState)
    (config : MetaEngineConfig) (candidate : EngineCandidate) : Prop where
  action : candidate.setup.action ≠ .wait
  approved : candidate.researchApproved = true
  quality : candidate.setup.dataQualityStatus = .pass
  decided : candidate.setup.decisionTimestampUtc ≤ decision
  cutoff : candidate.setup.dataCutoffUtc ≤ decision
  fresh : ((decision - candidate.setup.dataCutoffUtc : Int) : ℚ) / microsPerSecond ≤
    config.maximumSetupAgeSeconds
  covered : correlationCoverageComplete candidate.setup portfolio = true
  room : 0 < maximumAllocation candidate.setup portfolio config
  score : 0 < riskAdjustedScore config candidate
  low : 0 < candidate.setup.expectedValueAfterCostBps.low

section Rank

variable {decision : Instant} {portfolio : MetaPortfolioState} {config : MetaEngineConfig}
  {candidate : EngineCandidate}

theorem age_nonneg {a b : Instant} : ¬ ((a - b : Int) : ℚ) / microsPerSecond < 0 ↔ b ≤ a := by
  have hsecond : (0 : ℚ) < microsPerSecond := by decide +kernel
  rw [div_lt_iff₀ hsecond, zero_mul, not_lt, Int.cast_nonneg_iff, sub_nonneg]

/-- The rank of a candidate that passes the tests. -/
theorem Eligible.rank (h : Eligible decision portfolio config candidate) :
    rankCandidate decision portfolio config candidate =
      ⟨candidate.engineId, candidate.engineKind, candidate.setup.action, true,
        some (riskAdjustedScore config candidate),
        maximumAllocation candidate.setup portfolio config, "ELIGIBLE"⟩ := by
  unfold rankCandidate
  simp only
  rw [if_neg h.action, if_neg (by simp [h.approved]), if_neg (by simp [h.quality]),
    if_neg (not_lt.mpr h.decided), if_neg (age_nonneg.mpr h.cutoff), if_neg (not_lt.mpr h.fresh),
    if_neg (by simp [h.covered]), if_neg (not_le.mpr h.room)]
  exact if_neg (not_or.mpr ⟨not_le.mpr h.score, not_le.mpr h.low⟩)

theorem eligible_rank :
    (rankCandidate decision portfolio config candidate).eligible = true ↔
      Eligible decision portfolio config candidate := by
  constructor
  · intro h
    unfold rankCandidate at h
    simp only at h
    repeat' split at h
    all_goals try cases h
    next haction happroved hquality hdecided hcutoff hfresh hcovered hroom hedge =>
      obtain ⟨hscore, hlow⟩ := not_or.mp hedge
      exact ⟨haction, by simpa using happroved, not_not.mp hquality, not_lt.mp hdecided,
        age_nonneg.mp hcutoff, not_lt.mp hfresh, by simpa using hcovered, not_le.mp hroom,
        not_le.mp hscore, not_le.mp hlow⟩
  · intro h
    rw [h.rank]

end Rank

/-! ## The best candidate -/

/-- Two eligible candidates go long and short in one symbol. -/
def Conflict (decision : Instant) (portfolio : MetaPortfolioState) (config : MetaEngineConfig)
    (candidates : List EngineCandidate) : Prop :=
  ∃ a ∈ candidates, ∃ b ∈ candidates, Eligible decision portfolio config a ∧
    Eligible decision portfolio config b ∧ a.setup.action = .long ∧ b.setup.action = .short ∧
    ∃ symbol ∈ a.setup.targets.map (·.symbol), symbol ∈ b.setup.targets.map (·.symbol)

/-- `eligible`, with the candidates. -/
def eligibleRanks (decision : Instant) (portfolio : MetaPortfolioState) (config : MetaEngineConfig)
    (candidates : List EngineCandidate) : List (EngineCandidate × CandidateRanking) :=
  (candidates.map fun candidate =>
    (candidate, rankCandidate decision portfolio config candidate)).filter (·.2.eligible)

section Best

variable {decision : Instant} {portfolio : MetaPortfolioState} {config : MetaEngineConfig}
  {candidates candidates' : List EngineCandidate}

variable {p : EngineCandidate × CandidateRanking}

theorem mem_eligibleRanks :
    p ∈ eligibleRanks decision portfolio config candidates ↔
      p.1 ∈ candidates ∧ Eligible decision portfolio config p.1 ∧
        p.2 = rankCandidate decision portfolio config p.1 := by
  unfold eligibleRanks
  rw [List.mem_filter, List.mem_map]
  constructor
  · rintro ⟨⟨candidate, hmem, rfl⟩, heligible⟩
    exact ⟨hmem, eligible_rank.mp heligible, rfl⟩
  · rintro ⟨hmem, heligible, hrank⟩
    refine ⟨⟨p.1, hmem, by rw [← hrank]⟩, ?_⟩
    rw [hrank]
    exact eligible_rank.mpr heligible

theorem hasDirectionalConflict_iff :
    hasDirectionalConflict (eligibleRanks decision portfolio config candidates) = true ↔
      Conflict decision portfolio config candidates := by
  unfold hasDirectionalConflict Conflict
  simp only [List.any_eq_true, decide_eq_true_eq, List.contains_iff_mem, mem_eligibleRanks]
  constructor
  · rintro ⟨a, ⟨ha, hela, hra⟩, b, ⟨hb, helb, hrb⟩, hlong, hshort, hsymbol⟩
    rw [hra, hela.rank] at hlong
    rw [hrb, helb.rank] at hshort
    exact ⟨a.1, ha, b.1, hb, hela, helb, hlong, hshort, hsymbol⟩
  · rintro ⟨a, ha, b, hb, hela, helb, hlong, hshort, hsymbol⟩
    refine ⟨(a, rankCandidate decision portfolio config a), ⟨ha, hela, rfl⟩,
      (b, rankCandidate decision portfolio config b), ⟨hb, helb, rfl⟩, ?_, ?_, hsymbol⟩
    · rw [hela.rank]
      exact hlong
    · rw [helb.rank]
      exact hshort

/-- The order of two eligible candidates. -/
theorem ranksBefore_iff {a b : EngineCandidate × CandidateRanking}
    (ha : a ∈ eligibleRanks decision portfolio config candidates)
    (hb : b ∈ eligibleRanks decision portfolio config candidates) :
    ranksBefore a b = true ↔ riskAdjustedScore config b.1 < riskAdjustedScore config a.1 ∨
      riskAdjustedScore config a.1 = riskAdjustedScore config b.1 ∧
        a.1.engineId ≤ b.1.engineId := by
  obtain ⟨-, hela, hra⟩ := mem_eligibleRanks.mp ha
  obtain ⟨-, helb, hrb⟩ := mem_eligibleRanks.mp hb
  unfold ranksBefore
  rw [hra, hrb, hela.rank, helb.rank]
  exact decide_eq_true_iff

theorem ranksBefore_total (a b : EngineCandidate × CandidateRanking) :
    ranksBefore a b = true ∨ ranksBefore b a = true := by
  unfold ranksBefore
  simp only [decide_eq_true_eq]
  rcases lt_trichotomy (a.2.score.getD 0) (b.2.score.getD 0) with hlt | heq | hgt
  · exact .inr (.inl hlt)
  · rcases le_total a.2.engineId b.2.engineId with hle | hle
    · exact .inl (.inr ⟨heq, hle⟩)
    · exact .inr (.inr ⟨heq.symm, hle⟩)
  · exact .inl (.inl hgt)

theorem ranksBefore_trans (a b c : EngineCandidate × CandidateRanking)
    (hab : ranksBefore a b = true) (hbc : ranksBefore b c = true) : ranksBefore a c = true := by
  unfold ranksBefore at hab hbc ⊢
  simp only [decide_eq_true_eq] at hab hbc ⊢
  rcases hab with hab | ⟨hab, habId⟩
  · rcases hbc with hbc | ⟨hbc, -⟩
    · exact .inl (hbc.trans hab)
    · exact .inl (hbc ▸ hab)
  · rcases hbc with hbc | ⟨hbc, hbcId⟩
    · exact .inl (hab ▸ hbc)
    · exact .inr ⟨hab.trans hbc, habId.trans hbcId⟩

/-- The candidates are ranked in one way only, in whatever order they are given. -/
theorem ranking_perm (hperm : candidates'.Perm candidates)
    (hids : (candidates.map (·.engineId)).Nodup) :
    sorted ranksBefore (eligibleRanks decision portfolio config candidates') =
      sorted ranksBefore (eligibleRanks decision portfolio config candidates) := by
  have hranks : (eligibleRanks decision portfolio config candidates').Perm
      (eligibleRanks decision portfolio config candidates) := (hperm.map _).filter _
  have hsorted : (sorted ranksBefore (eligibleRanks decision portfolio config candidates')).Perm
      (sorted ranksBefore (eligibleRanks decision portfolio config candidates)) :=
    ((List.perm_insertionSort _ _).trans hranks).trans (List.perm_insertionSort _ _).symm
  refine hsorted.eq_of_pairwise (fun a b ha hb hab hba => ?_)
    (pairwise_sorted _ ranksBefore_total ranksBefore_trans _)
    (pairwise_sorted _ ranksBefore_total ranksBefore_trans _)
  have ha := hranks.subset (mem_sorted.mp ha)
  have hb := mem_sorted.mp hb
  -- neither is before the other only if they have one identifier
  have hid : a.1.engineId = b.1.engineId := by
    rcases (ranksBefore_iff ha hb).mp hab with hlt | ⟨heq, hle⟩
    · rcases (ranksBefore_iff hb ha).mp hba with hgt | ⟨heq, -⟩
      · exact absurd hlt hgt.not_gt
      · exact absurd heq hlt.ne
    · rcases (ranksBefore_iff hb ha).mp hba with hgt | ⟨-, hge⟩
      · exact absurd heq hgt.ne
      · exact le_antisymm hle hge
  obtain ⟨hmema, -, hranka⟩ := mem_eligibleRanks.mp ha
  obtain ⟨hmemb, -, hrankb⟩ := mem_eligibleRanks.mp hb
  have hcandidate := List.inj_on_of_nodup_map hids hmema hmemb hid
  exact Prod.ext hcandidate (by rw [hranka, hrankb, hcandidate])

/-- What the first of the ranking is: there is one if any candidate is eligible, and it is the
best of them. -/
theorem head_ranking
    (h : (sorted ranksBefore (eligibleRanks decision portfolio config candidates)).head? = some p) :
    p ∈ eligibleRanks decision portfolio config candidates ∧
      ∀ other ∈ candidates, Eligible decision portfolio config other →
        riskAdjustedScore config other < riskAdjustedScore config p.1 ∨
          riskAdjustedScore config p.1 = riskAdjustedScore config other ∧
            p.1.engineId ≤ other.engineId := by
  have hp := mem_sorted.mp (List.mem_of_head? h)
  refine ⟨hp, fun other hother heligible => ?_⟩
  have hmem : (other, rankCandidate decision portfolio config other) ∈
      eligibleRanks decision portfolio config candidates :=
    mem_eligibleRanks.mpr ⟨hother, heligible, rfl⟩
  apply (ranksBefore_iff hp hmem).mp
  have hpairs := pairwise_sorted _ ranksBefore_total ranksBefore_trans
    (eligibleRanks decision portfolio config candidates)
  have hin : (other, rankCandidate decision portfolio config other) ∈
      sorted ranksBefore (eligibleRanks decision portfolio config candidates) := mem_sorted.mpr hmem
  cases hs : sorted ranksBefore (eligibleRanks decision portfolio config candidates) with
  | nil => rw [hs] at h; cases h
  | cons first rest =>
    rw [hs] at h hpairs hin
    cases h
    rcases List.mem_cons.mp hin with heq | hrest
    · rw [heq]
      exact (ranksBefore_total p p).elim id id
    · exact (List.pairwise_cons.mp hpairs).1 _ hrest

theorem conflict_perm (hperm : candidates'.Perm candidates) :
    hasDirectionalConflict (eligibleRanks decision portfolio config candidates') =
      hasDirectionalConflict (eligibleRanks decision portfolio config candidates) := by
  rw [Bool.eq_iff_iff, hasDirectionalConflict_iff, hasDirectionalConflict_iff]
  unfold Conflict
  simp only [hperm.mem_iff]

end Best

/-! ## Decisions -/

section Decisions

variable {decisionTimestampUtc : Datetime} {decision : Instant} {portfolio : MetaPortfolioState}
  {config : MetaEngineConfig} {candidates candidates' : List EngineCandidate}

theorem waitDecision_ok (decision : Instant) (reason : String) :
    ∃ d, waitDecision decision reason = .ok d ∧ d.action = .wait := by
  unfold waitDecision makeDecision
  rw [dif_pos rfl, dif_pos ⟨rfl, rfl⟩, dif_pos ⟨List.cons_ne_nil _ _, rfl⟩]
  exact ⟨_, rfl, rfl⟩

/-- The decision for a candidate that is eligible. -/
theorem Eligible.decision_ok {candidate : EngineCandidate} (reasons : List String)
    (h : Eligible decision portfolio config candidate) :
    ∃ d, makeDecision candidate.setup.action decision (some candidate.engineId)
      (some candidate.setup.toSetupDecision) (maximumAllocation candidate.setup portfolio config)
      reasons = .ok d := by
  unfold makeDecision
  rw [dif_neg h.action]
  simp only
  rw [dif_pos ⟨trivial, h.room⟩]
  exact ⟨_, rfl⟩

/-- The decision without the timestamp and the check of the identifiers. -/
def selectCandidate (decision : Instant) (portfolio : MetaPortfolioState)
    (config : MetaEngineConfig) (candidates : List EngineCandidate) :
    Except PyError (MetaDecision × Option EngineCandidate) := do
  let eligible := eligibleRanks decision portfolio config candidates
  match (sorted ranksBefore eligible).head? with
  | none => return (← waitDecision decision "NO_ELIGIBLE_ENGINE_SETUP", none)
  | some (selected, rank) =>
    if hasDirectionalConflict eligible then
      return (← waitDecision decision "CONFLICTING_DIRECTIONAL_SETUPS", none)
    else
      return (← makeDecision selected.setup.action decision (some selected.engineId)
        (some selected.setup.toSetupDecision) rank.maximumAllocationNotional
        ["BEST_ELIGIBLE_EDGE_AFTER_COST_AND_UNCERTAINTY"], some selected)

theorem evaluateMetaCandidates_eq :
    evaluateMetaCandidates candidates decisionTimestampUtc portfolio config =
      (do
        let decision ← utc decisionTimestampUtc "meta decision timestamp"
        require ((candidates.map (·.engineId)).Nodup)
          (.valueError "Meta Engine candidate ids must be unique")
        match globalGateReason portfolio with
        | some reason => return (← waitDecision decision reason, none)
        | none => selectCandidate decision portfolio config candidates) := rfl

/-- The candidate is eligible and the best of those that are. -/
structure Best (decision : Instant) (portfolio : MetaPortfolioState) (config : MetaEngineConfig)
    (candidates : List EngineCandidate) (best : EngineCandidate) : Prop where
  mem : best ∈ candidates
  eligible : Eligible decision portfolio config best
  best : ∀ other ∈ candidates, Eligible decision portfolio config other →
    riskAdjustedScore config other < riskAdjustedScore config best ∨
      riskAdjustedScore config best = riskAdjustedScore config other ∧
        best.engineId ≤ other.engineId

/-- What the selection can be. -/
inductive Selects (decision : Instant) (portfolio : MetaPortfolioState)
    (config : MetaEngineConfig) (candidates : List EngineCandidate) :
    MetaDecision → Option EngineCandidate → Prop where
  | waits {d} (wait : d.action = .wait)
      (why : (∀ c ∈ candidates, ¬ Eligible decision portfolio config c) ∨
        Conflict decision portfolio config candidates) :
      Selects decision portfolio config candidates d none
  | selects {d selected} (actionable : d.action ≠ .wait)
      (calm : ¬ Conflict decision portfolio config candidates)
      (best : Best decision portfolio config candidates selected)
      (engine : d.selectedEngineId = some selected.engineId)
      (action : d.action = selected.setup.action)
      (notional : d.allocatedNotional = maximumAllocation selected.setup portfolio config) :
      Selects decision portfolio config candidates d (some selected)

theorem selectCandidate_ok (decision : Instant) (portfolio : MetaPortfolioState)
    (config : MetaEngineConfig) (candidates : List EngineCandidate) :
    ∃ d selected, selectCandidate decision portfolio config candidates = .ok (d, selected) ∧
      Selects decision portfolio config candidates d selected := by
  unfold selectCandidate
  cases hhead : (sorted ranksBefore
      (eligibleRanks decision portfolio config candidates)).head? with
  | none =>
    obtain ⟨d, hd, hwait⟩ := waitDecision_ok decision "NO_ELIGIBLE_ENGINE_SETUP"
    refine ⟨d, none, by simp [hhead, hd], .waits hwait (.inl fun c hc heligible => ?_)⟩
    have hmem : (c, rankCandidate decision portfolio config c) ∈
        sorted ranksBefore (eligibleRanks decision portfolio config candidates) :=
      mem_sorted.mpr (mem_eligibleRanks.mpr ⟨hc, heligible, rfl⟩)
    rw [List.head?_eq_none_iff.mp hhead] at hmem
    cases hmem
  | some p =>
    obtain ⟨selected, rank⟩ := p
    obtain ⟨hmem, hbest⟩ := head_ranking hhead
    obtain ⟨hin, heligible, hrank⟩ := mem_eligibleRanks.mp hmem
    by_cases hconflict :
        hasDirectionalConflict (eligibleRanks decision portfolio config candidates) = true
    · obtain ⟨d, hd, hwait⟩ := waitDecision_ok decision "CONFLICTING_DIRECTIONAL_SETUPS"
      refine ⟨d, none, by simp [hhead, hconflict, hd], .waits hwait (.inr ?_)⟩
      exact hasDirectionalConflict_iff.mp hconflict
    · have hallocation : rank.maximumAllocationNotional =
          maximumAllocation selected.setup portfolio config := by
        have hrank : rank = rankCandidate decision portfolio config selected := hrank
        rw [hrank, Eligible.rank heligible]
      obtain ⟨d, hd⟩ := heligible.decision_ok ["BEST_ELIGIBLE_EDGE_AFTER_COST_AND_UNCERTAINTY"]
      obtain ⟨haction, -, hengine, hnotional, -, -⟩ := makeDecision_eq_ok heligible.action hd
      refine ⟨d, some selected, by simp [hhead, hconflict, hallocation, hd], .selects ?_ ?_
        ⟨hin, heligible, hbest⟩ hengine haction hnotional⟩
      · rw [haction]
        exact heligible.action
      · exact fun h => hconflict (hasDirectionalConflict_iff.mpr h)

theorem selectCandidate_perm (hperm : candidates'.Perm candidates)
    (hids : (candidates.map (·.engineId)).Nodup) :
    selectCandidate decision portfolio config candidates' =
      selectCandidate decision portfolio config candidates := by
  unfold selectCandidate
  simp only [ranking_perm hperm hids, conflict_perm hperm]

theorem evaluateMetaCandidates_perm (hperm : candidates'.Perm candidates) :
    evaluateMetaCandidates candidates' decisionTimestampUtc portfolio config =
      evaluateMetaCandidates candidates decisionTimestampUtc portfolio config := by
  have hnodup := (hperm.map (·.engineId)).nodup_iff
  rw [evaluateMetaCandidates_eq, evaluateMetaCandidates_eq]
  cases utc decisionTimestampUtc "meta decision timestamp" with
  | error e => rfl
  | ok decision =>
    by_cases hids : (candidates.map (·.engineId)).Nodup
    · simp only [hids, hnodup.mpr hids, selectCandidate_perm hperm hids]
    · simp only [require, hids, mt hnodup.mp hids]
      rfl

theorem evaluateMetaCandidates_ok (portfolio : MetaPortfolioState) (config : MetaEngineConfig)
    (hutc : utc decisionTimestampUtc "meta decision timestamp" = .ok decision)
    (hids : (candidates.map (·.engineId)).Nodup) :
    ∃ d selected, evaluateMetaCandidates candidates decisionTimestampUtc portfolio config =
        .ok (d, selected) ∧
      (¬ GatesPass portfolio ∧ d.action = .wait ∧ selected = none ∨
        GatesPass portfolio ∧ Selects decision portfolio config candidates d selected) := by
  have hrequire : require ((candidates.map (·.engineId)).Nodup)
      (.valueError "Meta Engine candidate ids must be unique") = .ok () := by
    rw [require_eq_ok]
    exact decide_eq_true hids
  rw [evaluateMetaCandidates_eq, hutc]
  simp only [hrequire]
  cases hgate : globalGateReason portfolio with
  | some reason =>
    obtain ⟨d, hd, hwait⟩ := waitDecision_ok decision reason
    refine ⟨d, none, ?_, .inl ⟨fun hpass => ?_, hwait, rfl⟩⟩
    · exact bind_eq_ok.mpr ⟨decision, rfl, bind_eq_ok.mpr ⟨(), rfl,
        bind_eq_ok.mpr ⟨d, hd, rfl⟩⟩⟩
    rw [globalGateReason_eq_none.mpr hpass] at hgate
    cases hgate
  | none =>
    obtain ⟨d, selected, hselect, hselects⟩ := selectCandidate_ok decision portfolio config candidates
    exact ⟨d, selected, hselect, .inr ⟨globalGateReason_eq_none.mp hgate, hselects⟩⟩

/-- What is checked before any candidate is ranked. -/
theorem evaluateMetaCandidates_checked {r : MetaDecision × Option EngineCandidate}
    (h : evaluateMetaCandidates candidates decisionTimestampUtc portfolio config = .ok r) :
    (∃ decision, utc decisionTimestampUtc "meta decision timestamp" = .ok decision) ∧
      (candidates.map (·.engineId)).Nodup := by
  rw [evaluateMetaCandidates_eq] at h
  obtain ⟨decision, hutc, h⟩ := bind_eq_ok.mp h
  obtain ⟨_, hrequire, -⟩ := bind_eq_ok.mp h
  exact ⟨⟨decision, hutc⟩, of_decide_eq_true (require_eq_ok.mp hrequire)⟩

/-- **The order of the candidates.** The decision is the same for any permutation of the
candidates. There is one unless the timestamp is naive or two candidates share an identifier; it
acts exactly if the gates pass and some candidate is eligible without a conflict, and then it
selects the best of them, with its allocation. -/
theorem candidate_order (candidates : List EngineCandidate) (decisionTimestampUtc : Datetime)
    (portfolio : MetaPortfolioState) (config : MetaEngineConfig) :
    (∀ candidates', candidates'.Perm candidates →
      evaluateMetaCandidates candidates' decisionTimestampUtc portfolio config =
        evaluateMetaCandidates candidates decisionTimestampUtc portfolio config) ∧
    ((∃ r, evaluateMetaCandidates candidates decisionTimestampUtc portfolio config = .ok r) ↔
      decisionTimestampUtc.utcOffset ≠ none ∧ (candidates.map (·.engineId)).Nodup) ∧
    ∀ d selected, evaluateMetaCandidates candidates decisionTimestampUtc portfolio config =
        .ok (d, selected) →
      ∃ decision, utc decisionTimestampUtc "meta decision timestamp" = .ok decision ∧
        (d.action ≠ .wait ↔ GatesPass portfolio ∧
          (∃ c ∈ candidates, Eligible decision portfolio config c) ∧
          ¬ Conflict decision portfolio config candidates) ∧
        (d.action ≠ .wait ↔ selected ≠ none) ∧
        ∀ c, selected = some c → Best decision portfolio config candidates c ∧
          d.selectedEngineId = some c.engineId ∧ d.action = c.setup.action ∧
          d.allocatedNotional = maximumAllocation c.setup portfolio config := by
  refine ⟨fun candidates' hperm => evaluateMetaCandidates_perm hperm, ?_, fun d selected h => ?_⟩
  · constructor
    · rintro ⟨r, hr⟩
      obtain ⟨⟨decision, hutc⟩, hids⟩ := evaluateMetaCandidates_checked hr
      exact ⟨fun hnaive => by simp [utc, utcOr, hnaive] at hutc, hids⟩
    · rintro ⟨haware, hids⟩
      obtain ⟨offset, hoffset⟩ := Option.ne_none_iff_exists'.mp haware
      have hutc : utc decisionTimestampUtc "meta decision timestamp" =
          .ok (decisionTimestampUtc.micros - offset) := by
        simp [utc, utcOr, hoffset]
      obtain ⟨d, selected, hok, -⟩ := evaluateMetaCandidates_ok portfolio config hutc hids
      exact ⟨_, hok⟩
  · obtain ⟨⟨decision, hutc⟩, hids⟩ := evaluateMetaCandidates_checked h
    obtain ⟨d', selected', hok, hcases⟩ := evaluateMetaCandidates_ok portfolio config hutc hids
    rw [h] at hok
    cases hok
    refine ⟨decision, hutc, ?_⟩
    rcases hcases with ⟨hgates, hwait, rfl⟩ | ⟨hgates, hselects⟩
    · exact ⟨⟨fun hne => absurd hwait hne, fun h => absurd h.1 hgates⟩,
        ⟨fun hne => absurd hwait hne, fun h => absurd rfl h⟩, fun c hc => by cases hc⟩
    · cases hselects with
      | waits hwait hwhy =>
        refine ⟨⟨fun hne => absurd hwait hne, fun hacts => ?_⟩,
          ⟨fun hne => absurd hwait hne, fun h => absurd rfl h⟩, fun c hc => by cases hc⟩
        obtain ⟨-, ⟨c, hc, heligible⟩, hcalm⟩ := hacts
        rcases hwhy with hnone | hconflict
        · exact absurd heligible (hnone c hc)
        · exact absurd hconflict hcalm
      | selects hne hcalm hbest hengine haction hnotional =>
        refine ⟨⟨fun _ => ⟨hgates, ⟨_, hbest.mem, hbest.eligible⟩, hcalm⟩, fun _ => hne⟩,
          ⟨fun _ => Option.some_ne_none _, fun _ => hne⟩, fun c hc => ?_⟩
        cases hc
        exact ⟨hbest, hengine, haction, hnotional⟩

end Decisions

/-- A candidate with a long setup that is approved. -/
def longCandidate (engineId : String) (named : isBlank engineId = false) : EngineCandidate :=
  ⟨engineId, .directional, longSetup, true, named⟩

/-- Of two candidates with one score, the one with the lesser identifier is selected, whichever
comes first. -/
theorem candidate_order_tie :
    evaluateMetaCandidates
        [longCandidate "b" (by decide), longCandidate "a" (by decide)] (.ofInstant 0)
        flatPortfolio cappedConfig.engine =
      evaluateMetaCandidates
        [longCandidate "a" (by decide), longCandidate "b" (by decide)] (.ofInstant 0)
        flatPortfolio cappedConfig.engine ∧
    ∃ d c, evaluateMetaCandidates
        [longCandidate "a" (by decide), longCandidate "b" (by decide)] (.ofInstant 0)
        flatPortfolio cappedConfig.engine = .ok (d, some c) ∧ d.action ≠ .wait ∧
      d.selectedEngineId = some c.engineId ∧ c.engineId = "a" := by
  obtain ⟨hperm, -, hok⟩ := candidate_order
    [longCandidate "a" (by decide), longCandidate "b" (by decide)] (.ofInstant 0)
    flatPortfolio cappedConfig.engine
  refine ⟨hperm _ (.swap _ _ _), ?_⟩
  have hsome : (evaluateMetaCandidates
      [longCandidate "a" (by decide), longCandidate "b" (by decide)] (.ofInstant 0)
      flatPortfolio cappedConfig.engine).toOption.any
        (fun r => r.2.any fun c => c.engineId = "a") = true := by decide +kernel
  cases hrun : evaluateMetaCandidates
      [longCandidate "a" (by decide), longCandidate "b" (by decide)] (.ofInstant 0)
      flatPortfolio cappedConfig.engine with
  | error e => rw [hrun] at hsome; cases hsome
  | ok r =>
    obtain ⟨d, selected⟩ := r
    rw [hrun] at hsome
    cases selected with
    | none => cases hsome
    | some c =>
      obtain ⟨_, -, -, hactionable, hselected⟩ := hok d (some c) hrun
      exact ⟨d, c, rfl, hactionable.mpr (Option.some_ne_none c), (hselected c rfl).2.1,
        of_decide_eq_true hsome⟩

end Greenfield.Shadow
