import Greenfield.Py.Json
import Mathlib.Data.List.Dedup
import Mathlib.Data.List.Forall2
import Mathlib.Data.List.Nodup

/-!
# The selective gate

`src/research/selective_gate_v0.py`: a candidate of research is backed by every period. The rows of
a period are put in a dictionary first, where the last row of an identity counts, so what the gate
decides depends on the order of the rows where they conflict (`gateHolds_iff`).
-/

namespace Greenfield.Research.SelectiveGate

open Py

inductive GateError where
  | valueError (msg : String)
  | overflowError
  deriving DecidableEq

structure SelectiveGateConfig where
  minimumIndependentPeriods : ℕ := 2
  minimumEventsPerPeriod : ℤ := 30
  executionScenario : String := "taker_taker"
  minimumMeanNetBps : ℚ := 3
  minimumMedianNetBps : ℚ := 0
  periods : 2 ≤ minimumIndependentPeriods
  events : 1 ≤ minimumEventsPerPeriod
  scenario : isBlank executionScenario = false

/-- What the gate reads of a report; `null` for what is not there. -/
structure Report where
  period : PyJson
  status : PyJson
  promotionAllowed : PyJson
  results : PyJson

/-- The rows of a report. -/
def Report.rows (report : Report) : List PyJson :=
  match report.results with
  | .arr rows => rows
  | _ => []

/-- `status == "EXPLORATORY_ONLY"` and `promotion_allowed is False`. -/
def Report.isExploratory (report : Report) : Bool :=
  match report.status, report.promotionAllowed with
  | .str status, .bool false => status = "EXPLORATORY_ONLY"
  | _, _ => false

/-- `_validated_period`. -/
def validatedPeriod (report : Report) : Except GateError String :=
  match report.period with
  | .str period =>
    if isBlank period then .error (.valueError "selective gate report requires a period")
    else if ¬ report.isExploratory then
      .error (.valueError "selective gate accepts only non-promotable exploratory reports")
    else
      match report.results with
      | .arr _ => .ok period
      | _ => .error (.valueError "selective gate report requires results")
  | _ => .error (.valueError "selective gate report requires a period")

/-! ## Identities -/

/-- The family, the symbol and the horizon. -/
abbrev Identity := String × String × ℤ

def invalidIdentity : GateError := .valueError "selective gate result has invalid identity"

/-- `row[key]`. -/
def subscript (row : PyJson) (key : String) : Except GateError PyJson :=
  match row with
  | .obj items => (Json.get items key).elim (.error invalidIdentity) .ok
  | _ => .error invalidIdentity

variable (texts : Texts)

/-- `int(value)`. -/
def toInt : PyJson → Except GateError ℤ
  | .bool b => .ok (if b then 1 else 0)
  | .int n => .ok n
  | .float (.finite q) => .ok (q.num.tdiv q.den)
  | .float (.infinite _) => .error .overflowError
  | .str s => (texts.int s).elim (.error invalidIdentity) .ok
  | _ => .error invalidIdentity

/-- `_identity`. -/
def identityOf (row : PyJson) : Except GateError Identity := do
  let family ← subscript row "family"
  let symbol ← subscript row "symbol"
  let horizon ← subscript row "horizon_minutes"
  return (texts.str family, texts.str symbol, ← toInt texts horizon)

/-- The rows of a report with their identities. -/
def identified (report : Report) : Except GateError (List (Identity × PyJson)) :=
  report.rows.mapM fun row => (identityOf texts row).map fun identity => (identity, row)

/-- `rows.get(identity)`, where of the rows of an identity the last one counts. -/
def dictGet (rows : List (Identity × PyJson)) (identity : Identity) : Option PyJson :=
  rows.reverse.lookup identity

def identityLe (a b : Identity) : Bool :=
  a.1 < b.1 ∨ a.1 = b.1 ∧ (a.2.1 < b.2.1 ∨ a.2.1 = b.2.1 ∧ a.2.2 ≤ b.2.2)

/-! ## Decisions -/

inductive Action where
  | wait
  | researchCandidate
  deriving DecidableEq

inductive Reason where
  | riskVeto
  | insufficientIndependentPeriods
  | missingPeriodEvidence
  | missingExecutionScenario
  | insufficientEventSupport
  | invalidNetEvidence
  | meanNetEdgeBelowBuffer
  | medianNetEdgeNotPositive
  | multiPeriodNetEdgeForFalsification
  deriving DecidableEq

structure Evidence where
  eventCount : ℤ
  meanNetBps : ℚ
  medianNetBps : ℚ
  deriving DecidableEq

structure Decision where
  identity : Identity
  action : Action
  reason : Reason
  periodEvidence : List (String × Evidence) := []
  worstPeriodMeanNetBps : Option ℚ := none

/-- A value that is an `int`, which a `bool` is. -/
def countOf : PyJson → Option ℤ
  | .bool b => some (if b then 1 else 0)
  | .int n => some n
  | _ => none

/-- A finite number. -/
def netOf : PyJson → Option ℚ
  | .bool b => some (if b then 1 else 0)
  | .int n => some n
  | .float (.finite q) => some q
  | _ => none

/-- What a row says of its identity. -/
def evidenceOf (config : SelectiveGateConfig) (row : PyJson) : Except Reason Evidence :=
  match row with
  | .obj items =>
    match item items "execution_scenarios" with
    | .obj scenarios =>
      match item scenarios config.executionScenario with
      | .obj scenario =>
        match countOf (item items "event_count") with
        | none => .error .insufficientEventSupport
        | some eventCount =>
          if eventCount < config.minimumEventsPerPeriod then .error .insufficientEventSupport
          else
            match netOf (item scenario "mean_net_bps"), netOf (item scenario "median_net_bps") with
            | some meanNetBps, some medianNetBps => .ok { eventCount, meanNetBps, medianNetBps }
            | _, _ => .error .invalidNetEvidence
      | _ => .error .missingExecutionScenario
    | _ => .error .missingExecutionScenario
  | _ => .error .missingExecutionScenario

/-- The evidence of the periods, one after the other. -/
def gather (config : SelectiveGateConfig) (identity : Identity) :
    List (String × List (Identity × PyJson)) → Except Reason (List (String × Evidence))
  | [] => .ok []
  | (period, rows) :: rest =>
    match dictGet rows identity with
    | none => .error .missingPeriodEvidence
    | some row =>
      match evidenceOf config row with
      | .error reason => .error reason
      | .ok evidence => (gather config identity rest).map ((period, evidence) :: ·)

/-- `_decision`. -/
def decisionOf (config : SelectiveGateConfig) (riskVeto : Bool)
    (byPeriod : List (String × List (Identity × PyJson))) (identity : Identity) : Decision :=
  if riskVeto then { identity, action := .wait, reason := .riskVeto }
  else if byPeriod.length < config.minimumIndependentPeriods then
    { identity, action := .wait, reason := .insufficientIndependentPeriods }
  else if byPeriod.any fun p => (dictGet p.2 identity).isNone then
    { identity, action := .wait, reason := .missingPeriodEvidence }
  else
    match gather config identity byPeriod with
    | .error reason => { identity, action := .wait, reason }
    | .ok periodEvidence =>
      let worst := (periodEvidence.map fun p => p.2.meanNetBps).min?
      if periodEvidence.any fun p => p.2.meanNetBps ≤ config.minimumMeanNetBps then
        { identity, action := .wait, reason := .meanNetEdgeBelowBuffer, periodEvidence
          worstPeriodMeanNetBps := worst }
      else if periodEvidence.any fun p => p.2.medianNetBps ≤ config.minimumMedianNetBps then
        { identity, action := .wait, reason := .medianNetEdgeNotPositive, periodEvidence
          worstPeriodMeanNetBps := worst }
      else
        { identity, action := .researchCandidate, reason := .multiPeriodNetEdgeForFalsification
          periodEvidence, worstPeriodMeanNetBps := worst }

structure GateReport where
  periods : List String
  decisions : List Decision
  rankedResearchCandidates : List Decision

/-- The order of the worst periods, the best first. -/
def rankLe (a b : Decision) : Bool :=
  b.worstPeriodMeanNetBps.getD 0 ≤ a.worstPeriodMeanNetBps.getD 0

/-- The decisions of all identities, and the candidates among them. -/
def gateReport (config : SelectiveGateConfig) (riskVeto : Bool)
    (byPeriod : List (String × List (Identity × PyJson))) : GateReport :=
  let identities := (byPeriod.flatMap fun p => p.2.map Prod.fst).dedup.mergeSort identityLe
  let decisions := identities.map (decisionOf config riskVeto byPeriod)
  { periods := byPeriod.map Prod.fst
    decisions
    rankedResearchCandidates :=
      (decisions.filter fun d => d.action = .researchCandidate).mergeSort rankLe }

/-- `evaluate_selective_gate_v0`. -/
def evaluateSelectiveGate (config : SelectiveGateConfig) (riskVeto : Bool)
    (reports : List Report) : Except GateError GateReport := do
  let periods ← reports.mapM validatedPeriod
  if ¬ periods.Nodup then
    throw (.valueError "selective gate periods must be independent and unique")
  let rows ← reports.mapM (identified texts)
  return gateReport config riskVeto (periods.zip rows)

/-! ## When an identity is a candidate -/

/-- Evidence that is above all thresholds. -/
def convincing (config : SelectiveGateConfig) (row : PyJson) : Bool :=
  match evidenceOf config row with
  | .ok evidence => config.minimumMeanNetBps < evidence.meanNetBps ∧
      config.minimumMedianNetBps < evidence.medianNetBps
  | .error _ => false

variable {texts} {config : SelectiveGateConfig} {riskVeto : Bool} {identity : Identity}
  {byPeriod : List (String × List (Identity × PyJson))}

variable {row : PyJson}

theorem convincing_iff : convincing config row = true ↔
    ∃ evidence, evidenceOf config row = .ok evidence ∧
      config.minimumMeanNetBps < evidence.meanNetBps ∧
        config.minimumMedianNetBps < evidence.medianNetBps := by
  unfold convincing
  cases evidenceOf config row with
  | error reason => simp
  | ok evidence => simp

theorem gather_ok : ∀ {byPeriod : List (String × List (Identity × PyJson))}
    {periodEvidence : List (String × Evidence)}, gather config identity byPeriod = .ok periodEvidence ↔
      List.Forall₂ (fun p e => p.1 = e.1 ∧ ∃ row, dictGet p.2 identity = some row ∧
        evidenceOf config row = .ok e.2) byPeriod periodEvidence
  | [], periodEvidence => by
    rw [gather, List.forall₂_nil_left_iff]
    exact ⟨fun h => by cases h; rfl, fun h => by rw [h]⟩
  | (period, rows) :: rest, periodEvidence => by
    rw [gather, List.forall₂_cons_left_iff]
    cases hget : dictGet rows identity with
    | none =>
      refine iff_of_false (fun h => by cases h) ?_
      rintro ⟨e, es, ⟨-, row, hrow, -⟩, -, -⟩
      cases hrow
    | some row =>
      dsimp only
      cases hevidence : evidenceOf config row with
      | error reason =>
        refine iff_of_false (fun h => by cases h) ?_
        rintro ⟨e, es, ⟨-, row', hrow, he⟩, -, -⟩
        cases hrow
        rw [hevidence] at he
        cases he
      | ok evidence =>
        dsimp only
        constructor
        · intro h
          cases hrest : gather config identity rest with
          | error reason => rw [hrest] at h; cases h
          | ok es =>
            rw [hrest] at h
            cases h
            exact ⟨_, es, ⟨rfl, row, rfl, hevidence⟩, gather_ok.mp hrest, rfl⟩
        · rintro ⟨e, es, ⟨hperiod, row', hrow, he⟩, hes, rfl⟩
          cases hrow
          rw [hevidence] at he
          obtain ⟨period', evidence'⟩ := e
          cases he
          obtain rfl : period = period' := hperiod
          rw [gather_ok.mpr hes]
          rfl

/-- The last row of the identity in each period is convincing. -/
def LastBacked (config : SelectiveGateConfig) (identity : Identity)
    (byPeriod : List (String × List (Identity × PyJson))) : Prop :=
  ∀ p ∈ byPeriod, ∃ row, dictGet p.2 identity = some row ∧ convincing config row = true

/-- What is gathered is above the thresholds where the last rows are convincing. -/
theorem lastBacked_iff {periodEvidence : List (String × Evidence)}
    (h : gather config identity byPeriod = .ok periodEvidence) :
    LastBacked config identity byPeriod ↔ ∀ e ∈ periodEvidence,
      config.minimumMeanNetBps < e.2.meanNetBps ∧ config.minimumMedianNetBps < e.2.medianNetBps := by
  have hall := gather_ok.mp h
  clear h
  unfold LastBacked
  induction hall with
  | nil => simp
  | @cons p e ps es hpe _ ih =>
    obtain ⟨-, row, hrow, hevidence⟩ := hpe
    rw [List.forall_mem_cons, List.forall_mem_cons]
    refine and_congr ?_ ih
    constructor
    · rintro ⟨row', hrow', hconvincing⟩
      rw [hrow] at hrow'
      cases hrow'
      obtain ⟨evidence, hevidence', habove⟩ := convincing_iff.mp hconvincing
      rw [hevidence] at hevidence'
      cases hevidence'
      exact habove
    · exact fun habove => ⟨row, hrow, convincing_iff.mpr ⟨_, hevidence, habove⟩⟩

theorem gather_of_lastBacked (h : LastBacked config identity byPeriod) :
    ∃ periodEvidence, gather config identity byPeriod = .ok periodEvidence := by
  induction byPeriod with
  | nil => exact ⟨[], rfl⟩
  | cons p rest ih =>
    obtain ⟨⟨row, hrow, hconvincing⟩, hrest⟩ := List.forall_mem_cons.mp h
    obtain ⟨evidence, hevidence, -⟩ := convincing_iff.mp hconvincing
    obtain ⟨es, hes⟩ := ih hrest
    exact ⟨(p.1, evidence) :: es,
      gather_ok.mpr (.cons ⟨rfl, row, hrow, hevidence⟩ (gather_ok.mp hes))⟩

/-- **A candidate** is backed by the last rows of all periods. -/
theorem decisionOf_candidate : (decisionOf config riskVeto byPeriod identity).action =
    .researchCandidate ↔ riskVeto = false ∧ config.minimumIndependentPeriods ≤ byPeriod.length ∧
      LastBacked config identity byPeriod := by
  unfold decisionOf
  cases riskVeto with
  | true => simp
  | false =>
    rw [if_neg Bool.false_ne_true, and_iff_right rfl]
    by_cases hfew : byPeriod.length < config.minimumIndependentPeriods
    · rw [if_pos hfew]
      exact iff_of_false (fun h => by cases h) fun h => absurd h.1 hfew.not_ge
    · rw [if_neg hfew, and_iff_right (not_lt.mp hfew)]
      split
      · next hmissing =>
        refine iff_of_false (fun h => by cases h) fun h => ?_
        obtain ⟨p, hp, hnone⟩ := List.any_eq_true.mp hmissing
        obtain ⟨row, hrow, -⟩ := h p hp
        rw [hrow] at hnone
        cases hnone
      · next hmissing =>
        cases hgather : gather config identity byPeriod with
        | error reason =>
          refine iff_of_false (fun h => by cases h) fun h => ?_
          obtain ⟨es, hes⟩ := gather_of_lastBacked h
          rw [hgather] at hes
          cases hes
        | ok es =>
          rw [lastBacked_iff hgather]
          dsimp only
          split
          · next hmean =>
            refine iff_of_false (fun h => by cases h) fun h => ?_
            obtain ⟨e, he, hle⟩ := List.any_eq_true.mp hmean
            exact absurd (h e he).1 (of_decide_eq_true hle).not_gt
          · next hmean =>
            split
            · next hmedian =>
              refine iff_of_false (fun h => by cases h) fun h => ?_
              obtain ⟨e, he, hle⟩ := List.any_eq_true.mp hmedian
              exact absurd (h e he).2 (of_decide_eq_true hle).not_gt
            · next hmedian =>
              refine iff_of_true rfl fun e he => ⟨?_, ?_⟩
              · by_contra hno
                exact hmean (List.any_eq_true.mpr ⟨e, he, decide_eq_true (not_lt.mp hno)⟩)
              · by_contra hno
                exact hmedian (List.any_eq_true.mpr ⟨e, he, decide_eq_true (not_lt.mp hno)⟩)

theorem decisionOf_identity : (decisionOf config riskVeto byPeriod identity).identity = identity := by
  unfold decisionOf
  split
  · rfl
  · split
    · rfl
    · split
      · rfl
      · split
        · rfl
        · dsimp only
          split
          · rfl
          · split <;> rfl

/-! ## Dictionaries of rows -/

variable {rows : List (Identity × PyJson)}

theorem mem_of_dictGet
    (h : dictGet rows identity = some row) : (identity, row) ∈ rows := by
  unfold dictGet at h
  rw [← List.mem_reverse]
  generalize rows.reverse = l at h
  induction l with
  | nil => cases h
  | cons p l ih =>
    obtain ⟨key, value⟩ := p
    rw [List.lookup_cons] at h
    by_cases heq : identity = key
    · rw [beq_iff_eq.mpr heq] at h
      cases h
      rw [heq]
      exact List.mem_cons_self
    · rw [beq_eq_false_iff_ne.mpr heq] at h
      exact List.mem_cons_of_mem _ (ih h)

theorem dictGet_some
    (h : (identity, row) ∈ rows) : ∃ row', dictGet rows identity = some row' := by
  unfold dictGet
  rw [← List.mem_reverse] at h
  generalize rows.reverse = l at h
  induction l with
  | nil => exact absurd h List.not_mem_nil
  | cons p l ih =>
    obtain ⟨key, value⟩ := p
    rw [List.lookup_cons]
    by_cases heq : identity = key
    · rw [beq_iff_eq.mpr heq]
      exact ⟨value, rfl⟩
    · rw [beq_eq_false_iff_ne.mpr heq]
      refine ih ((List.mem_cons.mp h).resolve_left fun hpair => heq ?_)
      exact congrArg Prod.fst hpair

/-- The last row counts. -/
theorem dictGet_concat :
    dictGet (rows ++ [(identity, row)]) identity = some row := by
  unfold dictGet
  rw [List.reverse_append, List.reverse_singleton, List.singleton_append, List.lookup_cons,
    beq_self_eq_true]

/-! ## Reports that can be read -/

variable {reports reports' : List Report}

/-- The text of the period. -/
def Report.periodText (report : Report) : String :=
  match report.period with
  | .str period => period
  | _ => ""

/-- Exploratory reports of distinct periods. -/
structure Exploratory (reports : List Report) : Prop where
  valid : ∀ report ∈ reports, validatedPeriod report = .ok report.periodText
  distinct : (reports.map Report.periodText).Nodup

variable (texts) in
/-- Every row has an identity. -/
def Identified (reports : List Report) : Prop :=
  ∀ report ∈ reports, ∀ row ∈ report.rows, ∃ identity, identityOf texts row = .ok identity

variable (texts) in
/-- The rows of a report that have an identity. -/
def Report.pairs (report : Report) : List (Identity × PyJson) :=
  report.rows.filterMap fun row =>
    match identityOf texts row with
    | .ok identity => some (identity, row)
    | .error _ => none

variable {report : Report}

theorem Report.mem_pairs :
    (identity, row) ∈ report.pairs texts ↔
      row ∈ report.rows ∧ identityOf texts row = .ok identity := by
  unfold Report.pairs
  rw [List.mem_filterMap]
  constructor
  · rintro ⟨row', hrow', h⟩
    cases hid : identityOf texts row' with
    | error e => rw [hid] at h; cases h
    | ok id =>
      rw [hid] at h
      cases h
      exact ⟨hrow', hid⟩
  · rintro ⟨hrow, hid⟩
    exact ⟨row, hrow, by rw [hid]⟩

variable {α β ε : Type} {f : α → Except ε β}

theorem mapM_eq_map {g : α → β} {l : List α}
    (h : ∀ x ∈ l, f x = .ok (g x)) : l.mapM f = .ok (l.map g) :=
  mapM_eq_ok.mpr (List.forall₂_map_right_iff.mpr (List.forall₂_same.mpr h))

theorem mapM_error : ∀ {l : List α},
    (∃ x ∈ l, ∃ e, f x = .error e) → ∃ e, l.mapM f = .error e
  | [], h => by
    obtain ⟨x, hx, -⟩ := h
    exact absurd hx List.not_mem_nil
  | y :: ys, h => by
    rw [List.mapM_cons]
    cases hy : f y with
    | error e => exact ⟨e, rfl⟩
    | ok b =>
      obtain ⟨x, hx, e, he⟩ := h
      rcases List.mem_cons.mp hx with rfl | hx
      · rw [hy] at he
        cases he
      · obtain ⟨e', he'⟩ := mapM_error ⟨x, hx, e, he⟩
        rw [he']
        exact ⟨e', rfl⟩

theorem identified_ok
    (h : ∀ row ∈ report.rows, ∃ identity, identityOf texts row = .ok identity) :
    identified texts report = .ok (report.pairs texts) := by
  unfold identified Report.pairs
  generalize report.rows = rows at h
  induction rows with
  | nil => rfl
  | cons row rows ih =>
    obtain ⟨⟨id, hid⟩, hrows⟩ := List.forall_mem_cons.mp h
    rw [List.mapM_cons, ih hrows, List.filterMap_cons, hid]
    rfl

variable (texts) in
/-- The rows of each period. -/
def byPeriodOf (reports : List Report) : List (String × List (Identity × PyJson)) :=
  reports.map fun report => (report.periodText, report.pairs texts)

/-- **Reports that can be read** are judged. -/
theorem evaluate_ok (hreports : Exploratory reports) (hid : Identified texts reports) :
    evaluateSelectiveGate texts config riskVeto reports =
      .ok (gateReport config riskVeto (byPeriodOf texts reports)) := by
  have hrows : reports.mapM (identified texts) = .ok (reports.map (Report.pairs texts)) :=
    mapM_eq_map fun report hreport => identified_ok (hid report hreport)
  unfold evaluateSelectiveGate
  rw [mapM_eq_map hreports.valid, hrows]
  have hzip : (reports.map Report.periodText).zip (reports.map (Report.pairs texts)) =
      byPeriodOf texts reports := List.zip_map'
  rw [← hzip]
  simp only [bind, Except.bind, hreports.distinct, not_true_eq_false, if_false, pure, Except.pure]

variable (config riskVeto) in
theorem evaluate_error (hreports : Exploratory reports) (hid : ¬ Identified texts reports) :
    ∃ e, evaluateSelectiveGate texts config riskVeto reports = .error e := by
  have hrow : ∃ report ∈ reports, ∃ e, identified texts report = .error e := by
    unfold Identified at hid
    push Not at hid
    obtain ⟨report, hreport, row, hrow, hnone⟩ := hid
    refine ⟨report, hreport, mapM_error ⟨row, hrow, ?_⟩⟩
    cases h : identityOf texts row with
    | error e => exact ⟨e, rfl⟩
    | ok id => exact absurd h (hnone id)
  obtain ⟨e, he⟩ := mapM_error hrow
  refine ⟨e, ?_⟩
  unfold evaluateSelectiveGate
  rw [mapM_eq_map hreports.valid]
  simp only [bind, Except.bind, hreports.distinct, not_true_eq_false, if_false, he]

/-! ## Reports in another order -/

/-- A report with its rows in another order. -/
structure SameRows (report report' : Report) : Prop where
  period : report'.period = report.period
  status : report'.status = report.status
  promotionAllowed : report'.promotionAllowed = report.promotionAllowed
  results : ∃ rows rows', report.results = .arr rows ∧ report'.results = .arr rows' ∧
    rows.Perm rows'

/-- The reports in another order, and their rows too. -/
def Rearranged (reports reports' : List Report) : Prop :=
  ∃ between, reports.Perm between ∧ List.Forall₂ SameRows between reports'

variable {report report' : Report}

theorem SameRows.mem_rows (h : SameRows report report') :
    row ∈ report'.rows ↔ row ∈ report.rows := by
  obtain ⟨rows, rows', hrows, hrows', hperm⟩ := h.results
  unfold Report.rows
  rw [hrows, hrows']
  exact hperm.symm.mem_iff

theorem SameRows.validatedPeriod (h : SameRows report report') :
    validatedPeriod report' = validatedPeriod report ∧
      report'.periodText = report.periodText := by
  obtain ⟨rows, rows', hrows, hrows', -⟩ := h.results
  unfold SelectiveGate.validatedPeriod Report.isExploratory Report.periodText
  rw [h.period, h.status, h.promotionAllowed, hrows, hrows']
  exact ⟨rfl, rfl⟩

/-- What holds of the rows of all reports does so in any order. -/
theorem Rearranged.forall_iff (h : Rearranged reports reports') {P : Report → Prop}
    (hP : ∀ {report report'}, SameRows report report' → (P report' ↔ P report)) :
    (∀ report ∈ reports', P report) ↔ ∀ report ∈ reports, P report := by
  obtain ⟨between, hperm, hrows⟩ := h
  have hbetween : (∀ report ∈ reports', P report) ↔ ∀ report ∈ between, P report := by
    clear hperm
    induction hrows with
    | nil => simp
    | cons hsame _ ih => rw [List.forall_mem_cons, List.forall_mem_cons, hP hsame, ih]
  rw [hbetween]
  exact ⟨fun hall report hreport => hall report (hperm.mem_iff.mp hreport),
    fun hall report hreport => hall report (hperm.mem_iff.mpr hreport)⟩

theorem Rearranged.length_eq (h : Rearranged reports reports') :
    reports'.length = reports.length := by
  obtain ⟨between, hperm, hrows⟩ := h
  rw [← hrows.length_eq, hperm.length_eq]

theorem Rearranged.exploratory (h : Rearranged reports reports') (hreports : Exploratory reports) :
    Exploratory reports' := by
  constructor
  · refine (h.forall_iff fun {report report'} hsame => ?_).mpr hreports.valid
    rw [hsame.validatedPeriod.1, hsame.validatedPeriod.2]
  · obtain ⟨between, hperm, hrows⟩ := h
    have hperiods : reports'.map Report.periodText = between.map Report.periodText := by
      clear hperm
      induction hrows with
      | nil => rfl
      | cons hsame _ ih => rw [List.map_cons, List.map_cons, hsame.validatedPeriod.2, ih]
    rw [hperiods]
    exact (hperm.map _).nodup_iff.mp hreports.distinct

theorem Rearranged.identified_iff (h : Rearranged reports reports') :
    Identified texts reports' ↔ Identified texts reports :=
  h.forall_iff fun hsame => by simp only [hsame.mem_rows]

/-! ## What the gate decides -/

variable (texts config) in
/-- Every period has a convincing row of the identity. -/
def Backed (reports : List Report) (identity : Identity) : Prop :=
  ∀ report ∈ reports, ∃ row ∈ report.rows, identityOf texts row = .ok identity ∧
    convincing config row = true

variable (texts config) in
/-- All rows of the identity are convincing. -/
def Convinced (reports : List Report) (identity : Identity) : Prop :=
  ∀ report ∈ reports, ∀ row ∈ report.rows, identityOf texts row = .ok identity →
    convincing config row = true

theorem Rearranged.backed_iff (h : Rearranged reports reports') :
    Backed texts config reports' identity ↔ Backed texts config reports identity :=
  h.forall_iff fun hsame => by simp only [hsame.mem_rows]

theorem Rearranged.convinced_iff (h : Rearranged reports reports') :
    Convinced texts config reports' identity ↔ Convinced texts config reports identity :=
  h.forall_iff fun hsame => by simp only [hsame.mem_rows]

theorem lastBacked_byPeriodOf : LastBacked config identity (byPeriodOf texts reports) ↔
    ∀ report ∈ reports, ∃ row, dictGet (report.pairs texts) identity = some row ∧
      convincing config row = true := by
  unfold LastBacked byPeriodOf
  rw [List.forall_mem_map]

theorem backed_of_lastBacked (h : LastBacked config identity (byPeriodOf texts reports)) :
    Backed texts config reports identity := by
  intro report hreport
  obtain ⟨row, hrow, hconvincing⟩ := lastBacked_byPeriodOf.mp h report hreport
  obtain ⟨hmem, hid⟩ := Report.mem_pairs.mp (mem_of_dictGet hrow)
  exact ⟨row, hmem, hid, hconvincing⟩

theorem lastBacked_of_backed (h : Backed texts config reports identity)
    (hall : Convinced texts config reports identity) :
    LastBacked config identity (byPeriodOf texts reports) := by
  refine lastBacked_byPeriodOf.mpr fun report hreport => ?_
  obtain ⟨row, hrow, hid, -⟩ := h report hreport
  obtain ⟨last, hlast⟩ := dictGet_some (Report.mem_pairs.mpr ⟨hrow, hid⟩)
  obtain ⟨hmem, hid'⟩ := Report.mem_pairs.mp (mem_of_dictGet hlast)
  exact ⟨last, hlast, hall report hreport last hmem hid'⟩

/-- What the decisions say of an identity. -/
def Says (out : GateReport) (identity : Identity) (action : Action) : Prop :=
  ∃ d ∈ out.decisions, d.identity = identity ∧ d.action = action

def Ranks (out : GateReport) (identity : Identity) : Prop :=
  ∃ d ∈ out.rankedResearchCandidates, d.identity = identity

theorem says_iff {action : Action} :
    Says (gateReport config riskVeto (byPeriodOf texts reports)) identity action ↔
      (∃ report ∈ reports, ∃ row ∈ report.rows, identityOf texts row = .ok identity) ∧
        (decisionOf config riskVeto (byPeriodOf texts reports) identity).action = action := by
  have hknown : identity ∈ (((byPeriodOf texts reports).flatMap fun p =>
      p.2.map Prod.fst).dedup.mergeSort identityLe) ↔
        ∃ report ∈ reports, ∃ row ∈ report.rows, identityOf texts row = .ok identity := by
    rw [List.mem_mergeSort, List.mem_dedup, List.mem_flatMap]
    unfold byPeriodOf
    constructor
    · rintro ⟨p, hp, hid⟩
      obtain ⟨report, hreport, rfl⟩ := List.mem_map.mp hp
      obtain ⟨⟨id, row⟩, hrow, rfl⟩ := List.mem_map.mp hid
      obtain ⟨hmem, hid⟩ := Report.mem_pairs.mp hrow
      exact ⟨report, hreport, row, hmem, hid⟩
    · rintro ⟨report, hreport, row, hrow, hid⟩
      exact ⟨_, List.mem_map_of_mem hreport,
        List.mem_map_of_mem (Report.mem_pairs.mpr ⟨hrow, hid⟩)⟩
  unfold Says gateReport
  rw [← hknown]
  constructor
  · rintro ⟨d, hd, rfl, haction⟩
    obtain ⟨id, hid, rfl⟩ := List.mem_map.mp hd
    rw [decisionOf_identity]
    exact ⟨hid, haction⟩
  · rintro ⟨hid, haction⟩
    exact ⟨_, List.mem_map_of_mem hid, decisionOf_identity, haction⟩

theorem ranks_iff {byPeriod : List (String × List (Identity × PyJson))} :
    Ranks (gateReport config riskVeto byPeriod) identity ↔
      Says (gateReport config riskVeto byPeriod) identity .researchCandidate := by
  unfold Ranks Says gateReport
  simp only [List.mem_mergeSort, List.mem_filter, decide_eq_true_eq, and_assoc]
  exact exists_congr fun d => and_congr_right fun _ => and_comm

/-- Two runs decide the same, or both refuse. -/
def SameVerdicts : Except GateError GateReport → Except GateError GateReport → Prop
  | .ok out, .ok out' => (∀ identity action, Says out' identity action ↔ Says out identity action) ∧
      ∀ identity, Ranks out' identity ↔ Ranks out identity
  | .error _, .error _ => True
  | _, _ => False

variable (texts config riskVeto) in
/-- A candidate is backed by all rows that it has, and the order of the rows is without effect. -/
structure GateHolds (reports : List Report) : Prop where
  sound : ∀ out, evaluateSelectiveGate texts config riskVeto reports = .ok out →
    ∀ identity, Says out identity .researchCandidate →
      riskVeto = false ∧ config.minimumIndependentPeriods ≤ reports.length ∧
        Backed texts config reports identity ∧ Convinced texts config reports identity
  unordered : ∀ reports', Rearranged reports reports' →
    SameVerdicts (evaluateSelectiveGate texts config riskVeto reports)
      (evaluateSelectiveGate texts config riskVeto reports')

variable (texts config riskVeto) in
/-- No identity that every period backs has a row that does not. -/
def Unambiguous (reports : List Report) : Prop :=
  riskVeto = true ∨ reports.length < config.minimumIndependentPeriods ∨
    ¬ Identified texts reports ∨ ∀ identity, Backed texts config reports identity →
      Convinced texts config reports identity

theorem length_byPeriodOf : (byPeriodOf texts reports).length = reports.length := List.length_map _

/-- A row can be brought to the end of its report. -/
theorem exists_last (hrow : row ∈ report.rows)
    (hid : identityOf texts row = .ok identity) :
    ∃ report', SameRows report report' ∧ dictGet (report'.pairs texts) identity = some row := by
  obtain ⟨before, after, hsplit⟩ := List.append_of_mem hrow
  have hresults : report.results = .arr report.rows := by
    unfold Report.rows at hrow ⊢
    split
    · next rows heq => exact heq
    · next hne =>
      split at hrow
      · next rows heq => exact absurd heq (hne rows)
      · exact absurd hrow List.not_mem_nil
  refine ⟨{ report with results := .arr (before ++ after ++ [row]) }, ⟨rfl, rfl, rfl,
    report.rows, before ++ after ++ [row], hresults, rfl, ?_⟩, ?_⟩
  · rw [hsplit, List.append_assoc]
    exact (List.perm_append_singleton row after).symm.append_left before
  · unfold Report.pairs Report.rows
    dsimp only
    rw [List.filterMap_append, List.filterMap_cons, hid]
    exact dictGet_concat

/-- Reports of which the last rows back an identity that has a row to do so in each. -/
theorem exists_backed (h : Backed texts config reports identity) :
    ∃ reports', Rearranged reports reports' ∧
      LastBacked config identity (byPeriodOf texts reports') := by
  have hlast : ∃ reports', List.Forall₂ SameRows reports reports' ∧
      ∀ report ∈ reports', ∃ row, dictGet (report.pairs texts) identity = some row ∧
        convincing config row = true := by
    induction reports with
    | nil => exact ⟨[], .nil, fun report hreport => absurd hreport List.not_mem_nil⟩
    | cons report reports ih =>
      obtain ⟨⟨row, hrow, hid, hconvincing⟩, hrest⟩ := List.forall_mem_cons.mp h
      obtain ⟨reports', hsame, hall⟩ := ih hrest
      obtain ⟨report', hreport', hget⟩ := exists_last hrow hid
      exact ⟨report' :: reports', .cons hreport' hsame,
        List.forall_mem_cons.mpr ⟨⟨row, hget, hconvincing⟩, hall⟩⟩
  obtain ⟨reports', hsame, hall⟩ := hlast
  exact ⟨reports', ⟨reports, .refl reports, hsame⟩, lastBacked_byPeriodOf.mpr hall⟩

/-- What the gate says is what the last rows say. -/
theorem says_candidate :
    Says (gateReport config riskVeto (byPeriodOf texts reports)) identity .researchCandidate ↔
      riskVeto = false ∧ config.minimumIndependentPeriods ≤ reports.length ∧
        LastBacked config identity (byPeriodOf texts reports) := by
  rw [says_iff, decisionOf_candidate, length_byPeriodOf]
  refine and_iff_right_of_imp fun h => ?_
  have hpos : 0 < reports.length := by
    have := config.periods
    omega
  obtain ⟨report, hreport⟩ := List.exists_mem_of_length_pos hpos
  obtain ⟨row, hrow, hid, -⟩ := backed_of_lastBacked h.2.2 report hreport
  exact ⟨report, hreport, row, hrow, hid⟩

/-- Where no row speaks against an identity that is backed, the order of the rows is without
effect. -/
theorem decisionOf_backed (h : Unambiguous texts config riskVeto reports)
    (hid : Identified texts reports) :
    (decisionOf config riskVeto (byPeriodOf texts reports) identity).action = .researchCandidate ↔
      riskVeto = false ∧ config.minimumIndependentPeriods ≤ reports.length ∧
        Backed texts config reports identity := by
  rw [decisionOf_candidate, length_byPeriodOf]
  constructor
  · rintro ⟨hveto, henough, hlast⟩
    exact ⟨hveto, henough, backed_of_lastBacked hlast⟩
  · rintro ⟨hveto, henough, hbacked⟩
    refine ⟨hveto, henough, lastBacked_of_backed hbacked ?_⟩
    rcases h with hveto' | hfew | hnone | hall
    · rw [hveto] at hveto'
      cases hveto'
    · exact absurd henough hfew.not_ge
    · exact absurd hid hnone
    · exact hall identity hbacked

theorem Rearranged.unambiguous (h : Rearranged reports reports')
    (hreports : Unambiguous texts config riskVeto reports) :
    Unambiguous texts config riskVeto reports' := by
  unfold Unambiguous at hreports ⊢
  rw [h.length_eq, h.identified_iff]
  simpa only [h.backed_iff, h.convinced_iff] using hreports

theorem wait_iff {d : Decision} : d.action = .wait ↔ ¬ d.action = .researchCandidate := by
  cases d.action with
  | wait => simp
  | researchCandidate => simp

/-- Each identity gets its action in any order. -/
theorem Rearranged.says_iff (hrearranged : Rearranged reports reports')
    (h : Unambiguous texts config riskVeto reports) (hid : Identified texts reports)
    (identity : Identity) (action : Action) :
    Says (gateReport config riskVeto (byPeriodOf texts reports')) identity action ↔
      Says (gateReport config riskVeto (byPeriodOf texts reports)) identity action := by
  have hid' := hrearranged.identified_iff.mpr hid
  have hknown : (∃ report ∈ reports', ∃ row ∈ report.rows,
      identityOf texts row = .ok identity) ↔
        ∃ report ∈ reports, ∃ row ∈ report.rows, identityOf texts row = .ok identity := by
    have hnone := hrearranged.forall_iff
      (P := fun report => ∀ row ∈ report.rows, identityOf texts row ≠ .ok identity)
      fun hsame => by simp only [hsame.mem_rows]
    simpa only [not_forall, not_not, exists_prop] using not_congr hnone
  have hdecides : (decisionOf config riskVeto (byPeriodOf texts reports') identity).action =
      .researchCandidate ↔
        (decisionOf config riskVeto (byPeriodOf texts reports) identity).action =
          .researchCandidate := by
    rw [decisionOf_backed h hid, decisionOf_backed (hrearranged.unambiguous h) hid',
      hrearranged.length_eq, hrearranged.backed_iff]
  rw [SelectiveGate.says_iff, SelectiveGate.says_iff, hknown]
  refine and_congr_right fun _ => ?_
  cases action with
  | wait => rw [wait_iff, wait_iff, hdecides]
  | researchCandidate => exact hdecides

/-- **When the gate holds**: where a risk veto or too few periods leave no candidate, or no row
speaks against an identity that every period backs. -/
theorem gateHolds_iff (hreports : Exploratory reports) :
    GateHolds texts config riskVeto reports ↔ Unambiguous texts config riskVeto reports := by
  constructor
  · rintro ⟨hsound, hunordered⟩
    unfold Unambiguous
    by_contra hno
    push Not at hno
    obtain ⟨hveto, henough, hid, identity, hbacked, hnot⟩ := hno
    obtain ⟨reports', hrearranged, hlast⟩ := exists_backed hbacked
    have hsame := hunordered reports' hrearranged
    rw [evaluate_ok hreports hid, evaluate_ok (hrearranged.exploratory hreports)
      (hrearranged.identified_iff.mpr hid)] at hsame
    have hcandidate := says_candidate.mpr
      ⟨Bool.eq_false_iff.mpr hveto, hrearranged.length_eq ▸ henough, hlast⟩
    exact hnot (hsound _ (evaluate_ok hreports hid) identity
      ((hsame.1 identity .researchCandidate).mp hcandidate)).2.2.2
  · intro h
    constructor
    · intro out hout identity hcandidate
      by_cases hid : Identified texts reports
      · rw [evaluate_ok hreports hid] at hout
        cases hout
        obtain ⟨hveto, henough, hbacked⟩ := (decisionOf_backed h hid).mp (says_iff.mp hcandidate).2
        refine ⟨hveto, henough, hbacked, ?_⟩
        rcases h with hveto' | hfew | hnone | hall
        · rw [hveto] at hveto'
          cases hveto'
        · exact absurd henough hfew.not_ge
        · exact absurd hid hnone
        · exact hall identity hbacked
      · obtain ⟨e, he⟩ := evaluate_error config riskVeto hreports hid
        rw [he] at hout
        cases hout
    · intro reports' hrearranged
      have hreports' := hrearranged.exploratory hreports
      by_cases hid : Identified texts reports
      · have hid' := hrearranged.identified_iff.mpr hid
        rw [evaluate_ok hreports hid, evaluate_ok hreports' hid']
        refine ⟨hrearranged.says_iff h hid, fun identity => ?_⟩
        rw [ranks_iff, ranks_iff]
        exact hrearranged.says_iff h hid identity .researchCandidate
      · obtain ⟨e, he⟩ := evaluate_error config riskVeto hreports hid
        obtain ⟨e', he'⟩ := evaluate_error config riskVeto hreports'
          (mt hrearranged.identified_iff.mp hid)
        rw [he, he']
        trivial

/-! ## Conflicting rows -/

def plainTexts : Texts where
  str
    | .str s => s
    | _ => ""
  repr _ := ""
  int text := text.toInt?
  decimal _ := none
  ofDecimal _ := ""

theorem defaultConfig_periods : 2 ≤ 2 := Nat.le_refl 2

def defaultConfig : SelectiveGateConfig where
  periods := defaultConfig_periods
  events := by decide
  scenario := by decide

def sampleIdentity : Identity := ("candidate_v1", "ETHUSDT", 60)

/-- A row with its mean net of the scenario. -/
def sampleRow (mean : ℤ) : PyJson :=
  .obj [("event_count", .int 40), ("execution_scenarios", .obj [("taker_taker",
      .obj [("mean_net_bps", .int mean), ("median_net_bps", .int 2)])]),
    ("family", .str "candidate_v1"), ("horizon_minutes", .int 60), ("symbol", .str "ETHUSDT")]

def sampleReport (period : String) (rows : List PyJson) : Report where
  period := .str period
  status := .str "EXPLORATORY_ONLY"
  promotionAllowed := .bool false
  results := .arr rows

/-- June loses in its first row, which the second one replaces. -/
def conflictingReports : List Report :=
  [sampleReport "2026-06" [sampleRow (-9), sampleRow 5], sampleReport "2026-07" [sampleRow 5]]

theorem conflictingReports_exploratory : Exploratory conflictingReports where
  valid := List.forall_mem_cons.mpr ⟨rfl, List.forall_mem_singleton.mpr rfl⟩
  distinct := by decide

theorem gateHolds_iff_conflicting :
    GateHolds plainTexts defaultConfig false conflictingReports ↔
      Unambiguous plainTexts defaultConfig false conflictingReports :=
  gateHolds_iff conflictingReports_exploratory

theorem sampleRow_facts : identityOf plainTexts (sampleRow (-9)) = .ok sampleIdentity ∧
    identityOf plainTexts (sampleRow 5) = .ok sampleIdentity ∧
    convincing defaultConfig (sampleRow 5) = true ∧
    convincing defaultConfig (sampleRow (-9)) = false := by
  decide +kernel

/-- A candidate with a row that loses. -/
theorem conflicting_candidate : ¬ ∀ (texts : Texts) (config : SelectiveGateConfig)
    (riskVeto : Bool) (reports : List Report), Exploratory reports →
      GateHolds texts config riskVeto reports := by
  intro hclaim
  obtain ⟨hlosing, hwinning, hconvincing, hnot⟩ := sampleRow_facts
  have hid : Identified plainTexts conflictingReports := by
    refine List.forall_mem_cons.mpr ⟨?_, List.forall_mem_singleton.mpr ?_⟩
    · exact List.forall_mem_cons.mpr ⟨⟨_, hlosing⟩, List.forall_mem_singleton.mpr ⟨_, hwinning⟩⟩
    · exact List.forall_mem_singleton.mpr ⟨_, hwinning⟩
  have hlast : LastBacked defaultConfig sampleIdentity (byPeriodOf plainTexts conflictingReports) := by
    refine lastBacked_byPeriodOf.mpr (List.forall_mem_cons.mpr
      ⟨⟨sampleRow 5, ?_, hconvincing⟩, List.forall_mem_singleton.mpr ⟨sampleRow 5, ?_, hconvincing⟩⟩)
    · rfl
    · rfl
  have hholds := (hclaim plainTexts defaultConfig false conflictingReports
    conflictingReports_exploratory).sound _ (evaluate_ok conflictingReports_exploratory hid)
      sampleIdentity (says_candidate.mpr ⟨rfl, by decide, hlast⟩)
  have hrow := hholds.2.2.2 _ List.mem_cons_self (sampleRow (-9)) List.mem_cons_self hlosing
  rw [hnot] at hrow
  cases hrow

end Greenfield.Research.SelectiveGate
