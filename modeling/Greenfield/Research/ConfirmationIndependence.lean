import Greenfield.Lib.Buckets
import Greenfield.Lib.Ranks
import Greenfield.Research.RegistryFile
import Mathlib.Data.List.Infix
import Mathlib.Data.String.Basic

/-!
# Independence of confirmation families

`evaluate_confirmation_independence` of `src/research/confirmation_independence.py`. Correlations
are held as signed squares and thresholds squared, so that the arithmetic is exact. A report that
passes bounds every pair of families on the whole sample, on every window and in every regime
(`independence_sound`), and the status depends on the ranks up to their direction only.
-/

namespace Greenfield.Research.Independence

open Buckets Py Ranks

/-! ## Configuration and report -/

structure ConfirmationIndependenceConfig where
  version : ℤ
  minPairObservations : ℕ
  maxAbsoluteSpearman : ℚ
  rollingWindowObservations : ℕ
  maxRollingAbsoluteSpearman : ℚ
  minRegimeObservations : ℕ
  versioned : 0 < version
  observations : 3 ≤ minPairObservations ∧ 3 ≤ minRegimeObservations
  window : 3 ≤ rollingWindowObservations
  threshold : 0 < maxAbsoluteSpearman ∧ maxAbsoluteSpearman < 1
  rollingThreshold : 0 < maxRollingAbsoluteSpearman ∧ maxRollingAbsoluteSpearman < 1

inductive IndependenceStatus where
  | pass
  | fail
  | insufficientData
  deriving DecidableEq

inductive DependenceReason where
  | pairSampleTooSmall
  | nonFiniteCorrelation
  | fullSampleDependence
  | rollingWindowDependence
  | regimeDependence
  deriving DecidableEq

/-- The correlations are signed squares. -/
structure FamilyPairDependence where
  familyA : ConfirmationFamily
  familyB : ConfirmationFamily
  observations : ℕ
  spearman : Option ℚ
  maxRollingAbsoluteSpearman : Option ℚ
  maxRegimeAbsoluteSpearman : Option ℚ
  status : IndependenceStatus
  reasons : List DependenceReason
  deriving DecidableEq

structure ConfirmationIndependenceReport where
  schemaVersion : ℤ
  configVersion : ℤ
  asOfUtc : Instant
  families : List ConfirmationFamily
  status : IndependenceStatus
  pairs : List FamilyPairDependence
  deriving DecidableEq

/-! ## Evidence -/

/-- A row of the evidence; a missing regime or score is `none`. -/
structure EvidenceRow where
  timestamp : Instant
  maxSourceTimestamp : Instant
  regime : Option String
  score : ConfirmationFamily → Option ℚ

structure EvidenceFrame where
  columns : List String
  rows : List EvidenceRow

/-- A complete observation of two families. -/
structure PairObservation where
  scores : ℚ × ℚ
  regime : String
  deriving DecidableEq

/-- `data[[family_a, family_b, "regime"]].dropna()`. -/
def completePairs (data : List EvidenceRow) (a b : ConfirmationFamily) : List PairObservation :=
  data.filterMap fun row =>
    match row.score a, row.score b, row.regime with
    | some x, some y, some regime => some ⟨(x, y), regime⟩
    | _, _, _ => none

/-- `nunique`. -/
def nunique (xs : List ℚ) : ℕ := xs.dedup.length

/-- The windows of a length, from the first one on. -/
def rollingWindows (size : ℕ) (pair : List PairObservation) : List (List PairObservation) :=
  (List.range (pair.length + 1 - size)).map fun start => (pair.drop start).take size

/-- The correlation of the two scores. -/
def scoreSpearman (pair : List PairObservation) : Option ℚ :=
  Ranks.spearman (pair.map PairObservation.scores)

/-- Above the threshold. -/
def exceeds (threshold : ℚ) (value : Option ℚ) : Bool :=
  value.any fun v => decide (threshold ^ 2 < |v|)

/-- `pair[family].nunique() < 2`, of one of the families. -/
def isConstant (pair : List PairObservation) : Bool :=
  decide (nunique (pair.map fun o => o.scores.1) < 2) || decide (nunique (pair.map fun o => o.scores.2) < 2)

/-- `rolling`. -/
def rollingValues (config : ConfirmationIndependenceConfig) (pair : List PairObservation) : List ℚ :=
  (rollingWindows config.rollingWindowObservations pair).filterMap fun window =>
    (scoreSpearman window).map abs

/-- `regime_values`. -/
def regimeValues (config : ConfirmationIndependenceConfig) (pair : List PairObservation) : List ℚ :=
  (groups PairObservation.regime pair).filterMap fun g =>
    if config.minRegimeObservations ≤ g.2.length then (scoreSpearman g.2).map abs else none

/-- `reasons`. -/
def dependenceReasons (config : ConfirmationIndependenceConfig) (spearman : ℚ)
    (maxRolling maxRegime : Option ℚ) : List DependenceReason :=
  (if exceeds config.maxAbsoluteSpearman (some spearman) then [.fullSampleDependence] else []) ++
  (if exceeds config.maxRollingAbsoluteSpearman maxRolling then [.rollingWindowDependence] else []) ++
  if exceeds config.maxRollingAbsoluteSpearman maxRegime then [.regimeDependence] else []

/-- `_evaluate_pair`. -/
def evaluatePair (data : List EvidenceRow) (familyA familyB : ConfirmationFamily)
    (config : ConfirmationIndependenceConfig) : FamilyPairDependence :=
  let pair := completePairs data familyA familyB
  let failed (status : IndependenceStatus) (reason : DependenceReason) : FamilyPairDependence :=
    ⟨familyA, familyB, pair.length, none, none, none, status, [reason]⟩
  if pair.length < config.minPairObservations then failed .insufficientData .pairSampleTooSmall
  else if isConstant pair then failed .fail .nonFiniteCorrelation
  else
    match scoreSpearman pair with
    | none => failed .fail .nonFiniteCorrelation
    | some spearman =>
      let maxRolling := (rollingValues config pair).max?
      let maxRegime := (regimeValues config pair).max?
      let reasons := dependenceReasons config spearman maxRolling maxRegime
      { familyA, familyB
        observations := pair.length
        spearman := some spearman
        maxRollingAbsoluteSpearman := maxRolling
        maxRegimeAbsoluteSpearman := maxRegime
        status := if reasons = [] then .pass else .fail
        reasons }

/-- `combinations(family_columns, 2)`. -/
def familyPairs : List ConfirmationFamily → List (ConfirmationFamily × ConfirmationFamily)
  | [] => []
  | a :: rest => rest.map (fun b => (a, b)) ++ familyPairs rest

/-- The members of `ConfirmationFamily`. -/
def confirmationFamilies : List ConfirmationFamily :=
  [.priceAuction, .orderFlow, .derivatives, .volatilityOptions, .crossMarket, .regimeAnalog]

/-- `data.sort_values("timestamp", kind="mergesort")`. -/
def inTimeOrder (rows : List EvidenceRow) : List EvidenceRow :=
  sorted (fun a b => decide (a.timestamp ≤ b.timestamp)) rows

def overallStatus (pairs : List FamilyPairDependence) : IndependenceStatus :=
  if ∃ pair ∈ pairs, pair.status = .fail then .fail
  else if ∃ pair ∈ pairs, pair.status = .insufficientData then .insufficientData
  else .pass

/-- The checks of the evidence: the time, the families and the rows in order. -/
def validatedEvidence (frame : EvidenceFrame) (asOfUtc : Datetime) :
    Except PyError (Instant × List ConfirmationFamily × List EvidenceRow) := do
  let asOf ← utcOr asOfUtc "as_of_utc must be timezone-aware"
  let missing := ["max_source_timestamp", "regime", "timestamp"].filter fun c => c ∉ frame.columns
  require missing.isEmpty
    (.valueError ("missing columns: [" ++ String.intercalate ", " (missing.map quoted) ++ "]"))
  let familyColumns := confirmationFamilies.filter fun family => family.value ∈ frame.columns
  require (2 ≤ familyColumns.length) (.valueError "at least two confirmation families are required")
  require (frame.rows.map EvidenceRow.timestamp).Nodup (.valueError "timestamps must be unique")
  require (∀ row ∈ frame.rows, row.timestamp ≤ asOf ∧ row.maxSourceTimestamp ≤ row.timestamp)
    (.valueError "future information is forbidden")
  return (asOf, familyColumns, inTimeOrder frame.rows)

/-- `evaluate_confirmation_independence`. -/
def evaluateConfirmationIndependence (frame : EvidenceFrame) (asOfUtc : Datetime)
    (config : ConfirmationIndependenceConfig) : Except PyError ConfirmationIndependenceReport := do
  let (asOf, families, data) ← validatedEvidence frame asOfUtc
  let pairs := (familyPairs families).map fun pair => evaluatePair data pair.1 pair.2 config
  return {
    schemaVersion := 1
    configVersion := config.version
    asOfUtc := asOf
    families
    status := overallStatus pairs
    pairs }

/-! ## What a pass promises -/

section Sound

variable {data : List EvidenceRow} {a b : ConfirmationFamily}
  {config : ConfirmationIndependenceConfig} {t : ℚ} {pair window : List PairObservation}

/-- Correlation of two families within the thresholds, on the rows in order. -/
structure IndependentPair (config : ConfirmationIndependenceConfig) (data : List EvidenceRow)
    (a b : ConfirmationFamily) : Prop where
  enough : config.minPairObservations ≤ (completePairs data a b).length
  sample : Within config.maxAbsoluteSpearman ((completePairs data a b).map PairObservation.scores)
  windows : ∀ window, window <:+: completePairs data a b →
    window.length = config.rollingWindowObservations →
      Within config.maxRollingAbsoluteSpearman (window.map PairObservation.scores)
  regimes : ∀ regime,
    config.minRegimeObservations ≤ ((completePairs data a b).filter fun o => o.regime = regime).length →
      Within config.maxRollingAbsoluteSpearman
        (((completePairs data a b).filter fun o => o.regime = regime).map PairObservation.scores)

theorem mem_rollingWindows {size : ℕ} (hpart : window <:+: pair) (hsize : window.length = size) :
    window ∈ rollingWindows size pair := by
  obtain ⟨before, after, rfl⟩ := hpart
  refine List.mem_map.mpr ⟨before.length, List.mem_range.mpr ?_, ?_⟩
  · simp only [List.length_append]
    omega
  · rw [List.append_assoc, List.drop_left, List.take_left' hsize]

variable {values : List ℚ}

/-- A maximum that is not above the threshold. -/
theorem le_of_not_exceeds (hpos : ∀ v ∈ values, 0 ≤ v)
    (h : ¬exceeds t values.max? = true) : ∀ v ∈ values, v ≤ t ^ 2 := by
  intro v hv
  cases hmax : values.max? with
  | none =>
    rw [List.max?_eq_none_iff.mp hmax] at hv
    cases hv
  | some m =>
    obtain ⟨hm, hle⟩ := List.max?_eq_some_iff.mp hmax
    rw [hmax] at h
    have hbound : |m| ≤ t ^ 2 := by simpa [exceeds] using h
    rw [abs_of_nonneg (hpos m hm)] at hbound
    exact (hle v hv).trans hbound

theorem within_of_le (hle : ∀ v ∈ values, v ≤ t ^ 2)
    (hmem : ∀ v ∈ scoreSpearman pair, |v| ∈ values) : Within t (pair.map PairObservation.scores) :=
  within_iff.mpr fun v hv => hle _ (hmem v hv)

theorem rollingValues_nonneg : ∀ v ∈ rollingValues config pair, 0 ≤ v := by
  intro v hv
  obtain ⟨w, -, hw⟩ := List.mem_filterMap.mp hv
  obtain ⟨x, -, rfl⟩ := Option.map_eq_some_iff.mp hw
  exact abs_nonneg x

theorem regimeValues_nonneg : ∀ v ∈ regimeValues config pair, 0 ≤ v := by
  intro v hv
  obtain ⟨g, -, hg⟩ := List.mem_filterMap.mp hv
  split at hg
  · obtain ⟨x, -, rfl⟩ := Option.map_eq_some_iff.mp hg
    exact abs_nonneg x
  · cases hg

/-- **A pair that passes is independent.** -/
theorem evaluatePair_pass (h : (evaluatePair data a b config).status = .pass) :
    IndependentPair config data a b := by
  unfold evaluatePair at h
  simp only at h
  split at h
  · cases h
  next henough =>
  split at h
  · cases h
  split at h
  · cases h
  next spearman hspearman =>
  set pair := completePairs data a b with hpair
  obtain ⟨hsample, hwindows, hgroups⟩ : ¬exceeds config.maxAbsoluteSpearman (some spearman) = true ∧
      ¬exceeds config.maxRollingAbsoluteSpearman (rollingValues config pair).max? = true ∧
      ¬exceeds config.maxRollingAbsoluteSpearman (regimeValues config pair).max? = true := by
    simpa [dependenceReasons, List.append_eq_nil_iff, and_assoc] using h
  refine ⟨not_lt.mp henough, within_iff.mpr fun v hv => ?_, fun window hpart hsize => ?_,
    fun regime hregime => ?_⟩
  · obtain rfl : spearman = v := Option.some.inj (hspearman.symm.trans hv)
    simpa [exceeds] using hsample
  · refine within_of_le (le_of_not_exceeds rollingValues_nonneg hwindows) fun v hv =>
      List.mem_filterMap.mpr ⟨window, mem_rollingWindows hpart hsize, ?_⟩
    rw [show scoreSpearman window = some v from hv]
    rfl
  · set members := pair.filter fun o => o.regime = regime with hmembers
    have hne : members ≠ [] := by
      intro hnil
      have hthree := config.observations.2
      rw [hnil, List.length_nil] at hregime
      omega
    obtain ⟨o, ho⟩ := List.exists_mem_of_ne_nil _ hne
    obtain ⟨ho, hoRegime⟩ := List.mem_filter.mp ho
    refine within_of_le (le_of_not_exceeds regimeValues_nonneg hgroups) fun v hv =>
      List.mem_filterMap.mpr ⟨(regime, members),
        mem_groups.mpr ⟨⟨o, ho, of_decide_eq_true hoRegime⟩, rfl⟩, ?_⟩
    rw [if_pos hregime, show scoreSpearman members = some v from hv]
    rfl

variable {families : List ConfirmationFamily}

theorem mem_familyPairs (h : [a, b].Sublist families) :
    (a, b) ∈ familyPairs families := by
  induction families with
  | nil => cases h
  | cons family rest ih =>
    rcases List.sublist_cons_iff.mp h with h | ⟨tail, htail, hsub⟩
    · exact List.mem_append_right _ (ih h)
    · obtain ⟨rfl, rfl⟩ := List.cons.inj htail
      exact List.mem_append_left _ (List.mem_map_of_mem (List.singleton_sublist.mp hsub))

/-- A report passes if all its pairs do. -/
theorem overallStatus_pass {pairs : List FamilyPairDependence} (h : overallStatus pairs = .pass) :
    ∀ pair ∈ pairs, pair.status = .pass := by
  intro pair hmem
  unfold overallStatus at h
  split at h
  · cases h
  next hfail =>
  split at h
  · cases h
  next hinsufficient =>
  cases hstatus : pair.status with
  | pass => rfl
  | fail => exact absurd ⟨pair, hmem, hstatus⟩ hfail
  | insufficientData => exact absurd ⟨pair, hmem, hstatus⟩ hinsufficient

theorem validatedEvidence_rows_eq {frame : EvidenceFrame} {asOfUtc : Datetime} {asOf : Instant}
    (h : validatedEvidence frame asOfUtc = .ok (asOf, families, data)) :
    data = inTimeOrder frame.rows := by
  obtain ⟨_, -, h⟩ := bind_eq_ok.mp h
  obtain ⟨_, -, h⟩ := bind_eq_ok.mp h
  obtain ⟨_, -, h⟩ := bind_eq_ok.mp h
  obtain ⟨_, -, h⟩ := bind_eq_ok.mp h
  obtain ⟨_, -, h⟩ := bind_eq_ok.mp h
  exact (congrArg (fun v => v.2.2) (Except.ok.inj h)).symm

end Sound

/-! ## Maps of the scores -/

/-- The scores of a family, each mapped. -/
def EvidenceRow.mapScores (f : ConfirmationFamily → ℚ → ℚ) (row : EvidenceRow) : EvidenceRow :=
  { row with score := fun family => (row.score family).map (f family) }

def EvidenceFrame.mapScores (f : ConfirmationFamily → ℚ → ℚ) (frame : EvidenceFrame) : EvidenceFrame :=
  { frame with rows := frame.rows.map (EvidenceRow.mapScores f) }

def PairObservation.mapScores (f g : ℚ → ℚ) (o : PairObservation) : PairObservation :=
  { o with scores := Prod.map f g o.scores }

section Maps

variable {f : ConfirmationFamily → ℚ → ℚ} {s : ConfirmationFamily → ℚ} {g h : ℚ → ℚ} {x y : ℚ}
  {pair : List PairObservation} {data : List EvidenceRow}
  {config : ConfirmationIndependenceConfig}

theorem completePairs_map (f : ConfirmationFamily → ℚ → ℚ) (data : List EvidenceRow)
    (a b : ConfirmationFamily) : completePairs (data.map (EvidenceRow.mapScores f)) a b =
      (completePairs data a b).map (PairObservation.mapScores (f a) (f b)) := by
  simp only [completePairs, List.filterMap_map, List.map_filterMap]
  refine List.filterMap_congr fun row _ => ?_
  simp only [Function.comp_apply, EvidenceRow.mapScores]
  cases row.score a <;> cases row.score b <;> cases row.regime <;> rfl

theorem scoreSpearman_map (hg : Directed g x) (hh : Directed h y) (pair : List PairObservation) :
    scoreSpearman (pair.map (PairObservation.mapScores g h)) =
      (scoreSpearman pair).map (x * y * ·) := by
  rw [scoreSpearman, scoreSpearman, ← spearman_map hg hh, List.map_map, List.map_map]
  rfl

/-- Directed maps keep the absolute correlation. -/
theorem abs_scoreSpearman_map (hg : Directed g x) (hh : Directed h y) (pair : List PairObservation) :
    (scoreSpearman (pair.map (PairObservation.mapScores g h))).map abs =
      (scoreSpearman pair).map abs := by
  rw [scoreSpearman_map hg hh, Option.map_map]
  refine Option.map_congr fun v _ => ?_
  rw [Function.comp_apply, abs_mul, abs_mul, hg.abs_eq, hh.abs_eq, one_mul, one_mul]

theorem nunique_map (hg : Function.Injective g) (xs : List ℚ) : nunique (xs.map g) = nunique xs := by
  rw [nunique, List.dedup_map_of_injective hg, List.length_map, nunique]

theorem rollingWindows_map (k : PairObservation → PairObservation) (size : ℕ)
    (pair : List PairObservation) :
    rollingWindows size (pair.map k) = (rollingWindows size pair).map (List.map k) := by
  simp [rollingWindows, List.map_drop, List.map_take, Function.comp_def]

theorem groups_map (g h : ℚ → ℚ) (pair : List PairObservation) :
    groups PairObservation.regime (pair.map (PairObservation.mapScores g h)) =
      (groups PairObservation.regime pair).map fun p =>
        (p.1, p.2.map (PairObservation.mapScores g h)) := by
  simp only [groups, keysOf, List.map_map, List.filter_map]
  rfl

theorem isConstant_map (hg : Directed g x) (hh : Directed h y) (pair : List PairObservation) :
    isConstant (pair.map (PairObservation.mapScores g h)) = isConstant pair := by
  unfold isConstant
  rw [← nunique_map hg.injective (pair.map fun o => o.scores.1),
    ← nunique_map hh.injective (pair.map fun o => o.scores.2)]
  simp only [List.map_map]
  rfl

theorem rollingValues_map (hg : Directed g x) (hh : Directed h y) (pair : List PairObservation) :
    rollingValues config (pair.map (PairObservation.mapScores g h)) = rollingValues config pair := by
  rw [rollingValues, rollingWindows_map, List.filterMap_map]
  exact List.filterMap_congr fun window _ => abs_scoreSpearman_map hg hh window

theorem regimeValues_map (hg : Directed g x) (hh : Directed h y) (pair : List PairObservation) :
    regimeValues config (pair.map (PairObservation.mapScores g h)) = regimeValues config pair := by
  rw [regimeValues, groups_map, List.filterMap_map]
  refine List.filterMap_congr fun p _ => ?_
  rw [Function.comp_apply, List.length_map, abs_scoreSpearman_map hg hh]

/-- **A pair after directed maps**: only the sign of its correlation may change. -/
theorem evaluatePair_map (hf : ∀ family, Directed (f family) (s family)) (data : List EvidenceRow)
    (a b : ConfirmationFamily) (config : ConfirmationIndependenceConfig) :
    evaluatePair (data.map (EvidenceRow.mapScores f)) a b config =
      { evaluatePair data a b config with
        spearman := (evaluatePair data a b config).spearman.map (s a * s b * ·) } := by
  unfold evaluatePair
  simp only [completePairs_map, List.length_map, isConstant_map (hf a) (hf b),
    rollingValues_map (hf a) (hf b), regimeValues_map (hf a) (hf b), scoreSpearman_map (hf a) (hf b)]
  split
  · rfl
  split
  · rfl
  cases hspearman : scoreSpearman (completePairs data a b) with
  | none => rfl
  | some v =>
    have hexceeds : exceeds config.maxAbsoluteSpearman (some (s a * s b * v)) =
        exceeds config.maxAbsoluteSpearman (some v) := by
      simp [exceeds, abs_mul, (hf a).abs_eq, (hf b).abs_eq]
    simp [dependenceReasons, hexceeds]

theorem inTimeOrder_map (f : ConfirmationFamily → ℚ → ℚ) (rows : List EvidenceRow) :
    inTimeOrder (rows.map (EvidenceRow.mapScores f)) =
      (inTimeOrder rows).map (EvidenceRow.mapScores f) :=
  (List.map_insertionSort _ _ (EvidenceRow.mapScores f) rows fun _ _ _ _ => Iff.rfl).symm

variable {rows rows' : List EvidenceRow}

/-- The checks read the rows only by their timestamps. -/
theorem validatedEvidence_rows (columns : List String) (asOfUtc : Datetime)
    (k : EvidenceRow → EvidenceRow)
    (hnodup : (rows'.map EvidenceRow.timestamp).Nodup ↔ (rows.map EvidenceRow.timestamp).Nodup)
    (hpast : ∀ asOf, (∀ row ∈ rows', row.timestamp ≤ asOf ∧ row.maxSourceTimestamp ≤ row.timestamp) ↔
      ∀ row ∈ rows, row.timestamp ≤ asOf ∧ row.maxSourceTimestamp ≤ row.timestamp)
    (hrows : (rows.map EvidenceRow.timestamp).Nodup → inTimeOrder rows' = (inTimeOrder rows).map k) :
    validatedEvidence ⟨columns, rows'⟩ asOfUtc =
      (validatedEvidence ⟨columns, rows⟩ asOfUtc).map fun v => (v.1, v.2.1, v.2.2.map k) := by
  unfold validatedEvidence
  cases utcOr asOfUtc "as_of_utc must be timezone-aware" with
  | error e => rfl
  | ok asOf =>
    simp only [bind, Except.bind, require, hnodup, hpast]
    split_ifs with hmissing hfamilies htimes hfuture
    · rw [hrows (of_decide_eq_true htimes)]
      rfl
    all_goals rfl

theorem validatedEvidence_map (f : ConfirmationFamily → ℚ → ℚ) (frame : EvidenceFrame)
    (asOfUtc : Datetime) : validatedEvidence (frame.mapScores f) asOfUtc =
      (validatedEvidence frame asOfUtc).map fun v =>
        (v.1, v.2.1, v.2.2.map (EvidenceRow.mapScores f)) := by
  refine validatedEvidence_rows _ _ _ ?_ (fun asOf => List.forall_mem_map) fun _ =>
    inTimeOrder_map f frame.rows
  rw [List.map_map]
  rfl

/-- Rows with distinct timestamps have one order. -/
theorem inTimeOrder_perm (hperm : rows'.Perm rows)
    (hnodup : (rows.map EvidenceRow.timestamp).Nodup) : inTimeOrder rows' = inTimeOrder rows := by
  have hmem : ∀ x, x ∈ inTimeOrder rows ↔ x ∈ rows := fun x => mem_sorted
  refine sorted_eq_of_perm (fun a b => by simpa using le_total a.timestamp b.timestamp)
    (fun a b c hab hbc => ?_) (hperm.trans (List.perm_insertionSort _ rows).symm)
    ((pairwise_sorted_key EvidenceRow.timestamp rows).imp fun h => decide_eq_true h)
    fun a ha b hb hab hba => ?_
  · simp only [decide_eq_true_eq] at hab hbc ⊢
    exact hab.trans hbc
  · simp only [decide_eq_true_eq] at hab hba
    exact List.inj_on_of_nodup_map hnodup ((hmem a).mp ha) ((hmem b).mp hb) (le_antisymm hab hba)

theorem validatedEvidence_perm {frame : EvidenceFrame} {rows : List EvidenceRow}
    (hperm : rows.Perm frame.rows) (asOfUtc : Datetime) :
    validatedEvidence { frame with rows } asOfUtc = validatedEvidence frame asOfUtc := by
  have hsame := validatedEvidence_rows frame.columns asOfUtc id
    (hperm.map EvidenceRow.timestamp).nodup_iff
    (fun asOf => forall_congr' fun row => by rw [hperm.mem_iff])
    (fun hnodup => by rw [List.map_id, inTimeOrder_perm hperm hnodup])
  rw [hsame]
  simp only [List.map_id, Prod.mk.eta]
  cases validatedEvidence frame asOfUtc <;> rfl

theorem evaluatePair_families (data : List EvidenceRow) (a b : ConfirmationFamily)
    (config : ConfirmationIndependenceConfig) : (evaluatePair data a b config).familyA = a ∧
      (evaluatePair data a b config).familyB = b := by
  unfold evaluatePair
  simp only
  split
  · exact ⟨rfl, rfl⟩
  split
  · exact ⟨rfl, rfl⟩
  split <;> exact ⟨rfl, rfl⟩

/-- A pair whose correlation has the sign of the maps. -/
def FamilyPairDependence.signed (s : ConfirmationFamily → ℚ) (pair : FamilyPairDependence) :
    FamilyPairDependence :=
  { pair with spearman := pair.spearman.map (s pair.familyA * s pair.familyB * ·) }

theorem overallStatus_signed (s : ConfirmationFamily → ℚ) (pairs : List FamilyPairDependence) :
    overallStatus (pairs.map (FamilyPairDependence.signed s)) = overallStatus pairs := by
  simp [overallStatus, FamilyPairDependence.signed]

/-- **A report after directed maps.** -/
theorem evaluate_map (hf : ∀ family, Directed (f family) (s family)) (frame : EvidenceFrame)
    (asOfUtc : Datetime) (config : ConfirmationIndependenceConfig) :
    evaluateConfirmationIndependence (frame.mapScores f) asOfUtc config =
      (evaluateConfirmationIndependence frame asOfUtc config).map fun report =>
        { report with pairs := report.pairs.map (FamilyPairDependence.signed s) } := by
  have hpair : ∀ (data : List EvidenceRow) (a b : ConfirmationFamily),
      evaluatePair (data.map (EvidenceRow.mapScores f)) a b config =
        (evaluatePair data a b config).signed s := by
    intro data a b
    rw [evaluatePair_map hf]
    simp only [FamilyPairDependence.signed, (evaluatePair_families data a b config).1,
      (evaluatePair_families data a b config).2]
  unfold evaluateConfirmationIndependence
  rw [validatedEvidence_map]
  cases validatedEvidence frame asOfUtc with
  | error e => rfl
  | ok v =>
    obtain ⟨asOf, families, data⟩ := v
    have hpairs : ((familyPairs families).map fun pair =>
        evaluatePair (data.map (EvidenceRow.mapScores f)) pair.1 pair.2 config) =
        ((familyPairs families).map fun pair =>
          evaluatePair data pair.1 pair.2 config).map (FamilyPairDependence.signed s) := by
      rw [List.map_map]
      exact List.map_congr_left fun pair _ => hpair data pair.1 pair.2
    simp only [bind, Except.bind, Except.map, pure, Except.pure, hpairs, overallStatus_signed]

/-- Increasing maps change nothing. -/
theorem evaluate_strictMono (hf : ∀ family, StrictMono (f family)) (frame : EvidenceFrame)
    (asOfUtc : Datetime) (config : ConfirmationIndependenceConfig) :
    evaluateConfirmationIndependence (frame.mapScores f) asOfUtc config =
      evaluateConfirmationIndependence frame asOfUtc config := by
  rw [evaluate_map (s := fun _ => 1) fun family => .inl ⟨rfl, hf family⟩]
  have hid : FamilyPairDependence.signed (fun _ => 1) = id := by
    funext pair
    simp [FamilyPairDependence.signed]
  simp only [hid, List.map_id]
  cases evaluateConfirmationIndependence frame asOfUtc config <;> rfl

end Maps

/-- **The verdict is sound and depends on ranks only.** A report that passes has bounded every pair
of its families. The order of the rows and increasing maps of the scores change nothing, and negated
scores do not change the status. -/
theorem independence_sound (frame : EvidenceFrame) (asOfUtc : Datetime)
    (config : ConfirmationIndependenceConfig) :
    (∀ report, evaluateConfirmationIndependence frame asOfUtc config = .ok report →
      report.status = .pass → ∀ a b, [a, b].Sublist report.families →
        IndependentPair config (inTimeOrder frame.rows) a b) ∧
    (∀ rows, rows.Perm frame.rows →
      evaluateConfirmationIndependence { frame with rows } asOfUtc config =
        evaluateConfirmationIndependence frame asOfUtc config) ∧
    (∀ f : ConfirmationFamily → ℚ → ℚ, (∀ family, StrictMono (f family)) →
      evaluateConfirmationIndependence (frame.mapScores f) asOfUtc config =
        evaluateConfirmationIndependence frame asOfUtc config) ∧
    ∀ negated : ConfirmationFamily → Bool,
      (evaluateConfirmationIndependence
          (frame.mapScores fun family x => if negated family then -x else x) asOfUtc config).map
          ConfirmationIndependenceReport.status =
        (evaluateConfirmationIndependence frame asOfUtc config).map
          ConfirmationIndependenceReport.status := by
  refine ⟨fun report hok hpass a b hsub => ?_, fun rows hperm => ?_,
    fun f hf => evaluate_strictMono hf frame asOfUtc config, fun negated => ?_⟩
  · obtain ⟨⟨asOf, families, data⟩, hvalid, hreport⟩ := bind_eq_ok.mp hok
    obtain rfl := Except.ok.inj hreport
    rw [← validatedEvidence_rows_eq hvalid]
    exact evaluatePair_pass (overallStatus_pass hpass _
      (List.mem_map_of_mem (mem_familyPairs hsub)))
  · unfold evaluateConfirmationIndependence
    rw [validatedEvidence_perm hperm]
  · have hdirected : ∀ family, Directed (fun x : ℚ => if negated family then -x else x)
        (if negated family then -1 else 1) := by
      intro family
      cases negated family with
      | false => exact .inl ⟨rfl, strictMono_id⟩
      | true => exact .inr ⟨rfl, fun x y h => neg_lt_neg h⟩
    rw [evaluate_map hdirected]
    cases evaluateConfirmationIndependence frame asOfUtc config <;> rfl

end Greenfield.Research.Independence
