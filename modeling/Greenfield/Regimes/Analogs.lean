import Greenfield.Lib.Greedy
import Greenfield.Lib.Interpolate
import Greenfield.Py.Basic
import Mathlib.Data.List.Dedup
import Mathlib.Data.List.Forall2
import Mathlib.Data.Rat.Floor

/-!
# Historical analogs

`find_historical_analogs` of `src/regimes/analogs.py`. Only the rows up to the query are read
(`search_append`), and of the candidates, ranked by their distance, those are taken whose outcome
paths do not overlap (`findHistoricalAnalogs_isAnalogSearch`). The square root, `str.upper` and the
digest of the configuration are parameters.
-/

namespace Greenfield.Regimes

open Py Interpolation Greedy

inductive AnalogError where
  | valueError (msg : String)
  | indexError (msg : String)
  deriving DecidableEq

structure AnalogFamily where
  name : String
  features : List String
  weight : ℚ := 1
  named : name ≠ "" ∧ strip name = name
  featured : features ≠ []
  distinct : features.Nodup
  weighted : 0 < weight

structure AnalogSearchConfig where
  families : List AnalogFamily
  horizonsBars : List ℕ := [1, 6, 24]
  neighborCount : ℕ := 20
  minimumNeighbors : ℕ := 10
  maximumDistance : ℚ := 3
  minimumQualityScore : ℚ := 4 / 5
  requireSameRegime : Bool := true
  families_ne_nil : families ≠ []
  families_nodup : (families.map AnalogFamily.name).Nodup
  features_nodup : (families.flatMap AnalogFamily.features).Nodup
  horizons_ne_nil : horizonsBars ≠ []
  horizons_pos : ∀ horizon ∈ horizonsBars, 0 < horizon
  horizons_pairwise : horizonsBars.Pairwise (· < ·)
  neighborCount_pos : 1 ≤ neighborCount
  minimumNeighbors_pos : 1 ≤ minimumNeighbors
  minimumNeighbors_le : minimumNeighbors ≤ neighborCount
  maximumDistance_pos : 0 < maximumDistance
  minimumQualityScore_nonneg : 0 ≤ minimumQualityScore
  minimumQualityScore_le : minimumQualityScore ≤ 1

/-- A row of an analog frame. The asset is `none` where the frame has no such column. -/
structure AnalogRow where
  timestamp : ℤ
  maxSourceTimestamp : ℤ
  asset : Option String
  close : ℚ
  regime : String
  dataQualityScore : ℚ
  features : String → ℚ

/-- The dictionaries over the horizons are lists in their order. -/
structure AnalogNeighbor where
  timestampUtc : ℤ
  maxSourceTimestampUtc : ℤ
  distance : ℚ
  familyDistances : List (String × ℚ)
  regime : String
  dataQualityScore : ℚ
  forwardReturns : List (ℕ × ℚ)
  adverseReturns : List (ℕ × ℚ)
  favorableReturns : List (ℕ × ℚ)
  deriving DecidableEq

structure AnalogDistribution where
  horizonBars : ℕ
  sampleSize : ℕ
  meanReturn : ℚ
  medianReturn : ℚ
  returnQ10 : ℚ
  returnQ25 : ℚ
  returnQ75 : ℚ
  returnQ90 : ℚ
  positiveProbability : ℚ
  adverseReturnQ10 : ℚ
  favorableReturnQ90 : ℚ
  deriving DecidableEq

structure HistoricalAnalogResult where
  queryTimestampUtc : ℤ
  dataCutoffUtc : ℤ
  datasetVersion : String
  codeVersion : String
  configurationFingerprint : String
  regime : String
  isMeaningful : Bool
  warning : Option String
  eligibleCandidateCount : ℕ
  neighbors : List AnalogNeighbor
  distributions : List (ℕ × AnalogDistribution)
  deriving DecidableEq

/-- What the search takes from outside. -/
structure AnalogLibrary where
  upper : String → String
  sqrt : ℚ → ℚ
  configFingerprint : AnalogSearchConfig → String

/-! ## Samples -/

def mean (values : List ℚ) : ℚ := values.sum / values.length

/-- `np.quantile`. -/
def quantile (values : List ℚ) (probability : ℚ) : ℚ :=
  let ordered := sorted (fun a b => a ≤ b) values
  interpolate (fun i => ordered.getD i.toNat 0) ((values.length - 1 : ℚ) * probability)

def median (values : List ℚ) : ℚ := quantile values (1 / 2)

/-- The variance of `std(ddof=0)`. -/
def variance (values : List ℚ) : ℚ := mean (values.map fun x => (x - mean values) ^ 2)

/-! ## Distances -/

/-- A row with its place in the sorted frame. -/
abbrev AnalogCandidate := AnalogRow × ℕ

/-- A candidate with its distances. -/
structure ScoredCandidate where
  index : ℕ
  distance : ℚ
  familyDistances : List (String × ℚ)
  deriving DecidableEq

section

variable (library : AnalogLibrary) (config : AnalogSearchConfig)

/-- The scale of a feature: the median absolute deviation, else the deviation, else one. -/
def featureScale (candidates : List AnalogCandidate) (feature : String) : ℚ :=
  let history := candidates.map fun c => c.1.features feature
  let center := median history
  let mad := median (history.map fun x => |x - center|) * (14826 / 10000)
  let scale := if 0 < mad then mad else library.sqrt (variance history)
  if 0 < scale then scale else 1

/-- `_family_distances`, of one candidate and one family. -/
def familyDistance (candidates : List AnalogCandidate) (query row : AnalogRow) (family : AnalogFamily) :
    ℚ :=
  library.sqrt (mean (family.features.map fun feature =>
    ((row.features feature - query.features feature) / featureScale library candidates feature) ^ 2))

/-- A candidate with its overall distance. -/
def score (candidates : List AnalogCandidate) (query : AnalogRow) (c : AnalogCandidate) :
    ScoredCandidate :=
  let distances := config.families.map fun family =>
    (family, familyDistance library candidates query c.1 family)
  { index := c.2
    distance := library.sqrt ((distances.map fun d => d.2 ^ 2 * d.1.weight).sum /
      (config.families.map AnalogFamily.weight).sum)
    familyDistances := distances.map fun d => (d.1.name, d.2) }

/-- `max(config.horizons_bars)`. -/
def AnalogSearchConfig.maxHorizon : ℕ := config.horizonsBars.foldr max 0

/-- The candidates up to an index. -/
def candidatesOf (value : List AnalogRow) (query : AnalogRow) (lastCandidateIndex : ℕ) :
    List AnalogCandidate :=
  ((value.zipIdx.take (lastCandidateIndex + 1)).filter fun c =>
    config.minimumQualityScore ≤ c.1.dataQualityScore).filter fun c =>
      !config.requireSameRegime || c.1.regime = query.regime

/-- `within_distance`. -/
def withinDistance (candidates : List AnalogCandidate) (query : AnalogRow) : List ScoredCandidate :=
  (candidates.map (score library config candidates query)).filter fun s =>
    s.distance ≤ config.maximumDistance

/-- The outcome paths of two candidates overlap. -/
def overlap (maximumOutcomeHorizon : ℕ) (a b : ScoredCandidate) : Bool :=
  |(a.index : ℤ) - b.index| ≤ maximumOutcomeHorizon

/-- `_select_non_overlapping`. -/
def selectNonOverlapping (candidates : List ScoredCandidate) (maximumOutcomeHorizon neighborCount : ℕ) :
    List ScoredCandidate :=
  greedy (overlap maximumOutcomeHorizon) neighborCount []
    (sorted (fun a b => a.distance ≤ b.distance) candidates)

/-! ## Outcomes -/

/-- `frame.iloc[i]`. -/
def rowAt (frame : List AnalogRow) (i : ℕ) : Except AnalogError AnalogRow :=
  frame[i]?.elim (.error (.indexError "single positional indexer is out-of-bounds")) .ok

/-- The closes after an index. -/
def closesAfter (frame : List AnalogRow) (index horizon : ℕ) : List ℚ :=
  ((frame.drop (index + 1)).take horizon).map AnalogRow.close

/-- The return at the end of a path, the lowest and the highest. -/
def pathReturns (frame : List AnalogRow) (index : ℕ) (entry : ℚ) (horizon : ℕ) :
    Except AnalogError (ℕ × ℚ × ℚ × ℚ) :=
  let path := closesAfter frame index horizon
  let returns := path.map fun close => close / entry - 1
  match path.getLast? with
  | some last => .ok (horizon, last / entry - 1, (returns.min?).getD 0, (returns.max?).getD 0)
  | none => .error (.indexError "single positional indexer is out-of-bounds")

/-- `_neighbor`. -/
def neighborOf (frame : List AnalogRow) (s : ScoredCandidate) : Except AnalogError AnalogNeighbor := do
  let row ← rowAt frame s.index
  let outcomes ← config.horizonsBars.mapM (pathReturns frame s.index row.close)
  return {
    timestampUtc := row.timestamp
    maxSourceTimestampUtc := row.maxSourceTimestamp
    distance := s.distance
    familyDistances := s.familyDistances
    regime := row.regime
    dataQualityScore := row.dataQualityScore
    forwardReturns := outcomes.map fun o => (o.1, o.2.1)
    adverseReturns := outcomes.map fun o => (o.1, o.2.2.1)
    favorableReturns := outcomes.map fun o => (o.1, o.2.2.2) }

/-- `_distribution`. -/
def distribution (neighbors : List AnalogNeighbor) (horizon : ℕ) : AnalogDistribution :=
  let returnsOf (returns : AnalogNeighbor → List (ℕ × ℚ)) : List ℚ :=
    neighbors.map fun n => ((returns n).lookup horizon).getD 0
  let returns := returnsOf AnalogNeighbor.forwardReturns
  { horizonBars := horizon
    sampleSize := neighbors.length
    meanReturn := mean returns
    medianReturn := median returns
    returnQ10 := quantile returns (10 / 100)
    returnQ25 := quantile returns (25 / 100)
    returnQ75 := quantile returns (75 / 100)
    returnQ90 := quantile returns (90 / 100)
    positiveProbability := mean (returns.map fun r => if 0 < r then 1 else 0)
    adverseReturnQ10 := quantile (returnsOf AnalogNeighbor.adverseReturns) (10 / 100)
    favorableReturnQ90 := quantile (returnsOf AnalogNeighbor.favorableReturns) (90 / 100) }

/-! ## The search -/

/-- The checks of a frame, `_validate_values` among them. -/
def checkFrame (frame : List AnalogRow) : Except AnalogError Unit :=
  if frame.isEmpty then .error (.valueError "analog frame cannot be empty")
  else if frame.any fun r => r.timestamp < r.maxSourceTimestamp then
    .error (.valueError "analog frame contains future source timestamps")
  else if ¬ (frame.map AnalogRow.timestamp).Nodup then
    .error (.valueError "analog frame contains duplicate timestamps")
  else if 1 < ((frame.filterMap AnalogRow.asset).map library.upper).dedup.length then
    .error (.valueError "one analog query cannot mix assets")
  else if frame.any fun r => r.close ≤ 0 then
    .error (.valueError "analog close prices must be positive")
  else if frame.any fun r => r.dataQualityScore < 0 ∨ 1 < r.dataQualityScore then
    .error (.valueError "analog data quality must be between zero and one")
  else if frame.any fun r => r.regime = "" then
    .error (.valueError "analog regimes must be present")
  else .ok ()

/-- What every result of a call has. -/
structure AnalogRequest where
  queryTimestamp : ℤ
  datasetVersion : String
  codeVersion : String

/-- `_no_analog_result`. -/
def noAnalogResult (request : AnalogRequest) (query : AnalogRow) (warning : String) :
    HistoricalAnalogResult where
  queryTimestampUtc := query.timestamp
  dataCutoffUtc := request.queryTimestamp
  datasetVersion := request.datasetVersion
  codeVersion := request.codeVersion
  configurationFingerprint := library.configFingerprint config
  regime := query.regime
  isMeaningful := false
  warning := some warning
  eligibleCandidateCount := 0
  neighbors := []
  distributions := []

/-- The result with the neighbors that were found. -/
def analogResult (request : AnalogRequest) (query : AnalogRow) (eligibleCount : ℕ)
    (neighbors : List AnalogNeighbor) : HistoricalAnalogResult :=
  let isMeaningful : Bool := config.minimumNeighbors ≤ neighbors.length
  { queryTimestampUtc := query.timestamp
    dataCutoffUtc := request.queryTimestamp
    datasetVersion := request.datasetVersion
    codeVersion := request.codeVersion
    configurationFingerprint := library.configFingerprint config
    regime := query.regime
    isMeaningful
    warning := if isMeaningful then none else some "insufficient_similar_neighbors"
    eligibleCandidateCount := eligibleCount
    neighbors
    distributions :=
      if isMeaningful then config.horizonsBars.map fun h => (h, distribution neighbors h) else [] }

/-- The search from a query state. -/
def searchFrom (request : AnalogRequest) (value : List AnalogRow) (query : AnalogRow)
    (queryIndex : ℕ) : Except AnalogError HistoricalAnalogResult :=
  if query.dataQualityScore < config.minimumQualityScore then
    .ok (noAnalogResult library config request query "query_quality_below_threshold")
  else if queryIndex < config.maxHorizon then
    .ok (noAnalogResult library config request query "insufficient_history_for_outcome_embargo")
  else
    let candidates := candidatesOf config value query (queryIndex - config.maxHorizon)
    if candidates.isEmpty then
      .ok (noAnalogResult library config request query "no_regime_and_quality_compatible_history")
    else do
      let within := withinDistance library config candidates query
      let neighbors ← (selectNonOverlapping within config.maxHorizon config.neighborCount).mapM
        (neighborOf config value)
      return analogResult library config request query within.length neighbors

/-- The latest state that is available, with its index. -/
def queryState (value : List AnalogRow) (cutoff : ℤ) : Option AnalogCandidate :=
  (value.zipIdx.filter fun c => c.1.timestamp ≤ cutoff).getLast?

/-- The search over a frame in order of time. -/
def search (request : AnalogRequest) (value : List AnalogRow) :
    Except AnalogError HistoricalAnalogResult :=
  match queryState value request.queryTimestamp with
  | none => .error (.valueError "no state is available by the query timestamp")
  | some (query, queryIndex) => searchFrom library config request value query queryIndex

/-- `value.sort_values("timestamp")`. -/
def byTime (frame : List AnalogRow) : List AnalogRow :=
  sorted (fun a b => a.timestamp ≤ b.timestamp) frame

/-- `find_historical_analogs`. -/
def findHistoricalAnalogs (frame : List AnalogRow) (request : AnalogRequest) :
    Except AnalogError HistoricalAnalogResult :=
  if isBlank request.datasetVersion || isBlank request.codeVersion then
    .error (.valueError "analog results require dataset and code versions")
  else do
    checkFrame library frame
    search library config request (byTime frame)

end

/-! ## What is read of a frame -/

section

variable {library : AnalogLibrary} {config : AnalogSearchConfig} {request : AnalogRequest}
  {value past future : List AnalogRow} {query : AnalogRow} {queryIndex : ℕ}

theorem le_foldr_max : ∀ {l : List ℕ} {x : ℕ}, x ∈ l → x ≤ l.foldr max 0
  | y :: l, x, h => by
    rcases List.mem_cons.mp h with rfl | h
    · exact le_max_left _ _
    · exact (le_foldr_max h).trans (le_max_right _ _)

theorem le_maxHorizon {horizon : ℕ} (h : horizon ∈ config.horizonsBars) : horizon ≤ config.maxHorizon :=
  le_foldr_max h

variable {c : AnalogCandidate}

/-- The candidates up to an index. -/
theorem mem_candidatesOf {last : ℕ} :
    c ∈ candidatesOf config value query last ↔ value[c.2]? = some c.1 ∧ c.2 ≤ last ∧
      config.minimumQualityScore ≤ c.1.dataQualityScore ∧
        (config.requireSameRegime = true → c.1.regime = query.regime) := by
  have htake : c ∈ value.zipIdx.take (last + 1) ↔ value[c.2]? = some c.1 ∧ c.2 ≤ last := by
    rw [List.mem_iff_getElem?]
    constructor
    · rintro ⟨i, hi⟩
      rw [List.getElem?_take] at hi
      split at hi
      · next hlt =>
        have hmem := List.mem_zipIdx_iff_getElem?.mp (List.mem_of_getElem? hi)
        rw [List.getElem?_zipIdx, Option.map_eq_some_iff] at hi
        obtain ⟨r, -, rfl⟩ := hi
        exact ⟨hmem, by simp only; omega⟩
      · cases hi
    · rintro ⟨hrow, hle⟩
      refine ⟨c.2, ?_⟩
      rw [List.getElem?_take_of_lt (by omega), List.getElem?_zipIdx, hrow, Option.map_some, zero_add]
  unfold candidatesOf
  rw [List.mem_filter, List.mem_filter, htake]
  cases config.requireSameRegime with
  | true => simp [and_assoc]
  | false => simp [and_assoc]

variable {s : ScoredCandidate}

theorem mem_withinDistance {candidates : List AnalogCandidate} :
    s ∈ withinDistance library config candidates query ↔
      (∃ c ∈ candidates, score library config candidates query c = s) ∧
        s.distance ≤ config.maximumDistance := by
  unfold withinDistance
  rw [List.mem_filter, List.mem_map, decide_eq_true_eq]

/-- The candidates that are selected. -/
def selectedOf (library : AnalogLibrary) (config : AnalogSearchConfig) (value : List AnalogRow)
    (query : AnalogRow) (queryIndex : ℕ) : List ScoredCandidate :=
  selectNonOverlapping (withinDistance library config
    (candidatesOf config value query (queryIndex - config.maxHorizon)) query)
      config.maxHorizon config.neighborCount

theorem mem_selectNonOverlapping {candidates : List ScoredCandidate} {horizon count : ℕ}
    (h : s ∈ selectNonOverlapping candidates horizon count) : s ∈ candidates := by
  rcases mem_greedy h with h | h
  · cases h
  · exact mem_sorted.mp h

/-- A candidate that is selected has its whole outcome path up to the query. -/
theorem index_le_of_mem_selectedOf
    (h : s ∈ selectedOf library config value query queryIndex) :
    s.index ≤ queryIndex - config.maxHorizon := by
  obtain ⟨⟨c, hc, rfl⟩, -⟩ := mem_withinDistance.mp (mem_selectNonOverlapping h)
  exact (mem_candidatesOf.mp hc).2.1

theorem mapM_congr {α β ε : Type} {f g : α → Except ε β} : ∀ {l : List α}, (∀ a ∈ l, f a = g a) →
    l.mapM f = l.mapM g
  | [], _ => rfl
  | a :: l, h => by
    rw [List.mapM_cons, List.mapM_cons, h a List.mem_cons_self,
      mapM_congr fun b hb => h b (List.mem_cons_of_mem a hb)]

/-- The outcomes of a path that ends in time. -/
theorem neighborOf_append (h : s.index + config.maxHorizon < past.length) :
    neighborOf config (past ++ future) s = neighborOf config past s := by
  have hpaths : ∀ entry, ∀ horizon ∈ config.horizonsBars,
      pathReturns (past ++ future) s.index entry horizon = pathReturns past s.index entry horizon := by
    intro entry horizon hhorizon
    have hle := le_maxHorizon hhorizon
    unfold pathReturns closesAfter
    rw [List.drop_append_of_le_length (by omega), List.take_append_of_le_length (by
      rw [List.length_drop]
      omega)]
  unfold neighborOf rowAt
  rw [List.getElem?_append_left (by omega)]
  simp only [fun entry => mapM_congr (hpaths entry)]

theorem candidatesOf_append {last : ℕ} (h : last < past.length) :
    candidatesOf config (past ++ future) query last = candidatesOf config past query last := by
  unfold candidatesOf
  rw [List.zipIdx_append, List.take_append_of_le_length (by
    rw [List.length_zipIdx]
    omega)]

/-- **The search** from a query state does not read the rows after it. -/
theorem searchFrom_append (h : queryIndex < past.length) :
    searchFrom library config request (past ++ future) query queryIndex =
      searchFrom library config request past query queryIndex := by
  unfold searchFrom
  split
  · rfl
  · split
    · rfl
    · next hhorizon =>
      dsimp only
      rw [candidatesOf_append (by omega)]
      split
      · rfl
      · have hneighbors : (selectedOf library config past query queryIndex).mapM
            (neighborOf config (past ++ future)) =
              (selectedOf library config past query queryIndex).mapM (neighborOf config past) := by
          refine mapM_congr fun s hs => neighborOf_append ?_
          have := index_le_of_mem_selectedOf hs
          omega
        unfold selectedOf at hneighbors
        rw [hneighbors]

variable {cutoff : ℤ}

theorem queryState_append (hpast : ∀ r ∈ past, r.timestamp ≤ cutoff)
    (hfuture : ∀ r ∈ future, cutoff < r.timestamp) :
    queryState (past ++ future) cutoff = past.zipIdx.getLast? := by
  unfold queryState
  have hbefore : (past.zipIdx.filter fun c => decide (c.1.timestamp ≤ cutoff)) = past.zipIdx :=
    List.filter_eq_self.mpr fun c hc =>
      decide_eq_true (hpast c.1 (List.fst_mem_of_mem_zipIdx hc))
  have hafter : ((future.zipIdx (0 + past.length)).filter fun c =>
      decide (c.1.timestamp ≤ cutoff)) = [] :=
    List.filter_eq_nil_iff.mpr fun c hc => by
      simpa using hfuture c.1 (List.fst_mem_of_mem_zipIdx hc)
  rw [List.zipIdx_append, List.filter_append, hbefore, hafter, List.append_nil]

/-- The rows after the query do not count. -/
theorem search_append (hpast : ∀ r ∈ past, r.timestamp ≤ request.queryTimestamp)
    (hfuture : ∀ r ∈ future, request.queryTimestamp < r.timestamp) :
    search library config request (past ++ future) = search library config request past := by
  have hself := queryState_append hpast (List.forall_mem_nil fun r : AnalogRow =>
    request.queryTimestamp < r.timestamp)
  rw [List.append_nil] at hself
  unfold search
  rw [queryState_append hpast hfuture, hself]
  cases hlast : past.zipIdx.getLast? with
  | none => rfl
  | some c =>
    exact searchFrom_append (List.getElem?_eq_some_iff.mp
      (List.mem_zipIdx_iff_getElem?.mp (List.mem_of_getLast? hlast))).1

/-! ## Frames that agree up to the query -/

/-- The frame passes its checks. -/
def ValidFrame (library : AnalogLibrary) (frame : List AnalogRow) : Prop :=
  checkFrame library frame = .ok ()

variable {frame frame' : List AnalogRow}

theorem ValidFrame.nodup (h : ValidFrame library frame) : (frame.map AnalogRow.timestamp).Nodup := by
  unfold ValidFrame checkFrame at h
  split_ifs at h with hempty hsource hnodup
  exact hnodup

/-- The rows are one after the other. -/
theorem byTime_pairwise (h : ValidFrame library frame) :
    (byTime frame).Pairwise fun a b => a.timestamp < b.timestamp := by
  have hle : (byTime frame).Pairwise fun a b => a.timestamp ≤ b.timestamp := by
    refine (pairwise_sorted _ ?_ ?_ frame).imp of_decide_eq_true
    · intro a b
      simpa using le_total a.timestamp b.timestamp
    · intro a b c hab hbc
      simp only [decide_eq_true_eq] at hab hbc ⊢
      exact hab.trans hbc
  have hne : (byTime frame).Pairwise fun a b => a.timestamp ≠ b.timestamp := by
    rw [← List.pairwise_map (R := (· ≠ ·))]
    exact ((List.perm_insertionSort _ frame).map AnalogRow.timestamp).nodup_iff.mpr h.nodup
  exact (hle.and hne).imp fun hboth => lt_of_le_of_ne hboth.1 hboth.2

/-- The rows up to the query and those after it. -/
theorem byTime_split (h : ValidFrame library frame) (cutoff : ℤ) :
    byTime frame = (byTime frame).filter (fun r => r.timestamp ≤ cutoff) ++
      (byTime frame).filter (fun r => cutoff < r.timestamp) := by
  have hsorted := byTime_pairwise h
  generalize byTime frame = rows at hsorted
  induction rows with
  | nil => rfl
  | cons r rest ih =>
    obtain ⟨hlt, hrest⟩ := List.pairwise_cons.mp hsorted
    by_cases hr : r.timestamp ≤ cutoff
    · rw [List.filter_cons_of_pos (by simpa using hr), List.filter_cons_of_neg (by simpa using hr),
        List.cons_append, ← ih hrest]
    · have hnone : rest.filter (fun r => decide (r.timestamp ≤ cutoff)) = [] :=
        List.filter_eq_nil_iff.mpr fun x hx => by
          have := hlt x hx
          simp only [decide_eq_true_eq]
          omega
      rw [List.filter_cons_of_neg (by simpa using hr), hnone, List.nil_append,
        List.filter_cons_of_pos (by simpa using hr)]
      refine congrArg (r :: ·) (List.filter_eq_self.mpr fun x hx => ?_).symm
      have := hlt x hx
      simp only [decide_eq_true_eq]
      omega

/-- The frames have the same rows up to a time. -/
def AgreeUpTo (cutoff : ℤ) (frame frame' : List AnalogRow) : Prop :=
  ∀ r : AnalogRow, r.timestamp ≤ cutoff → (r ∈ frame ↔ r ∈ frame')

theorem AgreeUpTo.filter_eq (hagree : AgreeUpTo cutoff frame frame') (h : ValidFrame library frame)
    (h' : ValidFrame library frame') :
    (byTime frame).filter (fun r => r.timestamp ≤ cutoff) =
      (byTime frame').filter (fun r => r.timestamp ≤ cutoff) := by
  have hsorted := (byTime_pairwise h).sublist
    (List.filter_sublist (p := fun r : AnalogRow => decide (r.timestamp ≤ cutoff)))
  have hsorted' := (byTime_pairwise h').sublist
    (List.filter_sublist (p := fun r : AnalogRow => decide (r.timestamp ≤ cutoff)))
  have hne : ∀ {rows : List AnalogRow}, (rows.Pairwise fun a b => a.timestamp < b.timestamp) →
      rows.Nodup := by
    intro rows hrows
    refine hrows.imp ?_
    rintro a b hlt rfl
    exact lt_irrefl _ hlt
  refine List.Perm.eq_of_pairwise (fun a b _ _ hab hba => absurd (hab.trans hba) (lt_irrefl _))
    hsorted hsorted' ((List.perm_ext_iff_of_nodup (hne hsorted) (hne hsorted')).mpr fun r => ?_)
  simp only [List.mem_filter, decide_eq_true_eq, byTime, mem_sorted]
  exact and_congr_left fun hr => hagree r hr

/-- What a valid frame gives is what its rows up to the query give. -/
theorem search_byTime (h : ValidFrame library frame) :
    search library config request (byTime frame) = search library config request
      ((byTime frame).filter fun r => r.timestamp ≤ request.queryTimestamp) := by
  conv_lhs => rw [byTime_split h request.queryTimestamp]
  refine search_append (fun r hr => ?_) fun r hr => ?_
  · simpa using (List.mem_filter.mp hr).2
  · simpa using (List.mem_filter.mp hr).2

/-- **No look-ahead.** -/
theorem findHistoricalAnalogs_congr (h : ValidFrame library frame) (h' : ValidFrame library frame')
    (hagree : AgreeUpTo request.queryTimestamp frame frame') :
    findHistoricalAnalogs library config frame request =
      findHistoricalAnalogs library config frame' request := by
  unfold findHistoricalAnalogs
  split
  · rfl
  · rw [show checkFrame library frame = .ok () from h, show checkFrame library frame' = .ok () from h']
    show search library config request (byTime frame) = search library config request (byTime frame')
    rw [search_byTime h, search_byTime h', hagree.filter_eq h h']

/-! ## The neighbors -/

/-- A candidate that may be selected. -/
structure IsEligible (library : AnalogLibrary) (config : AnalogSearchConfig) (value : List AnalogRow)
    (query : AnalogRow) (queryIndex : ℕ) (s : ScoredCandidate) : Prop where
  usable : config.minimumQualityScore ≤ query.dataQualityScore
  complete : s.index + config.maxHorizon ≤ queryIndex
  near : s.distance ≤ config.maximumDistance
  row : ∃ r, value[s.index]? = some r ∧ config.minimumQualityScore ≤ r.dataQualityScore ∧
    (config.requireSameRegime = true → r.regime = query.regime) ∧
      s = score library config
        (candidatesOf config value query (queryIndex - config.maxHorizon)) query (r, s.index)

/-- What the selection of a search is. -/
structure IsSelection (library : AnalogLibrary) (config : AnalogSearchConfig) (value : List AnalogRow)
    (query : AnalogRow) (queryIndex : ℕ) (selected : List ScoredCandidate) : Prop where
  count : selected.length ≤ config.neighborCount
  eligible : ∀ s ∈ selected, IsEligible library config value query queryIndex s
  apart : selected.Pairwise fun s t => config.maxHorizon < |(s.index : ℤ) - t.index|
  /-- What was not selected is near to a selected one, or came after the last. -/
  maximal : ∀ s, IsEligible library config value query queryIndex s → s ∉ selected →
    (∃ t ∈ selected, |(s.index : ℤ) - t.index| ≤ config.maxHorizon ∧ t.distance ≤ s.distance) ∨
      selected.length = config.neighborCount ∧ ∀ t ∈ selected, t.distance ≤ s.distance

/-- The query is the latest row up to the cutoff. -/
structure IsQuery (value : List AnalogRow) (cutoff : ℤ) (query : AnalogRow) (queryIndex : ℕ) : Prop where
  row : value[queryIndex]? = some query
  available : query.timestamp ≤ cutoff
  latest : ∀ r ∈ value, r.timestamp ≤ cutoff → r.timestamp ≤ query.timestamp

theorem mem_withinDistance_iff (husable : config.minimumQualityScore ≤ query.dataQualityScore)
    (hhorizon : config.maxHorizon ≤ queryIndex) :
    s ∈ withinDistance library config
        (candidatesOf config value query (queryIndex - config.maxHorizon)) query ↔
      IsEligible library config value query queryIndex s := by
  rw [mem_withinDistance]
  constructor
  · rintro ⟨⟨⟨r, i⟩, hc, rfl⟩, hnear⟩
    obtain ⟨hrow, hle, hquality, hregime⟩ := mem_candidatesOf.mp hc
    have hcomplete : i + config.maxHorizon ≤ queryIndex := by
      simp only at hle
      omega
    exact ⟨husable, hcomplete, hnear, r, hrow, hquality, hregime, rfl⟩
  · rintro ⟨-, hcomplete, hnear, r, hrow, hquality, hregime, hscore⟩
    exact ⟨⟨(r, s.index), mem_candidatesOf.mpr ⟨hrow, by simp only; omega, hquality, hregime⟩,
      hscore.symm⟩, hnear⟩

/-- **The selection** is greedy: apart, and as large as the distances allow. -/
theorem selectedOf_isSelection (husable : config.minimumQualityScore ≤ query.dataQualityScore)
    (hhorizon : config.maxHorizon ≤ queryIndex) :
    IsSelection library config value query queryIndex
      (selectedOf library config value query queryIndex) := by
  have hcount : ([] : List ScoredCandidate).length < config.neighborCount := config.neighborCount_pos
  refine ⟨length_greedy_le hcount, fun s hs => ?_, ?_, fun s hs hout => ?_⟩
  · exact (mem_withinDistance_iff husable hhorizon).mp (mem_selectNonOverlapping hs)
  · refine (greedy_pairwise .nil).imp ?_
    intro s t hclash
    rw [abs_sub_comm]
    exact not_le.mp (of_decide_eq_false hclash)
  · have hranked : (sorted (fun a b : ScoredCandidate => decide (a.distance ≤ b.distance))
        (withinDistance library config
          (candidatesOf config value query (queryIndex - config.maxHorizon)) query)).Pairwise
        fun a b => a.distance ≤ b.distance := by
      refine (pairwise_sorted _ ?_ ?_ _).imp of_decide_eq_true
      · intro a b
        simpa using le_total a.distance b.distance
      · intro a b c hab hbc
        simp only [decide_eq_true_eq] at hab hbc ⊢
        exact hab.trans hbc
    refine (greedy_maximal hranked (List.forall_mem_nil _) hcount s
      (mem_sorted.mpr ((mem_withinDistance_iff husable hhorizon).mpr hs)) hout).imp_left ?_
    rintro ⟨t, ht, hclash, hle⟩
    exact ⟨t, ht, of_decide_eq_true hclash, hle⟩

/-- Where nothing is eligible, nothing is selected. -/
theorem isSelection_nil (h : ∀ s, ¬ IsEligible library config value query queryIndex s) :
    IsSelection library config value query queryIndex [] where
  count := Nat.zero_le _
  eligible := fun _ hs => absurd hs List.not_mem_nil
  apart := .nil
  maximal := fun _ hs => absurd hs (h _)

/-- The neighbors of a result are those of a selection. -/
theorem searchFrom_isSelection {result : HistoricalAnalogResult}
    (h : searchFrom library config request value query queryIndex = .ok result) :
    ∃ selected, IsSelection library config value query queryIndex selected ∧
      List.Forall₂ (fun s n => neighborOf config value s = .ok n) selected result.neighbors := by
  unfold searchFrom at h
  split at h
  · next hquality =>
    cases h
    exact ⟨[], isSelection_nil fun s hs => absurd hs.usable (not_le.mpr hquality), .nil⟩
  · next hquality =>
    split at h
    · next hhistory =>
      cases h
      refine ⟨[], isSelection_nil fun s hs => ?_, .nil⟩
      have := hs.complete
      omega
    · next hhistory =>
      have husable := not_lt.mp hquality
      have hhorizon := not_lt.mp hhistory
      dsimp only at h
      split at h
      · next hempty =>
        cases h
        refine ⟨[], isSelection_nil fun s hs => ?_, .nil⟩
        obtain ⟨⟨c, hc, -⟩, -⟩ := mem_withinDistance.mp ((mem_withinDistance_iff husable hhorizon).mpr hs)
        rw [List.isEmpty_iff.mp hempty] at hc
        cases hc
      · obtain ⟨neighbors, hneighbors, h⟩ := bind_eq_ok.mp h
        cases h
        exact ⟨_, selectedOf_isSelection husable hhorizon, mapM_eq_ok.mp hneighbors⟩

theorem queryState_isQuery (h : ValidFrame library frame)
    (hc : queryState (byTime frame) cutoff = some c) : IsQuery (byTime frame) cutoff c.1 c.2 := by
  have hmem := List.mem_of_getLast? hc
  rw [List.mem_filter, decide_eq_true_eq, List.mem_zipIdx_iff_getElem?] at hmem
  refine ⟨hmem.1, hmem.2, fun r hr hcutoff => ?_⟩
  -- the rows up to the cutoff end with the query
  have hlast : ((byTime frame).filter fun r => decide (r.timestamp ≤ cutoff)).getLast? = some c.1 := by
    rw [byTime_split h cutoff, queryState_append (fun r hr => of_decide_eq_true (List.mem_filter.mp hr).2)
      fun r hr => of_decide_eq_true (List.mem_filter.mp hr).2, List.getLast?_zipIdx,
      Option.map_eq_some_iff] at hc
    obtain ⟨q, hq, rfl⟩ := hc
    exact hq
  obtain ⟨before, hbefore⟩ := List.getLast?_eq_some_iff.mp hlast
  have hpast := (byTime_pairwise h).sublist
    (List.filter_sublist (p := fun r : AnalogRow => decide (r.timestamp ≤ cutoff)))
  have hr' : r ∈ (byTime frame).filter fun r => decide (r.timestamp ≤ cutoff) :=
    List.mem_filter.mpr ⟨hr, decide_eq_true hcutoff⟩
  rw [hbefore] at hpast hr'
  rcases List.mem_append.mp hr' with hr' | hr'
  · exact ((List.pairwise_append.mp hpast).2.2 r hr' c.1 List.mem_cons_self).le
  · rw [List.mem_singleton.mp hr']

/-- What a historical analog search gives. -/
structure IsAnalogSearch (library : AnalogLibrary) (config : AnalogSearchConfig)
    (value : List AnalogRow) (cutoff : ℤ) (query : AnalogRow) (queryIndex : ℕ)
    (selected : List ScoredCandidate) (result : HistoricalAnalogResult) : Prop where
  latest : IsQuery value cutoff query queryIndex
  selection : IsSelection library config value query queryIndex selected
  neighbors : List.Forall₂ (fun s n => neighborOf config value s = .ok n) selected result.neighbors

/-- **Historical analogs** are found without look-ahead and without overlapping paths. -/
theorem findHistoricalAnalogs_isAnalogSearch (h : ValidFrame library frame)
    (h' : ValidFrame library frame') (hagree : AgreeUpTo request.queryTimestamp frame frame') :
    findHistoricalAnalogs library config frame request =
        findHistoricalAnalogs library config frame' request ∧
      ∀ result, findHistoricalAnalogs library config frame request = .ok result →
        ∃ query queryIndex selected, IsAnalogSearch library config (byTime frame)
          request.queryTimestamp query queryIndex selected result := by
  refine ⟨findHistoricalAnalogs_congr h h' hagree, fun result hresult => ?_⟩
  unfold findHistoricalAnalogs at hresult
  split at hresult
  · cases hresult
  · rw [show checkFrame library frame = .ok () from h] at hresult
    change search library config request (byTime frame) = .ok result at hresult
    unfold search at hresult
    split at hresult
    · cases hresult
    · next query queryIndex hstate =>
      obtain ⟨selected, hselection, hneighbors⟩ := searchFrom_isSelection hresult
      exact ⟨query, queryIndex, selected, queryState_isQuery h hstate, hselection, hneighbors⟩

end

/-- A library that is right about the numbers zero and one. -/
def sampleLibrary : AnalogLibrary where
  upper := id
  sqrt := fun x => if x ≤ 0 then 0 else 1
  configFingerprint := fun _ => "fingerprint"

theorem sampleFamily_weighted : (0 : ℚ) < 1 := by decide

def sampleFamily : AnalogFamily where
  name := "price"
  features := ["momentum"]
  named := by decide
  featured := by decide
  distinct := by decide
  weighted := sampleFamily_weighted

theorem sampleConfig_maximumDistance : (0 : ℚ) < 3 := by decide

def sampleConfig : AnalogSearchConfig where
  families := [sampleFamily]
  horizonsBars := [1, 2]
  neighborCount := 2
  minimumNeighbors := 1
  families_ne_nil := by decide
  families_nodup := by decide
  features_nodup := by decide
  horizons_ne_nil := by decide
  horizons_pos := by decide
  horizons_pairwise := by decide
  neighborCount_pos := by decide
  minimumNeighbors_pos := by decide
  minimumNeighbors_le := by decide
  maximumDistance_pos := sampleConfig_maximumDistance
  minimumQualityScore_nonneg := by norm_num
  minimumQualityScore_le := by norm_num

def sampleRow (timestamp : ℤ) (close : ℚ) : AnalogRow :=
  ⟨timestamp, timestamp, some "BTC", close, "RANGE", 1, fun _ => 0⟩

def sampleFrame : List AnalogRow :=
  [sampleRow 0 10, sampleRow 2 12, sampleRow 1 11, sampleRow 3 9, sampleRow 4 10]

theorem findHistoricalAnalogs_isAnalogSearch_sample :
    findHistoricalAnalogs sampleLibrary sampleConfig sampleFrame ⟨4, "v1", "c1"⟩ =
        findHistoricalAnalogs sampleLibrary sampleConfig (sampleRow 5 7 :: sampleFrame)
          ⟨4, "v1", "c1"⟩ ∧
      ∀ result,
        findHistoricalAnalogs sampleLibrary sampleConfig sampleFrame ⟨4, "v1", "c1"⟩ = .ok result →
          ∃ query queryIndex selected, IsAnalogSearch sampleLibrary sampleConfig (byTime sampleFrame)
            4 query queryIndex selected result := by
  refine findHistoricalAnalogs_isAnalogSearch rfl rfl fun r hr => ?_
  rw [List.mem_cons, or_iff_right]
  rintro rfl
  exact absurd hr (by decide)

end Greenfield.Regimes
