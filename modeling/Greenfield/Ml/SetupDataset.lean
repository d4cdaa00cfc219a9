import Greenfield.Ml.Labels
import Mathlib.Data.Int.ConditionallyCompleteOrder
import Mathlib.Data.List.Forall2
import Mathlib.Order.CompletePartialOrder
import Mathlib.Order.Interval.Set.Disjoint

/-!
# Setup datasets

`build_setup_dataset` and `build_triple_barrier_setup_dataset` of `src/ml/tournament.py`. The
feature matrix is a parameter, with `none` where a value is missing or not finite. A row blocks the
bars of its horizon, and its label ends within them, so the label intervals of a symbol are disjoint
(`matchedDataset_disjoint`).
-/

namespace Greenfield.Ml

open Py

structure CostScenario where
  feeBps : ℚ
  spreadBps : ℚ
  slippageBps : ℚ
  fundingBps : ℚ

def CostScenario.executionCostReturn (c : CostScenario) : ℚ :=
  (c.feeBps + c.spreadBps + c.slippageBps + c.fundingBps) / 10000

/-- `BASE_COST`. -/
def baseCost : CostScenario := ⟨11, 2, 4, 3⟩

/-- `SYMBOLS`. -/
def symbols : List String := ["BTCUSDT", "ETHUSDT", "SOLUSDT"]

/-- `FEATURE_COLUMNS`. -/
def featureColumns : List String :=
  ["return_1", "momentum", "distance_from_high", "distance_from_low", "trend_slope", "atr",
    "realized_vol", "range_percentile", "relative_volume", "volume_trend", "higher_high",
    "lower_low", "breakout", "breakdown"]

/-- The arguments of `_build_setup_dataset` beside the klines. -/
structure SetupArgs where
  symbol : String
  lookbackBars : ℤ := 20
  horizonBars : ℤ := 24
  labelCost : CostScenario := baseCost
  tripleBarrier : Bool
  profitTakeAtr : ℚ := 2
  stopLossAtr : ℚ := 1

structure SetupRow where
  timestamp : ℤ
  labelEndTime : ℤ
  symbol : String
  side : ℤ
  entryPrice : ℚ
  exitPrice : ℚ
  grossReturn : ℚ
  label : ℕ
  /-- Only of a triple barrier. -/
  barrier : Option Barrier
  features : List (String × ℚ)
  deriving DecidableEq

/-- `build_feature_matrix`: a finite value of a column at a bar, or `none`. -/
abbrev FeatureMatrix := List Kline → ℕ → String → Option ℚ

/-- `drop_duplicates("timestamp")`. -/
def dropDuplicateTimes : List Kline → List Kline
  | [] => []
  | bar :: rest => bar :: (dropDuplicateTimes rest).filter fun x => x.timestamp ≠ bar.timestamp

/-- `klines.sort_values("timestamp").drop_duplicates("timestamp")`. -/
def chronological (klines : List Kline) : List Kline :=
  dropDuplicateTimes (sorted (fun a b => a.timestamp ≤ b.timestamp) klines)

/-- `shift(1).rolling(window)` at a bar. -/
def rollingBefore (reduce : List ℚ → Option ℚ) (values : List ℚ) (window : ℤ) (index : ℕ) : Option ℚ :=
  if index < window then none
  else reduce ((values.drop (index - window.toNat)).take window.toNat)

/-- `long_candidate` at a bar. -/
def longCandidate (frame : List Kline) (lookbackBars : ℤ) (index : ℕ) : Bool :=
  (frame[index]?).any fun bar =>
    (rollingBefore List.max? (frame.map Kline.high) lookbackBars index).any (· < bar.close)

/-- `short_candidate` at a bar. -/
def shortCandidate (frame : List Kline) (lookbackBars : ℤ) (index : ℕ) : Bool :=
  (frame[index]?).any fun bar =>
    (rollingBefore List.min? (frame.map Kline.low) lookbackBars index).any (bar.close < ·)

/-- The feature values of a bar, when none is missing. -/
def featureValues (features : FeatureMatrix) (frame : List Kline) (index : ℕ) :
    Option (List (String × ℚ)) :=
  featureColumns.mapM fun column => (features frame index column).map (column, ·)

/-- `feature_row["atr"]`. -/
def atrOf (values : List (String × ℚ)) : ℚ := (values.lookup "atr").getD 0

/-- The call of `triple_barrier_outcome` at a bar. -/
def SetupArgs.barrierArgs (args : SetupArgs) (index : ℕ) (side : ℤ) (atr : ℚ) : BarrierArgs where
  index := index
  side
  atr
  horizonBars := args.horizonBars
  profitTakeAtr := args.profitTakeAtr
  stopLossAtr := args.stopLossAtr
  labelCostReturn := args.labelCost.executionCostReturn

/-- The outcome without barriers: what is held to the end of the horizon. -/
def fixedOutcome (frame : List Kline) (args : SetupArgs) (index : ℕ) (side : ℤ) (entry : ℚ) :
    Except MlError TripleBarrierOutcome := do
  let last ← iloc frame (index + args.horizonBars.toNat)
  if entry = 0 then .error (.zeroDivisionError "float division by zero")
  else
    let grossReturn := side * (last.close / entry - 1)
    return {
      label := if 0 < grossReturn - args.labelCost.executionCostReturn then 1 else 0
      labelEndTime := last.timestamp
      exitPrice := last.close
      grossReturn
      barrier := .vertical }

/-- The outcome of a candidate. -/
def setupOutcome (frame : List Kline) (args : SetupArgs) (index : ℕ) (side : ℤ) (entry : ℚ)
    (values : List (String × ℚ)) : Except MlError TripleBarrierOutcome :=
  if args.tripleBarrier then
    tripleBarrierOutcome frame (args.barrierArgs index side (atrOf values))
  else fixedOutcome frame args index side entry

/-- The row of a candidate. -/
def setupRow (frame : List Kline) (args : SetupArgs) (index : ℕ) (values : List (String × ℚ)) :
    Except MlError SetupRow := do
  let side := if longCandidate frame args.lookbackBars index then 1 else -1
  let bar ← iloc frame index
  let outcome ← setupOutcome frame args index side bar.close values
  return {
    timestamp := bar.timestamp
    labelEndTime := outcome.labelEndTime
    symbol := args.symbol
    side
    entryPrice := bar.close
    exitPrice := outcome.exitPrice
    grossReturn := outcome.grossReturn
    label := outcome.label
    barrier := if args.tripleBarrier then some outcome.barrier else none
    features := values }

/-- The loop over the candidates, with `blocked_through`. -/
def setupRows (features : FeatureMatrix) (frame : List Kline) (args : SetupArgs) :
    ℤ → List ℕ → Except MlError (List SetupRow)
  | _, [] => .ok []
  | blockedThrough, index :: rest =>
    if index ≤ blockedThrough ∨ frame.length - args.horizonBars - 1 < (index : ℤ) then
      setupRows features frame args blockedThrough rest
    else
      match featureValues features frame index with
      | none => setupRows features frame args blockedThrough rest
      | some values => do
        let row ← setupRow frame args index values
        let rows ← setupRows features frame args (index + args.horizonBars) rest
        return row :: rows

/-- `_build_setup_dataset`. -/
def buildDataset (features : FeatureMatrix) (klines : List Kline) (args : SetupArgs) :
    Except MlError (List SetupRow) :=
  if args.symbol ∉ symbols then
    .error (.valueError "symbol must be one of ('BTCUSDT', 'ETHUSDT', 'SOLUSDT')")
  else if args.lookbackBars < 2 ∨ args.horizonBars < 1 then
    .error (.valueError "lookback must be >=2 and horizon must be >=1")
  else
    let frame := chronological klines
    if frame = [] ∨ ¬ frame.Pairwise (fun a b => a.timestamp ≤ b.timestamp) then
      .error (.valueError "klines must contain a non-empty chronological series")
    else
      setupRows features frame args (-1) ((List.range frame.length).filter fun index =>
        longCandidate frame args.lookbackBars index || shortCandidate frame args.lookbackBars index)

/-- `build_setup_dataset`. -/
def buildSetupDataset (features : FeatureMatrix) (klines : List Kline) (args : SetupArgs) :
    Except MlError (List SetupRow) :=
  buildDataset features klines { args with tripleBarrier := false }

/-- `build_triple_barrier_setup_dataset`. -/
def buildTripleBarrierSetupDataset (features : FeatureMatrix) (klines : List Kline)
    (args : SetupArgs) : Except MlError (List SetupRow) :=
  buildDataset features klines { args with tripleBarrier := true }

/-- `pd.concat(datasets).sort_values(["timestamp", "symbol"])`. -/
def matchedDataset (datasets : List (List SetupRow)) : List SetupRow :=
  sorted (fun a b => a.timestamp < b.timestamp ∨ a.timestamp = b.timestamp ∧ a.symbol ≤ b.symbol)
    datasets.flatten

/-! ## The frame -/

theorem dropDuplicateTimes_sublist : ∀ frame : List Kline, (dropDuplicateTimes frame).Sublist frame
  | [] => .slnil
  | bar :: rest => (List.filter_sublist.trans (dropDuplicateTimes_sublist rest)).cons_cons bar

theorem dropDuplicateTimes_ne : ∀ frame : List Kline,
    (dropDuplicateTimes frame).Pairwise fun a b => a.timestamp ≠ b.timestamp
  | [] => .nil
  | bar :: rest => by
    unfold dropDuplicateTimes
    refine List.pairwise_cons.mpr ⟨fun x hx => ?_, (dropDuplicateTimes_ne rest).sublist
      List.filter_sublist⟩
    exact fun heq => absurd heq.symm (by simpa using (List.mem_filter.mp hx).2)

/-- The bars of a frame are one after the other. -/
theorem chronological_pairwise (klines : List Kline) :
    (chronological klines).Pairwise fun a b => a.timestamp < b.timestamp := by
  have hsorted : (sorted (fun a b : Kline => a.timestamp ≤ b.timestamp) klines).Pairwise
      fun a b => a.timestamp ≤ b.timestamp := by
    refine (pairwise_sorted _ ?_ ?_ klines).imp of_decide_eq_true
    · intro a b
      simpa using le_total a.timestamp b.timestamp
    · intro a b c hab hbc
      simp only [decide_eq_true_eq] at hab hbc ⊢
      exact hab.trans hbc
  refine ((hsorted.sublist (dropDuplicateTimes_sublist _)).and (dropDuplicateTimes_ne _)).imp ?_
  rintro a b ⟨hle, hne⟩
  exact lt_of_le_of_ne hle hne

variable {frame : List Kline}

variable {i j : ℕ}

theorem timestamp_lt
    (hframe : frame.Pairwise fun a b => a.timestamp < b.timestamp) {a b : Kline}
    (hij : i < j) (ha : frame[i]? = some a) (hb : frame[j]? = some b) : a.timestamp < b.timestamp := by
  obtain ⟨hi, rfl⟩ := List.getElem?_eq_some_iff.mp ha
  obtain ⟨hj, rfl⟩ := List.getElem?_eq_some_iff.mp hb
  exact List.pairwise_iff_getElem.mp hframe i j hi hj hij

/-! ## The rows -/

/-- The row is of the bar at the index, with its label in the horizon. -/
structure IsRowAt (frame : List Kline) (args : SetupArgs) (index : ℕ) (row : SetupRow) : Prop where
  symbol : row.symbol = args.symbol
  opening : ∃ bar, frame[index]? = some bar ∧ row.timestamp = bar.timestamp
  labelEnd : ∃ j : ℕ, index < j ∧ j ≤ index + args.horizonBars ∧
    ∃ bar, frame[j]? = some bar ∧ row.labelEndTime = bar.timestamp

variable {df : List Kline}

theorem iloc_ok {i : ℕ} {bar : Kline} (h : iloc df i = .ok bar) :
    df[i]? = some bar := by
  unfold iloc at h
  cases hget : df[i]? with
  | none =>
    rw [hget] at h
    cases h
  | some b =>
    rw [hget] at h
    cases h
    rfl

variable {out : TripleBarrierOutcome}

/-- The label of a barrier ends within the horizon. -/
theorem tripleBarrierOutcome_labelEnd {args : BarrierArgs}
    (h : tripleBarrierOutcome df args = .ok out) :
    ∃ j : ℕ, args.index < j ∧ j ≤ args.index + args.horizonBars ∧
      ∃ bar, df[j]? = some bar ∧ out.labelEndTime = bar.timestamp := by
  obtain ⟨first, last, haccepted, hlast, rfl⟩ := tripleBarrierOutcome_ok.mp h
  obtain ⟨j, hpassage⟩ := exit_isFirstPassage haccepted hlast
  obtain ⟨bar, hbar, hexit⟩ := hpassage.bar
  refine ⟨j, hpassage.after, hpassage.within, bar, hbar, ?_⟩
  show (args.exit df first.close last).bar.timestamp = bar.timestamp
  rw [hexit.bar_eq]

variable {args : SetupArgs}

variable {index : ℕ}

variable {side : ℤ} {entry : ℚ}

theorem fixedOutcome_labelEnd
    (hhorizon : 1 ≤ args.horizonBars)
    (h : fixedOutcome df args index side entry = .ok out) :
    ∃ j : ℕ, index < j ∧ j ≤ index + args.horizonBars ∧
      ∃ bar, df[j]? = some bar ∧ out.labelEndTime = bar.timestamp := by
  unfold fixedOutcome at h
  cases hlast : iloc df (index + args.horizonBars.toNat) with
  | error e =>
    rw [hlast] at h
    cases h
  | ok last =>
    rw [hlast] at h
    change (if entry = 0 then _ else _) = _ at h
    split at h
    · cases h
    · cases h
      exact ⟨index + args.horizonBars.toNat, by omega, by omega, last, iloc_ok hlast, rfl⟩

variable {values : List (String × ℚ)}

theorem setupOutcome_labelEnd
    (hhorizon : 1 ≤ args.horizonBars)
    (h : setupOutcome frame args index side entry values = .ok out) :
    ∃ j : ℕ, index < j ∧ j ≤ index + args.horizonBars ∧
      ∃ bar, frame[j]? = some bar ∧ out.labelEndTime = bar.timestamp := by
  unfold setupOutcome at h
  split at h
  · obtain ⟨j, hafter, hwithin, hbar⟩ := tripleBarrierOutcome_labelEnd h
    exact ⟨j, Int.ofNat_lt.mp hafter, hwithin, hbar⟩
  · exact fixedOutcome_labelEnd hhorizon h

theorem setupRow_isRowAt
    {row : SetupRow} (hhorizon : 1 ≤ args.horizonBars)
    (h : setupRow frame args index values = .ok row) : IsRowAt frame args index row := by
  unfold setupRow at h
  cases hbar : iloc frame index with
  | error e =>
    rw [hbar] at h
    cases h
  | ok bar =>
    rw [hbar] at h
    change (setupOutcome frame args index _ bar.close values >>= _) = _ at h
    cases hout : setupOutcome frame args index
        (if longCandidate frame args.lookbackBars index then 1 else -1) bar.close values with
    | error e =>
      rw [hout] at h
      cases h
    | ok out =>
      rw [hout] at h
      cases h
      exact ⟨rfl, ⟨bar, iloc_ok hbar, rfl⟩, setupOutcome_labelEnd hhorizon hout⟩

variable {a b : SetupRow}

/-- The label of a row ends before the next row begins. -/
theorem IsRowAt.before
    (hframe : frame.Pairwise fun a b => a.timestamp < b.timestamp) (ha : IsRowAt frame args i a)
    (hb : IsRowAt frame args j b) (hij : i + args.horizonBars < j) :
    a.labelEndTime < b.timestamp := by
  obtain ⟨k, -, hwithin, last, hlast, hend⟩ := ha.labelEnd
  obtain ⟨bar, hbar, hstart⟩ := hb.opening
  rw [hend, hstart]
  exact timestamp_lt hframe (by omega) hlast hbar

variable {features : FeatureMatrix}

variable {rows : List SetupRow}

/-- **The loop.** Each row is of a bar that no row before it blocks. -/
theorem setupRows_spec
    (hframe : frame.Pairwise fun a b => a.timestamp < b.timestamp)
    (hhorizon : 1 ≤ args.horizonBars) {candidates : List ℕ} {blockedThrough : ℤ}
    (h : setupRows features frame args blockedThrough candidates = .ok rows) :
    (∀ row ∈ rows, ∃ index : ℕ, blockedThrough < index ∧ IsRowAt frame args index row) ∧
      rows.Pairwise fun a b => a.labelEndTime < b.timestamp := by
  induction candidates generalizing blockedThrough rows with
  | nil =>
    cases h
    exact ⟨fun row hrow => absurd hrow List.not_mem_nil, List.Pairwise.nil⟩
  | cons index rest ih =>
    unfold setupRows at h
    split at h
    · exact ih h
    · next hfree =>
      push Not at hfree
      cases hvalues : featureValues features frame index with
      | none =>
        rw [hvalues] at h
        exact ih h
      | some values =>
        rw [hvalues] at h
        change (setupRow frame args index values >>= _) = _ at h
        cases hrow : setupRow frame args index values with
        | error e =>
          rw [hrow] at h
          cases h
        | ok row =>
          rw [hrow] at h
          change (setupRows features frame args (index + args.horizonBars) rest >>= _) = _ at h
          cases hrest : setupRows features frame args (index + args.horizonBars) rest with
          | error e =>
            rw [hrest] at h
            cases h
          | ok later =>
            rw [hrest] at h
            cases h
            obtain ⟨hlater, hpairwise⟩ := ih hrest
            have hat := setupRow_isRowAt hhorizon hrow
            refine ⟨fun r hr => ?_, List.pairwise_cons.mpr ⟨fun r hr => ?_, hpairwise⟩⟩
            · rcases List.mem_cons.mp hr with rfl | hr
              · exact ⟨index, hfree.1, hat⟩
              · obtain ⟨j, hj, hatj⟩ := hlater r hr
                exact ⟨j, by omega, hatj⟩
            · obtain ⟨j, hj, hatj⟩ := hlater r hr
              exact hat.before hframe hatj hj

variable {klines : List Kline}

/-- What is built when nothing is raised. -/
theorem buildDataset_ok
    (h : buildDataset features klines args = .ok rows) :
    1 ≤ args.horizonBars ∧ ∃ candidates,
      setupRows features (chronological klines) args (-1) candidates = .ok rows := by
  unfold buildDataset at h
  split_ifs at h with hsymbol hbars
  push Not at hbars
  dsimp only at h
  split at h
  · cases h
  · exact ⟨hbars.2, _, h⟩

/-! ## Disjoint labels -/

/-- The time from a row to the end of its label. -/
def SetupRow.interval (row : SetupRow) : Set ℤ := Set.Icc row.timestamp row.labelEndTime

theorem interval_disjoint (h : a.labelEndTime < b.timestamp) :
    Disjoint a.interval b.interval :=
  Set.disjoint_left.mpr fun _ ha hb => absurd (hb.1.trans ha.2) (not_le.mpr h)

theorem buildDataset_disjoint
    (h : buildDataset features klines args = .ok rows) :
    (∀ row ∈ rows, row.symbol = args.symbol) ∧
      rows.Pairwise fun a b => Disjoint a.interval b.interval := by
  obtain ⟨hhorizon, candidates, hrows⟩ := buildDataset_ok h
  obtain ⟨hat, hpairwise⟩ := setupRows_spec (chronological_pairwise klines) hhorizon hrows
  refine ⟨fun row hrow => ?_, hpairwise.imp interval_disjoint⟩
  obtain ⟨index, -, hrow⟩ := hat row hrow
  exact hrow.symbol

variable {datasets : List (List SetupRow)}

theorem matchedDataset_pairwise {r : SetupRow → SetupRow → Prop} (hsymm : ∀ {a b}, r a b → r b a)
    (hrows : ∀ rows ∈ datasets, rows.Pairwise r)
    (hacross : datasets.Pairwise fun l l' => ∀ a ∈ l, ∀ b ∈ l', r a b) :
    (matchedDataset datasets).Pairwise r :=
  ((List.perm_insertionSort _ _).pairwise_iff hsymm).mpr (List.pairwise_flatten.mpr ⟨hrows, hacross⟩)

variable {α β : Type} {p : α → β → Prop} {keys : List α} {values : List β}

theorem exists_of_forall₂
    (h : List.Forall₂ p keys values) {v : β} (hv : v ∈ values) : ∃ k ∈ keys, p k v := by
  induction h with
  | nil => cases hv
  | cons hp _ ih =>
    rcases List.mem_cons.mp hv with rfl | hv
    · exact ⟨_, List.mem_cons_self, hp⟩
    · obtain ⟨k, hk, hp'⟩ := ih hv
      exact ⟨k, List.mem_cons_of_mem _ hk, hp'⟩

theorem pairwise_of_forall₂ {q : α → α → Prop} {r : β → β → Prop}
    (h : List.Forall₂ p keys values) (hkeys : keys.Pairwise q)
    (hr : ∀ k k' v v', q k k' → p k v → p k' v' → r v v') : values.Pairwise r := by
  induction h with
  | nil => exact .nil
  | @cons k v keys values hp hrest ih =>
    obtain ⟨hk, hkeys⟩ := List.pairwise_cons.mp hkeys
    refine List.pairwise_cons.mpr ⟨fun v' hv' => ?_, ih hkeys⟩
    obtain ⟨k', hk', hp'⟩ := exists_of_forall₂ hrest hv'
    exact hr k k' v v' (hk k' hk') hp hp'

/-- The labels of one symbol are disjoint in the dataset of several. -/
theorem matchedDataset_disjoint {klines : String → List Kline}
    (args : SetupArgs) {names : List String} (hnames : names.Nodup)
    (h : List.Forall₂ (fun symbol rows => buildDataset features (klines symbol)
      { args with symbol } = .ok rows) names datasets) :
    (matchedDataset datasets).Pairwise fun a b =>
      a.symbol = b.symbol → Disjoint a.interval b.interval := by
  refine matchedDataset_pairwise (fun hab heq => (hab heq.symm).symm) ?_ ?_
  · intro rows hrows
    obtain ⟨symbol, -, hbuilt⟩ := exists_of_forall₂ h hrows
    refine (buildDataset_disjoint hbuilt).2.imp ?_
    intro a b hdisjoint _
    exact hdisjoint
  · refine pairwise_of_forall₂ h hnames fun s s' l l' hne hl hl' a ha b hb heq => ?_
    rw [(buildDataset_disjoint hl).1 a ha, (buildDataset_disjoint hl').1 b hb] at heq
    exact absurd heq hne

/-- **Triple-barrier labels** are first passages, and the labels of a symbol do not overlap. -/
theorem tripleBarrier_labels {df : List Kline} {args : BarrierArgs} {out : TripleBarrierOutcome}
    (hout : tripleBarrierOutcome df args = .ok out)
    (hbars : ∀ bar ∈ df, bar.low ≤ bar.close ∧ bar.close ≤ bar.high)
    {features : FeatureMatrix} {klines : String → List Kline} {setup : SetupArgs}
    {names : List String} (hnames : names.Nodup) {datasets : List (List SetupRow)}
    (hdatasets : List.Forall₂ (fun symbol rows =>
      buildTripleBarrierSetupDataset features (klines symbol) { setup with symbol } = .ok rows)
        names datasets) :
    (∃ first exitIndex exit, IsTripleBarrier df args first exitIndex exit out) ∧
      (∀ rows ∈ datasets, rows.Pairwise fun a b => Disjoint a.interval b.interval) ∧
        (matchedDataset datasets).Pairwise fun a b =>
          a.symbol = b.symbol → Disjoint a.interval b.interval := by
  refine ⟨tripleBarrierOutcome_isTripleBarrier hout hbars, fun rows hrows => ?_,
    matchedDataset_disjoint { setup with tripleBarrier := true } hnames hdatasets⟩
  obtain ⟨symbol, -, hbuilt⟩ := exists_of_forall₂ hdatasets hrows
  exact (buildDataset_disjoint hbuilt).2

/-- Five bars, of which the third and the fourth are breakouts. -/
def breakoutBars : List Kline :=
  [⟨0, 9, 10, 8, 9, 1⟩, ⟨1, 9, 10, 8, 9, 1⟩, ⟨2, 9, 12, 9, 12, 1⟩, ⟨3, 12, 16, 11, 15, 1⟩,
    ⟨4, 15, 15, 9, 10, 1⟩]

/-- The row of the third of them. -/
def breakoutRow : SetupRow :=
  ⟨2, 3, "ETHUSDT", 1, 12, 11, -1 / 12, 0, some .stopLoss, featureColumns.map (·, 1)⟩

theorem tripleBarrier_labels_breakout :
    (∃ first exitIndex exit, IsTripleBarrier breakoutBars
      { index := 2, side := -1, atr := 1, horizonBars := 2 } first exitIndex exit
        ⟨0, 3, 13, -1 / 12, .stopLoss⟩) ∧
      (∀ rows ∈ [[breakoutRow]], rows.Pairwise fun a b => Disjoint a.interval b.interval) ∧
        (matchedDataset [[breakoutRow]]).Pairwise fun a b =>
          a.symbol = b.symbol → Disjoint a.interval b.interval :=
  @tripleBarrier_labels breakoutBars { index := 2, side := -1, atr := 1, horizonBars := 2 } _
    (by decide +kernel) (by decide +kernel) (fun _ _ _ => some 1) (fun _ => breakoutBars)
    { symbol := "", lookbackBars := 2, horizonBars := 1, tripleBarrier := true } ["ETHUSDT"]
    (List.nodup_singleton _) _ (.cons (by decide +kernel) .nil)

end Greenfield.Ml
