import Greenfield.Backtesting.Funding
import Greenfield.Research.WalkForward
import Mathlib.Tactic.Ring

/-!
# Returns of folds

`_fold_returns` of `src/research/orchestrator.py`, on the trades of `run_walk_forward` as
`positions_report_to_trades` of `src/backtesting/reports.py` makes them. A fold ends before the end
of its test window, where the runner closes what is still open, so what is closed at the end of the
last test is in no fold (`fold_returns_iff`). Times are in nanoseconds.
-/

namespace Greenfield.Research

open Backtesting Py Tiling

/-! ## Trades -/

/-- `entry` of a position. -/
inductive EntrySide where
  | buy
  | sell
  deriving DecidableEq

def EntrySide.direction : EntrySide → ℚ
  | .buy => 1
  | .sell => -1

/-- A row of the positions report. One that is still open has no `ts_closed`. -/
structure ReportedPosition where
  entry : EntrySide
  tsOpened : ℤ
  tsClosed : Option ℤ
  peakQty : ℚ
  avgPxOpen : ℚ
  avgPxClose : ℚ
  commissions : List ℚ
  deriving DecidableEq

/-- A row of `TRADE_COLUMNS`. -/
structure Trade where
  entryTime : ℤ
  exitTime : ℤ
  quantity : ℚ
  entryPrice : ℚ
  exitPrice : ℚ
  fees : ℚ
  fundingCost : ℚ := 0
  isMarkToMarket : Bool
  deriving DecidableEq

/-- `estimate_funding_cost` of a trade. -/
def Trade.funded (assumptions : Option FundingAssumptions) (trade : Trade) : Except PyError Trade :=
  match assumptions with
  | none => .ok trade
  | some assumptions => do
    let fundingCost ← estimateFundingCost
      [⟨⟨trade.entryTime, true⟩, ⟨trade.exitTime, true⟩, trade.entryPrice, trade.quantity⟩] assumptions
    return { trade with fundingCost }

/-- `closed_frame`. -/
def closedTrades (positions : List ReportedPosition) : List Trade :=
  positions.filterMap fun p => p.tsClosed.map fun tsClosed =>
    { entryTime := p.tsOpened
      exitTime := tsClosed
      quantity := p.peakQty * p.entry.direction
      entryPrice := p.avgPxOpen
      exitPrice := p.avgPxClose
      fees := p.commissions.sum
      isMarkToMarket := false }

/-- `open_frame`. -/
def openTrades (positions : List ReportedPosition) (periodEnd : ℤ) (markPrice : ℚ) : List Trade :=
  (positions.filter fun p => p.tsClosed.isNone).map fun p =>
    { entryTime := p.tsOpened
      exitTime := periodEnd
      quantity := p.peakQty * p.entry.direction
      entryPrice := p.avgPxOpen
      exitPrice := markPrice
      fees := 0
      isMarkToMarket := true }

/-- `positions_report_to_trades`. -/
def positionsReportToTrades (positions : List ReportedPosition) (periodEnd : Option ℤ)
    (markPrice : Option ℚ) (assumptions : Option FundingAssumptions) : Except PyError (List Trade) :=
  let stillOpen := match periodEnd, markPrice with
    | some periodEnd, some markPrice => openTrades positions periodEnd markPrice
    | _, _ => []
  (closedTrades positions ++ stillOpen).mapM (Trade.funded assumptions)

/-- What the engine leaves of a run: its report, and the close of its last bar. A position is
closed by a bar of the run. -/
structure WindowRun (w : WalkForwardWindow) where
  positions : List ReportedPosition
  lastClose : Option ℚ
  within : ∀ p ∈ positions, ∀ t ∈ p.tsClosed, w.testStart ≤ t ∧ t ≤ w.testEnd

/-- The trades of `run_backtest_window` over a test. -/
def windowTrades (assumptions : Option FundingAssumptions) {w : WalkForwardWindow} (run : WindowRun w) :
    Except PyError (List Trade) :=
  positionsReportToTrades run.positions (run.lastClose.map fun _ => w.testEnd) run.lastClose assumptions

/-- `test_trades` of `run_walk_forward`. -/
def testTrades (assumptions : Option FundingAssumptions) (run : (w : WalkForwardWindow) → WindowRun w)
    (windows : List WalkForwardWindow) : Except PyError (List Trade) := do
  let allTrades ← windows.mapM fun w => windowTrades assumptions (run w)
  return allTrades.flatten

/-! ## Folds -/

/-- `net_pnl` of `trade_pnl`. -/
def Trade.netPnl (trade : Trade) : ℚ :=
  trade.quantity * (trade.exitPrice - trade.entryPrice) - trade.fees - trade.fundingCost

/-- Whether a trade counts for a window. -/
def WalkForwardWindow.closes (w : WalkForwardWindow) (trade : Trade) : Bool :=
  w.testStart ≤ trade.exitTime && trade.exitTime < w.testEnd

/-- `_fold_returns`. -/
def foldReturns (trades : List Trade) (windows : List WalkForwardWindow) (startingBalance : ℚ) : List ℚ :=
  if trades.isEmpty then windows.map fun _ => 0
  else windows.map fun w => ((trades.filter w.closes).map Trade.netPnl).sum / startingBalance

/-! ## Times of exits -/

section Exits

variable {assumptions : Option FundingAssumptions} {w : WalkForwardWindow} {run : WindowRun w}

/-- Funding keeps the times of a trade. -/
theorem Trade.funded_ok (assumptions : Option FundingAssumptions) (trade : Trade) :
    ∃ funded, trade.funded assumptions = .ok funded ∧ funded.exitTime = trade.exitTime := by
  cases assumptions with
  | none => exact ⟨trade, rfl, rfl⟩
  | some assumptions => exact ⟨_, rfl, rfl⟩

/-- The trades of a test are closed within it. -/
theorem windowTrades_ok (assumptions : Option FundingAssumptions) (run : WindowRun w)
    (hw : w.testStart < w.testEnd) : ∃ trades, windowTrades assumptions run = .ok trades ∧
      ∀ trade ∈ trades, w.testStart ≤ trade.exitTime ∧ trade.exitTime ≤ w.testEnd := by
  set raw := closedTrades run.positions ++
    match run.lastClose.map fun _ => w.testEnd, run.lastClose with
    | some periodEnd, some markPrice => openTrades run.positions periodEnd markPrice
    | _, _ => [] with hraw
  obtain ⟨trades, hok, hexits⟩ := mapM_ok (l := raw) fun trade _ => Trade.funded_ok assumptions trade
  refine ⟨trades, hok, fun trade hmem => ?_⟩
  have hexit : trade.exitTime ∈ raw.map Trade.exitTime := hexits ▸ List.mem_map_of_mem hmem
  obtain ⟨before, hbefore, heq⟩ := List.mem_map.mp hexit
  rw [← heq]
  rcases List.mem_append.mp hbefore with hclosed | hopen
  · obtain ⟨p, hp, hmap⟩ := List.mem_filterMap.mp hclosed
    obtain ⟨t, ht, rfl⟩ := Option.map_eq_some_iff.mp hmap
    exact run.within p hp t ht
  · cases hmark : run.lastClose with
    | none =>
      rw [hmark] at hopen
      cases hopen
    | some markPrice =>
      rw [hmark] at hopen
      obtain ⟨p, -, rfl⟩ := List.mem_map.mp hopen
      exact ⟨hw.le, le_rfl⟩

end Exits

/-- The trades of the tests are closed between the first start and the last end. -/
theorem testTrades_ok {windows : List WalkForwardWindow} {s e : ℤ}
    (htiles : Tiles WalkForwardWindow.testStart WalkForwardWindow.testEnd s e windows)
    (assumptions : Option FundingAssumptions) (run : (w : WalkForwardWindow) → WindowRun w) :
    ∃ trades, testTrades assumptions run windows = .ok trades ∧
      ∀ trade ∈ trades, s ≤ trade.exitTime ∧ trade.exitTime ≤ e := by
  have hall : ∀ ws : List WalkForwardWindow, (∀ w ∈ ws, s ≤ w.testStart ∧ w.testStart < w.testEnd ∧
      w.testEnd ≤ e) → ∃ trades, testTrades assumptions run ws = .ok trades ∧
        ∀ trade ∈ trades, s ≤ trade.exitTime ∧ trade.exitTime ≤ e := by
    intro ws
    induction ws with
    | nil => exact fun _ => ⟨[], rfl, nofun⟩
    | cons w ws ih =>
      intro h
      obtain ⟨⟨hstart, hlt, hend⟩, hws⟩ := List.forall_mem_cons.mp h
      obtain ⟨first, hfirst, hwithin⟩ := windowTrades_ok assumptions (run w) hlt
      obtain ⟨rest, hrest, hrestWithin⟩ := ih hws
      obtain ⟨each, heach, heq⟩ := bind_eq_ok.mp hrest
      obtain rfl := Except.ok.inj heq
      refine ⟨first ++ each.flatten, ?_, fun trade hmem => ?_⟩
      · unfold testTrades
        rw [List.mapM_cons, hfirst, heach]
        rfl
      · rcases List.mem_append.mp hmem with hmem | hmem
        · have hbounds := hwithin trade hmem
          omega
        · exact hrestWithin trade hmem
  exact hall windows fun w hw => ⟨htiles.le_lo w hw, htiles.lo_lt w hw, htiles.hi_le w hw⟩

/-! ## Sums of folds -/

/-- The sum of the folds counts a trade as often as it is in one. -/
theorem sum_foldReturns (trades : List Trade) (windows : List WalkForwardWindow) (startingBalance : ℚ) :
    (foldReturns trades windows startingBalance).sum =
      (trades.map fun trade => (windows.countP fun w => w.closes trade) * trade.netPnl).sum /
        startingBalance := by
  have hfold : ∀ w : WalkForwardWindow, ((trades.filter w.closes).map Trade.netPnl).sum =
      (trades.map fun trade => if w.closes trade then trade.netPnl else 0).sum := by
    intro w
    induction trades with
    | nil => rfl
    | cons trade trades ih => by_cases h : w.closes trade = true <;> simp [h, ih]
  unfold foldReturns
  split
  · next hempty =>
    rw [List.isEmpty_iff.mp hempty]
    simp
  · induction windows with
    | nil => simp
    | cons w windows ih =>
      rw [List.map_cons, List.sum_cons, ih, hfold, ← add_div, ← List.sum_map_add]
      refine congrArg (fun l => List.sum l / startingBalance) (List.map_congr_left fun trade _ => ?_)
      rw [List.countP_cons]
      split
      · push_cast
        ring
      · simp

/-- **Fold returns add up if nothing is closed at the last end.** Each trade of the tests is in
exactly one fold, and the folds add up to the whole, if and only if no trade is closed at the end of
the last test. -/
theorem fold_returns_iff {windows : List WalkForwardWindow} {s e : ℤ}
    (htiles : Tiles WalkForwardWindow.testStart WalkForwardWindow.testEnd s e windows)
    (assumptions : Option FundingAssumptions) (run : (w : WalkForwardWindow) → WindowRun w)
    (startingBalance : ℚ) :
    ∃ trades, testTrades assumptions run windows = .ok trades ∧
      ((∀ trade ∈ trades, windows.countP (fun w => w.closes trade) = 1) ∧
        (foldReturns trades windows startingBalance).sum =
          (trades.map Trade.netPnl).sum / startingBalance ↔
      ∀ trade ∈ trades, trade.exitTime ≠ e) := by
  obtain ⟨trades, hok, hbounds⟩ := testTrades_ok htiles assumptions run
  have hcount : ∀ trade ∈ trades, windows.countP (fun w => w.closes trade) = 1 ↔
      trade.exitTime ≠ e := by
    intro trade hmem
    obtain ⟨hstart, hend⟩ := hbounds trade hmem
    have hcovers := htiles.countP_covers trade.exitTime
    have hsame : windows.countP (fun w => w.closes trade) =
        windows.countP fun w => decide (w.testStart ≤ trade.exitTime ∧ trade.exitTime < w.testEnd) := by
      refine List.countP_congr fun w _ => ?_
      simp [WalkForwardWindow.closes]
    rw [hsame, hcovers]
    split <;> omega
  refine ⟨trades, hok, fun h trade hmem => (hcount trade hmem).mp (h.1 trade hmem), fun h => ?_⟩
  have hone : ∀ trade ∈ trades, windows.countP (fun w => w.closes trade) = 1 :=
    fun trade hmem => (hcount trade hmem).mpr (h trade hmem)
  refine ⟨hone, ?_⟩
  rw [sum_foldReturns]
  refine congrArg (fun l => List.sum l / startingBalance) (List.map_congr_left fun trade hmem => ?_)
  rw [hone trade hmem]
  simp

/-! ## A position that is still open -/

/-- One test, of two nanoseconds. -/
def oneTest : WalkForwardWindow := windowFrom 0 1 1 2

theorem oneTest_tiles :
    Tiles WalkForwardWindow.testStart WalkForwardWindow.testEnd 2 4 [oneTest] :=
  .cons rfl (by decide) (.nil 4)

/-- A position of one unit, which is opened at the start of a test and stays open. -/
def staysOpen (w : WalkForwardWindow) : WindowRun w where
  positions := [⟨.buy, w.testStart, none, 1, 100, 0, []⟩]
  lastClose := some 110
  within p hp t ht := by
    rw [List.mem_singleton.mp hp] at ht
    cases ht

theorem fold_returns_iff_oneTest :
    ∃ trades, testTrades none staysOpen [oneTest] = .ok trades ∧
      ((∀ trade ∈ trades, [oneTest].countP (fun w => w.closes trade) = 1) ∧
        (foldReturns trades [oneTest] 1000).sum = (trades.map Trade.netPnl).sum / 1000 ↔
      ∀ trade ∈ trades, trade.exitTime ≠ 4) :=
  fold_returns_iff oneTest_tiles none staysOpen 1000

/-- What is open at the end of the last test is in no fold. -/
theorem open_position_dropped :
    ¬∀ (windows : List WalkForwardWindow) (s e : ℤ),
      Tiles WalkForwardWindow.testStart WalkForwardWindow.testEnd s e windows →
      ∀ (run : (w : WalkForwardWindow) → WindowRun w) (startingBalance : ℚ) (trades : List Trade),
        testTrades none run windows = .ok trades →
        (∀ trade ∈ trades, windows.countP (fun w => w.closes trade) = 1) ∧
          (foldReturns trades windows startingBalance).sum =
            (trades.map Trade.netPnl).sum / startingBalance := by
  intro h
  have hsum := (h [oneTest] 2 4 oneTest_tiles staysOpen 1000 _ rfl).2
  exact absurd hsum (by decide +kernel)

end Greenfield.Research
