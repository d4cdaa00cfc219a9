import Greenfield.Lib.Run
import Greenfield.Lib.Table
import Greenfield.Py.Basic
import Mathlib.Data.List.TakeWhile
import Mathlib.Tactic.Linarith
import Mathlib.Tactic.FieldSimp

/-!
# The backtest risk engine

`src/risk/engine.py`. `make_qty` of an instrument is a parameter that rounds down when it is
told to, and may raise. Days are those of `now.date()`. A run in which every open uses the
approval of the last evaluation, once, keeps the limits on positions and on committed risk, and
an approval is within the limits of the whole history (`gate_over_runs`).
-/

namespace Greenfield.Risk

open Keyed Py

structure RiskConfig where
  riskPerTrade : ℚ := 1 / 100
  maxPortfolioRisk : ℚ := 1 / 20
  maxDailyLoss : ℚ := 3 / 100
  maxDrawdown : ℚ := 1 / 4
  maxConcurrentPositions : ℤ := 1
  maxLeverage : ℚ := 3
  volatilityTarget : Option ℚ := none

/-- `Instrument`: `make_qty(value, round_down)`. -/
structure Instrument where
  makeQty : ℚ → Bool → Except PyError ℚ
  roundsDown : ∀ {value quantity}, makeQty value true = .ok quantity → quantity ≤ value

structure RiskDecision where
  approved : Bool
  quantity : ℚ
  riskFraction : ℚ
  reason : String
  deriving DecidableEq

/-- An entry of `_open_positions`. -/
structure RiskSlot where
  key : String
  riskFraction : ℚ
  deriving DecidableEq

structure RiskEngine where
  config : RiskConfig
  openPositions : Table RiskSlot.key := .empty
  peakEquity : ℚ := 0
  dailyPnl : ℚ := 0
  currentDay : Option ℤ := none

/-- `now.date()`. -/
def dateOf (now : Datetime) : ℤ := now.micros / microsPerDay

namespace RiskEngine

/-- `_roll_day`: whether `now` is current, and the ledger after it. -/
def rollDay (e : RiskEngine) (now : Datetime) : Bool × RiskEngine :=
  let advance : RiskEngine := { e with currentDay := some (dateOf now), dailyPnl := 0 }
  match e.currentDay with
  | none => (true, advance)
  | some day => if dateOf now > day then (true, advance) else (dateOf now = day, e)

/-- `sum(p.risk_fraction for p in self._open_positions.values())`. -/
def openRisk (e : RiskEngine) : ℚ := (e.openPositions.rows.map RiskSlot.riskFraction).sum

/-- The risk of an entry before it is capped. -/
def targetRisk (config : RiskConfig) (realizedVol : Option ℚ) : ℚ :=
  match config.volatilityTarget, realizedVol with
  | some target, some vol => if vol > 0 then target / vol * config.riskPerTrade else config.riskPerTrade
  | _, _ => config.riskPerTrade

/-- What `evaluate` decides once it has noted the day and the peak. -/
def judge (e : RiskEngine) (instrument : Instrument) (price equity : ℚ) (realizedVol : Option ℚ) :
    Except PyError RiskDecision := do
  let zero ← instrument.makeQty 0 false
  if (e.openPositions.rows.length : ℤ) ≥ e.config.maxConcurrentPositions then
    .ok ⟨false, zero, 0, "max_concurrent_positions reached"⟩
  else if equity > 0 ∧ e.dailyPnl ≤ -e.config.maxDailyLoss * equity then
    .ok ⟨false, zero, 0, "max_daily_loss breached"⟩
  else if e.peakEquity > 0 ∧ (equity - e.peakEquity) / e.peakEquity ≤ -e.config.maxDrawdown then
    .ok ⟨false, zero, 0, "max_drawdown breached"⟩
  else
    let availableRisk := e.config.maxPortfolioRisk - e.openRisk
    if availableRisk ≤ 0 then .ok ⟨false, zero, 0, "max_portfolio_risk reached"⟩
    else
      let riskFraction := max 0 (min (targetRisk e.config realizedVol) availableRisk)
      if price ≤ 0 ∨ riskFraction ≤ 0 then .ok ⟨false, zero, 0, "no valid risk budget"⟩
      else
        let notional := min (equity * riskFraction) (equity * e.config.maxLeverage)
        let quantity ← instrument.makeQty (notional / price) true
        if quantity ≤ 0 then .ok ⟨false, quantity, 0, "computed size rounds to zero"⟩
        else .ok ⟨true, quantity, riskFraction, "approved"⟩

def evaluate (e : RiskEngine) (instrument : Instrument) (price equity : ℚ) (now : Datetime)
    (realizedVol : Option ℚ) : Except PyError RiskDecision × RiskEngine :=
  let rolled := e.rollDay now
  if rolled.1 = false then
    ((instrument.makeQty 0 false).map fun zero => ⟨false, zero, 0, "out-of-order timestamp"⟩,
      rolled.2)
  else
    let e : RiskEngine := { rolled.2 with peakEquity := max rolled.2.peakEquity equity }
    (e.judge instrument price equity realizedVol, e)

def openPosition (e : RiskEngine) (key : String) (riskFraction : ℚ) : RiskEngine :=
  { e with openPositions := e.openPositions.upsert ⟨key, riskFraction⟩ }

def closePosition (e : RiskEngine) (key : String) (realizedPnl : ℚ) (now : Datetime) : RiskEngine :=
  let e := (e.rollDay now).2
  { e with openPositions := e.openPositions.erase key, dailyPnl := e.dailyPnl + realizedPnl }

/-! ## What an approval says -/

variable {e : RiskEngine} {instrument : Instrument} {price equity : ℚ} {now : Datetime}
  {realizedVol : Option ℚ} {d : RiskDecision}

/-- The checks of `evaluate` that an approval passed. -/
structure Approves (e : RiskEngine) (price equity : ℚ) (d : RiskDecision) : Prop where
  slot : (e.openPositions.rows.length : ℤ) < e.config.maxConcurrentPositions
  loss : 0 < equity → -e.config.maxDailyLoss * equity < e.dailyPnl
  drawdown : 0 < e.peakEquity → -e.config.maxDrawdown < (equity - e.peakEquity) / e.peakEquity
  positive : 0 < d.riskFraction
  risk : e.openRisk + d.riskFraction ≤ e.config.maxPortfolioRisk
  size : 0 ≤ equity → d.quantity * price ≤ equity * min d.riskFraction e.config.maxLeverage

theorem judge_approves (h : e.judge instrument price equity realizedVol = .ok d)
    (happroved : d.approved = true) : e.Approves price equity d := by
  have hnot : ∀ {zero reason}, Except.ok ⟨false, zero, 0, reason⟩ = (.ok d : Except PyError _) →
      e.Approves price equity d := by
    rintro zero reason ⟨⟩
    cases happroved
  unfold judge at h
  obtain ⟨zero, -, h⟩ := bind_eq_ok.mp h
  split at h
  · exact hnot h
  next hslot =>
  split at h
  · exact hnot h
  next hloss =>
  split at h
  · exact hnot h
  next hdrawdown =>
  simp only at h
  split at h
  · exact hnot h
  split at h
  · exact hnot h
  next hbudget =>
  obtain ⟨quantity, hquantity, h⟩ := bind_eq_ok.mp h
  split at h
  · exact hnot h
  cases h
  rw [not_or, not_le, not_le] at hbudget
  obtain ⟨hprice, hpositive⟩ := hbudget
  refine ⟨not_le.mp hslot, fun hequity => not_le.mp fun hle => hloss ⟨hequity, hle⟩,
    fun hpeak => not_le.mp fun hle => hdrawdown ⟨hpeak, hle⟩, hpositive, ?_, fun hequity => ?_⟩
  · -- A positive risk is below what is available.
    have hle : max 0 (min (targetRisk e.config realizedVol)
        (e.config.maxPortfolioRisk - e.openRisk)) ≤ e.config.maxPortfolioRisk - e.openRisk := by
      rcases max_cases 0 (min (targetRisk e.config realizedVol)
        (e.config.maxPortfolioRisk - e.openRisk)) with ⟨heq, -⟩ | ⟨heq, -⟩
      · exact absurd heq hpositive.ne'
      · rw [heq]
        exact min_le_right _ _
    show e.openRisk + _ ≤ _
    linarith
  · rw [mul_min_of_nonneg _ _ hequity]
    exact (le_div_iff₀ hprice).mp (instrument.roundsDown hquantity)

theorem rollDay_cases (e : RiskEngine) (now : Datetime) :
    ((∀ day ∈ e.currentDay, day < dateOf now) ∧
      e.rollDay now = (true, { e with currentDay := some (dateOf now), dailyPnl := 0 })) ∨
    ∃ day, e.currentDay = some day ∧ dateOf now ≤ day ∧
      e.rollDay now = (decide (dateOf now = day), e) := by
  unfold rollDay
  cases hday : e.currentDay with
  | none => exact .inl ⟨nofun, rfl⟩
  | some day =>
    simp only
    split
    · next hlt =>
      refine .inl ⟨?_, rfl⟩
      rintro _ ⟨⟩
      exact hlt
    · next hlt => exact .inr ⟨day, rfl, not_lt.mp hlt, rfl⟩

/-- Only a current evaluation approves. -/
theorem evaluate_approves (h : (e.evaluate instrument price equity now realizedVol).1 = .ok d)
    (happroved : d.approved = true) : (e.rollDay now).1 = true ∧
      Approves { (e.rollDay now).2 with peakEquity := max (e.rollDay now).2.peakEquity equity }
        price equity d := by
  unfold evaluate at h
  simp only at h
  split at h
  · cases hzero : instrument.makeQty 0 false with
    | error err =>
      rw [hzero] at h
      cases h
    | ok zero =>
      rw [hzero] at h
      cases h
      cases happroved
  · next hcurrent => exact ⟨by simpa using hcurrent, judge_approves h happroved⟩

theorem evaluate_engine (e : RiskEngine) (instrument : Instrument) (price equity : ℚ)
    (now : Datetime) (realizedVol : Option ℚ) :
    (e.evaluate instrument price equity now realizedVol).2 =
      if (e.rollDay now).1 = false then (e.rollDay now).2
      else { (e.rollDay now).2 with peakEquity := max (e.rollDay now).2.peakEquity equity } := by
  unfold evaluate
  simp only
  split <;> rfl

end RiskEngine

/-! ## Calls -/

inductive RiskCall where
  | evaluate (instrument : Instrument) (price equity : ℚ) (now : Datetime) (realizedVol : Option ℚ)
  | openPosition (key : String) (riskFraction : ℚ)
  | closePosition (key : String) (realizedPnl : ℚ) (now : Datetime)

namespace RiskCall

/-- The day of a call that has a time. -/
def day : RiskCall → Option ℤ
  | .evaluate _ _ _ now _ => some (dateOf now)
  | .openPosition .. => none
  | .closePosition _ _ now => some (dateOf now)

def realized : RiskCall → ℚ
  | .closePosition _ realizedPnl _ => realizedPnl
  | _ => 0

end RiskCall

/-- What the closes realized from the first call of a day on. -/
def realizedSince (day : ℤ) (calls : List RiskCall) : ℚ :=
  ((calls.dropWhile fun c => c.day ≠ some day).map RiskCall.realized).sum

/-- No call is of a later day. -/
def NoneAfter (day : ℤ) (calls : List RiskCall) : Prop :=
  ∀ c ∈ calls, ∀ earlier ∈ c.day, earlier ≤ day

/-- An equity that was evaluated by a call that was not stale. -/
def Noted (calls : List RiskCall) (equity : ℚ) : Prop :=
  ∃ before instrument price now realizedVol after,
    calls = before ++ .evaluate instrument price equity now realizedVol :: after ∧
      NoneAfter (dateOf now) before

/-- The risk that an answer of `evaluate` approves. -/
def approvedRisk : Except PyError RiskDecision → Option ℚ
  | .ok d => if d.approved then some d.riskFraction else none
  | .error _ => none

/-- An engine, the approval of the last evaluation until it is used, and the calls so far. -/
structure RiskRun where
  engine : RiskEngine
  approval : Option ℚ := none
  calls : List RiskCall := []

namespace RiskRun

def step (s : RiskRun) (c : RiskCall) : RiskRun :=
  match c with
  | .evaluate instrument price equity now realizedVol =>
    { engine := (s.engine.evaluate instrument price equity now realizedVol).2
      approval := approvedRisk (s.engine.evaluate instrument price equity now realizedVol).1
      calls := s.calls ++ [c] }
  | .openPosition key riskFraction =>
    { engine := s.engine.openPosition key riskFraction, calls := s.calls ++ [c] }
  | .closePosition key realizedPnl now =>
    { s with engine := s.engine.closePosition key realizedPnl now, calls := s.calls ++ [c] }

/-- Equity is positive, and an open uses the approval of the last evaluation. -/
def Permits (s : RiskRun) : RiskCall → Prop
  | .evaluate _ _ equity _ _ => 0 < equity
  | .openPosition _ riskFraction => s.approval = some riskFraction
  | .closePosition .. => True

instance (s : RiskRun) : (c : RiskCall) → Decidable (s.Permits c)
  | .evaluate _ _ equity _ _ => inferInstanceAs (Decidable (0 < equity))
  | .openPosition _ riskFraction => inferInstanceAs (Decidable (s.approval = some riskFraction))
  | .closePosition .. => .isTrue trivial

def start (config : RiskConfig) : RiskRun := { engine := { config } }

end RiskRun

/-! ## Limits -/

/-- The open positions are within the limits, also with the approval that is not used yet. -/
structure WithinLimits (config : RiskConfig) (s : RiskRun) : Prop where
  config_eq : s.engine.config = config
  count : (s.engine.openPositions.rows.length : ℤ) ≤ max 0 config.maxConcurrentPositions
  positive : ∀ slot ∈ s.engine.openPositions.rows, 0 < slot.riskFraction
  risk : s.engine.openRisk ≤ max 0 config.maxPortfolioRisk
  approval : ∀ riskFraction, s.approval = some riskFraction → 0 < riskFraction ∧
    (s.engine.openPositions.rows.length : ℤ) < config.maxConcurrentPositions ∧
    s.engine.openRisk + riskFraction ≤ config.maxPortfolioRisk

namespace RiskEngine

variable {e : RiskEngine} {now : Datetime}

@[simp] theorem rollDay_positions : (e.rollDay now).2.openPositions = e.openPositions := by
  rcases e.rollDay_cases now with ⟨-, heq⟩ | ⟨day, -, -, heq⟩ <;> rw [heq]

@[simp] theorem rollDay_config : (e.rollDay now).2.config = e.config := by
  rcases e.rollDay_cases now with ⟨-, heq⟩ | ⟨day, -, -, heq⟩ <;> rw [heq]

@[simp] theorem rollDay_peak : (e.rollDay now).2.peakEquity = e.peakEquity := by
  rcases e.rollDay_cases now with ⟨-, heq⟩ | ⟨day, -, -, heq⟩ <;> rw [heq]

theorem rollDay_current (h : (e.rollDay now).1 = true) :
    (e.rollDay now).2.currentDay = some (dateOf now) := by
  rcases e.rollDay_cases now with ⟨-, heq⟩ | ⟨day, hday, -, heq⟩
  · rw [heq]
  · rw [heq] at h ⊢
    rw [hday, of_decide_eq_true h]

theorem openRisk_nonneg (h : ∀ slot ∈ e.openPositions.rows, 0 < slot.riskFraction)
    {slot : Option RiskSlot} (hslot : ∀ x ∈ slot, x ∈ e.openPositions.rows) :
    0 ≤ (slot.map RiskSlot.riskFraction).getD 0 := by
  cases slot with
  | none => exact le_rfl
  | some x => exact (h x (hslot x rfl)).le

end RiskEngine

variable {c : RiskCall} {s : RiskRun}

theorem WithinLimits.step {config : RiskConfig}
    (h : WithinLimits config s) (hc : s.Permits c) : WithinLimits config (s.step c) := by
  obtain ⟨rfl, hcount, hpositive, hrisk, happroval⟩ := h
  cases c with
  | evaluate instrument price equity now realizedVol =>
    have heng := s.engine.evaluate_engine instrument price equity now realizedVol
    have hpositions : (s.engine.evaluate instrument price equity now realizedVol).2.openPositions =
        s.engine.openPositions := by
      rw [heng]
      split <;> simp
    refine ⟨?_, ?_, ?_, ?_, ?_⟩
    · show (s.engine.evaluate instrument price equity now realizedVol).2.config = _
      rw [heng]
      split <;> simp
    · simpa only [RiskRun.step, hpositions] using hcount
    · simpa only [RiskRun.step, hpositions] using hpositive
    · simpa only [RiskRun.step, RiskEngine.openRisk, hpositions] using hrisk
    · intro riskFraction happroved
      simp only [RiskRun.step, RiskEngine.openRisk, hpositions] at happroved ⊢
      cases hd : (s.engine.evaluate instrument price equity now realizedVol).1 with
      | error err =>
        rw [hd] at happroved
        cases happroved
      | ok d =>
        rw [hd, approvedRisk] at happroved
        split at happroved
        · next hok =>
          cases happroved
          obtain ⟨-, hchecks⟩ := RiskEngine.evaluate_approves hd hok
          have hslot := hchecks.slot
          have hsum := hchecks.risk
          simp only [RiskEngine.openRisk, RiskEngine.rollDay_positions,
            RiskEngine.rollDay_config] at hslot hsum
          exact ⟨hchecks.positive, hslot, hsum⟩
        · cases happroved
  | openPosition key riskFraction =>
    obtain ⟨hfraction, hslot, hsum⟩ := happroval riskFraction hc
    have hold : 0 ≤ ((s.engine.openPositions.find key).map RiskSlot.riskFraction).getD 0 :=
      RiskEngine.openRisk_nonneg hpositive fun x hx => Table.find_mem hx
    refine ⟨rfl, le_max_of_le_right ?_, ?_, le_max_of_le_right ?_, nofun⟩
    · have hlength := s.engine.openPositions.length_upsert_le ⟨key, riskFraction⟩
      simp only [RiskRun.step, RiskEngine.openPosition]
      omega
    · intro slot hmem
      rcases Table.mem_upsert hmem with rfl | hmem
      · exact hfraction
      · exact hpositive slot hmem
    · simp only [RiskRun.step, RiskEngine.openPosition, RiskEngine.openRisk, Table.sum_upsert]
      rw [RiskEngine.openRisk] at hsum
      linarith
  | closePosition key realizedPnl now =>
    have hold : 0 ≤ ((s.engine.openPositions.find key).map RiskSlot.riskFraction).getD 0 :=
      RiskEngine.openRisk_nonneg hpositive fun x hx => Table.find_mem hx
    have hlength : (s.engine.openPositions.erase key).rows.length ≤
        s.engine.openPositions.rows.length := List.length_filter_le ..
    have hless : ((s.engine.openPositions.erase key).rows.map RiskSlot.riskFraction).sum ≤
        s.engine.openRisk := by
      rw [Table.sum_erase_find, RiskEngine.openRisk]
      linarith
    refine ⟨?_, ?_, ?_, ?_, ?_⟩
    · simp [RiskRun.step, RiskEngine.closePosition]
    · simp only [RiskRun.step, RiskEngine.closePosition, RiskEngine.rollDay_positions]
      omega
    · intro slot hmem
      simp only [RiskRun.step, RiskEngine.closePosition, RiskEngine.rollDay_positions] at hmem
      exact hpositive slot (Table.mem_erase.mp hmem).1
    · simp only [RiskRun.step, RiskEngine.closePosition, RiskEngine.rollDay_positions,
        RiskEngine.openRisk]
      exact hless.trans hrisk
    · intro riskFraction happroved
      obtain ⟨hfraction, hslot, hsum⟩ := happroval riskFraction happroved
      simp only [RiskRun.step, RiskEngine.closePosition, RiskEngine.rollDay_positions,
        RiskEngine.openRisk]
      exact ⟨hfraction, by omega, by linarith⟩

/-! ## The ledger -/

variable {day : ℤ} {calls : List RiskCall}

theorem realizedSince_append_of_mem (c : RiskCall)
    (h : ∃ earlier ∈ calls, earlier.day = some day) :
    realizedSince day (calls ++ [c]) = realizedSince day calls + c.realized := by
  have hsome : (calls.dropWhile fun c => decide (c.day ≠ some day)).isEmpty = false := by
    obtain ⟨earlier, hmem, hday⟩ := h
    rw [List.isEmpty_eq_false_iff, ne_eq, List.dropWhile_eq_nil_iff]
    intro hall
    simpa [hday] using hall earlier hmem
  unfold realizedSince
  rw [List.dropWhile_append, hsome]
  simp

theorem realizedSince_append_of_forall
    (h : ∀ earlier ∈ calls, earlier.day ≠ some day) (hc : c.day = some day) :
    realizedSince day (calls ++ [c]) = c.realized := by
  have hnone : (calls.dropWhile fun c => decide (c.day ≠ some day)).isEmpty = true := by
    rw [List.isEmpty_iff, List.dropWhile_eq_nil_iff]
    exact fun earlier hmem => decide_eq_true (h earlier hmem)
  unfold realizedSince
  rw [List.dropWhile_append, hnone]
  simp [hc]

theorem realizedSince_append_zero
    (hc : c.realized = 0) : realizedSince day (calls ++ [c]) = realizedSince day calls := by
  unfold realizedSince
  rw [List.dropWhile_append]
  split
  · next hempty =>
    rw [List.isEmpty_iff.mp hempty, List.dropWhile_cons]
    split <;> simp [hc]
  · simp [hc]

/-- The day and the PnL that an engine notes of the calls. -/
structure Ledger (calls : List RiskCall) (e : RiskEngine) : Prop where
  latest : ∀ day, e.currentDay = some day → NoneAfter day calls
  fresh : e.currentDay = none → ∀ c ∈ calls, c.day = none
  charged : ∀ day, e.currentDay = some day → (∃ c ∈ calls, c.day = some day) ∧
    e.dailyPnl = realizedSince day calls

variable {e e' : RiskEngine} {calls : List RiskCall} {c : RiskCall} {now : Datetime}

/-- A call with a time: the ledger rolls, or it is charged. -/
theorem Ledger.roll (h : Ledger calls e) (hc : c.day = some (dateOf now))
    (hday : e'.currentDay = (e.rollDay now).2.currentDay)
    (hpnl : e'.dailyPnl = (e.rollDay now).2.dailyPnl + c.realized) : Ledger (calls ++ [c]) e' := by
  rcases e.rollDay_cases now with ⟨hbefore, heq⟩ | ⟨day, hcurrent, hle, heq⟩
  · rw [heq] at hday hpnl
    simp only at hday hpnl
    have hearlier : ∀ x ∈ calls, ∀ d ∈ x.day, d < dateOf now := by
      intro x hx d hd
      cases hold : e.currentDay with
      | none => rw [h.fresh hold x hx] at hd; cases hd
      | some day => exact (h.latest day hold x hx d hd).trans_lt (hbefore day hold)
    refine ⟨?_, fun hnone => ?_, ?_⟩
    · intro day hsome x hx d hd
      rw [hday] at hsome
      cases hsome
      rcases List.mem_append.mp hx with hx | hx
      · exact (hearlier x hx d hd).le
      · rw [List.mem_singleton.mp hx, hc] at hd
        cases hd
        exact le_rfl
    · rw [hday] at hnone
      cases hnone
    · intro day hsome
      rw [hday] at hsome
      cases hsome
      refine ⟨⟨c, by simp, hc⟩, ?_⟩
      rw [hpnl, zero_add, realizedSince_append_of_forall _ hc]
      exact fun x hx hsame => absurd (hearlier x hx _ hsame) (lt_irrefl _)
  · rw [heq] at hday hpnl
    simp only at hday hpnl
    refine ⟨?_, fun hnone => ?_, ?_⟩
    · intro day' hsome x hx d hd
      rw [hday, hcurrent] at hsome
      cases hsome
      rcases List.mem_append.mp hx with hx | hx
      · exact h.latest _ hcurrent x hx d hd
      · rw [List.mem_singleton.mp hx, hc] at hd
        cases hd
        exact hle
    · rw [hday, hcurrent] at hnone
      cases hnone
    · intro day' hsome
      rw [hday, hcurrent] at hsome
      cases hsome
      obtain ⟨⟨x, hx, hxday⟩, hsum⟩ := h.charged _ hcurrent
      refine ⟨⟨x, List.mem_append_left _ hx, hxday⟩, ?_⟩
      rw [hpnl, hsum, realizedSince_append_of_mem c ⟨x, hx, hxday⟩]

/-- A call without a time. -/
theorem Ledger.idle (h : Ledger calls e) (hc : c.day = none) (hrealized : c.realized = 0)
    (hday : e'.currentDay = e.currentDay) (hpnl : e'.dailyPnl = e.dailyPnl) :
    Ledger (calls ++ [c]) e' := by
  refine ⟨?_, ?_, ?_⟩
  · intro day hsome x hx d hd
    rw [hday] at hsome
    rcases List.mem_append.mp hx with hx | hx
    · exact h.latest day hsome x hx d hd
    · rw [List.mem_singleton.mp hx, hc] at hd
      cases hd
  · intro hnone x hx
    rw [hday] at hnone
    rcases List.mem_append.mp hx with hx | hx
    · exact h.fresh hnone x hx
    · rw [List.mem_singleton.mp hx, hc]
  · intro day hsome
    rw [hday] at hsome
    obtain ⟨⟨x, hx, hxday⟩, hsum⟩ := h.charged day hsome
    refine ⟨⟨x, List.mem_append_left _ hx, hxday⟩, ?_⟩
    rw [hpnl, hsum, realizedSince_append_of_mem c ⟨x, hx, hxday⟩, hrealized, add_zero]

/-- A time is current if no call is of a later day. -/
theorem Ledger.current_iff (h : Ledger calls e) :
    (e.rollDay now).1 = true ↔ NoneAfter (dateOf now) calls := by
  rcases e.rollDay_cases now with ⟨hbefore, heq⟩ | ⟨day, hcurrent, hle, heq⟩
  · rw [heq]
    refine iff_of_true rfl fun x hx d hd => ?_
    cases hold : e.currentDay with
    | none => rw [h.fresh hold x hx] at hd; cases hd
    | some day => exact (h.latest day hold x hx d hd).trans (hbefore day hold).le
  · rw [heq]
    constructor
    · intro hsame
      rw [of_decide_eq_true hsame]
      exact h.latest day hcurrent
    · intro hnone
      obtain ⟨⟨x, hx, hxday⟩, -⟩ := h.charged day hcurrent
      exact decide_eq_true (le_antisymm hle (hnone x hx day hxday))

theorem noted_append {equity : ℚ} (h : Noted (calls ++ [c]) equity) : Noted calls equity ∨
    ∃ instrument price now realizedVol, c = .evaluate instrument price equity now realizedVol ∧
      NoneAfter (dateOf now) calls := by
  obtain ⟨before, instrument, price, now, realizedVol, after, heq, hnone⟩ := h
  rcases List.eq_nil_or_concat after with rfl | ⟨middle, last, rfl⟩
  · obtain ⟨rfl, hlast⟩ := List.append_inj' heq rfl
    cases hlast
    exact .inr ⟨instrument, price, now, realizedVol, rfl, hnone⟩
  · rw [List.concat_eq_append, ← List.cons_append, ← List.append_assoc] at heq
    obtain ⟨rfl, -⟩ := List.append_inj' heq rfl
    exact .inl ⟨before, instrument, price, now, realizedVol, middle, rfl, hnone⟩

/-- The day, the PnL and the peak of an engine are those of the calls so far. -/
structure FollowsCalls (s : RiskRun) : Prop where
  ledger : Ledger s.calls s.engine
  peak : ∀ equity, Noted s.calls equity → 0 < equity ∧ equity ≤ s.engine.peakEquity

theorem FollowsCalls.step (h : FollowsCalls s) (hc : s.Permits c) :
    FollowsCalls (s.step c) := by
  obtain ⟨hledger, hpeak⟩ := h
  cases c with
  | evaluate instrument price equity now realizedVol =>
    have heng := s.engine.evaluate_engine instrument price equity now realizedVol
    have hday : (s.engine.evaluate instrument price equity now realizedVol).2.currentDay =
        (s.engine.rollDay now).2.currentDay := by
      rw [heng]
      split <;> rfl
    have hpnl : (s.engine.evaluate instrument price equity now realizedVol).2.dailyPnl =
        (s.engine.rollDay now).2.dailyPnl + 0 := by
      rw [heng, add_zero]
      split <;> rfl
    refine ⟨hledger.roll rfl hday hpnl, fun x hx => ?_⟩
    show 0 < x ∧ x ≤ (s.engine.evaluate instrument price equity now realizedVol).2.peakEquity
    rw [heng]
    rcases noted_append hx with hx | ⟨_, _, _, _, hsame, hnone⟩
    · obtain ⟨hpos, hle⟩ := hpeak x hx
      split
      · rw [RiskEngine.rollDay_peak]
        exact ⟨hpos, hle⟩
      · rw [RiskEngine.rollDay_peak]
        exact ⟨hpos, le_max_of_le_left hle⟩
    · cases hsame
      rw [if_neg (by simp [hledger.current_iff.mpr hnone])]
      exact ⟨hc, le_max_right _ _⟩
  | openPosition key riskFraction =>
    refine ⟨hledger.idle rfl rfl rfl rfl, fun x hx => ?_⟩
    rcases noted_append hx with hx | ⟨_, _, _, _, hsame, -⟩
    · exact hpeak x hx
    · cases hsame
  | closePosition key realizedPnl now =>
    refine ⟨hledger.roll rfl rfl rfl, fun x hx => ?_⟩
    rcases noted_append hx with hx | ⟨_, _, _, _, hsame, -⟩
    · show 0 < x ∧ x ≤ (s.engine.rollDay now).2.peakEquity
      rw [RiskEngine.rollDay_peak]
      exact hpeak x hx
    · cases hsame

theorem withinLimits_start (config : RiskConfig) : WithinLimits config (.start config) where
  config_eq := rfl
  count := le_max_left _ _
  positive := nofun
  risk := le_max_left _ _
  approval := nofun

theorem followsCalls_start (config : RiskConfig) : FollowsCalls (.start config) where
  ledger := ⟨nofun, fun _ => nofun, nofun⟩
  peak := by
    rintro x ⟨before, _, _, _, _, after, heq, -⟩
    exact absurd heq.symm (List.append_ne_nil_of_right_ne_nil before (List.cons_ne_nil _ after))

theorem run_calls : ∀ (s : RiskRun) (calls : List RiskCall),
    (Runs.run RiskRun.step s calls).calls = s.calls ++ calls
  | s, [] => (List.append_nil s.calls).symm
  | s, c :: calls => by
    have hstep : (s.step c).calls = s.calls ++ [c] := by cases c <;> rfl
    rw [Runs.run_cons, run_calls (s.step c) calls, hstep, List.append_assoc, List.singleton_append]

/-- **The gate over whole runs.** The open positions and their risk are within the limits (and none
where a limit is negative); an approval is within its size, within the loss that the closes
since the first call of its day leave, within the drawdown from every equity that was evaluated in
time, and no call before it is of a later day. -/
theorem gate_over_runs (config : RiskConfig) {calls : List RiskCall}
    (h : Runs.Meets RiskRun.step RiskRun.Permits (.start config) calls) :
    let s := Runs.run RiskRun.step (.start config) calls
    s.calls = calls ∧
    (s.engine.openPositions.rows.length : ℤ) ≤ max 0 config.maxConcurrentPositions ∧
    s.engine.openRisk ≤ max 0 config.maxPortfolioRisk ∧
    ∀ instrument price equity now realizedVol d, 0 < equity →
      (s.engine.evaluate instrument price equity now realizedVol).1 = .ok d → d.approved = true →
        d.quantity * price ≤ equity * min d.riskFraction config.maxLeverage ∧
        -config.maxDailyLoss * equity < realizedSince (dateOf now) calls ∧
        (∀ noted, Noted (calls ++ [.evaluate instrument price equity now realizedVol]) noted →
          (1 - config.maxDrawdown) * noted < equity) ∧
        NoneAfter (dateOf now) calls := by
  intro s
  have hcalls : s.calls = calls := run_calls (.start config) calls
  have hwithin : WithinLimits config s :=
    Runs.Meets.invariant (fun _ _ hc hs => hs.step hc) calls h (withinLimits_start config)
  have hfollows : FollowsCalls s :=
    Runs.Meets.invariant (fun _ _ hc hs => hs.step hc) calls h (followsCalls_start config)
  refine ⟨hcalls, hwithin.count, hwithin.risk, ?_⟩
  intro instrument price equity now realizedVol d hequity hd happroved
  obtain ⟨hcurrent, hchecks⟩ := RiskEngine.evaluate_approves hd happroved
  have hnone := hfollows.ledger.current_iff.mp hcurrent
  rw [hcalls] at hnone
  have hafter : FollowsCalls (s.step (.evaluate instrument price equity now realizedVol)) :=
    hfollows.step hequity
  have hconfig : (s.engine.rollDay now).2.config = config := by
    rw [RiskEngine.rollDay_config, hwithin.config_eq]
  have hengine : (s.step (.evaluate instrument price equity now realizedVol)).engine =
      { (s.engine.rollDay now).2 with
        peakEquity := max (s.engine.rollDay now).2.peakEquity equity } := by
    show (s.engine.evaluate instrument price equity now realizedVol).2 = _
    rw [RiskEngine.evaluate_engine, if_neg (by simp [hcurrent])]
  obtain ⟨hledger, hpeak⟩ := hafter
  rw [hengine] at hledger hpeak
  refine ⟨hconfig ▸ hchecks.size hequity.le, ?_, ?_, hnone⟩
  · -- The ledger after the evaluation is that of its day.
    obtain ⟨-, hcharged⟩ := hledger.charged (dateOf now) (RiskEngine.rollDay_current hcurrent)
    have hsame : realizedSince (dateOf now) calls = (s.engine.rollDay now).2.dailyPnl := by
      rw [← hcalls, ← realizedSince_append_zero
        (c := .evaluate instrument price equity now realizedVol) rfl]
      exact hcharged.symm
    rw [hsame, ← hconfig]
    exact hchecks.loss hequity
  · intro noted hnoted
    rw [← hcalls] at hnoted
    obtain ⟨hpositive, hle⟩ := hpeak noted hnoted
    have hpeak_pos := hpositive.trans_le hle
    have hdrawdown := hchecks.drawdown hpeak_pos
    rw [lt_div_iff₀ hpeak_pos, hconfig] at hdrawdown
    simp only at hle hdrawdown
    rcases le_total config.maxDrawdown 1 with hone | hone
    · have hscaled := mul_le_mul_of_nonneg_left hle (sub_nonneg.mpr hone)
      linarith
    · have hnegative := mul_nonpos_of_nonpos_of_nonneg (sub_nonpos.mpr hone) hpositive.le
      linarith

/-- Quantities in thousandths. -/
def thousandths : Instrument where
  makeQty value down := .ok ((if down then (value * 1000).floor else (value * 1000).ceil) / 1000)
  roundsDown := by
    rintro value quantity h
    cases h
    have hfloor : ((value * 1000).floor : ℚ) ≤ value * 1000 := Rat.floor_le _
    simp only [if_true]
    linarith

/-- An entry on the second day, and its close with a loss that arrives with a time of the first. -/
def lateClose : List RiskCall :=
  [.evaluate thousandths 10 1000 (.ofInstant (2 * microsPerDay)) none, .openPosition "BTC" (1 / 100),
    .closePosition "BTC" (-20) (.ofInstant microsPerDay)]

theorem gate_over_runs_late :
    let s := Runs.run RiskRun.step (.start {}) lateClose
    s.engine.openRisk ≤ 1 / 20 ∧
    ∃ d, (s.engine.evaluate thousandths 10 1000 (.ofInstant (2 * microsPerDay)) none).1 = .ok d ∧
      d.approved = true ∧ d.quantity * 10 ≤ 1000 * min d.riskFraction 3 ∧
      -(3 / 100) * 1000 < realizedSince 2 lateClose := by
  have hmeets : Runs.Meets RiskRun.step RiskRun.Permits (.start {}) lateClose := by decide +kernel
  obtain ⟨-, -, hrisk, happrovals⟩ := gate_over_runs {} hmeets
  have hd : ((Runs.run RiskRun.step (.start {}) lateClose).engine.evaluate thousandths 10 1000
      (.ofInstant (2 * microsPerDay)) none).1 = .ok ⟨true, 1, 1 / 100, "approved"⟩ := by
    decide +kernel
  obtain ⟨hsize, hloss, -, -⟩ := happrovals _ _ _ _ _ _ (by norm_num) hd rfl
  exact ⟨hrisk.trans (by norm_num), _, hd, rfl, hsize, hloss⟩

/-- A negative limit is below the empty book, and a time with an offset has another day than its
instant: an approval can follow a call of a later UTC day. -/
theorem negative_limits_and_offsets :
    (∃ config, ¬ ((RiskRun.start config).engine.openPositions.rows.length : ℤ) ≤
      config.maxConcurrentPositions ∧
      ¬ (RiskRun.start config).engine.openRisk ≤ config.maxPortfolioRisk) ∧
    ∃ (earlier now : Datetime) (i j : Instant) (d : RiskDecision),
      utc earlier "now" = .ok i ∧ utc now "now" = .ok j ∧ utcDate j < utcDate i ∧
      ((Runs.run RiskRun.step (.start {}) [.closePosition "BTC" 0 earlier]).engine.evaluate
        thousandths 10 1000 now none).1 = .ok d ∧ d.approved = true := by
  refine ⟨⟨{ maxConcurrentPositions := -1, maxPortfolioRisk := -1 }, by decide +kernel⟩, ?_⟩
  -- 23:00 at five hours behind UTC, and 23:00 UTC of the same date.
  let hour : ℤ := 3600 * microsPerSecond
  refine ⟨⟨23 * hour, some (-5 * hour)⟩, ⟨23 * hour, some 0⟩, 28 * hour, 23 * hour,
    ⟨true, 1, 1 / 100, "approved"⟩, ?_⟩
  decide +kernel

end Greenfield.Risk
