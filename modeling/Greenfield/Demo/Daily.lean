import Greenfield.Demo.State
import Greenfield.Lib.Run
import Mathlib.Tactic.Linarith

/-!
# Daily limits

The daily transactions of the state store change one day (`DayChange`), which they create
when it is new. `record_close` tests the day's total in the transaction that writes it, so
a total that reached the limit is seen with its kill switch, and no transaction clears a
kill switch.
-/

namespace Greenfield.Demo

open Keyed Py AutonomousDemoStateStore

/-- The daily transactions. -/
inductive DailyOp where
  | authorizeEntry (nowUtc : Datetime) (startingCapitalUsd : ℚ)
  | recordEntry (nowUtc : Datetime) (startingCapitalUsd : ℚ)
  | recordClose (nowUtc : Datetime) (startingCapitalUsd realizedPnlUsd : ℚ)
  | activateKillSwitch (nowUtc : Datetime) (startingCapitalUsd : ℚ) (reason : String)

def DailyOp.txn (config : AutonomousDemoRiskConfig) (s : AutonomousDemoStateStore) :
    DailyOp → DayTxn
  | .authorizeEntry now capital => s.authorizeEntry now capital config
  | .recordEntry now capital => s.recordEntry now capital config
  | .recordClose now capital pnl => s.recordClose now capital pnl config
  | .activateKillSwitch now capital reason => s.activateKillSwitch now capital reason

def dailyStep (config : AutonomousDemoRiskConfig) (s : AutonomousDemoStateStore) (op : DailyOp) :
    AutonomousDemoStateStore := commit (op.txn config s) s

/-- The day's total is at or below its loss limit. -/
def LossReached (config : AutonomousDemoRiskConfig) (r : AutonomousDailyRiskRecord) : Prop :=
  ∃ limit, dailyLossLimitUsd r.startingCapitalUsd config = .ok limit ∧ r.realizedPnlUsd ≤ -limit

/-- A day as `_ensure_day` inserts it. -/
structure FreshDay (r : AutonomousDailyRiskRecord) : Prop where
  entries : r.entries = 0
  pnl : r.realizedPnlUsd = 0
  kill : r.killSwitchReason = none

/-- One day goes from `r` to `r'`, from a new row when there was none. -/
def DayChange (R : AutonomousDailyRiskRecord → AutonomousDailyRiskRecord → Prop)
    (s s' : AutonomousDemoStateStore) : Prop :=
  ∃ day r r', (s.fetchDay day = some r ∨ s.fetchDay day = none ∧ FreshDay r) ∧ R r r' ∧
    ∀ d, s'.fetchDay d = if d = day then some r' else s.fetchDay d

variable {s s' : AutonomousDemoStateStore} {config : AutonomousDemoRiskConfig}
  {r r' : AutonomousDailyRiskRecord}

/-! ## The helpers of the daily row -/

variable {capital : ℚ}

variable {now : Int}

theorem ensureDay_eq_ok (h : s.ensureDay now capital = .ok (r, s')) :
    (s.fetchDay (utcDate now) = some r ∨ s.fetchDay (utcDate now) = none ∧ FreshDay r) ∧
      ∀ d, s'.fetchDay d = if d = utcDate now then some r else s.fetchDay d := by
  unfold ensureDay at h
  split at h
  · next x hx =>
    cases h
    refine ⟨.inl hx, fun d => ?_⟩
    split
    · next hd => rw [hd, hx]
    · rfl
  · next hnone =>
    split at h
    · cases h
    · next daily hinsert =>
      rw [Table.find_insert hinsert, if_pos rfl] at h
      cases h
      refine ⟨.inr ⟨hnone, rfl, rfl, rfl⟩, fun d => ?_⟩
      rw [fetchDay, Table.find_insert hinsert]
      rfl

variable {f : AutonomousDailyRiskRecord → AutonomousDailyRiskRecord}
  {hf : ∀ r, (f r).utcDate = r.utcDate}

theorem updateDay_eq_ok {day : Int}
    (h : s.updateDay day f hf = .ok (r', s')) :
    ∃ r, s.fetchDay day = some r ∧ r' = f r ∧
      ∀ d, s'.fetchDay d = if d = day then some r' else s.fetchDay d := by
  unfold updateDay at h
  simp only at h
  split at h
  · cases h
  · next x hx =>
    cases h
    rw [fetchDay, Table.find_modify, if_pos rfl, Option.map_eq_some_iff] at hx
    obtain ⟨r, hr, rfl⟩ := hx
    refine ⟨r, hr, rfl, fun d => ?_⟩
    rw [fetchDay, Table.find_modify]
    split
    · rw [hr]; rfl
    · rfl

variable {s₁ : AutonomousDemoStateStore}

/-- A transaction that ensures its day and then updates it. -/
theorem ensure_update_eq_ok
    (hday : s.ensureDay now capital = .ok (r, s₁))
    (h : s₁.updateDay (utcDate now) f hf = .ok (r', s')) :
    (s.fetchDay (utcDate now) = some r ∨ s.fetchDay (utcDate now) = none ∧ FreshDay r) ∧
      ∀ d, s'.fetchDay d = if d = utcDate now then some (f r) else s.fetchDay d := by
  obtain ⟨hbefore, hensure⟩ := ensureDay_eq_ok hday
  obtain ⟨x, hx, rfl, hupdate⟩ := updateDay_eq_ok h
  rw [hensure, if_pos rfl] at hx
  cases hx
  refine ⟨hbefore, fun d => ?_⟩
  rw [hupdate, hensure]
  split <;> rfl

theorem dayChange_update
    {R : AutonomousDailyRiskRecord → AutonomousDailyRiskRecord → Prop}
    (hday : s.ensureDay now capital = .ok (r, s₁))
    (h : s₁.updateDay (utcDate now) f hf = .ok (r', s')) (hR : R r (f r)) : DayChange R s s' := by
  obtain ⟨hbefore, hafter⟩ := ensure_update_eq_ok hday h
  exact ⟨utcDate now, r, f r, hbefore, hR, hafter⟩

/-! ## One transaction -/

/-- What a transaction may do to a day. -/
structure DayStep (config : AutonomousDemoRiskConfig) (r r' : AutonomousDailyRiskRecord) : Prop where
  entries : r.entries ≤ config.maximumTradesPerUtcDay → r'.entries ≤ config.maximumTradesPerUtcDay
  kill : r.killSwitchReason ≠ none → r'.killSwitchReason ≠ none
  loss : (LossReached config r → r.killSwitchReason ≠ none) →
    LossReached config r' → r'.killSwitchReason ≠ none

theorem DayStep.refl (r : AutonomousDailyRiskRecord) : DayStep config r r := ⟨id, id, id⟩

/-- An entry is recorded below the maximum and leaves the total and the kill switch. -/
theorem dayStep_enter {now i : Instant} {u : Unit}
    (h : validateEntryAuthorization r now capital config = .ok u) :
    DayStep config r (enterRow i r) := by
  simp only [validateEntryAuthorization, bind_eq_ok, require_eq_ok, decide_eq_true_eq] at h
  obtain ⟨-, -, -, -, -, hentries, -⟩ := h
  refine ⟨fun _ => ?_, id, fun h => h⟩
  show r.entries + 1 ≤ config.maximumTradesPerUtcDay
  omega

/-- A close sets the kill switch when it writes a total that reaches the limit. -/
theorem dayStep_close {total limit : ℚ} {cooldown now : Instant}
    (hlimit : dailyLossLimitUsd r.startingCapitalUsd config = .ok limit) :
    DayStep config r (closeRow total cooldown
      (if total ≤ -limit then some "DAILY_LOSS_LIMIT" else r.killSwitchReason) now r) := by
  refine ⟨id, fun h => ?_, fun _ hreached => ?_⟩
  · show (if total ≤ -limit then some "DAILY_LOSS_LIMIT" else r.killSwitchReason) ≠ none
    split
    · exact Option.some_ne_none _
    · exact h
  · obtain ⟨limit', hlimit', hle⟩ := hreached
    cases hlimit.symm.trans hlimit'
    show (if total ≤ -limit then some "DAILY_LOSS_LIMIT" else r.killSwitchReason) ≠ none
    rw [if_pos (show total ≤ -limit from hle)]
    exact Option.some_ne_none _

theorem dayStep_kill {reason : String} {now : Instant} : DayStep config r (killRow reason now r) :=
  ⟨id, fun _ => Option.some_ne_none reason, fun _ _ => Option.some_ne_none reason⟩

/-- **A daily transaction changes one day, and only as `DayStep` says.** -/
theorem dailyTxn_change {op : DailyOp} (h : op.txn config s = .ok (r', s')) :
    DayChange (DayStep config) s s' := by
  cases op with
  | authorizeEntry now capital =>
    simp only [DailyOp.txn, AutonomousDemoStateStore.authorizeEntry, bind_eq_ok, Prod.exists] at h
    obtain ⟨-, -, i, -, daily, _, hday, -, -, h⟩ := h
    cases h
    obtain ⟨hbefore, hensure⟩ := ensureDay_eq_ok hday
    exact ⟨utcDate i, r', r', hbefore, .refl r', hensure⟩
  | recordEntry now capital =>
    simp only [DailyOp.txn, AutonomousDemoStateStore.recordEntry, bind_eq_ok, Prod.exists] at h
    obtain ⟨_, -, daily, _, hday, _, hvalid, h⟩ := h
    exact dayChange_update hday h (dayStep_enter hvalid)
  | recordClose now capital pnl =>
    simp only [DailyOp.txn, AutonomousDemoStateStore.recordClose, bind_eq_ok, Prod.exists] at h
    obtain ⟨_, -, daily, _, hday, limit, hlimit, h⟩ := h
    exact dayChange_update hday h (dayStep_close hlimit)
  | activateKillSwitch now capital reason =>
    simp only [DailyOp.txn, AutonomousDemoStateStore.activateKillSwitch, bind_eq_ok, Prod.exists] at h
    obtain ⟨-, -, _, -, daily, _, hday, h⟩ := h
    exact dayChange_update hday h dayStep_kill

/-! ## Runs -/

/-- The invariant of the days. -/
def DaysInLimits (config : AutonomousDemoRiskConfig) (s : AutonomousDemoStateStore) : Prop :=
  ∀ day r, s.fetchDay day = some r → r.entries ≤ config.maximumTradesPerUtcDay ∧
    (LossReached config r → r.killSwitchReason ≠ none)

/-- A new day has not reached its limit, which is positive. -/
theorem FreshDay.inLimits (h : FreshDay r) : r.entries ≤ config.maximumTradesPerUtcDay ∧
    (LossReached config r → r.killSwitchReason ≠ none) := by
  have hmax := config.limits.1
  refine ⟨by rw [h.entries]; omega, fun hreached => ?_⟩
  obtain ⟨limit, hlimit, hle⟩ := hreached
  obtain ⟨hcapital, rfl⟩ := dailyLossLimitUsd_eq_ok.mp hlimit
  have hpos := mul_pos hcapital config.thresholds.2.2
  rw [h.pnl] at hle
  linarith

theorem daysInLimits_step (s : AutonomousDemoStateStore) (op : DailyOp)
    (h : DaysInLimits config s) : DaysInLimits config (dailyStep config s op) := by
  unfold dailyStep
  cases hop : op.txn config s with
  | error e => exact h
  | ok p =>
    obtain ⟨r', s'⟩ := p
    obtain ⟨day, x, x', hbefore, hstep, hafter⟩ := dailyTxn_change hop
    have hx : x.entries ≤ config.maximumTradesPerUtcDay ∧
        (LossReached config x → x.killSwitchReason ≠ none) := by
      rcases hbefore with hx | ⟨-, hfresh⟩
      · exact h day x hx
      · exact hfresh.inLimits
    intro d r hr
    rw [commit_ok, hafter] at hr
    split at hr
    · cases hr
      exact ⟨hstep.entries hx.1, hstep.loss hx.2⟩
    · exact h d r hr

/-- The kill switch of the day is set. -/
def Killed (day : Int) (s : AutonomousDemoStateStore) : Prop :=
  ∃ r, s.fetchDay day = some r ∧ r.killSwitchReason ≠ none

theorem killed_step (day : Int) (s : AutonomousDemoStateStore) (op : DailyOp)
    (h : Killed day s) : Killed day (dailyStep config s op) := by
  unfold dailyStep
  cases hop : op.txn config s with
  | error e => exact h
  | ok p =>
    obtain ⟨r', s'⟩ := p
    obtain ⟨day', x, x', hbefore, hstep, hafter⟩ := dailyTxn_change hop
    obtain ⟨r, hr, hkill⟩ := h
    rw [commit_ok]
    unfold Killed
    rw [hafter]
    split
    · next hd =>
      rcases hbefore with hx | ⟨hnone, -⟩
      · rw [← hd, hr] at hx
        cases hx
        exact ⟨x', rfl, hstep.kill hkill⟩
      · rw [← hd, hr] at hnone
        cases hnone
    · exact ⟨r, hr, hkill⟩

/-- No entry is recorded on a killed day. -/
theorem recordEntry_killed {now : Datetime} {i : Instant} (hi : iso now = .ok i)
    (h : Killed (utcDate i) s) : ∃ e, s.recordEntry now capital config = .error e := by
  cases hentry : s.recordEntry now capital config with
  | error e => exact ⟨e, rfl⟩
  | ok p =>
    simp only [recordEntry, bind_eq_ok, Prod.exists] at hentry
    obtain ⟨i', hi', daily, s₁, hday, _, hvalid, -⟩ := hentry
    cases hi.symm.trans hi'
    obtain ⟨hbefore, -⟩ := ensureDay_eq_ok hday
    obtain ⟨r, hr, hkill⟩ := h
    simp only [validateEntryAuthorization, bind_eq_ok, require_eq_ok,
      Option.isNone_iff_eq_none] at hvalid
    obtain ⟨-, -, -, hnone, -⟩ := hvalid
    rcases hbefore with hx | ⟨hx, -⟩
    · cases hr.symm.trans hx
      exact absurd hnone hkill
    · cases hr.symm.trans hx

/-- **Daily limits are sticky.** After any daily transactions no day has more entries than
the maximum; and a day that is killed or has reached its loss limit takes no entry after
any further transactions. -/
theorem daily_limits_sticky (config : AutonomousDemoRiskConfig) (ops : List DailyOp) :
    (∀ r ∈ (Runs.run (dailyStep config) .empty ops).daily.rows,
        r.entries ≤ config.maximumTradesPerUtcDay) ∧
      ∀ day r, (Runs.run (dailyStep config) .empty ops).fetchDay day = some r →
        (r.killSwitchReason ≠ none ∨ LossReached config r) →
        ∀ later now capital i, iso now = .ok i → utcDate i = day →
          ∃ e, (Runs.run (dailyStep config) .empty (ops ++ later)).recordEntry now capital config =
            .error e := by
  have h : DaysInLimits config (Runs.run (dailyStep config) .empty ops) :=
    Runs.run_invariant daysInLimits_step ops fun day r hr => by cases hr
  refine ⟨fun r hr => (h r.utcDate r (Table.find_of_mem hr)).1, ?_⟩
  intro day r hr hblocked later now capital i hi hday
  have hkilled : Killed day (Runs.run (dailyStep config) .empty ops) := by
    rcases hblocked with hkill | hreached
    · exact ⟨r, hr, hkill⟩
    · exact ⟨r, hr, (h day r hr).2 hreached⟩
  rw [Runs.run_append]
  subst hday
  exact recordEntry_killed hi (Runs.run_invariant (killed_step (utcDate i)) later hkilled)

end Greenfield.Demo
