import Greenfield.Demo.Daily

/-!
# The cooldown after a close

`record_close` writes the end of its cooldown in the row of its own UTC day, over what was
there. So a cooldown that runs past midnight is not seen on the next day
(`cooldown_past_midnight`), and a close with an earlier timestamp shortens the one before.
Closes that are `InSeason` do neither, and over runs of them every cooldown is kept.
-/

namespace Greenfield.Demo

open Keyed Py AutonomousDemoStateStore

def cooldownMicros (config : AutonomousDemoRiskConfig) : Int :=
  config.cooldownSeconds * microsPerSecond

/-- The time of the close that a transaction records. -/
def recordedClose (config : AutonomousDemoRiskConfig) (s : AutonomousDemoStateStore) :
    DailyOp → Option Instant
  | .recordClose now capital pnl =>
    match iso now, s.recordClose now capital pnl config with
    | .ok i, .ok _ => some i
    | _, _ => none
  | _ => none

/-- The store, with the times of the closes it recorded. -/
structure CloseLog where
  store : AutonomousDemoStateStore
  closes : List Instant := []

def CloseLog.step (config : AutonomousDemoRiskConfig) (l : CloseLog) (op : DailyOp) : CloseLog where
  store := dailyStep config l.store op
  closes := (recordedClose config l.store op).toList ++ l.closes

/-- The close at `i` is the latest of its day, and its cooldown stays on that day, or on a
day where a recorded close cools down as long. -/
structure InSeason (config : AutonomousDemoRiskConfig) (closes : List Instant) (i : Instant) :
    Prop where
  latest : ∀ c ∈ closes, utcDate c = utcDate i → c ≤ i
  covered : ∀ t, i ≤ t → t < i + cooldownMicros config →
    utcDate t = utcDate i ∨ ∃ c ∈ closes, utcDate c = utcDate t ∧ t < c + cooldownMicros config

/-- What is asked of a transaction: if it records a close, that close is in season. -/
def ClosesInSeason (config : AutonomousDemoRiskConfig) (l : CloseLog) (op : DailyOp) : Prop :=
  ∀ i, recordedClose config l.store op = some i → InSeason config l.closes i

variable {config : AutonomousDemoRiskConfig} {s s' : AutonomousDemoStateStore} {l : CloseLog}
  {r r' : AutonomousDailyRiskRecord} {i : Instant}

/-! ## One transaction -/

/-- A transaction keeps the cooldowns, or writes that of the close it records. -/
theorem dailyTxn_cooldown {op : DailyOp} (h : op.txn config s = .ok (r', s')) :
    ∃ day x x', (s.fetchDay day = some x ∨ s.fetchDay day = none ∧ FreshDay x) ∧
      (∀ d, s'.fetchDay d = if d = day then some x' else s.fetchDay d) ∧
      match recordedClose config s op with
      | some i => day = utcDate i ∧ x'.cooldownUntilUtc = some (i + cooldownMicros config)
      | none => x'.cooldownUntilUtc = x.cooldownUntilUtc := by
  cases op with
  | authorizeEntry now capital =>
    simp only [DailyOp.txn, AutonomousDemoStateStore.authorizeEntry, bind_eq_ok, Prod.exists] at h
    obtain ⟨-, -, i, -, x, s₁, hday, -, -, h⟩ := h
    cases h
    obtain ⟨hbefore, hafter⟩ := ensureDay_eq_ok hday
    exact ⟨utcDate i, r', r', hbefore, hafter, rfl⟩
  | recordEntry now capital =>
    simp only [DailyOp.txn, AutonomousDemoStateStore.recordEntry, bind_eq_ok, Prod.exists] at h
    obtain ⟨i, -, x, s₁, hday, -, -, h⟩ := h
    obtain ⟨hbefore, hafter⟩ := ensure_update_eq_ok hday h
    exact ⟨utcDate i, x, enterRow i x, hbefore, hafter, rfl⟩
  | recordClose now capital pnl =>
    have hok : s.recordClose now capital pnl config = .ok (r', s') := h
    simp only [DailyOp.txn, AutonomousDemoStateStore.recordClose, bind_eq_ok, Prod.exists] at h
    obtain ⟨i, hi, x, s₁, hday, limit, -, h⟩ := h
    obtain ⟨hbefore, hafter⟩ := ensure_update_eq_ok hday h
    have hclose : recordedClose config s (.recordClose now capital pnl) = some i := by
      simp only [recordedClose, hi, hok]
    refine ⟨utcDate i, x, _, hbefore, hafter, ?_⟩
    rw [hclose]
    exact ⟨rfl, rfl⟩
  | activateKillSwitch now capital reason =>
    simp only [DailyOp.txn, AutonomousDemoStateStore.activateKillSwitch, bind_eq_ok, Prod.exists] at h
    obtain ⟨-, -, i, -, x, s₁, hday, h⟩ := h
    obtain ⟨hbefore, hafter⟩ := ensure_update_eq_ok hday h
    exact ⟨utcDate i, x, killRow reason i x, hbefore, hafter, rfl⟩

theorem recordedClose_error {op : DailyOp} {e : PyError} (h : op.txn config s = .error e) :
    recordedClose config s op = none := by
  cases op with
  | recordClose now capital pnl =>
    have hclose : s.recordClose now capital pnl config = .error e := h
    simp only [recordedClose, hclose]
    cases iso now <;> rfl
  | authorizeEntry now capital => rfl
  | recordEntry now capital => rfl
  | activateKillSwitch now capital reason => rfl

/-! ## Runs -/

/-- Every recorded close cools its day down, and every later moment of its cooldown is on
its day or on one that another close cools down as long. -/
structure Cooling (config : AutonomousDemoRiskConfig) (l : CloseLog) : Prop where
  day : ∀ c ∈ l.closes, ∃ r until_, l.store.fetchDay (utcDate c) = some r ∧
    r.cooldownUntilUtc = some until_ ∧ c + cooldownMicros config ≤ until_
  covered : ∀ c ∈ l.closes, ∀ t, c ≤ t → t < c + cooldownMicros config →
    ∃ c' ∈ l.closes, utcDate c' = utcDate t ∧ t < c' + cooldownMicros config

theorem cooling_step (l : CloseLog) (op : DailyOp) (hok : ClosesInSeason config l op)
    (h : Cooling config l) : Cooling config (l.step config op) := by
  cases hop : op.txn config l.store with
  | error e =>
    have hkept : l.step config op = l := by
      simp only [CloseLog.step, dailyStep, hop, commit_error, recordedClose_error hop]
      rfl
    rw [hkept]
    exact h
  | ok p =>
    obtain ⟨r', s'⟩ := p
    obtain ⟨day, x, x', hbefore, hafter, hcool⟩ := dailyTxn_cooldown hop
    have hstore : (l.step config op).store = s' := by
      simp only [CloseLog.step, dailyStep, hop, commit_ok]
    cases hclose : recordedClose config l.store op with
    | none =>
      have hcloses : (l.step config op).closes = l.closes := by
        simp only [CloseLog.step, hclose]
        rfl
      rw [hclose] at hcool
      refine ⟨fun c hc => ?_, by rw [hcloses]; exact h.covered⟩
      rw [hcloses] at hc
      obtain ⟨r, until_, hr, huntil, hle⟩ := h.day c hc
      rw [hstore, hafter]
      split
      · next hd =>
        refine ⟨x', until_, rfl, ?_, hle⟩
        rw [← hd, hr] at hbefore
        rcases hbefore with hx | ⟨hnone, -⟩
        · cases hx
          exact hcool.trans huntil
        · cases hnone
      · exact ⟨r, until_, hr, huntil, hle⟩
    | some i =>
      have hcloses : (l.step config op).closes = i :: l.closes := by
        simp only [CloseLog.step, hclose]
        rfl
      rw [hclose] at hcool
      obtain ⟨rfl, hcool⟩ := hcool
      have hseason := hok i hclose
      refine ⟨fun c hc => ?_, fun c hc t hle hlt => ?_⟩
      · rw [hstore, hafter]
        rw [hcloses] at hc
        split
        · next hd =>
          refine ⟨x', _, rfl, hcool, ?_⟩
          rcases List.mem_cons.mp hc with rfl | hc
          · exact le_refl _
          · exact Int.add_le_add_right (hseason.latest c hc hd) _
        · next hd =>
          rcases List.mem_cons.mp hc with rfl | hc
          · exact absurd rfl hd
          · exact h.day c hc
      · rw [hcloses] at hc ⊢
        rcases List.mem_cons.mp hc with rfl | hc
        · rcases hseason.covered t hle hlt with hday | ⟨c', hc', hday, hlt'⟩
          · exact ⟨c, List.mem_cons_self, hday.symm, hlt⟩
          · exact ⟨c', List.mem_cons_of_mem _ hc', hday, hlt'⟩
        · obtain ⟨c', hc', hday, hlt'⟩ := h.covered c hc t hle hlt
          exact ⟨c', List.mem_cons_of_mem _ hc', hday, hlt'⟩

/-- No entry is authorized on a day that cools down. -/
theorem validateEntryAuthorization_cooling {now until_ : Instant} {capital : ℚ}
    (huntil : r.cooldownUntilUtc = some until_) (hlt : now < until_) :
    ∃ e, validateEntryAuthorization r now capital config = .error e := by
  cases h : validateEntryAuthorization r now capital config with
  | error e => exact ⟨e, rfl⟩
  | ok u =>
    simp only [validateEntryAuthorization, bind_eq_ok, require_eq_ok] at h
    obtain ⟨-, -, -, -, -, -, -, hcool, -⟩ := h
    rw [huntil] at hcool
    exact absurd (of_decide_eq_true hcool : until_ ≤ now) (Int.not_le.mpr hlt)

/-- Both transactions of an entry validate the row of their day. -/
theorem entry_cooling {now : Datetime} {until_ : Instant} {capital : ℚ} (hi : iso now = .ok i)
    (hr : s.fetchDay (utcDate i) = some r) (huntil : r.cooldownUntilUtc = some until_)
    (hlt : i < until_) : (∃ e, s.authorizeEntry now capital config = .error e) ∧
      ∃ e, s.recordEntry now capital config = .error e := by
  have hensure : s.ensureDay i capital = .ok (r, s) := by
    unfold ensureDay
    rw [hr]
  obtain ⟨e, he⟩ := @validateEntryAuthorization_cooling config r i until_ capital huntil hlt
  constructor
  · cases h : s.authorizeEntry now capital config with
    | error e => exact ⟨e, rfl⟩
    | ok p =>
      simp only [AutonomousDemoStateStore.authorizeEntry, bind_eq_ok, Prod.exists] at h
      obtain ⟨-, -, j, hj, x, s₁, hday, _, hvalid, -⟩ := h
      cases hi.symm.trans hj
      cases hensure.symm.trans hday
      rw [he] at hvalid
      cases hvalid
  · simp only [AutonomousDemoStateStore.recordEntry, hi, bind, Except.bind, hensure, he]
    exact ⟨e, rfl⟩

/-- **A cooldown is kept when closes are in season.** After a run whose recorded closes are
each in season, no entry is authorized or recorded during the cooldown of any of them. -/
theorem cooldown_respected (config : AutonomousDemoRiskConfig) (ops : List DailyOp)
    (hok : Runs.Meets (CloseLog.step config) (ClosesInSeason config) ⟨.empty, []⟩ ops) :
    ∀ c ∈ (Runs.run (CloseLog.step config) ⟨.empty, []⟩ ops).closes,
      ∀ now capital i, iso now = .ok i → c ≤ i → i < c + cooldownMicros config →
        (∃ e, (Runs.run (CloseLog.step config) ⟨.empty, []⟩ ops).store.authorizeEntry now capital
            config = .error e) ∧
          ∃ e, (Runs.run (CloseLog.step config) ⟨.empty, []⟩ ops).store.recordEntry now capital
            config = .error e := by
  have h : Cooling config (Runs.run (CloseLog.step config) ⟨.empty, []⟩ ops) :=
    Runs.Meets.invariant cooling_step ops hok
      ⟨fun _ hc => absurd hc List.not_mem_nil, fun _ hc => absurd hc List.not_mem_nil⟩
  intro c hc now capital i hi hle hlt
  obtain ⟨c', hc', hday, hlt'⟩ := h.covered c hc i hle hlt
  obtain ⟨r, until_, hr, huntil, huntil'⟩ := h.day c' hc'
  rw [hday] at hr
  exact entry_cooling hi hr huntil (Int.lt_of_lt_of_le hlt' huntil')

/-- A close at the start of a day. -/
def morningClose : List DailyOp := [.recordClose (.ofInstant 0) 1000 5]

theorem morningClose_inSeason :
    Runs.Meets (CloseLog.step defaultRiskConfig) (ClosesInSeason defaultRiskConfig) ⟨.empty, []⟩
      morningClose := by
  refine ⟨fun i hi => ⟨fun c hc => absurd hc List.not_mem_nil, fun t hle hlt => .inl ?_⟩, trivial⟩
  have h0 : i = 0 := by
    have hrec : recordedClose defaultRiskConfig .empty (.recordClose (.ofInstant 0) 1000 5) =
        some 0 := by decide +kernel
    exact Option.some.inj (hi.symm.trans hrec)
  subst h0
  have hcool : cooldownMicros defaultRiskConfig = 900000000 := by decide +kernel
  rw [hcool] at hlt
  have hpos : (0 : Int) ≤ t := hle
  have hend : (0 : Int) + 900000000 > t := hlt
  simp only [utcDate, microsPerDay, microsPerSecond]
  omega

/-- An entry one second after it is refused. -/
theorem cooldown_respected_morning : ∃ e, (Runs.run (CloseLog.step defaultRiskConfig) ⟨.empty, []⟩
    morningClose).store.recordEntry (.ofInstant microsPerSecond) 1000 defaultRiskConfig =
      .error e :=
  (cooldown_respected defaultRiskConfig morningClose morningClose_inSeason 0 (by decide +kernel)
    (.ofInstant microsPerSecond) 1000 microsPerSecond (iso_ofInstant _) (by decide)
    (by decide +kernel)).2

/-- A close in the last microsecond of a day does not cool the next day down. -/
theorem cooldown_past_midnight : ¬ ∀ ops : List DailyOp,
    ∀ c ∈ (Runs.run (CloseLog.step defaultRiskConfig) ⟨.empty, []⟩ ops).closes,
      ∀ now capital i, iso now = .ok i → c ≤ i → i < c + cooldownMicros defaultRiskConfig →
        ∃ e, (Runs.run (CloseLog.step defaultRiskConfig) ⟨.empty, []⟩ ops).store.recordEntry now
          capital defaultRiskConfig = .error e := by
  intro h
  obtain ⟨e, he⟩ := h [.recordClose (.ofInstant (microsPerDay - 1)) 1000 5] (microsPerDay - 1)
    (by decide +kernel) (.ofInstant microsPerDay) 1000 microsPerDay (iso_ofInstant _) (by decide)
    (by decide +kernel)
  have hok : ((Runs.run (CloseLog.step defaultRiskConfig) ⟨.empty, []⟩
      [.recordClose (.ofInstant (microsPerDay - 1)) 1000 5]).store.recordEntry
        (.ofInstant microsPerDay) 1000 defaultRiskConfig).isOk = true := by decide +kernel
  rw [he] at hok
  cases hok

end Greenfield.Demo
