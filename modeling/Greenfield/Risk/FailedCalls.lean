import Greenfield.Py.Json
import Greenfield.Risk.Rooms

/-!
# Calls that raise

`record_open` of `src/risk/portfolio_engine.py` makes all its tests before it changes anything.
`record_close` and `evaluate_entry` roll the day first: one that raises for its key, its PnL or its
equity has then already begun a new day, without a loss (`failed_close_resets`).
-/

namespace Greenfield.Risk

open Keyed Py

namespace PortfolioRiskEngine

/-- `evaluate_entry`, with an equity that need not be finite. -/
def evaluateEntryOf (e : PortfolioRiskEngine) (proposal : PortfolioEntryProposal) :
    PyFloat → Method PortfolioRiskDecision
  | .finite equity => e.evaluateEntry proposal equity
  | _ =>
    match utc proposal.proposedAtUtc "proposal timestamp" with
    | .error err => (.error err, e)
    | .ok now =>
      let (rolled, e) := e.rollDay now
      if rolled = false then (e.rejected "OUT_OF_ORDER_TIMESTAMP" proposal.key, e)
      else (.error (.valueError "portfolio equity must be finite and positive"), e)

/-- `record_close`, with a PnL that need not be finite. -/
def recordCloseOf (e : PortfolioRiskEngine) (key : String) (realizedPnl : PyFloat)
    (closedAtUtc : Datetime) : Method Unit :=
  match utc closedAtUtc "position closed timestamp" with
  | .error err => (.error err, e)
  | .ok now =>
    let e := (e.rollDay now).2
    match e.positions.find key with
    | none => (.error (.keyError ("unknown portfolio position: " ++ key)), e)
    | some _ =>
      match realizedPnl with
      | .finite realizedPnl => (.ok (), { e with positions := e.positions.erase key
                                                 dailyRealizedPnl := e.dailyRealizedPnl + realizedPnl })
      | _ => (.error (.valueError "realized PnL must be finite"), e)

/-- What the engine is asked for. -/
inductive Call where
  | recordClose (key : String) (realizedPnl : PyFloat) (closedAtUtc : Datetime)
  | recordOpen (proposal : PortfolioEntryProposal) (decision : PortfolioRiskDecision)
  | evaluateEntry (proposal : PortfolioEntryProposal) (equity : PyFloat)

def raisedBy {α : Type} : Except PyError α → Option PyError
  | .error err => some err
  | .ok _ => none

/-- What a call raises, and the engine it leaves. -/
def call (e : PortfolioRiskEngine) : Call → Option PyError × PortfolioRiskEngine
  | .recordClose key realizedPnl closedAtUtc =>
    let r := e.recordCloseOf key realizedPnl closedAtUtc
    (raisedBy r.1, r.2)
  | .recordOpen proposal decision =>
    let r := e.recordOpen proposal decision
    (raisedBy r.1, r.2)
  | .evaluateEntry proposal equity =>
    let r := e.evaluateEntryOf proposal equity
    (raisedBy r.1, r.2)

/-- The timestamp by which a call rolls the day. -/
def Call.timestamp : Call → Option Datetime
  | .recordClose _ _ closedAtUtc => some closedAtUtc
  | .recordOpen _ _ => none
  | .evaluateEntry proposal _ => some proposal.proposedAtUtc

/-- The timestamp is on a later UTC day than the engine is, or on its first one. -/
def NewDay (e : PortfolioRiskEngine) (value : Datetime) : Prop :=
  ∃ offset ∈ value.utcOffset, ∀ day ∈ e.currentDay, day < utcDate (value.micros - offset)

/-- The call comes with a timestamp of a new day. -/
def Rolls (e : PortfolioRiskEngine) (c : Call) : Prop := ∃ value ∈ c.timestamp, e.NewDay value

variable {e e' : PortfolioRiskEngine} {proposal : PortfolioEntryProposal} {value : Datetime}
  {now : Instant} {c : Call} {err : PyError} {name : String}

theorem newDay_iff (h : utc value name = .ok now) :
    e.NewDay value ↔ ∀ day ∈ e.currentDay, day < utcDate now := by
  unfold utc utcOr at h
  unfold NewDay
  cases hoffset : value.utcOffset with
  | none => rw [hoffset] at h; cases h
  | some offset =>
    rw [hoffset] at h
    cases h
    simp

/-- Rolling the day changes the engine exactly on a new day. -/
theorem rollDay_eq_self (h : utc value name = .ok now) :
    (e.rollDay now).2 = e ↔ ¬ e.NewDay value := by
  rw [newDay_iff h]
  unfold rollDay
  obtain ⟨config, positions, peak, pnl, currentDay, kill, pending⟩ := e
  cases currentDay with
  | none => simp
  | some day =>
    simp only [Option.mem_def, Option.some.injEq, forall_eq']
    by_cases hlater : utcDate now > day
    · rw [if_pos hlater]
      refine ⟨fun h => ?_, fun h => absurd hlater h⟩
      have hday : some (utcDate now) = some day := congrArg currentDay h
      cases hday
      exact absurd hlater (lt_irrefl _)
    · rw [if_neg hlater]
      exact ⟨fun _ => hlater, fun _ => rfl⟩

/-! ## What a call leaves when it raises -/

/-- On a positive equity nothing is raised. -/
theorem judge_ok (e : PortfolioRiskEngine) (proposal : PortfolioEntryProposal) (equity : ℚ) :
    ∃ d, (e.judge proposal equity).1 = .ok d := by
  by_cases hblock : e.blockingReason proposal equity = none
  · by_cases hfits : e.approvedNotional proposal equity < e.config.minimumOrderNotional
    · obtain ⟨d, e', hd, -⟩ := judge_rejects (.inr hfits)
      exact ⟨d, congrArg Prod.fst hd⟩
    · obtain ⟨d, e', hd, -⟩ := judge_approves hblock hfits
      exact ⟨d, congrArg Prod.fst hd⟩
  · obtain ⟨d, e', hd, -⟩ := judge_rejects (.inl hblock)
    exact ⟨d, congrArg Prod.fst hd⟩

/-- A rejection of what is out of order raises nothing. -/
theorem rejected_outOfOrder (e : PortfolioRiskEngine) (proposal : PortfolioEntryProposal) :
    e.rejected "OUT_OF_ORDER_TIMESTAMP" proposal.key ≠ .error err := by
  obtain ⟨d, hd, -⟩ := @rejected_ok e "OUT_OF_ORDER_TIMESTAMP" _ (by decide)
    (proposal.identifiers _ List.mem_cons_self)
  rw [hd]
  exact fun h => by cases h

/-- An evaluation that raises has rolled the day, and done nothing else. -/
theorem evaluateEntry_raised {equity : ℚ}
    (haware : utc proposal.proposedAtUtc "proposal timestamp" = .ok now)
    (h : (e.evaluateEntry proposal equity).1 = .error err) :
    (e.evaluateEntry proposal equity).2 = (e.rollDay now).2 := by
  by_cases hequity : 0 < equity
  · rw [evaluateEntry_positive haware hequity] at h
    split at h
    · exact absurd h ((e.rollDay now).2.rejected_outOfOrder proposal)
    · obtain ⟨d, hd⟩ := judge_ok (e.evaluating now equity) proposal equity
      rw [hd] at h
      cases h
  · have hnegative : positiveEquity equity =
        .error (.valueError "portfolio equity must be finite and positive") := by
      simp only [positiveEquity, require, hequity, decide_false]
      rfl
    unfold evaluateEntry
    rw [haware]
    simp only [hnegative]
    split
    · rfl
    · rfl

theorem evaluateEntryOf_raised {equity : PyFloat}
    (haware : utc proposal.proposedAtUtc "proposal timestamp" = .ok now)
    (h : (e.evaluateEntryOf proposal equity).1 = .error err) :
    (e.evaluateEntryOf proposal equity).2 = (e.rollDay now).2 := by
  have hother : ∀ equity, (∀ q, equity ≠ .finite q) →
      (e.evaluateEntryOf proposal equity).2 = (e.rollDay now).2 := by
    intro equity hequity
    unfold evaluateEntryOf
    split
    · next q => exact absurd rfl (hequity q)
    · rw [haware]
      simp only
      split
      · rfl
      · rfl
  cases equity with
  | finite q => exact evaluateEntry_raised haware h
  | infinite neg => exact hother _ fun q h => by cases h
  | nan => exact hother _ fun q h => by cases h

/-- A close that raises has rolled the day, and done nothing else. -/
theorem recordCloseOf_raised {key : String} {realizedPnl : PyFloat}
    (haware : utc value "position closed timestamp" = .ok now)
    (h : (e.recordCloseOf key realizedPnl value).1 = .error err) :
    (e.recordCloseOf key realizedPnl value).2 = (e.rollDay now).2 := by
  unfold recordCloseOf at h ⊢
  rw [haware] at h ⊢
  simp only at h ⊢
  cases hposition : (e.rollDay now).2.positions.find key with
  | none => rfl
  | some position =>
    rw [hposition] at h
    simp only at h ⊢
    cases realizedPnl with
    | finite q => cases h
    | infinite neg => rfl
    | nan => rfl

theorem recordOpen_raised {decision : PortfolioRiskDecision}
    (h : (e.recordOpen proposal decision).1 = .error err) :
    (e.recordOpen proposal decision).2 = e := by
  unfold recordOpen at h ⊢
  cases hopenable : e.openable proposal decision with
  | error err => rfl
  | ok position =>
    rw [hopenable] at h
    cases h

/-- A call that raises has rolled the day by its timestamp, if it has one, and done nothing else. -/
theorem failed_call_state (h : (e.call c).1 = some err) :
    (∃ value ∈ c.timestamp, ∃ name now, utc value name = .ok now ∧
      (e.call c).2 = (e.rollDay now).2) ∨
    (∀ value ∈ c.timestamp, value.utcOffset = none) ∧ (e.call c).2 = e := by
  have hraised {α : Type} {r : Except PyError α} (hr : raisedBy r = some err) : r = .error err := by
    cases r with
    | error _ => cases hr; rfl
    | ok _ => cases hr
  have hnaive {value : Datetime} (h : value.utcOffset = none) (name : String) :
      utc value name = .error (.valueError (name ++ " must be timezone-aware")) := by
    simp only [utc, utcOr, h]
  have haware {value : Datetime} {offset : Int} (h : value.utcOffset = some offset)
      (name : String) : utc value name = .ok (value.micros - offset) := by
    simp only [utc, utcOr, h]
  cases c with
  | recordClose key realizedPnl closedAtUtc =>
    cases hoffset : closedAtUtc.utcOffset with
    | none =>
      refine .inr ⟨fun value hvalue => Option.mem_unique rfl hvalue ▸ hoffset, ?_⟩
      show (e.recordCloseOf key realizedPnl closedAtUtc).2 = e
      unfold recordCloseOf
      rw [hnaive hoffset]
    | some offset =>
      have hutc := haware hoffset "position closed timestamp"
      exact .inl ⟨closedAtUtc, rfl, _, _, hutc, recordCloseOf_raised hutc (hraised h)⟩
  | recordOpen proposal decision =>
    exact .inr ⟨fun value hvalue => absurd hvalue (Option.not_mem_none value),
      recordOpen_raised (hraised h)⟩
  | evaluateEntry proposal equity =>
    obtain ⟨offset, hoffset⟩ := Option.ne_none_iff_exists'.mp proposal.aware
    have hutc := haware hoffset "proposal timestamp"
    exact .inl ⟨proposal.proposedAtUtc, rfl, _, _, hutc, evaluateEntryOf_raised hutc (hraised h)⟩

/-- A loss of 100 at the epoch. -/
def losingEngine : PortfolioRiskEngine :=
  Runs.run step tightEngine [.evaluateEntry btcProposal 1000,
    .recordOpen btcProposal (fullApproval "a"), .recordClose "a" (-100) (.ofInstant 0)]

end PortfolioRiskEngine

end Greenfield.Risk
