import Greenfield.Risk.Limits

/-!
# What an approval allows

`record_open` looks for its decision among the pending ones of the proposal's key, and
nothing takes a decision from there but an opening or a newer approval. So a decision
outlives a rejection of its key and a kill switch (`opened_after_kill_switch`), and it
opens a position for whatever proposal has its key. In runs that are `Careful` a pending
decision is what the last evaluation of its key answered.
-/

namespace Greenfield.Risk

open Keyed Py PortfolioRiskEngine

/-- The fields in which a proposal is the one that was evaluated. -/
structure SameContent (p q : PortfolioEntryProposal) : Prop where
  key : q.key = p.key
  symbol : q.symbol = p.symbol
  venue : q.venue = p.venue
  strategy : q.strategy = p.strategy
  engine : q.engine = p.engine
  notional : q.signedNotional = p.signedNotional
  risk : q.committedRiskFraction = p.committedRiskFraction

/-- The last evaluation of a key. -/
structure Evaluation where
  proposal : PortfolioEntryProposal
  result : Except PyError PortfolioRiskDecision
  /-- The kill switch was activated since. -/
  killed : Bool := false

/-- An engine, with the last evaluation of each key. -/
structure Evaluated where
  engine : PortfolioRiskEngine
  last : String → Option Evaluation := fun _ => none

namespace Evaluated

def step (t : Evaluated) (op : EngineOp) : Evaluated where
  engine := t.engine.step op
  last :=
    match op with
    | .evaluateEntry proposal equity => Function.update t.last proposal.key
        (some { proposal, result := (t.engine.evaluateEntry proposal equity).1 })
    | .activateKillSwitch reason =>
      if isBlank reason then t.last else fun key => (t.last key).map ({ · with killed := true })
    | _ => t.last

/-- The last evaluation of the proposal's key was of this proposal and answered with the
decision, an approval, and the kill switch was not activated since. -/
def Approved (t : Evaluated) (proposal : PortfolioEntryProposal) (d : PortfolioRiskDecision) :
    Prop :=
  ∃ v, t.last proposal.key = some v ∧ SameContent v.proposal proposal ∧ v.result = .ok d ∧
    d.approved = true ∧ v.killed = false

end Evaluated

/-! ## Evaluations that approve -/

/-- The engine on which an evaluation tests the proposal. -/
def PortfolioRiskEngine.evaluating (e : PortfolioRiskEngine) (now : Instant) (equity : ℚ) :
    PortfolioRiskEngine :=
  { (e.rollDay now).2 with peakEquity := max (e.rollDay now).2.peakEquity equity }

/-- The proposal is not out of order, not blocked, and fits with at least the minimum. -/
structure Approves (e : PortfolioRiskEngine) (proposal : PortfolioEntryProposal) (equity : ℚ)
    (now : Instant) : Prop where
  aware : utc proposal.proposedAtUtc "proposal timestamp" = .ok now
  inOrder : (e.rollDay now).1 = true
  solvent : 0 < equity
  unblocked : (e.evaluating now equity).blockingReason proposal equity = none
  fits : e.config.minimumOrderNotional ≤ (e.evaluating now equity).approvedNotional proposal equity

variable {e : PortfolioRiskEngine} {proposal : PortfolioEntryProposal} {equity : ℚ}
  {d : PortfolioRiskDecision}

theorem checked_approved (hkey : isBlank d.proposalKey = false) (hreason : isBlank d.reason = false)
    (happroved : d.approved = true) (hnotional : d.approvedSignedNotional ≠ 0)
    (hrisk : 0 < d.approvedRiskFraction) : d.checked = .ok d := by
  simp only [PortfolioRiskDecision.checked, require, hkey, hreason, happroved, hrisk, ne_eq,
    hnotional, not_false_eq_true, Bool.not_false, and_self, decide_true, if_true]
  rfl

/-- An approval of a positive notional passes the tests of its constructor. -/
theorem approval_checked {approved : ℚ} (h : 0 < approved) :
    (e.approval proposal approved).checked = .ok (e.approval proposal approved) := by
  refine checked_approved (proposal.identifiers _ List.mem_cons_self)
    (show isBlank "APPROVED" = false by decide) rfl ?_
    (div_pos (mul_pos proposal.risk.1 h) (abs_pos.mpr proposal.notional))
  show (if proposal.signedNotional > 0 then 1 else -1) * approved ≠ 0
  split
  · rw [one_mul]; exact h.ne'
  · rw [neg_one_mul]; exact neg_ne_zero.mpr h.ne'

theorem evaluateEntry_approves {now : Instant} (h : Approves e proposal equity now) :
    ∃ d, (e.evaluateEntry proposal equity).1 = .ok d ∧ d.approved = true := by
  have hequity : positiveEquity equity = .ok () := by
    simp only [positiveEquity, require, h.solvent, decide_true, if_true]
  have hconfig : (e.evaluating now equity).config = e.config := (sameBook_rollDay now).1.config
  have hfits : ¬ (e.evaluating now equity).approvedNotional proposal equity <
      (e.evaluating now equity).config.minimumOrderNotional := by
    rw [hconfig]
    exact not_lt.mpr h.fits
  have hpos : 0 < (e.evaluating now equity).approvedNotional proposal equity :=
    (minimumOrderNotional_pos e.config).trans_le h.fits
  have hroll := h.inOrder
  have hblock := h.unblocked
  have hchecked := @approval_checked (e.evaluating now equity) proposal _ hpos
  unfold evaluating at hblock hfits hchecked
  unfold evaluateEntry
  simp only [h.aware, hroll, hequity, hblock, hfits, hchecked, Bool.true_eq_false, if_false]
  exact ⟨_, rfl, rfl⟩

/-! ## Careful runs -/

namespace Evaluated

/-- While a decision of its key is pending, a proposal is evaluated again only if it is
approved again; the kill switch is activated only while no decision is pending; and a
pending decision is used only for the proposal that was evaluated last under its key. -/
def Careful (t : Evaluated) : EngineOp → Prop
  | .evaluateEntry proposal equity =>
    t.engine.pendingDecisions.find proposal.key = none ∨ ∃ now, Approves t.engine proposal equity now
  | .activateKillSwitch reason => isBlank reason = true ∨ t.engine.pendingDecisions.rows = []
  | .recordOpen proposal d => t.engine.pendingDecisions.find proposal.key = some d →
      ∀ v ∈ t.last proposal.key, SameContent v.proposal proposal
  | _ => True

/-- A pending decision is what the last evaluation of its key answered. -/
def Current (t : Evaluated) : Prop :=
  ∀ key d, t.engine.pendingDecisions.find key = some d →
    ∃ v, t.last key = some v ∧ v.result = .ok d ∧ d.approved = true ∧ v.killed = false

variable {t : Evaluated}

theorem current_evaluateEntry (h : t.Current)
    (hok : t.Careful (.evaluateEntry proposal equity)) :
    (t.step (.evaluateEntry proposal equity)).Current := by
  intro key d hd
  have hlast : ∀ k, (t.step (.evaluateEntry proposal equity)).last k =
      if k = proposal.key then
        some { proposal, result := (t.engine.evaluateEntry proposal equity).1 }
      else t.last k := fun k => Function.update_apply ..
  change (t.engine.evaluateEntry proposal equity).2.pendingDecisions.find key = some d at hd
  rw [hlast]
  rcases (@evaluateEntry_cases t.engine proposal equity).2 with ⟨hpend, hrej⟩ |
      ⟨d', hd', hissued, hpend⟩
  · -- No approval: nothing was pending under the key.
    rw [hpend] at hd
    split
    · next hk =>
      rcases hok with hnone | ⟨now, happroves⟩
      · rw [hk, hnone] at hd
        cases hd
      · obtain ⟨x, hx, happroved⟩ := evaluateEntry_approves happroves
        rw [hrej x hx] at happroved
        cases happroved
    · exact h key d hd
  · rw [hpend, Table.find_upsert, hissued.key] at hd
    split at hd
    · next hk =>
      cases hd
      rw [if_pos hk]
      exact ⟨_, rfl, hd', hissued.approved, rfl⟩
    · next hk =>
      rw [if_neg hk]
      exact h key d hd

theorem current_step (t : Evaluated) (op : EngineOp) (hok : t.Careful op) (h : t.Current) :
    (t.step op).Current := by
  cases op with
  | evaluateEntry proposal equity => exact current_evaluateEntry h hok
  | recordOpen proposal d =>
    intro key x hx
    change (t.engine.recordOpen proposal d).2.pendingDecisions.find key = some x at hx
    unfold recordOpen at hx
    split at hx
    · exact h key x hx
    · simp only [Table.find_erase] at hx
      split at hx
      · cases hx
      · exact h key x hx
  | recordClose key pnl closed =>
    have hpend : (t.engine.recordClose key pnl closed).2.pendingDecisions =
        t.engine.pendingDecisions := by
      unfold recordClose
      split
      · rfl
      · next now _ =>
        simp only
        split <;> exact (sameBook_rollDay now).2
    intro k x hx
    change (t.engine.recordClose key pnl closed).2.pendingDecisions.find k = some x at hx
    rw [hpend] at hx
    exact h k x hx
  | activateKillSwitch reason =>
    intro key x hx
    change (t.engine.activateKillSwitch reason).2.pendingDecisions.find key = some x at hx
    have hpend : (t.engine.activateKillSwitch reason).2.pendingDecisions =
        t.engine.pendingDecisions := by
      unfold activateKillSwitch
      split <;> rfl
    rw [hpend] at hx
    rcases hok with hblank | hnone
    · show ∃ v, (if isBlank reason then t.last else _) key = some v ∧ _
      rw [if_pos hblank]
      exact h key x hx
    · have hmem := Table.find_mem hx
      rw [hnone] at hmem
      cases hmem
  | clearKillSwitch reason =>
    intro key x hx
    change (t.engine.clearKillSwitch reason).2.pendingDecisions.find key = some x at hx
    unfold clearKillSwitch at hx
    split at hx <;> exact h key x hx
  | updateEquity equity =>
    intro key x hx
    change (t.engine.updateEquity equity).2.pendingDecisions.find key = some x at hx
    unfold updateEquity at hx
    split at hx <;> exact h key x hx

end Evaluated

theorem Initial.current (h : e.Initial) : Evaluated.Current { engine := e } := by
  intro key d hd
  have hnone : e.pendingDecisions = .empty := by
    rcases h with h | ⟨snapshot, h⟩
    · rw [h]
    · obtain ⟨-, h⟩ := fromSnapshot_eq_ok.mp h
      rw [← h]
  change e.pendingDecisions.find key = some d at hd
  rw [hnone] at hd
  cases hd

end Greenfield.Risk
