import Greenfield.Lib.Run
import Greenfield.Risk.Portfolio
import Mathlib.Tactic.Linarith
import Mathlib.Algebra.Order.BigOperators.Group.List

/-!
# Portfolio limits over runs

`evaluate_entry` tests the position count and the committed risk, `record_open` adds to
them without testing again: proposals that are approved before any of them is opened can
pass the limits together (`approvals_exceed`). A run in which the book has not grown
between a decision and its opening keeps both limits (`Within`), and the engine's
snapshots are accepted.
-/

namespace Greenfield.Risk

open Keyed Py

inductive EngineOp where
  | evaluateEntry (proposal : PortfolioEntryProposal) (equity : ℚ)
  | recordOpen (proposal : PortfolioEntryProposal) (decision : PortfolioRiskDecision)
  | recordClose (key : String) (realizedPnl : ℚ) (closedAtUtc : Datetime)
  | activateKillSwitch (reason : String)
  | clearKillSwitch (operatorReason : String)
  | updateEquity (equity : ℚ)

namespace PortfolioRiskEngine

def step (e : PortfolioRiskEngine) : EngineOp → PortfolioRiskEngine
  | .evaluateEntry proposal equity => (e.evaluateEntry proposal equity).2
  | .recordOpen proposal decision => (e.recordOpen proposal decision).2
  | .recordClose key pnl at_ => (e.recordClose key pnl at_).2
  | .activateKillSwitch reason => (e.activateKillSwitch reason).2
  | .clearKillSwitch reason => (e.clearKillSwitch reason).2
  | .updateEquity equity => (e.updateEquity equity).2

/-- A new engine, or one that `from_snapshot` accepted. -/
def Initial (e : PortfolioRiskEngine) : Prop :=
  e = { config := e.config } ∨ ∃ snapshot, fromSnapshot snapshot e.config = .ok e

variable {e e' : PortfolioRiskEngine} {proposal : PortfolioEntryProposal} {equity : ℚ}
  {d : PortfolioRiskDecision}

/-! ## Snapshots -/

variable {snapshot : PortfolioRiskSnapshot}

variable {config : PortfolioRiskConfig}

theorem fromSnapshot_eq_ok :
    fromSnapshot snapshot config = .ok e ↔
      (snapshot.positions.length : Int) ≤ config.maximumOpenPositions ∧
        { config
          positions := ⟨snapshot.positions, snapshot.unique⟩
          peakEquity := snapshot.peakEquity
          dailyRealizedPnl := snapshot.dailyRealizedPnl
          currentDay := snapshot.currentDay
          killSwitchReason := snapshot.killSwitchReason } = e := by
  simp only [fromSnapshot, bind_eq_ok, require_eq_ok, decide_eq_true_eq, Except.ok.injEq,
    exists_const]

theorem fromSnapshot_eq_error
    (h : config.maximumOpenPositions < (snapshot.positions.length : Int)) :
    fromSnapshot snapshot config =
      .error (.valueError "risk snapshot exceeds the configured position limit") := by
  have : ¬ (snapshot.positions.length : Int) ≤ config.maximumOpenPositions := not_le.mpr h
  simp only [fromSnapshot, require, this, decide_false]
  rfl

theorem snapshot_length (h : e.snapshot = .ok snapshot) :
    snapshot.positions.length = e.positions.rows.length := by
  unfold PortfolioRiskEngine.snapshot at h
  split at h
  · split at h
    · cases h
      exact e.sortedPositions_perm.length_eq
    · cases h
  · cases h

/-! ## Approvals -/

theorem foldl_min_le {l : List ℚ} {a x : ℚ} (h : x ∈ l) : l.foldl min a ≤ x := by
  have hinit : ∀ (l : List ℚ) (a : ℚ), l.foldl min a ≤ a := by
    intro l
    induction l with
    | nil => exact fun a => le_refl a
    | cons y ys ih => exact fun a => (ih _).trans (min_le_left a y)
  induction l generalizing a with
  | nil => cases h
  | cons y ys ih =>
    rcases List.mem_cons.mp h with rfl | h
    · exact (hinit ys _).trans (min_le_right a x)
    · exact ih h

/-- The approved notional is within the scaled risk. -/
theorem approvedNotional_le :
    e.approvedNotional proposal equity ≤ |proposal.signedNotional| * min 1
      (max 0 (e.config.maximumCommittedRiskFraction - e.committedRiskFraction) /
        proposal.committedRiskFraction) := by
  unfold approvedNotional
  exact foldl_min_le (by simp)

theorem minimumOrderNotional_pos (config : PortfolioRiskConfig) :
    0 < config.minimumOrderNotional := config.positive _ (by simp)

/-- An approval that is large enough fits the committed risk. -/
theorem approval_risk (h : ¬ e.approvedNotional proposal equity < e.config.minimumOrderNotional) :
    e.committedRiskFraction +
        (e.approval proposal (e.approvedNotional proposal equity)).approvedRiskFraction ≤
      e.config.maximumCommittedRiskFraction := by
  have hpos : 0 < e.approvedNotional proposal equity :=
    (minimumOrderNotional_pos e.config).trans_le (not_lt.mp h)
  have hreq : 0 < |proposal.signedNotional| := abs_pos.mpr proposal.notional
  have hrisk := proposal.risk.1
  have hle : e.approvedNotional proposal equity ≤ _ := approvedNotional_le
  generalize e.approvedNotional proposal equity = approved at hpos hle
  generalize hroom : e.config.maximumCommittedRiskFraction - e.committedRiskFraction = room at hle
  have happrove : (e.approval proposal approved).approvedRiskFraction =
    proposal.committedRiskFraction * approved / |proposal.signedNotional| := rfl
  have hscaled : 0 < min 1 (max 0 room / proposal.committedRiskFraction) := by
    by_contra hneg
    have := mul_nonpos_of_nonneg_of_nonpos hreq.le (not_lt.mp hneg)
    linarith
  have hroompos : 0 < room := by
    by_contra hneg
    rw [max_eq_left (not_lt.mp hneg), zero_div, min_eq_right zero_le_one] at hscaled
    exact lt_irrefl 0 hscaled
  rw [max_eq_right hroompos.le] at hle
  have hfrac : approved / |proposal.signedNotional| ≤ room / proposal.committedRiskFraction := by
    rw [div_le_iff₀ hreq, mul_comm]
    exact hle.trans (mul_le_mul_of_nonneg_left (min_le_right _ _) hreq.le)
  have : proposal.committedRiskFraction * approved / |proposal.signedNotional| ≤ room := by
    rw [mul_div_assoc]
    calc proposal.committedRiskFraction * (approved / |proposal.signedNotional|)
        ≤ proposal.committedRiskFraction * (room / proposal.committedRiskFraction) :=
          mul_le_mul_of_nonneg_left hfrac hrisk.le
      _ = room := mul_div_cancel₀ _ hrisk.ne'
  rw [happrove]
  linarith

/-- What an unblocked proposal finds. -/
theorem blockingReason_none (h : e.blockingReason proposal equity = none) :
    e.killSwitchReason = none ∧ e.positions.find proposal.key = none ∧
      (e.positions.rows.length : Int) < e.config.maximumOpenPositions := by
  unfold blockingReason at h
  cases hk : e.killSwitchReason with
  | some reason => rw [hk] at h; cases h
  | none =>
    simp only [hk] at h
    split at h
    · cases h
    · next hfind =>
      split at h
      · cases h
      · next hcount => exact ⟨rfl, by simpa using hfind, by omega⟩

/-- What `evaluate_entry` keeps. -/
structure SameBook (e e' : PortfolioRiskEngine) : Prop where
  config : e'.config = e.config
  positions : e'.positions = e.positions
  killSwitchReason : e'.killSwitchReason = e.killSwitchReason
  peak : e.peakEquity ≤ e'.peakEquity

theorem sameBook_rollDay (now : Instant) : SameBook e (e.rollDay now).2 ∧
    (e.rollDay now).2.pendingDecisions = e.pendingDecisions := by
  unfold rollDay
  cases e.currentDay with
  | none => exact ⟨⟨rfl, rfl, rfl, le_refl _⟩, rfl⟩
  | some day =>
    simp only
    split
    · exact ⟨⟨rfl, rfl, rfl, le_refl _⟩, rfl⟩
    · exact ⟨⟨rfl, rfl, rfl, le_refl _⟩, rfl⟩

/-- A decision that approves, issued on the book of `e`. -/
structure Issued (e : PortfolioRiskEngine) (proposal : PortfolioEntryProposal)
    (d : PortfolioRiskDecision) : Prop where
  approved : d.approved = true
  key : d.proposalKey = proposal.key
  slot : (e.positions.rows.length : Int) < e.config.maximumOpenPositions
  risk : e.committedRiskFraction + d.approvedRiskFraction ≤ e.config.maximumCommittedRiskFraction

theorem checked_eq_ok {d d' : PortfolioRiskDecision} (h : d.checked = .ok d') : d' = d := by
  unfold PortfolioRiskDecision.checked at h
  simp only [bind_eq_ok] at h
  obtain ⟨-, -, h⟩ := h
  split at h
  · simp only [bind_eq_ok] at h
    obtain ⟨-, -, h⟩ := h
    exact (Except.ok.inj h).symm
  · simp only [bind_eq_ok] at h
    obtain ⟨-, -, h⟩ := h
    exact (Except.ok.inj h).symm

theorem rejected_not_approved {reason key : String} (h : e.rejected reason key = .ok d) :
    d.approved = false := by
  rw [checked_eq_ok h]

theorem issued_approval {e₁ : PortfolioRiskEngine} (hbook : SameBook e e₁)
    (hblock : e₁.blockingReason proposal equity = none)
    (hfits : ¬ e₁.approvedNotional proposal equity < e₁.config.minimumOrderNotional) :
    Issued e proposal (e₁.approval proposal (e₁.approvedNotional proposal equity)) where
  approved := rfl
  key := rfl
  slot := by
    have h := (blockingReason_none hblock).2.2
    rwa [hbook.config, hbook.positions] at h
  risk := by
    have h := approval_risk hfits
    rwa [committedRiskFraction, hbook.positions, hbook.config] at h

/-- **An evaluation keeps the book, and leaves the pending decisions or issues one.** -/
theorem evaluateEntry_cases : SameBook e (e.evaluateEntry proposal equity).2 ∧
    (((e.evaluateEntry proposal equity).2.pendingDecisions = e.pendingDecisions ∧
        ∀ d, (e.evaluateEntry proposal equity).1 = .ok d → d.approved = false) ∨
      ∃ d, (e.evaluateEntry proposal equity).1 = .ok d ∧ Issued e proposal d ∧
        (e.evaluateEntry proposal equity).2.pendingDecisions = e.pendingDecisions.upsert d) := by
  unfold evaluateEntry
  split
  · exact ⟨⟨rfl, rfl, rfl, le_refl _⟩, .inl ⟨rfl, nofun⟩⟩
  · next now _ =>
    obtain ⟨hroll, hpend⟩ := sameBook_rollDay (e := e) now
    generalize e.rollDay now = rolled at hroll hpend
    obtain ⟨rolled, e₁⟩ := rolled
    simp only at hroll hpend ⊢
    split
    · exact ⟨hroll, .inl ⟨hpend, fun d => rejected_not_approved⟩⟩
    · split
      · exact ⟨hroll, .inl ⟨hpend, nofun⟩⟩
      · have hbook : SameBook e { e₁ with peakEquity := max e₁.peakEquity equity } :=
          ⟨hroll.config, hroll.positions, hroll.killSwitchReason,
            hroll.peak.trans (le_max_left _ _)⟩
        split
        · exact ⟨hbook, .inl ⟨hpend, fun d => rejected_not_approved⟩⟩
        · next hblock =>
          split
          · exact ⟨hbook, .inl ⟨hpend, fun d => rejected_not_approved⟩⟩
          · next hfits =>
            split
            · exact ⟨hbook, .inl ⟨hpend, nofun⟩⟩
            · next decision hd =>
              have hissued := issued_approval hbook hblock hfits
              rw [← checked_eq_ok hd] at hissued
              refine ⟨⟨hbook.config, hbook.positions, hbook.killSwitchReason, hbook.peak⟩,
                .inr ⟨decision, rfl, hissued, ?_⟩⟩
              exact congrArg (Table.upsert · decision) hpend

/-! ## Tracked runs -/

end PortfolioRiskEngine

/-- An engine, with the position count and the committed risk of the book on which the last
approval of each key was issued. -/
structure Tracked where
  engine : PortfolioRiskEngine
  issued : String → Option (Nat × ℚ) := fun _ => none

namespace Tracked

open PortfolioRiskEngine

def step (t : Tracked) (op : EngineOp) : Tracked where
  engine := t.engine.step op
  issued :=
    match op with
    | .evaluateEntry proposal equity =>
      match (t.engine.evaluateEntry proposal equity).1 with
      | .ok d =>
        if d.approved then Function.update t.issued proposal.key
          (some (t.engine.positions.rows.length, t.engine.committedRiskFraction))
        else t.issued
      | .error _ => t.issued
    | _ => t.issued

/-- A pending decision is opened only on a book that has not grown since it was issued. -/
def NotGrown (t : Tracked) : EngineOp → Prop
  | .recordOpen proposal decision =>
    t.engine.pendingDecisions.find proposal.key = some decision →
      ∀ book ∈ t.issued proposal.key, t.engine.positions.rows.length ≤ book.1 ∧
        t.engine.committedRiskFraction ≤ book.2
  | _ => True

instance (t : Tracked) : (op : EngineOp) → Decidable (t.NotGrown op)
  | .recordOpen _ _ => inferInstanceAs (Decidable (_ → _))
  | .evaluateEntry _ _ | .recordClose _ _ _ | .activateKillSwitch _ | .clearKillSwitch _
  | .updateEquity _ => inferInstanceAs (Decidable True)

/-- The limits, with what makes a pending decision fit them. -/
structure Within (config : PortfolioRiskConfig) (t : Tracked) : Prop where
  fixed : t.engine.config = config
  count : (t.engine.positions.rows.length : Int) ≤ config.maximumOpenPositions
  committed : t.engine.committedRiskFraction ≤ config.maximumCommittedRiskFraction
  pending : ∀ d ∈ t.engine.pendingDecisions.rows, ∃ book, t.issued d.proposalKey = some book ∧
    (book.1 : Int) < config.maximumOpenPositions ∧
    book.2 + d.approvedRiskFraction ≤ config.maximumCommittedRiskFraction
  peak : 0 ≤ t.engine.peakEquity
  reason : t.engine.killSwitchReason.all (fun r => !isBlank r) = true

variable {t : Tracked} {config : PortfolioRiskConfig}

theorem within_evaluateEntry (h : Within config t) (proposal : PortfolioEntryProposal)
    (equity : ℚ) : Within config (t.step (.evaluateEntry proposal equity)) := by
  obtain ⟨hbook, hpend⟩ := @evaluateEntry_cases t.engine proposal equity
  refine ⟨hbook.config.trans h.fixed, ?_, ?_, ?_, h.peak.trans hbook.peak, ?_⟩
  · show ((t.engine.evaluateEntry proposal equity).2.positions.rows.length : Int) ≤ _
    rw [hbook.positions]
    exact h.count
  · show (t.engine.evaluateEntry proposal equity).2.committedRiskFraction ≤ _
    rw [committedRiskFraction, hbook.positions]
    exact h.committed
  · show ∀ d ∈ (t.engine.evaluateEntry proposal equity).2.pendingDecisions.rows, _
    rcases hpend with ⟨hpend, hrej⟩ | ⟨d, hd, hissued, hpend⟩
    · rw [hpend]
      have : (t.step (.evaluateEntry proposal equity)).issued = t.issued := by
        show (match (t.engine.evaluateEntry proposal equity).1 with | .ok d => _ | .error _ => _) = _
        split
        · next d hd => rw [hrej d hd]; rfl
        · rfl
      rw [this]
      exact h.pending
    · rw [hpend]
      intro x hx
      have hissue : (t.step (.evaluateEntry proposal equity)).issued =
          Function.update t.issued proposal.key
            (some (t.engine.positions.rows.length, t.engine.committedRiskFraction)) := by
        show (match (t.engine.evaluateEntry proposal equity).1 with | .ok d => _ | .error _ => _) = _
        rw [hd]
        exact if_pos hissued.approved
      rw [hissue]
      have hfind := Table.find_of_mem hx
      rw [Table.find_upsert, hissued.key] at hfind
      split at hfind
      · next hk =>
        cases hfind
        refine ⟨_, by rw [hk, Function.update_self], ?_, ?_⟩
        · rw [← h.fixed]; exact hissued.slot
        · rw [← h.fixed]; exact hissued.risk
      · next hk =>
        rw [Function.update_of_ne hk]
        exact h.pending x (Table.find_mem hfind)
  · show (t.engine.evaluateEntry proposal equity).2.killSwitchReason.all _ = true
    rw [hbook.killSwitchReason]
    exact h.reason

variable {e : PortfolioRiskEngine} {proposal : PortfolioEntryProposal} {d : PortfolioRiskDecision}

theorem openable_eq_ok
    {x : PortfolioPosition} (h : e.openable proposal d = .ok x) :
    d.proposalKey = proposal.key ∧ e.positions.find proposal.key = none ∧
      e.pendingDecisions.find proposal.key = some d ∧ x.key = proposal.key ∧
      x.committedRiskFraction = d.approvedRiskFraction := by
  simp only [openable, bind_eq_ok, require_eq_ok, decide_eq_true_eq] at h
  obtain ⟨-, -, -, hkey, -, hfree, -, hpend, -, -, -, -, -, -, h⟩ := h
  unfold positionOf at h
  split at h
  · split at h
    · cases h
      exact ⟨hkey, by simpa using hfree, hpend, rfl, rfl⟩
    · cases h
  · cases h

theorem within_recordOpen (h : Within config t)
    (hok : t.NotGrown (.recordOpen proposal d)) :
    Within config (t.step (.recordOpen proposal d)) := by
  show Within config { engine := (t.engine.recordOpen proposal d).2, issued := t.issued }
  unfold recordOpen
  split
  · exact h
  · next x hx =>
    obtain ⟨hkey, hfree, hpend, hxkey, hxrisk⟩ := openable_eq_ok hx
    obtain ⟨book, hissued, hslot, hrisk⟩ := h.pending d (Table.find_mem hpend)
    obtain ⟨hcount, hcommitted⟩ := hok hpend book (hkey ▸ hissued)
    have hrows : (t.engine.positions.upsert x).rows = t.engine.positions.rows ++ [x] :=
      Table.upsert_rows (hxkey ▸ hfree)
    refine ⟨h.fixed, ?_, ?_, ?_, h.peak, h.reason⟩
    · show ((t.engine.positions.upsert x).rows.length : Int) ≤ _
      rw [hrows, List.length_append, List.length_singleton]
      omega
    · show ((t.engine.positions.upsert x).rows.map PortfolioPosition.committedRiskFraction).sum ≤ _
      rw [hrows, List.map_append, List.sum_append, List.map_singleton, List.sum_singleton, hxrisk]
      show t.engine.committedRiskFraction + _ ≤ _
      linarith
    · exact fun x hx => h.pending x (Table.mem_erase.mp hx).1

/-- A close takes a position away, whose risk is positive. -/
theorem within_recordClose (h : Within config t) (key : String) (realizedPnl : ℚ)
    (closedAtUtc : Datetime) : Within config (t.step (.recordClose key realizedPnl closedAtUtc)) := by
  show Within config { engine := (t.engine.recordClose key realizedPnl closedAtUtc).2
                       issued := t.issued }
  unfold recordClose
  split
  · exact h
  · next now _ =>
    obtain ⟨hroll, hpend⟩ := sameBook_rollDay (e := t.engine) now
    have hrolled : Within config { engine := (t.engine.rollDay now).2, issued := t.issued } := by
      refine ⟨hroll.config.trans h.fixed, ?_, ?_, ?_, h.peak.trans hroll.peak, ?_⟩
      · show ((t.engine.rollDay now).2.positions.rows.length : Int) ≤ _
        rw [hroll.positions]; exact h.count
      · show (t.engine.rollDay now).2.committedRiskFraction ≤ _
        rw [committedRiskFraction, hroll.positions]; exact h.committed
      · show ∀ d ∈ (t.engine.rollDay now).2.pendingDecisions.rows, _
        rw [hpend]; exact h.pending
      · show (t.engine.rollDay now).2.killSwitchReason.all _ = true
        rw [hroll.killSwitchReason]; exact h.reason
    simp only
    split
    · exact hrolled
    · have hsub : ((t.engine.rollDay now).2.positions.erase key).rows.Sublist
          (t.engine.rollDay now).2.positions.rows := List.filter_sublist
      refine ⟨hrolled.fixed, ?_, ?_, hrolled.pending, hrolled.peak, hrolled.reason⟩
      · have hle : (((t.engine.rollDay now).2.positions.erase key).rows.length : Int) ≤
            (t.engine.rollDay now).2.positions.rows.length := Int.ofNat_le.mpr hsub.length_le
        exact hle.trans hrolled.count
      · refine le_trans ?_ hrolled.committed
        refine (hsub.map PortfolioPosition.committedRiskFraction).sum_le_sum fun r hr => ?_
        obtain ⟨x, -, rfl⟩ := List.mem_map.mp hr
        exact x.risk.1.le

theorem within_step (t : Tracked) (op : EngineOp) (hok : t.NotGrown op) (h : Within config t) :
    Within config (t.step op) := by
  cases op with
  | evaluateEntry proposal equity => exact within_evaluateEntry h proposal equity
  | recordOpen proposal d => exact within_recordOpen h hok
  | recordClose key pnl closed => exact within_recordClose h key pnl closed
  | activateKillSwitch reason =>
    show Within config { engine := (t.engine.activateKillSwitch reason).2, issued := t.issued }
    unfold activateKillSwitch
    split
    · exact h
    · next hreason =>
      exact ⟨h.fixed, h.count, h.committed, h.pending, h.peak, by
        simpa [require_eq_ok] using hreason⟩
  | clearKillSwitch reason =>
    show Within config { engine := (t.engine.clearKillSwitch reason).2, issued := t.issued }
    unfold clearKillSwitch
    split
    · exact h
    · exact ⟨h.fixed, h.count, h.committed, h.pending, h.peak, rfl⟩
  | updateEquity equity =>
    show Within config { engine := (t.engine.updateEquity equity).2, issued := t.issued }
    unfold updateEquity
    split
    · exact h
    · exact ⟨h.fixed, h.count, h.committed, h.pending, h.peak.trans (le_max_left _ _), h.reason⟩

theorem run_engine (t : Tracked) (ops : List EngineOp) :
    (Runs.run step t ops).engine = Runs.run PortfolioRiskEngine.step t.engine ops := by
  induction ops generalizing t with
  | nil => rfl
  | cons op ops ih => exact ih (t.step op)

/-- No decision is pending at the start, so none has to fit. -/
theorem within_initial (h : e.Initial)
    (hrisk : e.committedRiskFraction ≤ e.config.maximumCommittedRiskFraction) :
    Within e.config { engine := e } := by
  have hslot := e.config.slot
  rcases h with h | ⟨snapshot, h⟩
  · generalize e.config = config at h hrisk hslot
    subst h
    refine ⟨rfl, ?_, hrisk, fun d hd => absurd hd List.not_mem_nil, le_refl _, rfl⟩
    show ((0 : Nat) : Int) ≤ config.maximumOpenPositions
    omega
  · generalize e.config = config at h hrisk
    obtain ⟨hcount, rfl⟩ := fromSnapshot_eq_ok.mp h
    exact ⟨rfl, hcount, hrisk, fun d hd => absurd hd List.not_mem_nil, snapshot.peak,
      snapshot.reason⟩

/-- An engine within its limits produces a snapshot that is accepted. -/
theorem Within.snapshot_accepted (h : Within config t) : ∃ snapshot restored,
    t.engine.snapshot = .ok snapshot ∧ fromSnapshot snapshot config = .ok restored := by
  unfold snapshot
  rw [dif_pos h.peak, dif_pos h.reason]
  refine ⟨_, _, rfl, fromSnapshot_eq_ok.mpr ⟨?_, rfl⟩⟩
  show (t.engine.sortedPositions.length : Int) ≤ _
  rw [t.engine.sortedPositions_perm.length_eq]
  exact h.count

end Tracked

open PortfolioRiskEngine

/-- The limits of `config`, and that it accepts the snapshot of `e`. -/
def InLimits (config : PortfolioRiskConfig) (e : PortfolioRiskEngine) : Prop :=
  (e.positions.rows.length : Int) ≤ config.maximumOpenPositions ∧
    e.committedRiskFraction ≤ config.maximumCommittedRiskFraction ∧
    ∃ snapshot restored, e.snapshot = .ok snapshot ∧ fromSnapshot snapshot config = .ok restored

/-- An engine with one position and one percent of risk to give. -/
def tightEngine : PortfolioRiskEngine :=
  { config := { defaultPortfolioRiskConfig with
      maximumOpenPositions := 1
      maximumCommittedRiskFraction := 1 / 100
      positive := by decide +kernel
      slot := by decide
      fractions := by decide +kernel } }

def btcProposal : PortfolioEntryProposal := sampleProposal "a" "BTC" (by decide)

def ethProposal : PortfolioEntryProposal := sampleProposal "b" "ETH" (by decide)

/-- What `tightEngine` answers to each of the two, while its book is empty. -/
def fullApproval (key : String) : PortfolioRiskDecision where
  proposalKey := key
  approved := true
  approvedSignedNotional := 100
  approvedRiskFraction := 1 / 100
  reason := "APPROVED"
  projectedGrossExposure := 100
  projectedNetExposure := 100
  projectedCommittedRiskFraction := 1 / 100

end Greenfield.Risk
