import Greenfield.Risk.Approval

/-!
# The largest notional that fits

`evaluate_entry` of `src/risk/portfolio_engine.py` cuts a proposal down to the smallest of its
rooms. That is the largest notional with which the book keeps all the caps of the proposal
(`le_approvedNotional`), whether the book keeps them now or not.
-/

namespace Greenfield.Risk

open Keyed Py

namespace PortfolioRiskEngine

/-! ## The caps -/

/-- `direction`. -/
def direction (proposal : PortfolioEntryProposal) : ℚ :=
  if proposal.signedNotional > 0 then 1 else -1

theorem direction_mul_self (proposal : PortfolioEntryProposal) :
    direction proposal * direction proposal = 1 := by
  unfold direction
  split
  · exact one_mul 1
  · norm_num

theorem abs_direction (proposal : PortfolioEntryProposal) : |direction proposal| = 1 := by
  unfold direction
  split
  · exact abs_one
  · rw [abs_neg, abs_one]

theorem direction_mul (proposal : PortfolioEntryProposal) :
    direction proposal * proposal.signedNotional = |proposal.signedNotional| := by
  unfold direction
  split
  · next hpos => rw [one_mul, abs_of_pos hpos]
  · next hpos => rw [neg_one_mul, abs_of_nonpos (not_lt.mp hpos)]

/-- A part of the requested notional. -/
def PartOf (proposal : PortfolioEntryProposal) (notional : ℚ) : Prop :=
  0 < notional ∧ notional ≤ |proposal.signedNotional|

/-- The position of a part of the proposal. -/
def positionFor (proposal : PortfolioEntryProposal) (notional : ℚ)
    (h : PartOf proposal notional) : PortfolioPosition where
  key := proposal.key
  symbol := proposal.symbol
  venue := proposal.venue
  strategy := proposal.strategy
  engine := proposal.engine
  signedNotional := direction proposal * notional
  committedRiskFraction :=
    proposal.committedRiskFraction * notional / |proposal.signedNotional|
  openedAtUtc := proposal.proposedAtUtc
  identifiers := proposal.identifiers
  notional := by
    apply mul_ne_zero _ h.1.ne'
    exact fun h0 => by simpa [h0] using direction_mul_self proposal
  risk := by
    have hrequested : 0 < |proposal.signedNotional| := abs_pos.mpr proposal.notional
    refine ⟨div_pos (mul_pos proposal.risk.1 h.1) hrequested, ?_⟩
    rw [div_le_one₀ hrequested]
    exact (mul_le_of_le_one_left h.1.le proposal.risk.2).trans h.2
  aware := proposal.aware

/-- The book with a part of the proposal. -/
def opened (e : PortfolioRiskEngine) (proposal : PortfolioEntryProposal) (notional : ℚ)
    (h : PartOf proposal notional) : PortfolioRiskEngine :=
  { e with positions := e.positions.upsert (positionFor proposal notional h) }

/-- The caps of a proposal. -/
structure CapsHold (e : PortfolioRiskEngine) (proposal : PortfolioEntryProposal) (equity : ℚ) :
    Prop where
  gross : e.grossExposure ≤ e.config.maximumGrossExposureMultiple * equity
  net : direction proposal * e.netExposure ≤ e.config.maximumNetExposureMultiple * equity
  symbol : e.grossWhere (·.symbol = proposal.symbol) ≤
    e.config.maximumSymbolExposureMultiple * equity
  venue : e.grossWhere (·.venue = proposal.venue) ≤ e.config.maximumVenueExposureMultiple * equity
  strategy : e.grossWhere (·.strategy = proposal.strategy) ≤
    e.config.maximumStrategyExposureMultiple * equity
  engine : e.grossWhere (·.engine = proposal.engine) ≤
    e.config.maximumEngineExposureMultiple * equity
  correlated : e.grossWhere (·.symbol ∈ proposal.symbol :: proposal.correlatedSymbols) ≤
    e.config.maximumCorrelatedExposureMultiple * equity
  risk : e.committedRiskFraction ≤ e.config.maximumCommittedRiskFraction

variable {e e' : PortfolioRiskEngine} {proposal : PortfolioEntryProposal} {equity : ℚ}
  {notional : ℚ}

/-- The caps look at the positions only. -/
theorem CapsHold.congr (h : e.CapsHold proposal equity) (hpositions : e'.positions = e.positions)
    (hconfig : e'.config = e.config) : e'.CapsHold proposal equity := by
  obtain ⟨config, positions⟩ := e
  obtain ⟨config', positions'⟩ := e'
  cases hpositions
  cases hconfig
  exact ⟨h.gross, h.net, h.symbol, h.venue, h.strategy, h.engine, h.correlated, h.risk⟩

/-! ## What opening adds -/

theorem grossWhere_opened (hnew : e.positions.find proposal.key = none)
    (h : PartOf proposal notional) (p : PortfolioPosition → Bool)
    (hp : p (positionFor proposal notional h) = true) :
    (e.opened proposal notional h).grossWhere p = e.grossWhere p + notional := by
  have hrows : (e.opened proposal notional h).positions.rows =
      e.positions.rows ++ [positionFor proposal notional h] := Table.upsert_rows hnew
  have hsize : |(positionFor proposal notional h).signedNotional| = notional := by
    show |direction proposal * notional| = notional
    rw [abs_mul, abs_direction, one_mul, abs_of_pos h.1]
  unfold grossWhere
  rw [hrows, List.filter_append, List.map_append, List.sum_append,
    List.filter_cons_of_pos hp, List.filter_nil, List.map_singleton, List.sum_singleton, hsize]

theorem netExposure_opened (hnew : e.positions.find proposal.key = none)
    (h : PartOf proposal notional) :
    direction proposal * (e.opened proposal notional h).netExposure =
      direction proposal * e.netExposure + notional := by
  have hrows : (e.opened proposal notional h).positions.rows =
      e.positions.rows ++ [positionFor proposal notional h] := Table.upsert_rows hnew
  have hsigned : (positionFor proposal notional h).signedNotional =
      direction proposal * notional := rfl
  unfold netExposure
  rw [hrows, List.map_append, List.sum_append, List.map_singleton, List.sum_singleton, hsigned,
    mul_add, ← mul_assoc, direction_mul_self, one_mul]

theorem committedRiskFraction_opened (hnew : e.positions.find proposal.key = none)
    (h : PartOf proposal notional) :
    (e.opened proposal notional h).committedRiskFraction = e.committedRiskFraction +
      proposal.committedRiskFraction * notional / |proposal.signedNotional| := by
  have hrows : (e.opened proposal notional h).positions.rows =
      e.positions.rows ++ [positionFor proposal notional h] := Table.upsert_rows hnew
  unfold committedRiskFraction
  rw [hrows, List.map_append, List.sum_append, List.map_singleton, List.sum_singleton]
  rfl

/-! ## The rooms -/

theorem le_foldl_min {l : List ℚ} {a x : ℚ} : x ≤ l.foldl min a ↔ x ≤ a ∧ ∀ y ∈ l, x ≤ y := by
  induction l generalizing a with
  | nil => simp
  | cons y l ih =>
    rw [List.foldl_cons, ih, le_min_iff, List.forall_mem_cons, and_assoc]

/-- A room that is cut off at zero. -/
theorem le_room (h : 0 < notional) {cap used : ℚ} :
    notional ≤ max 0 (cap - used) ↔ used + notional ≤ cap := by
  rw [le_max_iff, or_iff_right (not_le.mpr h), le_sub_iff_add_le']

/-- The committed risk, as a notional. -/
theorem le_riskRoom (h : PartOf proposal notional) {cap used : ℚ} :
    notional ≤ |proposal.signedNotional| *
        min 1 (max 0 (cap - used) / proposal.committedRiskFraction) ↔
      used + proposal.committedRiskFraction * notional / |proposal.signedNotional| ≤ cap := by
  have hrequested : 0 < |proposal.signedNotional| := abs_pos.mpr proposal.notional
  have hrisk := proposal.risk.1
  have hpart : 0 < proposal.committedRiskFraction * notional / |proposal.signedNotional| :=
    div_pos (mul_pos hrisk h.1) hrequested
  rw [← le_room hpart, mul_min_of_nonneg _ _ hrequested.le, le_min_iff, mul_one,
    and_iff_right h.2, ← div_le_iff₀' hrequested, le_div_iff₀' hrisk, mul_div_assoc]

/-- **The largest notional that fits.** -/
theorem le_approvedNotional (hnew : e.positions.find proposal.key = none)
    (h : PartOf proposal notional) :
    notional ≤ e.approvedNotional proposal equity ↔
      (e.opened proposal notional h).CapsHold proposal equity := by
  have hgross := grossWhere_opened hnew h
  have hnet : notional ≤ max 0 (if proposal.signedNotional > 0 then
        e.config.maximumNetExposureMultiple * equity - e.netExposure
      else e.config.maximumNetExposureMultiple * equity + e.netExposure) ↔
      direction proposal * e.netExposure + notional ≤
        e.config.maximumNetExposureMultiple * equity := by
    unfold direction
    split
    · rw [one_mul, le_room h.1]
    · rw [neg_one_mul, ← sub_neg_eq_add, le_room h.1]
  unfold approvedNotional
  rw [le_foldl_min]
  simp only [List.forall_mem_cons, List.not_mem_nil, IsEmpty.forall_iff, implies_true, and_true,
    le_room h.1, le_riskRoom h, hnet]
  constructor
  · rintro ⟨-, h1, h2, h3, h4, h5, h6, h7, h8⟩
    refine ⟨?_, ?_, ?_, ?_, ?_, ?_, ?_, ?_⟩
    · exact (hgross (fun _ => true) rfl).trans_le h1
    · exact (netExposure_opened hnew h).trans_le h2
    · exact (hgross _ (decide_eq_true rfl)).trans_le h3
    · exact (hgross _ (decide_eq_true rfl)).trans_le h4
    · exact (hgross _ (decide_eq_true rfl)).trans_le h5
    · exact (hgross _ (decide_eq_true rfl)).trans_le h6
    · exact (hgross _ (decide_eq_true List.mem_cons_self)).trans_le h7
    · exact (committedRiskFraction_opened hnew h).trans_le h8
  · intro hcaps
    refine ⟨h.2, ?_, ?_, ?_, ?_, ?_, ?_, ?_, ?_⟩
    · exact (hgross (fun _ => true) rfl).symm.trans_le hcaps.gross
    · exact (netExposure_opened hnew h).symm.trans_le hcaps.net
    · exact (hgross _ (decide_eq_true rfl)).symm.trans_le hcaps.symbol
    · exact (hgross _ (decide_eq_true rfl)).symm.trans_le hcaps.venue
    · exact (hgross _ (decide_eq_true rfl)).symm.trans_le hcaps.strategy
    · exact (hgross _ (decide_eq_true rfl)).symm.trans_le hcaps.engine
    · exact (hgross _ (decide_eq_true List.mem_cons_self)).symm.trans_le hcaps.correlated
    · exact (committedRiskFraction_opened hnew h).symm.trans_le hcaps.risk

/-- An approved notional that is positive is a part of the proposal. -/
theorem partOf_approvedNotional (h : 0 < e.approvedNotional proposal equity) :
    PartOf proposal (e.approvedNotional proposal equity) :=
  ⟨h, (le_foldl_min.mp le_rfl).1⟩

/-! ## Evaluations -/

/-- The tests of `_blocking_reason`. -/
def Blocked (e : PortfolioRiskEngine) (proposal : PortfolioEntryProposal) (equity : ℚ) : Prop :=
  e.killSwitchReason ≠ none ∨ e.positions.find proposal.key ≠ none ∨
    e.config.maximumOpenPositions ≤ e.positions.rows.length ∨
    e.dailyRealizedPnl ≤ -e.config.maximumDailyLossFraction * equity ∨
    (0 < e.peakEquity ∧ e.config.maximumDrawdownFraction ≤ 1 - equity / e.peakEquity) ∨
    ∃ position ∈ e.positions.rows, position.symbol ≠ proposal.symbol ∧
      position.symbol ∉ proposal.correlationCheckedSymbols

theorem blockingReason_ne_none :
    e.blockingReason proposal equity ≠ none ↔ e.Blocked proposal equity := by
  have hevidence : ((e.positions.rows.map PortfolioPosition.symbol).filter fun s =>
      s ≠ proposal.symbol).all (· ∈ proposal.correlationCheckedSymbols) = true ↔
      ¬ ∃ position ∈ e.positions.rows, position.symbol ≠ proposal.symbol ∧
        position.symbol ∉ proposal.correlationCheckedSymbols := by
    simp only [List.all_eq_true, List.mem_filter, List.mem_map, decide_eq_true_eq, not_exists,
      not_and, not_not]
    constructor
    · exact fun h position hposition hne => h _ ⟨⟨position, hposition, rfl⟩, hne⟩
    · rintro h _ ⟨⟨position, hposition, rfl⟩, hne⟩
      exact h position hposition hne
  unfold blockingReason Blocked
  cases e.killSwitchReason with
  | some reason => simp
  | none =>
    simp only [ne_eq, not_true_eq_false, false_or]
    split
    · next hfind => simp [Option.isSome_iff_ne_none.mp hfind]
    · next hfind =>
      have hnew : e.positions.find proposal.key = none := by simpa using hfind
      simp only [hnew, not_true_eq_false, false_or]
      split
      · next hcount => simp [hcount]
      · next hcount =>
        simp only [hcount, false_or]
        split
        · next hloss => exact ⟨fun _ => .inl hloss, fun _ => Option.some_ne_none _⟩
        · next hloss =>
          simp only [hloss, false_or]
          split
          · next hdrawdown => simp [hdrawdown.1, hdrawdown.2]
          · next hdrawdown =>
            rw [or_iff_right hdrawdown]
            split
            · next hall => simpa using hevidence.mp hall
            · next hall =>
              simp only [reduceCtorEq, not_false_eq_true, true_iff]
              exact not_not.mp (mt hevidence.mpr hall)

theorem blockingReason_named {reason : String}
    (h : e.blockingReason proposal equity = some reason) : isBlank reason = false := by
  unfold blockingReason at h
  simp only at h
  split at h
  · cases h
    rw [isBlank_append]
    rfl
  · repeat' split at h
    all_goals cases h
    all_goals rfl

theorem rejected_ok {reason key : String} (hreason : isBlank reason = false)
    (hkey : isBlank key = false) : ∃ d, e.rejected reason key = .ok d ∧ d.approved = false := by
  unfold rejected PortfolioRiskDecision.checked
  simp only [require, hreason, hkey]
  exact ⟨_, rfl, rfl⟩

/-- The timestamp is on an earlier UTC day than the last one. -/
def OutOfOrder (e : PortfolioRiskEngine) (now : Instant) : Prop :=
  ∃ day ∈ e.currentDay, utcDate now < day

variable {now : Instant}

theorem rollDay_eq_false : (e.rollDay now).1 = false ↔ e.OutOfOrder now := by
  unfold rollDay OutOfOrder
  cases e.currentDay with
  | none => simp
  | some day =>
    by_cases hlater : utcDate now > day
    · simp [hlater, hlater.le]
    · simp only [hlater, if_false, decide_eq_false_iff_not, Option.mem_def, Option.some.injEq,
        exists_eq_left']
      omega

variable (equity) in
/-- A part of the proposal fits the caps with at least the minimum exactly if the approved
notional does. -/
theorem approvedNotional_lt (hnew : e.positions.find proposal.key = none) :
    e.approvedNotional proposal equity < e.config.minimumOrderNotional ↔
      ∀ notional (h : PartOf proposal notional),
        (e.opened proposal notional h).CapsHold proposal equity →
          notional < e.config.minimumOrderNotional := by
  constructor
  · exact fun hlt notional h hcaps => ((le_approvedNotional hnew h).mpr hcaps).trans_lt hlt
  · intro hall
    by_contra hfits
    have hpos := (minimumOrderNotional_pos e.config).trans_le (not_lt.mp hfits)
    have h := partOf_approvedNotional hpos
    exact hfits (hall _ h ((le_approvedNotional hnew h).mp le_rfl))

theorem abs_approval (approved : ℚ) (h : 0 < approved) :
    |(e.approval proposal approved).approvedSignedNotional| = approved := by
  show |direction proposal * approved| = approved
  rw [abs_mul, abs_direction, one_mul, abs_of_pos h]

variable (e e') in
/-- An approval opens the position of its notional. -/
theorem recordOpen_approval {approved : ℚ} (h : PartOf proposal approved)
    (hnew : e.positions.find proposal.key = none) (hfits : e.config.minimumOrderNotional ≤ approved)
    (hpending : e.pendingDecisions.find proposal.key = some (e'.approval proposal approved)) :
    e.recordOpen proposal (e'.approval proposal approved) = (.ok (),
      { e with positions := e.positions.upsert (positionFor proposal approved h)
               pendingDecisions := e.pendingDecisions.erase proposal.key }) := by
  have habs : |(e'.approval proposal approved).approvedSignedNotional| = approved :=
    abs_approval approved h.1
  have hdirection : 0 < (e'.approval proposal approved).approvedSignedNotional *
      proposal.signedNotional := by
    show 0 < direction proposal * approved * proposal.signedNotional
    rw [mul_right_comm, direction_mul]
    exact mul_pos (abs_pos.mpr proposal.notional) h.1
  have hposition : positionOf proposal (e'.approval proposal approved) =
      .ok (positionFor proposal approved h) := by
    have hsigned : (e'.approval proposal approved).approvedSignedNotional ≠ 0 :=
      (positionFor proposal approved h).notional
    have hrisk : 0 < (e'.approval proposal approved).approvedRiskFraction ∧
        (e'.approval proposal approved).approvedRiskFraction ≤ 1 :=
      (positionFor proposal approved h).risk
    unfold positionOf
    rw [dif_pos hsigned, dif_pos hrisk]
    rfl
  have hopenable : e.openable proposal (e'.approval proposal approved) =
      .ok (positionFor proposal approved h) := by
    unfold openable
    simp only [bind_eq_ok, require_eq_ok, exists_const, decide_eq_true_eq, habs]
    exact ⟨rfl, rfl, by simp [hnew], hpending, ⟨h.2, hfits⟩, hdirection, isclose_self _ _ _,
      hposition⟩
  unfold recordOpen
  rw [hopenable]

theorem evaluateEntry_positive
    (haware : utc proposal.proposedAtUtc "proposal timestamp" = .ok now) (hequity : 0 < equity) :
    e.evaluateEntry proposal equity =
      if (e.rollDay now).1 = false then
        ((e.rollDay now).2.rejected "OUT_OF_ORDER_TIMESTAMP" proposal.key, (e.rollDay now).2)
      else (e.evaluating now equity).judge proposal equity := by
  have hpositive : positiveEquity equity = .ok () := by
    simp only [positiveEquity, require, hequity, decide_true, if_true]
  rw [evaluateEntry_eq, haware]
  simp only [hpositive]
  rfl

theorem OutOfOrder.rejected (h : e.OutOfOrder now)
    (haware : utc proposal.proposedAtUtc "proposal timestamp" = .ok now) (hequity : 0 < equity) :
    ∃ d e', e.evaluateEntry proposal equity = (.ok d, e') ∧ d.approved = false := by
  obtain ⟨d, hd, hnot⟩ := @rejected_ok (e.rollDay now).2 "OUT_OF_ORDER_TIMESTAMP" proposal.key
    (by decide) (proposal.identifiers _ List.mem_cons_self)
  refine ⟨d, (e.rollDay now).2, ?_, hnot⟩
  rw [evaluateEntry_positive haware hequity, if_pos (rollDay_eq_false.mpr h), hd]

/-- What an approval is worth: it opens the largest part of the proposal that keeps the caps. -/
structure Largest (e : PortfolioRiskEngine) (proposal : PortfolioEntryProposal) (equity : ℚ)
    (d : PortfolioRiskDecision) : Prop where
  direction : 0 < d.approvedSignedNotional * proposal.signedNotional
  part : PartOf proposal |d.approvedSignedNotional|
  opens : ∃ e', e.recordOpen proposal d = (.ok (), e') ∧ e'.config = e.config ∧
    e'.positions = (e.opened proposal |d.approvedSignedNotional| part).positions ∧
    e'.CapsHold proposal equity
  largest : ∀ notional (h : PartOf proposal notional), |d.approvedSignedNotional| < notional →
    ¬ (e.opened proposal notional h).CapsHold proposal equity

theorem judge_approves (hblock : e.blockingReason proposal equity = none)
    (hfits : ¬ e.approvedNotional proposal equity < e.config.minimumOrderNotional) :
    ∃ d e', e.judge proposal equity = (.ok d, e') ∧ d.approved = true ∧
      e'.Largest proposal equity d := by
  have hnew := (blockingReason_none hblock).2.1
  have hle := not_lt.mp hfits
  have hpos := (minimumOrderNotional_pos e.config).trans_le hle
  have hpart := partOf_approvedNotional hpos
  have habs : |(e.approval proposal (e.approvedNotional proposal equity)).approvedSignedNotional| =
      e.approvedNotional proposal equity := abs_approval _ hpos
  have hdirection : 0 <
      (e.approval proposal (e.approvedNotional proposal equity)).approvedSignedNotional *
        proposal.signedNotional := by
    show 0 < direction proposal * e.approvedNotional proposal equity * proposal.signedNotional
    rw [mul_right_comm, direction_mul]
    exact mul_pos (abs_pos.mpr proposal.notional) hpos
  have hkey : (e.approval proposal (e.approvedNotional proposal equity)).proposalKey =
      proposal.key := rfl
  have happroved : (e.approval proposal (e.approvedNotional proposal equity)).approved = true := rfl
  have hrecord (e₁ : PortfolioRiskEngine) := recordOpen_approval e₁ e hpart
  have hjudge : e.judge proposal equity =
      (.ok (e.approval proposal (e.approvedNotional proposal equity)),
        { e with
          pendingDecisions := e.pendingDecisions.upsert
              (e.approval proposal (e.approvedNotional proposal equity)) }) := by
    unfold judge
    simp only [hblock, hfits, if_false, approval_checked hpos]
  generalize e.approval proposal (e.approvedNotional proposal equity) = d at *
  have hcaps := (le_approvedNotional hnew hpart).mp le_rfl
  generalize hpending : e.pendingDecisions.upsert d = pending at hjudge
  -- the engine with the pending decision has the positions and the caps of `e`
  have hsame (notional : ℚ) (h : PartOf proposal notional) :
      (({ e with pendingDecisions := pending } : PortfolioRiskEngine).opened proposal notional
        h).CapsHold proposal equity → (e.opened proposal notional h).CapsHold proposal equity :=
    fun h => h.congr rfl rfl
  refine ⟨d, _, hjudge, happroved, hdirection, habs ▸ hpart, ?_, fun notional h hlt hholds => ?_⟩
  · have hfind : pending.find proposal.key = some d := by
      rw [← hpending, Table.find_upsert, hkey, if_pos rfl]
    have hopen := hrecord { e with pendingDecisions := pending } hnew hle hfind
    refine ⟨_, hopen, rfl, ?_, hcaps.congr rfl rfl⟩
    simp only [opened, habs]
  · rw [habs] at hlt
    exact absurd ((le_approvedNotional hnew h).mpr (hsame _ h hholds)) (not_le.mpr hlt)

/-- A rejection on the engine that is tested. -/
theorem judge_rejects (h : e.blockingReason proposal equity ≠ none ∨
      e.approvedNotional proposal equity < e.config.minimumOrderNotional) :
    ∃ d e', e.judge proposal equity = (.ok d, e') ∧ d.approved = false := by
  have hkey : isBlank proposal.key = false := proposal.identifiers _ List.mem_cons_self
  unfold judge
  cases hblock : e.blockingReason proposal equity with
  | some reason =>
    obtain ⟨d, hd, hnot⟩ := @rejected_ok e reason _ (blockingReason_named hblock) hkey
    exact ⟨d, e, by simp only [hd], hnot⟩
  | none =>
    obtain ⟨d, hd, hnot⟩ := @rejected_ok e "NO_PORTFOLIO_RISK_CAPACITY" _ (by decide) hkey
    have hfits := h.resolve_left (not_not.mpr hblock)
    exact ⟨d, e, by simp only [hfits, if_true, hd], hnot⟩

/-- **Entries.** With a positive equity an evaluation answers. What it approves is a part of the
proposal, in its direction; opening it keeps all caps, and opening more of the proposal would not.
It rejects exactly what is out of order, what is blocked, and what does not fit the caps with the
minimum order size. -/
theorem entry_sound_maximal (e : PortfolioRiskEngine) (proposal : PortfolioEntryProposal)
    (equity : ℚ) (hequity : 0 < equity) :
    ∃ now d e', utc proposal.proposedAtUtc "proposal timestamp" = .ok now ∧
      e.evaluateEntry proposal equity = (.ok d, e') ∧
      (d.approved = true → e'.Largest proposal equity d) ∧
      (d.approved = false ↔ e.OutOfOrder now ∨ (e.evaluating now equity).Blocked proposal equity ∨
        ∀ notional (h : PartOf proposal notional),
          ((e.evaluating now equity).opened proposal notional h).CapsHold proposal equity →
            notional < e.config.minimumOrderNotional) := by
  obtain ⟨now, haware⟩ : ∃ now, utc proposal.proposedAtUtc "proposal timestamp" = .ok now := by
    obtain ⟨offset, hoffset⟩ := Option.ne_none_iff_exists'.mp proposal.aware
    exact ⟨proposal.proposedAtUtc.micros - offset, by simp [utc, utcOr, hoffset]⟩
  refine ⟨now, ?_⟩
  have hconfig : (e.evaluating now equity).config = e.config := (sameBook_rollDay now).1.config
  by_cases horder : e.OutOfOrder now
  · obtain ⟨d, e', hd, hnot⟩ := horder.rejected haware hequity
    exact ⟨d, e', haware, hd, fun h => absurd (hnot.symm.trans h) Bool.false_ne_true,
      ⟨fun _ => .inl horder, fun _ => hnot⟩⟩
  have heval : e.evaluateEntry proposal equity = (e.evaluating now equity).judge proposal equity := by
    rw [evaluateEntry_positive haware hequity, if_neg (mt rollDay_eq_false.mp horder)]
  rw [heval, ← hconfig]
  generalize e.evaluating now equity = tested
  by_cases hblocked : tested.Blocked proposal equity
  · obtain ⟨d, e', hd, hnot⟩ := judge_rejects (.inl (blockingReason_ne_none.mpr hblocked))
    exact ⟨d, e', haware, hd, fun h => absurd (hnot.symm.trans h) Bool.false_ne_true,
      ⟨fun _ => .inr (.inl hblocked), fun _ => hnot⟩⟩
  have hblock : tested.blockingReason proposal equity = none :=
    not_not.mp (mt blockingReason_ne_none.mp hblocked)
  have hsmall := approvedNotional_lt equity (blockingReason_none hblock).2.1
  by_cases hfits : tested.approvedNotional proposal equity < tested.config.minimumOrderNotional
  · obtain ⟨d, e', hd, hnot⟩ := judge_rejects (.inr hfits)
    exact ⟨d, e', haware, hd, fun h => absurd (hnot.symm.trans h) Bool.false_ne_true,
      ⟨fun _ => .inr (.inr (hsmall.mp hfits)), fun _ => hnot⟩⟩
  · obtain ⟨d, e', hd, happroved, hlargest⟩ := judge_approves hblock hfits
    refine ⟨d, e', haware, hd, fun _ => hlargest, ⟨fun h => ?_, fun h => ?_⟩⟩
    · rw [happroved] at h
      cases h
    · rcases h with h | h | h
      · exact absurd h horder
      · exact absurd h hblocked
      · exact absurd (hsmall.mpr h) hfits

/-- Half of a proposal of 100, at an equity of which half may be in one symbol. -/
theorem entry_sound_maximal_half : ∃ d e', tightEngine.evaluateEntry btcProposal 100 = (.ok d, e') ∧
    d.approvedSignedNotional = 50 ∧ e'.Largest btcProposal 100 d := by
  obtain ⟨now, d, e', -, hd, happroved, -⟩ :=
    entry_sound_maximal tightEngine btcProposal 100 (by decide +kernel)
  have hrun : (tightEngine.evaluateEntry btcProposal 100).1.toOption.any
      (fun d => d.approved ∧ d.approvedSignedNotional = 50) = true := by decide +kernel
  rw [hd] at hrun
  obtain ⟨hyes, hfifty⟩ := of_decide_eq_true hrun
  exact ⟨d, e', hd, hfifty, happroved hyes⟩

end PortfolioRiskEngine

end Greenfield.Risk
