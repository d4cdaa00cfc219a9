import Greenfield.Shadow.Runtime

/-!
# Caps over runs of the SHADOW runtime

The proposals of an observation are evaluated and opened one after the other on a copy of
the engine. Each opening fits the caps at the time (`opens_of_approval`), and an opening in
another group does not add to the earlier ones (`CappedAt.opens`), so the engine that is
taken over keeps them all (`caps_over_runs`).
-/

namespace Greenfield.Shadow

open Keyed Py Risk Json PortfolioRiskEngine

variable {e e' : PortfolioRiskEngine} {equity : ℚ} {x y : PortfolioPosition}
  {proposal : PortfolioEntryProposal}

/-! ## One opening -/

/-- The position `x` is within the caps of the book. -/
structure CappedAt (e : PortfolioRiskEngine) (equity : ℚ) (x : PortfolioPosition) : Prop where
  count : (e.positions.rows.length : Int) ≤ e.config.maximumOpenPositions
  committed : e.committedRiskFraction ≤ e.config.maximumCommittedRiskFraction
  gross : e.grossExposure ≤ e.config.maximumGrossExposureMultiple * equity
  symbol : e.grossWhere (·.symbol = x.symbol) ≤ e.config.maximumSymbolExposureMultiple * equity
  venue : e.grossWhere (·.venue = x.venue) ≤ e.config.maximumVenueExposureMultiple * equity
  strategy : e.grossWhere (·.strategy = x.strategy) ≤
    e.config.maximumStrategyExposureMultiple * equity
  engine : e.grossWhere (·.engine = x.engine) ≤ e.config.maximumEngineExposureMultiple * equity

/-- `e'` is `e` with the position `x` opened at this equity. -/
structure Opens (e : PortfolioRiskEngine) (equity : ℚ) (x : PortfolioPosition)
    (e' : PortfolioRiskEngine) : Prop where
  config : e'.config = e.config
  rows : e'.positions.rows = e.positions.rows ++ [x]
  reason : e'.killSwitchReason = e.killSwitchReason
  peak : e.peakEquity ≤ e'.peakEquity ∧ equity ≤ e'.peakEquity
  capped : CappedAt e' equity x

theorem grossWhere_append (p : PortfolioPosition → Bool)
    (h : e'.positions.rows = e.positions.rows ++ [x]) :
    e'.grossWhere p = e.grossWhere p + if p x then |x.signedNotional| else 0 := by
  unfold grossWhere
  rw [h, List.filter_append, List.map_append, List.sum_append]
  congr 1
  cases hp : p x with
  | true => simp [hp]
  | false => simp [hp]

/-- What is added fits the room of a cap. -/
theorem fits_room {cap used added : ℚ} (hpos : 0 < added) (h : added ≤ max 0 (cap - used)) :
    used + added ≤ cap := by
  rcases le_max_iff.mp (le_refl (max 0 (cap - used))) with hmax | hmax
  · linarith
  · linarith

theorem approvedNotional_room {multiple used : ℚ}
    (hmem : max 0 (multiple * equity - used) ∈
      [max 0 (e.config.maximumGrossExposureMultiple * equity - e.grossExposure),
        max 0 (e.config.maximumSymbolExposureMultiple * equity -
          e.grossWhere (·.symbol = proposal.symbol)),
        max 0 (e.config.maximumVenueExposureMultiple * equity -
          e.grossWhere (·.venue = proposal.venue)),
        max 0 (e.config.maximumStrategyExposureMultiple * equity -
          e.grossWhere (·.strategy = proposal.strategy)),
        max 0 (e.config.maximumEngineExposureMultiple * equity -
          e.grossWhere (·.engine = proposal.engine))])
    (hpos : 0 < e.approvedNotional proposal equity) :
    used + e.approvedNotional proposal equity ≤ multiple * equity := by
  refine fits_room hpos (foldl_min_le ?_)
  simp only [List.mem_cons, List.not_mem_nil, or_false] at hmem ⊢
  rcases hmem with h | h | h | h | h <;> simp only [h, true_or, or_true]

/-- What an evaluation that approves has found. -/
structure Approved (e : PortfolioRiskEngine) (proposal : PortfolioEntryProposal) (equity : ℚ)
    (d : PortfolioRiskDecision) (e' : PortfolioRiskEngine) : Prop where
  book : SameBook e e'
  peak : equity ≤ e'.peakEquity
  issued : Issued e proposal d
  fits : e.config.minimumOrderNotional ≤ e.approvedNotional proposal equity
  notional : |d.approvedSignedNotional| = e.approvedNotional proposal equity

theorem approval_notional {approved : ℚ} (h : 0 < approved) :
    |(e.approval proposal approved).approvedSignedNotional| = approved := by
  show |(if proposal.signedNotional > 0 then 1 else -1) * approved| = approved
  split
  · rw [one_mul, abs_of_pos h]
  · rw [neg_one_mul, abs_neg, abs_of_pos h]

/-- The approved notional is of the book, the config and the equity. -/
theorem approvedNotional_sameBook (h : SameBook e e') :
    e'.approvedNotional proposal equity = e.approvedNotional proposal equity := by
  simp only [approvedNotional, grossExposure, grossWhere, netExposure, committedRiskFraction,
    h.config, h.positions]

variable {d : PortfolioRiskDecision}

theorem evaluateEntry_approved
    (h : e.evaluateEntry proposal equity = (.ok d, e')) (hd : d.approved = true) :
    Approved e proposal equity d e' := by
  rw [evaluateEntry_eq] at h
  have hrejected : ∀ {a : PortfolioRiskEngine} {reason : String},
      (a.rejected reason proposal.key, a) ≠ (Except.ok d, e') := by
    intro a reason heq
    rw [rejected_not_approved (Prod.mk.inj heq).1] at hd
    cases hd
  split at h
  · cases h
  · next now _ =>
    obtain ⟨hroll, -⟩ := sameBook_rollDay (e := e) now
    split_ifs at h
    · exact absurd h hrejected
    · split at h
      · cases h
      · have hbook : SameBook e ((e.rollDay now).2.raisePeak equity) :=
          ⟨hroll.config, hroll.positions, hroll.killSwitchReason,
            hroll.peak.trans (le_max_left _ _)⟩
        have hpeak : equity ≤ ((e.rollDay now).2.raisePeak equity).peakEquity := le_max_right _ _
        generalize (e.rollDay now).2.raisePeak equity = a at h hbook hpeak
        unfold judge at h
        split at h
        · exact absurd h hrejected
        · next hblock =>
          split_ifs at h with hfits
          · exact absurd h hrejected
          · split at h
            · cases h
            · next decision hchecked =>
              have hissued := issued_approval hbook hblock hfits
              have hsame := checked_eq_ok hchecked
              obtain ⟨hdecision, rfl⟩ := Prod.mk.inj h
              cases hdecision
              have hle := not_lt.mp hfits
              have hpos := (minimumOrderNotional_pos a.config).trans_le hle
              rw [hsame]
              rw [approvedNotional_sameBook hbook, hbook.config] at hle
              refine ⟨⟨hbook.config, hbook.positions, hbook.killSwitchReason, hbook.peak⟩, hpeak,
                hissued, hle, ?_⟩
              rw [approval_notional hpos, approvedNotional_sameBook hbook]

/-- The position that is opened is the proposal's, with the approved notional. -/
theorem openable_position (h : e.openable proposal d = .ok x) :
    x.symbol = proposal.symbol ∧ x.venue = proposal.venue ∧ x.strategy = proposal.strategy ∧
      x.engine = proposal.engine ∧ x.signedNotional = d.approvedSignedNotional := by
  simp only [openable, bind_eq_ok] at h
  obtain ⟨-, -, -, -, -, -, -, -, -, -, -, -, -, -, h⟩ := h
  unfold positionOf at h
  split at h
  · split at h
    · cases h
      exact ⟨rfl, rfl, rfl, rfl, rfl⟩
    · cases h
  · cases h

/-- A new position of the approved notional keeps the caps. -/
theorem cappedAt_of_fits (hissued : Issued e proposal d)
    (hfits : e.config.minimumOrderNotional ≤ e.approvedNotional proposal equity)
    (hconfig : e'.config = e.config) (hrows : e'.positions.rows = e.positions.rows ++ [x])
    (hrisk : x.committedRiskFraction = d.approvedRiskFraction)
    (hnotional : |x.signedNotional| = e.approvedNotional proposal equity)
    (hsymbol : x.symbol = proposal.symbol) (hvenue : x.venue = proposal.venue)
    (hstrategy : x.strategy = proposal.strategy) (hengine : x.engine = proposal.engine) :
    CappedAt e' equity x := by
  have hpos : 0 < e.approvedNotional proposal equity :=
    (minimumOrderNotional_pos e.config).trans_le hfits
  have hgross : ∀ p : PortfolioPosition → Bool, p x = true →
      e'.grossWhere p = e.grossWhere p + e.approvedNotional proposal equity := by
    intro p hp
    rw [grossWhere_append p hrows, if_pos hp, hnotional]
  refine ⟨?_, ?_, ?_, ?_, ?_, ?_, ?_⟩
  · have hslot := hissued.slot
    rw [hrows, hconfig, List.length_append, List.length_singleton]
    omega
  · have hcommitted := hissued.risk
    rw [committedRiskFraction, hrows, hconfig, List.map_append, List.sum_append,
      List.map_singleton, List.sum_singleton, hrisk]
    exact hcommitted
  · rw [grossExposure, hgross _ rfl, hconfig]
    exact approvedNotional_room (by simp [grossExposure]) hpos
  · rw [hgross _ (decide_eq_true rfl), hconfig, hsymbol]
    exact approvedNotional_room (by simp) hpos
  · rw [hgross _ (decide_eq_true rfl), hconfig, hvenue]
    exact approvedNotional_room (by simp) hpos
  · rw [hgross _ (decide_eq_true rfl), hconfig, hstrategy]
    exact approvedNotional_room (by simp) hpos
  · rw [hgross _ (decide_eq_true rfl), hconfig, hengine]
    exact approvedNotional_room (by simp) hpos

variable {e₁ : PortfolioRiskEngine}

/-- **One opening.** A proposal that is approved and opened keeps the caps. -/
theorem opens_of_approval
    (happroved : Approved e proposal equity d e₁) (h : e₁.recordOpen proposal d = (.ok (), e')) :
    ∃ x, x.key = proposal.key ∧ Opens e equity x e' := by
  unfold recordOpen at h
  split at h
  · cases h
  · next x hx =>
    obtain ⟨-, hfree, -, hxkey, hxrisk⟩ := Tracked.openable_eq_ok hx
    obtain ⟨hsymbol, hvenue, hstrategy, hengine, hsigned⟩ := openable_position hx
    obtain ⟨-, rfl⟩ := Prod.mk.inj h
    have hrows : (e₁.positions.upsert x).rows = e.positions.rows ++ [x] := by
      rw [Table.upsert_rows (hxkey ▸ hfree), happroved.book.positions]
    have hnotional : |x.signedNotional| = e.approvedNotional proposal equity := by
      rw [hsigned, happroved.notional]
    exact ⟨x, hxkey, happroved.book.config, hrows, happroved.book.killSwitchReason,
      ⟨happroved.book.peak, happroved.peak⟩,
      cappedAt_of_fits happroved.issued happroved.fits happroved.book.config hrows hxrisk hnotional
        hsymbol hvenue hstrategy hengine⟩

/-- **Later openings.** An opening in the same group is within the cap itself, and one in
another group adds nothing. -/
theorem CappedAt.opens (h : CappedAt e equity y) (hopens : Opens e equity x e') :
    CappedAt e' equity y := by
  have hgroup : ∀ (f : PortfolioPosition → String) (cap : ℚ),
      e'.grossWhere (fun z => f z = f x) ≤ cap → e.grossWhere (fun z => f z = f y) ≤ cap →
      e'.grossWhere (fun z => f z = f y) ≤ cap := by
    intro f cap hx hy
    by_cases hf : f x = f y
    · rwa [hf] at hx
    · rwa [grossWhere_append _ hopens.rows, if_neg (by simpa using hf), add_zero]
  have hnew := hopens.capped
  have hconfig := hopens.config
  refine ⟨hnew.count, hnew.committed, hnew.gross, hgroup _ _ hnew.symbol ?_,
    hgroup _ _ hnew.venue ?_, hgroup _ _ hnew.strategy ?_, hgroup _ _ hnew.engine ?_⟩
  · rw [hconfig]; exact h.symbol
  · rw [hconfig]; exact h.venue
  · rw [hconfig]; exact h.strategy
  · rw [hconfig]; exact h.engine

/-! ## All proposals -/

/-- `e'` is `e` with the positions `xs` opened one after the other at this equity. -/
structure OpensAll (e : PortfolioRiskEngine) (equity : ℚ) (xs : List PortfolioPosition)
    (e' : PortfolioRiskEngine) : Prop where
  config : e'.config = e.config
  rows : e'.positions.rows = e.positions.rows ++ xs
  reason : e'.killSwitchReason = e.killSwitchReason
  peak : e.peakEquity ≤ e'.peakEquity
  noted : xs ≠ [] → equity ≤ e'.peakEquity
  capped : ∀ x ∈ xs, CappedAt e' equity x
  kept : ∀ y, CappedAt e equity y → CappedAt e' equity y

theorem OpensAll.cons {xs : List PortfolioPosition}
    (hopens : Opens e equity x e₁) (h : OpensAll e₁ equity xs e') :
    OpensAll e equity (x :: xs) e' where
  config := h.config.trans hopens.config
  rows := by rw [h.rows, hopens.rows, List.append_assoc, List.singleton_append]
  reason := h.reason.trans hopens.reason
  peak := hopens.peak.1.trans h.peak
  noted _ := hopens.peak.2.trans h.peak
  capped y hy := by
    rcases List.mem_cons.mp hy with rfl | hy
    · exact h.kept y hopens.capped
    · exact h.capped y hy
  kept y hy := h.kept y (hy.opens hopens)

variable {proposals : List PortfolioEntryProposal}
  {decisions decisions' : List PortfolioRiskDecision}

theorem evaluateAll_opened
    (h : ShadowRuntime.evaluateAll equity e decisions proposals = .ok (.opened e' decisions')) :
    ∃ xs, OpensAll e equity xs e' ∧ xs.map PortfolioPosition.key =
      proposals.map PortfolioEntryProposal.key := by
  induction proposals generalizing e decisions with
  | nil =>
    cases h
    exact ⟨[], ⟨rfl, (List.append_nil _).symm, rfl, le_refl _, fun hne => absurd rfl hne,
      fun x hx => absurd hx List.not_mem_nil, fun y hy => hy⟩, rfl⟩
  | cons proposal proposals ih =>
    unfold ShadowRuntime.evaluateAll at h
    split at h
    · cases h
    · next d e₁ hevaluate =>
      split at h
      · next happroved =>
        split at h
        · cases h
        · next e₂ hopen =>
          obtain ⟨x, hkey, hopens⟩ :=
            opens_of_approval (evaluateEntry_approved hevaluate happroved) hopen
          obtain ⟨xs, hall, hkeys⟩ := ih h
          exact ⟨x :: xs, hall.cons hopens, by rw [List.map_cons, List.map_cons, hkey, hkeys]⟩
      · cases h

theorem evaluateAll_approved
    (h : ShadowRuntime.evaluateAll equity e decisions proposals = .ok (.opened e' decisions'))
    (hall : ∀ d ∈ decisions, d.approved = true) : ∀ d ∈ decisions', d.approved = true := by
  induction proposals generalizing e decisions with
  | nil =>
    cases h
    exact hall
  | cons proposal proposals ih =>
    unfold ShadowRuntime.evaluateAll at h
    split at h
    · cases h
    · split at h
      · next happroved =>
        split at h
        · cases h
        · refine ih h fun d hd => ?_
          rcases List.mem_append.mp hd with hd | hd
          · exact hall d hd
          · rw [List.mem_singleton.mp hd]
            exact happroved
      · cases h

/-! ## Calls -/

namespace ShadowRuntime

variable {D : Digests} {F : Floats} {lower : String → String} {r : ShadowRuntime}
  {decision : MetaDecision} {observationId : String} {proposals : List PortfolioEntryProposal}

/-- Every proposal is approved and opened on a copy of the engine. -/
def AllApproved (r : ShadowRuntime) (proposals : List PortfolioEntryProposal) (equity : ℚ) : Prop :=
  ∃ e e' decisions, r.staged = .ok e ∧
    evaluateAll equity e [] proposals = .ok (.opened e' decisions) ∧
    ∀ d ∈ decisions, d.approved = true

/-- A copy has the positions of the engine, and nothing pending. -/
theorem staged_eq_ok (h : r.staged = .ok e) : ∃ s, r.riskEngine.snapshot = .ok s ∧
    fromSnapshot s r.riskEngine.config = .ok e := bind_eq_ok.mp h

theorem staged_keys (h : r.staged = .ok e) {key : String} :
    key ∈ e.positions.rows.map PortfolioPosition.key ↔
      key ∈ r.riskEngine.positions.rows.map PortfolioPosition.key := by
  obtain ⟨s, hs, hfrom⟩ := staged_eq_ok h
  obtain ⟨-, rfl⟩ := fromSnapshot_eq_ok.mp hfrom
  show key ∈ s.positions.map PortfolioPosition.key ↔ _
  rw [(snapshot_eq_ok hs).1, (r.riskEngine.sortedPositions_perm.map _).mem_iff]

theorem record_same (entry : AuditEntry) (fault : Option WriteFault) :
    (r.record D F entry fault).2.riskEngine = r.riskEngine ∧
      (r.record D F entry fault).2.riskStore = r.riskStore ∧
      (r.record D F entry fault).2.context = r.context := by
  unfold record
  split
  · exact ⟨rfl, rfl, rfl⟩
  · split <;> exact ⟨rfl, rfl, rfl⟩

/-- Only a plan to adopt an engine changes the engine or the store. -/
theorem perform_same {plan : Except PyError Plan} (faults : Faults)
    (h : ∀ staged entry, plan ≠ .ok (.adopted staged entry)) :
    (r.perform D F plan faults).2.riskEngine = r.riskEngine ∧
      (r.perform D F plan faults).2.riskStore = r.riskStore := by
  unfold perform
  split
  · exact ⟨rfl, rfl⟩
  · next entry => exact ⟨(record_same entry _).1, (record_same entry _).2.1⟩
  · next staged entry => exact absurd rfl (h staged entry)

/-- An engine that was planned is taken over, or the engine is what it was. -/
theorem perform_adopted (staged : PortfolioRiskEngine) (entry : AuditEntry) (faults : Faults) :
    (r.perform D F (.ok (.adopted staged entry)) faults).2.riskEngine = r.riskEngine ∨
      (r.perform D F (.ok (.adopted staged entry)) faults).2.riskEngine = staged := by
  show (r.adopt D F staged entry faults).2.riskEngine = _ ∨
    (r.adopt D F staged entry faults).2.riskEngine = _
  unfold adopt
  split
  · exact .inl rfl
  · exact .inr (record_same _ _).1

theorem validateActionable_ne_nil {u : Unit}
    (h : validateActionable lower decision proposals = .ok u) : proposals ≠ [] := by
  unfold validateActionable at h
  split at h
  · obtain ⟨_, hmapped, -⟩ := bind_eq_ok.mp h
    rw [require_eq_ok, decide_eq_true_eq] at hmapped
    exact hmapped.1
  · cases h

variable {entry : AuditEntry}

theorem observation_adopted {staged : PortfolioRiskEngine}
    (h : r.observation lower decision observationId proposals equity =
      .ok (.adopted staged entry)) :
    r.journal.ensureAvailable observationId = .ok () ∧ proposals ≠ [] ∧
      ∃ e decisions, r.staged = .ok e ∧
      evaluateAll equity e [] proposals = .ok (.opened staged decisions) ∧
      entry = actionableEntry decision observationId proposals decisions .eligibleNoOrder
        ["SHADOW_ONLY_NO_ORDER_SUBMISSION"] := by
  unfold observation at h
  obtain ⟨u, havailable, h⟩ := bind_eq_ok.mp h
  split at h
  · simp only [bind_eq_ok] at h
    obtain ⟨-, -, h⟩ := h
    cases h
  · simp only [bind_eq_ok] at h
    obtain ⟨v, hactionable, e, he, staging, hstaging, h⟩ := h
    split at h
    · cases h
    · split at h
      · cases h
      · cases h
        exact ⟨havailable, validateActionable_ne_nil hactionable, e, _, he, hstaging, rfl⟩

theorem observation_audited
    (h : r.observation lower decision observationId proposals equity = .ok (.audited entry)) :
    entry.status ≠ .eligibleNoOrder ∧ entry.riskStateSha256 = none := by
  unfold observation at h
  obtain ⟨-, -, h⟩ := bind_eq_ok.mp h
  split at h
  · simp only [bind_eq_ok] at h
    obtain ⟨-, -, h⟩ := h
    cases h
    exact ⟨fun hstatus => ShadowStatus.noConfusion hstatus, rfl⟩
  · simp only [bind_eq_ok] at h
    obtain ⟨-, -, e, he, staging, hstaging, h⟩ := h
    split at h
    · cases h
      exact ⟨fun hstatus => ShadowStatus.noConfusion hstatus, rfl⟩
    · split at h
      · cases h
        exact ⟨fun hstatus => ShadowStatus.noConfusion hstatus, rfl⟩
      · cases h

end ShadowRuntime

open ShadowRuntime in
/-- **Caps over runs.** In whatever state a run has led to, a position that an observation
opens is within the caps of the engine it leaves, and an observation of which not every
proposal is approved leaves the engine and the store. -/
theorem caps_over_runs (D : Digests) (F : Floats) (lower : String → String) (r₀ : ShadowRuntime)
    (ops : List RuntimeOp) (decision : MetaDecision) (observationId : String)
    (proposals : List PortfolioEntryProposal) (equity : ℚ) (faults : Faults) :
    let r := Runs.run (step D F lower) r₀ ops
    let r' := (r.observe D F lower decision observationId proposals equity faults).2
    (∀ x ∈ r'.riskEngine.positions.rows,
      x.key ∉ r.riskEngine.positions.rows.map PortfolioPosition.key →
        CappedAt r'.riskEngine equity x) ∧
    (¬ r.AllApproved proposals equity →
      r'.riskEngine = r.riskEngine ∧ r'.riskStore = r.riskStore) := by
  intro r r'
  by_cases hplan : ∃ staged entry, r.observation lower decision observationId proposals equity =
      .ok (.adopted staged entry)
  · obtain ⟨staged, entry, hplan⟩ := hplan
    obtain ⟨-, -, e, decisions, he, hall, -⟩ := observation_adopted hplan
    obtain ⟨xs, hopens, -⟩ := evaluateAll_opened hall
    refine ⟨fun x hx hnew => ?_, fun h => absurd ⟨e, staged, decisions, he, hall,
      evaluateAll_approved hall fun d hd => absurd hd List.not_mem_nil⟩ h⟩
    have hengine : r'.riskEngine = r.riskEngine ∨ r'.riskEngine = staged := by
      have hcall : r' = (r.perform D F
        (r.observation lower decision observationId proposals equity) faults).2 := rfl
      rw [hcall, hplan]
      exact perform_adopted staged entry faults
    rcases hengine with hengine | hengine
    · rw [hengine] at hx
      exact absurd (List.mem_map_of_mem hx) hnew
    · rw [hengine] at hx ⊢
      rw [hopens.rows] at hx
      rcases List.mem_append.mp hx with hx | hx
      · exact absurd ((staged_keys he).mp (List.mem_map_of_mem hx)) hnew
      · exact hopens.capped x hx
  · have hsame := perform_same (D := D) (F := F) (r := r) faults
      fun staged entry h => hplan ⟨staged, entry, h⟩
    refine ⟨fun x hx hnew => ?_, fun _ => hsame⟩
    rw [show r'.riskEngine = r.riskEngine from hsame.1] at hx
    exact absurd (List.mem_map_of_mem hx) hnew

end Greenfield.Shadow
