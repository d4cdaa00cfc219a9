import Greenfield.Shadow.InStep

/-!
# The safety hold over runs

Nothing that the runtime does clears the kill switch, and what it saves has it. So after a
safety hold that answered no observation opens a position, whatever fails and however often the
process resumes, and every position that is left was there before (`hold_over_runs`).
-/

namespace Greenfield.Shadow

open Keyed Py Risk PortfolioRiskEngine

variable {D : Digests} {F : Floats} {lower : String → String} {e e' : PortfolioRiskEngine}
  {equity : ℚ} {proposals : List PortfolioEntryProposal} {keys : List String}

/-! ## A switched engine -/

/-- The kill switch is on, and no position has another key. -/
def Switched (keys : List String) (reason : Option String) (positions : List PortfolioPosition) :
    Prop :=
  reason ≠ none ∧ ∀ x ∈ positions, x.key ∈ keys

theorem evaluateEntry_switched {proposal : PortfolioEntryProposal} {d : PortfolioRiskDecision}
    (hswitch : e.killSwitchReason ≠ none) (h : e.evaluateEntry proposal equity = (.ok d, e')) :
    d.approved = false := by
  rw [evaluateEntry_eq] at h
  split at h
  · cases h
  · next now _ =>
    split_ifs at h
    · exact rejected_not_approved (Prod.mk.inj h).1
    · split at h
      · cases h
      · have hreason : ((e.rollDay now).2.raisePeak equity).killSwitchReason ≠ none := by
          rw [← (sameBook_rollDay now).1.killSwitchReason] at hswitch
          exact hswitch
        unfold judge at h
        split at h
        · exact rejected_not_approved (Prod.mk.inj h).1
        · next hblock => exact absurd (blockingReason_none hblock).1 hreason

/-- The first proposal is rejected, and none is opened. -/
theorem evaluateAll_switched {decisions decisions' : List PortfolioRiskDecision}
    (hswitch : e.killSwitchReason ≠ none) (hne : proposals ≠ []) :
    ShadowRuntime.evaluateAll equity e decisions proposals ≠ .ok (.opened e' decisions') := by
  cases proposals with
  | nil => exact absurd rfl hne
  | cons proposal proposals =>
    intro h
    unfold ShadowRuntime.evaluateAll at h
    split at h
    · cases h
    · next d _ hevaluate =>
      rw [evaluateEntry_switched hswitch hevaluate] at h
      cases h

theorem closeAll_switched {closedAtUtc : Datetime} {closes : List (String × ℚ)}
    (h : Switched keys e.killSwitchReason e.positions.rows)
    (hclose : ShadowRuntime.closeAll closedAtUtc e closes = .ok e') :
    Switched keys e'.killSwitchReason e'.positions.rows := by
  induction closes generalizing e with
  | nil =>
    cases hclose
    exact h
  | cons close closes ih =>
    obtain ⟨key, pnl⟩ := close
    unfold ShadowRuntime.closeAll at hclose
    split at hclose
    · cases hclose
    · next hrecord =>
      refine ih ?_ hclose
      unfold recordClose at hrecord
      split at hrecord
      · cases hrecord
      · next now _ =>
        have hroll := (sameBook_rollDay (e := e) now).1
        simp only at hrecord
        split at hrecord
        · cases hrecord
        · cases hrecord
          refine ⟨hroll.killSwitchReason ▸ h.1, fun x hx => h.2 x ?_⟩
          rw [← hroll.positions]
          exact (List.mem_filter.mp hx).1

namespace ShadowRuntime

variable {r r' : ShadowRuntime} {staged : PortfolioRiskEngine} {entry : AuditEntry}

/-! ## Calls -/

/-- A copy has the switch and the positions of the engine. -/
theorem staged_switched
    (h : Switched keys r.riskEngine.killSwitchReason r.riskEngine.positions.rows)
    (he : r.staged = .ok e) : Switched keys e.killSwitchReason e.positions.rows := by
  refine ⟨?_, fun x hx => ?_⟩
  · obtain ⟨s, hs, hfrom⟩ := staged_eq_ok he
    obtain ⟨-, rfl⟩ := fromSnapshot_eq_ok.mp hfrom
    show s.killSwitchReason ≠ none
    rw [(snapshot_eq_ok hs).2.2.2.2]
    exact h.1
  · obtain ⟨y, hy, hkey⟩ := List.mem_map.mp ((staged_keys he).mp (List.mem_map_of_mem hx))
    exact hkey ▸ h.2 y hy

variable {observationId reason : String} {activatedAtUtc : Datetime}

theorem holding_eq_ok
    (h : r.holding observationId reason activatedAtUtc = .ok (.adopted staged entry)) :
    ∃ e, r.staged = .ok e ∧ staged = { e with killSwitchReason := some reason } := by
  unfold holding at h
  simp only [bind_eq_ok] at h
  obtain ⟨_, -, _, -, _, hreason, e, he, h⟩ := h
  have hactivate : require (!isBlank reason)
      (.valueError "kill switch activation requires a reason") = .ok () :=
    require_eq_ok.mpr (require_eq_ok.mp hreason)
  unfold activateKillSwitch at h
  rw [hactivate] at h
  exact ⟨e, he, (Plan.adopted.inj (Except.ok.inj h)).1.symm⟩

variable {c : RuntimeCall}

/-- What a call plans to take over is switched when the engine is. -/
theorem plan_switched
    (h : Switched keys r.riskEngine.killSwitchReason r.riskEngine.positions.rows)
    (hplan : r.plan lower c = .ok (.adopted staged entry)) :
    Switched keys staged.killSwitchReason staged.positions.rows := by
  cases c with
  | observe decision observationId proposals equity =>
    obtain ⟨-, hne, e, decisions, he, hall, -⟩ := observation_adopted hplan
    exact absurd hall (evaluateAll_switched (staged_switched h he).1 hne)
  | closeVirtual observationId closes closedAtUtc =>
    change r.closing observationId closes closedAtUtc = _ at hplan
    unfold closing at hplan
    simp only [bind_eq_ok] at hplan
    obtain ⟨_, -, closedAt, -, _, -, e, he, engine, hclose, hplan⟩ := hplan
    cases hplan
    exact closeAll_switched (staged_switched h he) hclose
  | activateSafetyHold observationId reason activatedAtUtc =>
    obtain ⟨e, he, rfl⟩ := holding_eq_ok hplan
    exact ⟨Option.some_ne_none _, (staged_switched h he).2⟩

/-! ## Runs -/

/-- The engine and the stored snapshot are switched. -/
structure Held (D : Digests) (F : Floats) (keys : List String) (r : ShadowRuntime) : Prop where
  engine : Switched keys r.riskEngine.killSwitchReason r.riskEngine.positions.rows
  stored : ∃ saved savedAt, HoldsSnapshot D F r.riskStore saved savedAt ∧
    Switched keys saved.killSwitchReason saved.positions

/-- The snapshot of a switched engine is switched. -/
theorem snapshot_switched {saved : PortfolioRiskSnapshot} (hsaved : e.snapshot = .ok saved)
    (h : Switched keys e.killSwitchReason e.positions.rows) :
    Switched keys saved.killSwitchReason saved.positions := by
  obtain ⟨hpositions, -, -, -, hreason⟩ := snapshot_eq_ok hsaved
  refine ⟨hreason ▸ h.1, fun x hx => h.2 x ?_⟩
  rw [hpositions] at hx
  exact e.sortedPositions_perm.mem_iff.mp hx

theorem Held.adopt (h : Held D F keys r) (faults : Faults)
    (hstaged : Switched keys staged.killSwitchReason staged.positions.rows) :
    Held D F keys (r.adopt D F staged entry faults).2 := by
  unfold ShadowRuntime.adopt
  have hcases := save_cases (D := D) (F := F) r.riskStore staged
    entry.decisionTimestampUtc faults.save
  generalize save D F r.riskStore staged entry.decisionTimestampUtc faults.save = p at hcases
  obtain ⟨result, store'⟩ := p
  have hstored : ∃ saved savedAt, HoldsSnapshot D F store' saved savedAt ∧
      Switched keys saved.killSwitchReason saved.positions := by
    rcases hcases with ⟨err, heq⟩ | ⟨saved, savedAt, hsaved, hholds, -⟩
    · cases heq
      exact h.stored
    · exact ⟨saved, savedAt, hholds, snapshot_switched hsaved hstaged⟩
  cases result with
  | error err => exact ⟨h.engine, hstored⟩
  | ok checksum =>
    obtain ⟨hengine, hstore, -⟩ := record_same (D := D) (F := F)
      (r := { r with riskStore := store', riskEngine := staged })
      { entry with riskStateSha256 := some checksum } faults.append
    exact ⟨by rw [hengine]; exact hstaged, by rw [hstore]; exact hstored⟩

/-- **A step keeps the hold.** -/
theorem Held.step (lower : String → String) (hhex : D.Hex) (op : RuntimeOp)
    (h : Held D F keys r) : Held D F keys (r.step D F lower op) := by
  cases op with
  | call c faults =>
    show Held D F keys (r.call D F lower c faults).2
    rw [call_eq]
    by_cases hplan : ∃ staged entry, r.plan lower c = .ok (.adopted staged entry)
    · obtain ⟨staged, entry, hplan⟩ := hplan
      have hstaged := plan_switched h.engine hplan
      rw [hplan]
      exact h.adopt faults hstaged
    · obtain ⟨hengine, hstore⟩ := perform_same (D := D) (F := F) (r := r) faults
        fun staged entry h => hplan ⟨staged, entry, h⟩
      exact ⟨by rw [hengine]; exact h.engine, by rw [hstore]; exact h.stored⟩
  | resume context riskConfig =>
    simp only [ShadowRuntime.step]
    split
    · next r' hreopen =>
      obtain ⟨saved, savedAt, hholds, hswitched⟩ := h.stored
      obtain ⟨hstore, snapshot, hload, hengine⟩ := reopen_eq_ok hreopen
      rw [loadRequired_holds hhex hholds] at hload
      cases hload
      obtain ⟨-, hengine⟩ := fromSnapshot_eq_ok.mp hengine
      refine ⟨?_, saved, savedAt, hstore ▸ hholds, hswitched⟩
      rw [← hengine]
      refine ⟨hswitched.1, fun x hx => ?_⟩
      obtain ⟨y, hy, rfl⟩ := List.mem_map.mp hx
      exact hswitched.2 y hy
    · exact h

/-- A call whose writes succeed answers. -/
theorem adopted_answers (hhex : D.Hex)
    (hplan : r.plan lower c = .ok (.adopted staged entry)) (saved : PortfolioRiskSnapshot)
    (hsaved : staged.snapshot = .ok saved) (savedAt : Instant)
    (hutc : utc entry.decisionTimestampUtc "risk state timestamp" = .ok savedAt) :
    ∃ record r', r.call D F lower c {} = (.ok record, r') := by
  have hplanned := planned hplan
  rw [call_eq, hplan]
  show ∃ record r', r.adopt D F staged entry {} = (.ok record, r')
  unfold adopt
  simp only [save_ok (D := D) (F := F) r.riskStore hsaved hutc]
  exact recorded _ _ hplanned.named hplanned.aware hplanned.described
    fun v hv => Option.some.inj hv ▸ hhex.length _

/-- A safety hold that answered has switched the engine and the store. -/
theorem held_of_answer
    {faults : Faults} {record : ShadowAuditRecord}
    (h : r.activateSafetyHold D F observationId reason activatedAtUtc faults = (.ok record, r')) :
    Held D F (r.riskEngine.positions.rows.map PortfolioPosition.key) r' := by
  unfold activateSafetyHold perform at h
  split at h
  · cases h
  · next hplan =>
    unfold holding at hplan
    simp only [bind_eq_ok] at hplan
    obtain ⟨_, -, _, -, _, -, e, -, hplan⟩ := hplan
    split at hplan <;> cases hplan
  · next staged entry hplan =>
    obtain ⟨e, he, rfl⟩ := holding_eq_ok hplan
    obtain ⟨saved, savedAt, hsaved, hholds, hengine, -⟩ := adopt_eq_ok h
    have hswitched : Switched (r.riskEngine.positions.rows.map PortfolioPosition.key)
        (some reason) e.positions.rows :=
      ⟨Option.some_ne_none _, fun x hx => (staged_keys he).mp (List.mem_map_of_mem hx)⟩
    exact ⟨by rw [hengine]; exact hswitched, saved, savedAt, hholds,
      snapshot_switched hsaved hswitched⟩

end ShadowRuntime

open ShadowRuntime

/-- **The safety hold.** In every run from a hold that answered, the kill switch is on in the
engine and in the stored state, every open position was open at the hold, and no observation
opens one. -/
theorem hold_over_runs (D : Digests) (F : Floats) (lower : String → String) (hhex : D.Hex)
    (r r' : ShadowRuntime) (observationId reason : String) (activatedAtUtc : Datetime)
    (faults : Faults) (record : ShadowAuditRecord)
    (h : r.activateSafetyHold D F observationId reason activatedAtUtc faults = (.ok record, r'))
    (ops : List RuntimeOp) :
    let held := Runs.run (step D F lower) r' ops
    held.riskEngine.killSwitchReason ≠ none ∧
    (∃ saved, held.riskStore.load D F = .ok (some saved) ∧ saved.killSwitchReason ≠ none) ∧
    (∀ x ∈ held.riskEngine.positions.rows,
      x.key ∈ r.riskEngine.positions.rows.map PortfolioPosition.key) ∧
    ∀ decision id proposals equity faults,
      (held.observe D F lower decision id proposals equity faults).2.riskEngine =
        held.riskEngine ∧
      ∀ record, (held.observe D F lower decision id proposals equity faults).1 = .ok record →
        record.status ≠ .eligibleNoOrder := by
  intro held
  have hheld : Held D F (r.riskEngine.positions.rows.map PortfolioPosition.key) held :=
    Runs.run_invariant (fun _ op h => Held.step lower hhex op h) ops (held_of_answer h)
  obtain ⟨saved, savedAt, hholds, hswitched⟩ := hheld.stored
  refine ⟨hheld.engine.1, ⟨saved.inUtc, hholds.load hhex, hswitched.1⟩, hheld.engine.2, ?_⟩
  intro decision id proposals equity faults
  have hidle : ∀ staged entry,
      held.observation lower decision id proposals equity ≠ .ok (.adopted staged entry) := by
    intro staged entry hplan
    obtain ⟨-, hne, e, decisions, he, hall, -⟩ := observation_adopted hplan
    exact evaluateAll_switched (staged_switched hheld.engine he).1 hne hall
  refine ⟨(perform_same faults hidle).1, fun record hrecord => ?_⟩
  change (held.perform D F (held.observation lower decision id proposals equity) faults).1 = _
    at hrecord
  cases hplan : held.observation lower decision id proposals equity with
  | error err =>
    rw [hplan] at hrecord
    cases hrecord
  | ok plan =>
    cases plan with
    | audited entry =>
      rw [hplan] at hrecord
      obtain ⟨hchecked, -⟩ := record_eq_ok (Prod.ext hrecord rfl)
      rw [checked_status hchecked]
      exact (observation_audited hplan).1
    | adopted staged entry => exact absurd hplan (hidle staged entry)

/-- A session that is halted, and resumes. -/
theorem hold_over_runs_resumed : ∃ r₀ record r', initializeNew sessionDigests sampleFloats
      sampleContext tightEngine ⟨"portfolio.json", none⟩ {} (.ofInstant 0) = .ok r₀ ∧
    r₀.activateSafetyHold sessionDigests sampleFloats "h" "halt" (.ofInstant 0) {} =
      (.ok record, r') ∧
    (Runs.run (step sessionDigests sampleFloats String.toLower) r'
      [.resume sampleContext tightEngine.config]).riskEngine.killSwitchReason ≠ none := by
  obtain ⟨r₀, x, h₀, hengine, -, hwrote, hid, -⟩ := initializeNew_new (F := sampleFloats)
    sessionDigests_hex sampleContext "portfolio.json" tightEngine_snapshot 0
  have hstaged : r₀.staged = fromSnapshot emptySnapshot tightEngine.config := by
    unfold staged
    rw [hengine, tightEngine_snapshot]
    rfl
  rw [fromSnapshot_eq_ok.mpr ⟨by decide, rfl⟩] at hstaged
  have hnew : "h" ∉ r₀.journal.observationIds := by
    rw [hwrote.ids, List.map_singleton, hid]
    decide
  obtain ⟨entry, hplan, hat⟩ := holding_halt String.toLower hstaged (by decide) hnew
    (show isBlank "halt" = false by decide) 0
  obtain ⟨record, r', hcall⟩ := adopted_answers (D := sessionDigests) (F := sampleFloats)
    sessionDigests_hex hplan haltedSnapshot (by rfl) 0 (by rw [hat, utc_ofInstant])
  exact ⟨r₀, record, r', h₀, hcall, (hold_over_runs sessionDigests sampleFloats String.toLower
    sessionDigests_hex r₀ r' "h" "halt" (.ofInstant 0) {} record hcall _).1⟩

end Greenfield.Shadow
