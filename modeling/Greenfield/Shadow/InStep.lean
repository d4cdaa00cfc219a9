import Greenfield.Shadow.Stored

/-!
# The journal and the risk store in step

A call saves the engine it has planned, takes it over, and then appends the record with the
checksum. While every write that fails leaves its file as it was, the store holds the
engine's snapshot (`Running`), and the runtime can be resumed exactly where the last
checksum of the journal is that of the store (`resumes_iff`). It is that unless an append
failed after its save: then the call raises, and has changed the engine and the store
(`late_append`).
-/

namespace Greenfield.Shadow

open Keyed Py Risk Json PortfolioRiskEngine

/-- A write that fails leaves its file as it was. -/
def Faults.Whole (faults : Faults) : Prop :=
  faults.save ≠ some .after ∧ (faults.append = none ∨ faults.append = some .before)

def RuntimeOp.Whole : RuntimeOp → Prop
  | .call _ faults => faults.Whole
  | .resume _ _ => True

/-- The positions of an engine fit its config. -/
def Fits (e : PortfolioRiskEngine) : Prop :=
  (e.positions.rows.length : Int) ≤ e.config.maximumOpenPositions

namespace ShadowRuntime

/-- The store holds the engine's snapshot, and its checksum is the last of the journal. -/
def InStep (D : Digests) (F : Floats) (r : ShadowRuntime) : Prop :=
  ∃ saved savedAt checksum, r.riskEngine.snapshot = .ok saved ∧
    HoldsSnapshot D F r.riskStore saved savedAt ∧
    digest D F (payloadOf saved savedAt) = checksum ∧
    r.riskStore.checksum D F = .ok (some checksum) ∧
    r.journal.latestRiskStateSha256 D F = .ok (some checksum)

/-- The call saves an engine, and then its append fails. -/
def LateAppend (lower : String → String) (r : ShadowRuntime) : RuntimeOp → Prop
  | .call c faults => faults.save = none ∧ faults.append ≠ none ∧
      ∃ staged entry, r.plan lower c = .ok (.adopted staged entry)
  | .resume _ _ => False

/-- The journal has written `rs`, records of the session of which one carries a checksum, and
the store holds the engine's snapshot. -/
structure Running (D : Digests) (F : Floats) (r : ShadowRuntime) (rs : List ShadowAuditRecord) :
    Prop where
  wrote : Wrote D F r.journal rs
  carried : ∃ x ∈ rs, x.riskStateSha256 ≠ none
  session : ∀ x ∈ rs, r.context.Matches x
  holds : ∃ saved savedAt, r.riskEngine.snapshot = .ok saved ∧
    HoldsSnapshot D F r.riskStore saved savedAt

variable {D : Digests} {F : Floats} {lower : String → String} {r r' : ShadowRuntime}
  {rs : List ShadowAuditRecord} {x : ShadowAuditRecord} {c : RuntimeCall} {faults : Faults}
  {staged : PortfolioRiskEngine} {entry : AuditEntry} {err : PyError}

/-! ## The latest checksum -/

theorem latest_append (rs : List ShadowAuditRecord) (hhex : D.Hex) (h : Wrote D F r.journal (rs ++ [x])) {checksum : String}
    (hx : x.riskStateSha256 = some checksum) :
    r.journal.latestRiskStateSha256 D F = .ok (some checksum) := by
  rw [latestRiskStateSha256_wrote hhex h, List.reverse_append, List.reverse_singleton,
    List.singleton_append, List.findSome?_cons_of_isSome]
  · rw [hx]
  · rw [hx]
    rfl

theorem latest_append_none (hhex : D.Hex) (h : Wrote D F r.journal rs)
    (h' : Wrote D F r'.journal (rs ++ [x])) (hx : x.riskStateSha256 = none) :
    r'.journal.latestRiskStateSha256 D F = r.journal.latestRiskStateSha256 D F := by
  rw [latestRiskStateSha256_wrote hhex h, latestRiskStateSha256_wrote hhex h', List.reverse_append,
    List.reverse_singleton, List.singleton_append, List.findSome?_cons, hx]

theorem latest_ne_none (hhex : D.Hex) (h : Wrote D F r.journal rs)
    (hcarried : ∃ x ∈ rs, x.riskStateSha256 ≠ none) :
    r.journal.latestRiskStateSha256 D F ≠ .ok none := by
  intro hlast
  rw [latestRiskStateSha256_wrote hhex h] at hlast
  obtain ⟨x, hx, hcarried⟩ := hcarried
  exact hcarried (List.findSome?_eq_none_iff.mp (Except.ok.inj hlast) x (List.mem_reverse.mpr hx))

/-! ## Calls -/

theorem matches_fields (hchecked : (r.context.fields entry).checked = .ok x) :
    r.context.Matches x := by
  have hfields := checked_status hchecked
  exact ⟨congrArg AuditFields.sessionId hfields, congrArg AuditFields.datasetFingerprint hfields,
    congrArg AuditFields.codeCommit hfields, congrArg AuditFields.configFingerprint hfields⟩

theorem plan_audited (h : r.plan lower c = .ok (.audited entry)) : entry.riskStateSha256 = none := by
  cases c with
  | observe decision observationId proposals equity => exact (observation_audited h).2
  | closeVirtual observationId closes closedAtUtc =>
    change r.closing observationId closes closedAtUtc = .ok (.audited entry) at h
    unfold closing at h
    simp only [bind_eq_ok] at h
    obtain ⟨u, -, closedAt, -, w, -, e, -, engine, -, hplan⟩ := h
    cases hplan
  | activateSafetyHold observationId reason activatedAtUtc =>
    change r.holding observationId reason activatedAtUtc = .ok (.audited entry) at h
    unfold holding at h
    simp only [bind_eq_ok] at h
    obtain ⟨u, -, activatedAt, -, w, -, e, -, hplan⟩ := h
    split at hplan
    · cases hplan
    · cases hplan

/-- What a call that answers leaves. -/
structure Answered (D : Digests) (F : Floats) (r : ShadowRuntime) (x : ShadowAuditRecord)
    (r' : ShadowRuntime) : Prop where
  context : r'.context = r.context
  session : r.context.Matches x
  appended : ∃ checksum fault, r.journal.append D F x fault = (.ok checksum, r'.journal)
  kept : x.riskStateSha256 = none → r'.riskEngine = r.riskEngine ∧ r'.riskStore = r.riskStore
  saved : ∀ checksum, x.riskStateSha256 = some checksum → ∃ saved savedAt,
    r'.riskEngine.snapshot = .ok saved ∧ HoldsSnapshot D F r'.riskStore saved savedAt ∧
      digest D F (payloadOf saved savedAt) = checksum

theorem adopt_answered (h : r.adopt D F staged entry faults = (.ok x, r')) : Answered D F r x r' := by
  obtain ⟨saved, savedAt, hsaved, hholds, hengine, hcontext, hchecked, checksum, happend⟩ :=
    adopt_eq_ok h
  have hsum : x.riskStateSha256 = some (digest D F (payloadOf saved savedAt)) :=
    congrArg AuditFields.riskStateSha256 (checked_status hchecked)
  refine ⟨hcontext, matches_fields hchecked, ⟨checksum, _, happend⟩, fun hnone => ?_,
    fun c hc => ⟨saved, savedAt, hengine ▸ hsaved, hholds, ?_⟩⟩
  · rw [hsum] at hnone
    cases hnone
  · exact Option.some.inj (hsum.symm.trans hc)

theorem call_answered (h : r.call D F lower c faults = (.ok x, r')) : Answered D F r x r' := by
  rw [call_eq] at h
  cases hplan : r.plan lower c with
  | error err =>
    rw [hplan] at h
    cases h
  | ok plan =>
    rw [hplan] at h
    cases plan with
    | audited entry =>
      obtain ⟨hchecked, checksum, happend, hr'⟩ := record_eq_ok h
      have hsum : x.riskStateSha256 = none :=
        (congrArg AuditFields.riskStateSha256 (checked_status hchecked)).trans (plan_audited hplan)
      rw [hr']
      refine ⟨rfl, matches_fields hchecked, ⟨checksum, _, happend⟩, fun _ => ⟨rfl, rfl⟩,
        fun c hc => ?_⟩
      rw [hsum] at hc
      cases hc
    | adopted staged entry => exact adopt_answered h

theorem record_error {fault : Option WriteFault} (hfault : fault = none ∨ fault = some .before)
    (h : r.record D F entry fault = (.error err, r')) : r' = r := by
  unfold ShadowRuntime.record at h
  split at h
  · cases h
    rfl
  · split at h
    · next happend =>
      cases h
      rw [append_error hfault happend]
    · cases h

theorem record_before (r : ShadowRuntime) (entry : AuditEntry) :
    ∃ err, r.record D F entry (some .before) = (.error err, r) := by
  unfold ShadowRuntime.record ShadowAuditJournal.append
  split
  · exact ⟨_, rfl⟩
  · next x _ =>
    by_cases hid : x.observationId ∈ r.journal.observationIds
    · simp only [if_pos hid]
      exact ⟨_, rfl⟩
    · simp only [if_neg hid]
      exact ⟨_, rfl⟩

/-- A call that raises, and of which every write that failed left its file, has changed nothing,
or has adopted an engine and failed to append its record. -/
theorem call_raised (hhex : D.Hex) (hwhole : faults.Whole)
    (h : r.call D F lower c faults = (.error err, r')) :
    r' = r ∨ (faults.save = none ∧ faults.append ≠ none) ∧ ∃ staged entry saved savedAt,
      r.plan lower c = .ok (.adopted staged entry) ∧
      r' = { r with riskStore := r'.riskStore, riskEngine := staged } ∧
      staged.snapshot = .ok saved ∧ HoldsSnapshot D F r'.riskStore saved savedAt := by
  rw [call_eq] at h
  cases hplan : r.plan lower c with
  | error err =>
    rw [hplan] at h
    cases h
    exact .inl rfl
  | ok plan =>
    rw [hplan] at h
    cases plan with
    | audited entry => exact .inl (record_error hwhole.2 h)
    | adopted staged entry =>
      change r.adopt D F staged entry faults = (.error err, r') at h
      unfold adopt at h
      have hcases := save_cases (D := D) (F := F) r.riskStore staged
        entry.decisionTimestampUtc faults.save
      generalize save D F r.riskStore staged entry.decisionTimestampUtc faults.save = p at h hcases
      obtain ⟨result, store'⟩ := p
      rcases hcases with ⟨e, heq⟩ | ⟨saved, savedAt, hsaved, hholds, ⟨hsave, -⟩ | ⟨hsave, heq⟩⟩
      · cases heq
        cases h
        exact .inl rfl
      · exact absurd hsave hwhole.1
      · cases heq
        have hr' := record_error hwhole.2 h
        have happend : faults.append ≠ none := by
          intro hnone
          have hplanned := planned hplan
          have hlen : (digest D F (payloadOf saved savedAt)).length = 64 := hhex.length _
          obtain ⟨x, r'', hok⟩ := recorded (D := D) (F := F)
            { r with riskStore := store', riskEngine := staged }
            { entry with riskStateSha256 := some (digest D F (payloadOf saved savedAt)) }
            hplanned.named hplanned.aware hplanned.described (by rintro v ⟨⟩; exact hlen)
          simp only [hnone] at h
          rw [hok] at h
          cases h
        rw [hr']
        exact .inr ⟨⟨hsave, happend⟩, staged, entry, saved, savedAt, rfl, rfl, hsaved, hholds⟩

/-! ## Running -/

theorem Running.answered (hrun : Running D F r rs) (h : Answered D F r x r') :
    Running D F r' (rs ++ [x]) := by
  obtain ⟨checksum, fault, happend⟩ := h.appended
  obtain ⟨y, hy, hcarried⟩ := hrun.carried
  refine ⟨append_eq_ok hrun.wrote happend, ⟨y, List.mem_append_left _ hy, hcarried⟩, fun z hz => ?_, ?_⟩
  · rw [h.context]
    rcases List.mem_append.mp hz with hz | hz
    · exact hrun.session z hz
    · rw [List.mem_singleton.mp hz]
      exact h.session
  · cases hsum : x.riskStateSha256 with
    | none =>
      obtain ⟨hengine, hstore⟩ := h.kept hsum
      rw [hengine, hstore]
      exact hrun.holds
    | some checksum =>
      obtain ⟨saved, savedAt, hsaved, hholds, -⟩ := h.saved checksum hsum
      exact ⟨saved, savedAt, hsaved, hholds⟩

/-- A call that answers keeps the three copies in step, and brings them in step when it saves. -/
theorem Running.inStep (hhex : D.Hex) (hrun : Running D F r rs) (h : Answered D F r x r') :
    (InStep D F r → InStep D F r') ∧ (x.riskStateSha256 ≠ none → InStep D F r') := by
  obtain ⟨checksum, fault, happend⟩ := h.appended
  have hwrote := append_eq_ok hrun.wrote happend
  cases hsum : x.riskStateSha256 with
  | none =>
    obtain ⟨hengine, hstore⟩ := h.kept hsum
    refine ⟨fun hstep => ?_, fun hne => absurd rfl hne⟩
    unfold InStep
    rw [hengine, hstore, latest_append_none hhex hrun.wrote hwrote hsum]
    exact hstep
  | some checksum =>
    obtain ⟨saved, savedAt, hsaved, hholds, hdigest⟩ := h.saved checksum hsum
    have hstep : InStep D F r' := ⟨saved, savedAt, checksum, hsaved, hholds, hdigest,
      hdigest ▸ hholds.checksum hhex, latest_append _ hhex hwrote hsum⟩
    exact ⟨fun _ => hstep, fun _ => hstep⟩

variable {e : PortfolioRiskEngine}

theorem fits_saved {saved : PortfolioRiskSnapshot}
    (h : e.snapshot = .ok saved) :
    Fits e ↔ (saved.inUtc.positions.length : Int) ≤ e.config.maximumOpenPositions := by
  have hlen : saved.inUtc.positions.length = e.positions.rows.length := by
    show (saved.positions.map PortfolioPosition.inUtc).length = _
    rw [List.length_map, (snapshot_eq_ok h).1, e.sortedPositions_perm.length_eq]
  unfold Fits
  rw [hlen]

/-- **Resumption** succeeds where the copies are in step, and only there. -/
theorem Running.resumes_iff (hhex : D.Hex) (h : Running D F r rs) :
    (∃ r', r.reopen D F r.context r.riskEngine.config = .ok r') ↔
      InStep D F r ∧ Fits r.riskEngine := by
  obtain ⟨saved, savedAt, hsaved, hholds⟩ := h.holds
  obtain ⟨j, hopen, hfile, hwrote⟩ := openJournal_wrote hhex h.wrote
  have hlatest : j.latestRiskStateSha256 D F = r.journal.latestRiskStateSha256 D F := by
    unfold ShadowAuditJournal.latestRiskStateSha256
    rw [hfile]
  have hverify : verify D F j.file = .ok (rs.map ShadowAuditRecord.inUtc) := by
    rw [hfile]
    exact verify_wrote hhex h.wrote
  have hreopen : ∀ r', r.reopen D F r.context r.riskEngine.config = .ok r' ↔
      resume D F r.context r.riskStore j r.riskEngine.config = .ok r' := by
    intro r'
    unfold reopen
    rw [hopen]
    rfl
  simp only [hreopen, resume_eq_ok, hlatest, hverify, fits_saved hsaved]
  constructor
  · rintro ⟨r', snapshot, records, latest, checksum, engine, hload, -, -, -, hlast, hsum, hsame,
      hfrom, -⟩
    rw [loadRequired_holds hhex hholds] at hload
    cases hload
    rw [hholds.checksum hhex] at hsum
    cases hsum
    obtain ⟨hcount, -⟩ := fromSnapshot_eq_ok.mp hfrom
    refine ⟨⟨saved, savedAt, _, hsaved, hholds, rfl, hholds.checksum hhex, ?_⟩, hcount⟩
    rw [hlast, ← hsame.resolve_left ?_]
    rintro rfl
    exact latest_ne_none hhex h.wrote h.carried hlast
  · rintro ⟨⟨saved', savedAt', checksum, -, -, -, hsum, hlast⟩, hcount⟩
    have hne : rs.map ShadowAuditRecord.inUtc ≠ [] := by
      obtain ⟨x, hx, -⟩ := h.carried
      exact List.ne_nil_of_mem (List.mem_map_of_mem hx)
    refine ⟨_, saved.inUtc, _, some checksum, some checksum, _, loadRequired_holds hhex hholds, rfl,
      hne, fun x hx => ?_, hlast, hsum, .inr rfl, fromSnapshot_eq_ok.mpr ⟨hcount, rfl⟩, rfl⟩
    obtain ⟨y, hy, rfl⟩ := List.mem_map.mp hx
    exact h.session y hy

variable {context : ShadowSessionContext}

/-- A runtime that was resumed is in step. -/
theorem Running.reopened (hhex : D.Hex) (h : Running D F r rs)
    {config : PortfolioRiskConfig} (hreopen : r.reopen D F context config = .ok r') :
    Running D F r' (rs.map ShadowAuditRecord.inUtc) ∧ InStep D F r' ∧ Fits r'.riskEngine := by
  obtain ⟨saved, savedAt, hsaved, hholds⟩ := h.holds
  obtain ⟨j, hopen, hfile, hwrote⟩ := openJournal_wrote hhex h.wrote
  unfold reopen at hreopen
  rw [hopen] at hreopen
  obtain ⟨snapshot, records, latest, checksum, engine, hload, hverify, -, hmatch, hlast, hsum, hsame,
    hfrom, rfl⟩ := resume_eq_ok.mp hreopen
  rw [loadRequired_holds hhex hholds] at hload
  cases hload
  rw [hholds.checksum hhex] at hsum
  cases hsum
  rw [hfile, verify_wrote hhex h.wrote] at hverify
  cases hverify
  have hsorted : saved.inUtc.positions.Pairwise fun a b => a.key ≤ b.key := by
    refine List.pairwise_map.mpr ?_
    rw [(snapshot_eq_ok hsaved).1]
    exact r.riskEngine.sortedPositions_pairwise
  have hagain := snapshot_fromSnapshot hsorted hfrom
  have hcarried : ∃ x ∈ rs.map ShadowAuditRecord.inUtc, x.riskStateSha256 ≠ none := by
    obtain ⟨x, hx, hcarried⟩ := h.carried
    exact ⟨x.inUtc, List.mem_map_of_mem hx, hcarried⟩
  refine ⟨⟨hwrote, hcarried, hmatch, saved.inUtc, savedAt, hagain, hholds.inUtc⟩,
    ⟨saved.inUtc, savedAt, _, hagain, hholds.inUtc, rfl, hholds.inUtc.checksum hhex, ?_⟩, ?_⟩
  · have hsome : latest ≠ none := by
      rintro rfl
      refine latest_ne_none hhex h.wrote h.carried (Eq.trans ?_ hlast)
      unfold ShadowAuditJournal.latestRiskStateSha256
      rw [hfile]
    have hstored := hholds.checksum hhex
    rw [hholds.inUtc.checksum hhex] at hstored
    rw [hlast, hsame.resolve_left hsome, ← Except.ok.inj hstored]
  · obtain ⟨hcount, rfl⟩ := fromSnapshot_eq_ok.mp hfrom
    exact hcount

/-! ## Runs -/

variable {op : RuntimeOp}

theorem running_step (lower : String → String) (hhex : D.Hex) (hwhole : op.Whole)
    (h : ∃ rs, Running D F r rs) : ∃ rs, Running D F (r.step D F lower op) rs := by
  obtain ⟨rs, h⟩ := h
  cases op with
  | call c faults =>
    show ∃ rs, Running D F (r.call D F lower c faults).2 rs
    cases hcall : r.call D F lower c faults with
    | mk result r' =>
      cases result with
      | ok x => exact ⟨_, h.answered (call_answered hcall)⟩
      | error err =>
        rcases call_raised hhex hwhole hcall with rfl | ⟨-, staged, entry, saved, savedAt, -, hr', hsaved,
          hholds⟩
        · exact ⟨rs, h⟩
        · have hengine : r'.riskEngine = staged := by rw [hr']
          have hjournal : r'.journal = r.journal := by rw [hr']
          have hcontext : r'.context = r.context := by rw [hr']
          refine ⟨rs, hjournal ▸ h.wrote, h.carried, hcontext ▸ h.session, saved, savedAt, ?_, hholds⟩
          rw [hengine]
          exact hsaved
  | resume context config =>
    simp only [step]
    split
    · next r' hreopen => exact ⟨_, (h.reopened hhex hreopen).1⟩
    · exact ⟨rs, h⟩

theorem fits_step (r : ShadowRuntime) (op : RuntimeOp) (h : Fits r.riskEngine) :
    Fits (r.step D F lower op).riskEngine := by
  cases op with
  | call c faults =>
    show Fits (r.call D F lower c faults).2.riskEngine
    rw [call_eq]
    by_cases hplan : ∃ staged entry, r.plan lower c = .ok (.adopted staged entry)
    · obtain ⟨staged, entry, hplan⟩ := hplan
      rw [hplan]
      rcases perform_adopted (D := D) (F := F) (r := r) staged entry faults with heq | heq
      · rw [heq]
        exact h
      · rw [heq]
        exact (planned hplan).count
    · rw [(perform_same faults fun staged entry h => hplan ⟨staged, entry, h⟩).1]
      exact h
  | resume context config =>
    simp only [step]
    split
    · next r' hreopen =>
      obtain ⟨-, snapshot, -, hfrom⟩ := reopen_eq_ok hreopen
      obtain ⟨hcount, hengine⟩ := fromSnapshot_eq_ok.mp hfrom
      rw [← hengine]
      exact hcount
    · exact h

theorem inStep_step (hhex : D.Hex) (hwhole : op.Whole) (hlate : ¬ LateAppend lower r op)
    (hrun : ∃ rs, Running D F r rs) (h : InStep D F r) : InStep D F (r.step D F lower op) := by
  obtain ⟨rs, hrun⟩ := hrun
  cases op with
  | call c faults =>
    show InStep D F (r.call D F lower c faults).2
    cases hcall : r.call D F lower c faults with
    | mk result r' =>
      cases result with
      | ok x => exact (hrun.inStep hhex (call_answered hcall)).1 h
      | error err =>
        rcases call_raised hhex hwhole hcall with rfl | ⟨⟨hsave, happend⟩, staged, entry, saved,
          savedAt, hplan, -⟩
        · exact h
        · exact absurd ⟨hsave, happend, staged, entry, hplan⟩ hlate
  | resume context config =>
    simp only [step]
    split
    · next r' hreopen => exact (hrun.reopened hhex hreopen).2.1
    · exact h

/-- A new session is in step. -/
theorem running_initializeNew (hhex : D.Hex)
    {riskEngine : PortfolioRiskEngine} {riskStore : PortfolioRiskStateStore} {file : Option String}
    {journal : ShadowAuditJournal} {initializedAtUtc : Datetime} {r₀ : ShadowRuntime}
    (hjournal : openJournal D F file = .ok journal)
    (h : initializeNew D F context riskEngine riskStore journal initializedAtUtc = .ok r₀) :
    (∃ rs, Running D F r₀ rs) ∧ InStep D F r₀ ∧ r₀.riskEngine = riskEngine := by
  obtain ⟨hverify, entry, x, -, hadopt⟩ := initializeNew_eq_ok h
  have hanswered := adopt_answered hadopt
  have hnew : Wrote D F journal [] := openJournal_empty hjournal hverify
  obtain ⟨saved, savedAt, hsaved, hholds, hengine, hcontext, hchecked, checksum, happend⟩ :=
    adopt_eq_ok hadopt
  have hwrote : Wrote D F r₀.journal ([] ++ [x]) := append_eq_ok hnew happend
  have hsum : x.riskStateSha256 = some (digest D F (payloadOf saved savedAt)) :=
    congrArg AuditFields.riskStateSha256 (checked_status hchecked)
  rw [← hengine] at hsaved
  refine ⟨⟨_, hwrote, ⟨x, List.mem_singleton_self x, by rw [hsum]; exact Option.some_ne_none _⟩,
    fun y hy => ?_, saved, savedAt, hsaved, hholds⟩, ⟨saved, savedAt, _, hsaved, hholds, rfl,
    hholds.checksum hhex, latest_append _ hhex hwrote hsum⟩, hengine⟩
  rw [List.mem_singleton.mp hy, hcontext]
  exact hanswered.session

/-- What calls and a resumption do from a state, whether their writes fail or not. -/
structure StaysInStep (D : Digests) (F : Floats) (lower : String → String) (r : ShadowRuntime) :
    Prop where
  /-- A call that answers has appended its record. It keeps the copies in step; it saves nothing,
  or brings them in step. -/
  answers : ∀ c faults x r', r.call D F lower c faults = (.ok x, r') →
    (∃ records, verify D F r.journal.file = .ok records ∧
      verify D F r'.journal.file = .ok (records ++ [x.inUtc])) ∧
    (InStep D F r → InStep D F r') ∧ (x.riskStateSha256 ≠ none → InStep D F r') ∧
    (x.riskStateSha256 = none → r'.riskEngine = r.riskEngine ∧ r'.riskStore = r.riskStore)
  /-- A call that raises changes nothing, unless its append failed after its save: then the new
  engine is in memory and in the store. -/
  raises : ∀ c faults err r', faults.Whole → r.call D F lower c faults = (.error err, r') →
    r' = r ∨ LateAppend lower r (.call c faults) ∧ r'.journal = r.journal ∧
      ∃ staged entry saved savedAt, r.plan lower c = .ok (.adopted staged entry) ∧
        r'.riskEngine = staged ∧ staged.snapshot = .ok saved ∧
        HoldsSnapshot D F r'.riskStore saved savedAt
  resumes : (∃ r', r.reopen D F r.context r.riskEngine.config = .ok r') ↔
    InStep D F r ∧ Fits r.riskEngine

theorem Running.staysInStep (hhex : D.Hex) (h : Running D F r rs) : StaysInStep D F lower r where
  answers c faults x r' hcall := by
    have hanswered := call_answered hcall
    obtain ⟨checksum, fault, happend⟩ := hanswered.appended
    have hwrote := append_eq_ok h.wrote happend
    obtain ⟨hkeeps, hbrings⟩ := h.inStep hhex hanswered
    refine ⟨⟨_, verify_wrote hhex h.wrote, ?_⟩, hkeeps, hbrings, hanswered.kept⟩
    rw [verify_wrote hhex hwrote, List.map_append, List.map_singleton]
  raises c faults err r' hwhole hcall := by
    rcases call_raised hhex hwhole hcall with hsame | ⟨⟨hsave, happend⟩, staged, entry, saved,
      savedAt, hplan, hr', hsaved, hholds⟩
    · exact .inl hsame
    · exact .inr ⟨⟨hsave, happend, staged, entry, hplan⟩, by rw [hr'], staged, entry, saved, savedAt,
        hplan, by rw [hr'], hsaved, hholds⟩
  resumes := h.resumes_iff hhex

/-- Whatever engine a call plans to take over, it has taken it over and saved it when its append
fails. -/
theorem late_append (hplan : r.plan lower c = .ok (.adopted staged entry))
    (saved : PortfolioRiskSnapshot) (hsaved : staged.snapshot = .ok saved) (savedAt : Instant)
    (hutc : utc entry.decisionTimestampUtc "risk state timestamp" = .ok savedAt) :
    ∃ store err, r.call D F lower c { append := some .before } =
        (.error err, { r with riskStore := store, riskEngine := staged }) ∧
      HoldsSnapshot D F store saved savedAt := by
  have hsave := save_ok (D := D) (F := F) r.riskStore hsaved hutc
  obtain ⟨err, hrecord⟩ := record_before (D := D) (F := F)
    { r with riskStore := ⟨r.riskStore.path, some (savedText D F saved savedAt)⟩
             riskEngine := staged }
    { entry with riskStateSha256 := some (digest D F (payloadOf saved savedAt)) }
  refine ⟨⟨r.riskStore.path, some (savedText D F saved savedAt)⟩, err, ?_, rfl⟩
  rw [call_eq, hplan]
  show r.adopt D F staged entry _ = _
  unfold adopt
  simp only [hsave]
  exact hrecord

/-- A line that is written in part is left in the file. -/
theorem short_write {j : ShadowAuditJournal} (hnew : x.observationId ∉ j.observationIds) {n : Nat}
    (hn : 0 < n) :
    ∃ err j', j.append D F x (some (.short n)) = (.error err, j') ∧ j'.file ≠ j.file := by
  unfold ShadowAuditJournal.append
  rw [if_neg hnew]
  refine ⟨_, _, rfl, fun hfile => ?_⟩
  have htext := congrArg (fun file : Option String => (file.getD "").toList.length) hfile
  simp only [Option.getD_some, String.toList_append, String.toList_ofList, List.length_append,
    List.length_take] at htext
  have hline : ("\n" : String).toList.length = 1 := rfl
  omega

/-- A safety hold on an engine of which a copy can be made. -/
theorem holding_halt (lower : String → String)
    (hstaged : r.staged = .ok e) {observationId : String}
    (hnamed : isBlank observationId = false) (hnew : observationId ∉ r.journal.observationIds)
    {reason : String} (hreason : isBlank reason = false) (t : Instant) :
    ∃ entry, r.plan lower (.activateSafetyHold observationId reason (.ofInstant t)) =
      .ok (.adopted { e with killSwitchReason := some reason } entry) ∧
      entry.decisionTimestampUtc = .ofInstant t := by
  show ∃ entry, r.holding observationId reason (.ofInstant t) = .ok (.adopted _ entry) ∧ _
  unfold holding
  rw [ensureAvailable_ok hnamed hnew, utc_ofInstant, hstaged]
  unfold activateKillSwitch
  rw [hreason]
  exact ⟨_, rfl, rfl⟩

end ShadowRuntime

open ShadowRuntime

/-- **In step over runs.** -/
theorem in_step_over_runs (D : Digests) (F : Floats) (lower : String → String) (hhex : D.Hex)
    (context : ShadowSessionContext) (riskEngine : PortfolioRiskEngine)
    (riskStore : PortfolioRiskStateStore) (file : Option String) (journal : ShadowAuditJournal)
    (hjournal : openJournal D F file = .ok journal) (initializedAtUtc : Datetime)
    (r₀ : ShadowRuntime)
    (h₀ : initializeNew D F context riskEngine riskStore journal initializedAtUtc = .ok r₀)
    (ops : List RuntimeOp)
    (hwhole : Runs.Meets (step D F lower) (fun _ op => op.Whole) r₀ ops) :
    let r := Runs.run (step D F lower) r₀ ops
    StaysInStep D F lower r ∧ (Fits riskEngine → Fits r.riskEngine) ∧
      (Runs.Meets (step D F lower) (fun r op => ¬ LateAppend lower r op) r₀ ops → InStep D F r) := by
  intro r
  obtain ⟨hrun₀, hstep₀, hengine⟩ := running_initializeNew hhex hjournal h₀
  obtain ⟨rs, hrun⟩ : ∃ rs, Running D F r rs :=
    hwhole.invariant (I := fun r => ∃ rs, Running D F r rs)
      (fun r op hop h => running_step lower hhex hop h) ops hrun₀
  refine ⟨hrun.staysInStep hhex, fun hfits => ?_, fun hlate => ?_⟩
  · exact Runs.run_invariant (I := fun r : ShadowRuntime => Fits r.riskEngine) fits_step ops (hengine ▸ hfits)
  · have hboth : (∃ rs, Running D F r rs) ∧ InStep D F r :=
      (hwhole.and hlate).invariant (I := fun r => (∃ rs, Running D F r rs) ∧ InStep D F r)
        (fun r op hop h => ⟨running_step lower hhex hop.1 h.1, inStep_step hhex hop.1 hop.2 h.1 h.2⟩)
        ops ⟨hrun₀, hstep₀⟩
    exact hboth.2

/-- A session whose first safety hold cannot be saved. -/
theorem in_step_over_runs_unsaved : ∃ r₀, initializeNew sessionDigests sampleFloats sampleContext
      tightEngine ⟨"portfolio.json", none⟩ {} (.ofInstant 0) = .ok r₀ ∧
    InStep sessionDigests sampleFloats (Runs.run (step sessionDigests sampleFloats String.toLower) r₀
      [.call (.activateSafetyHold "h" "halt" (.ofInstant 0)) { save := some .before }]) := by
  obtain ⟨r₀, x, h₀, -⟩ := initializeNew_new (F := sampleFloats) sessionDigests_hex sampleContext
    "portfolio.json" tightEngine_snapshot 0
  have hstays := in_step_over_runs sessionDigests sampleFloats String.toLower sessionDigests_hex
    sampleContext tightEngine ⟨"portfolio.json", none⟩ none {} rfl (.ofInstant 0) r₀ h₀
    [.call (.activateSafetyHold "h" "halt" (.ofInstant 0)) { save := some .before }]
    ⟨⟨by decide, .inl rfl⟩, trivial⟩
  exact ⟨r₀, h₀, hstays.2.2 ⟨(fun hlate => by cases hlate.1), trivial⟩⟩

/-- The append of a safety hold fails: it raises, the engine is halted, and the runtime cannot be
resumed. And a line that is written in part is left in the journal. -/
theorem append_fails : ∃ r₀, initializeNew sessionDigests sampleFloats sampleContext tightEngine
      ⟨"portfolio.json", none⟩ {} (.ofInstant 0) = .ok r₀ ∧
    (∃ err r', r₀.call sessionDigests sampleFloats String.toLower
        (.activateSafetyHold "h" "halt" (.ofInstant 0)) { append := some .before } =
          (.error err, r') ∧
      r₀.riskEngine.killSwitchReason = none ∧ r'.riskEngine.killSwitchReason = some "halt" ∧
      ¬ ∃ r'', r'.reopen sessionDigests sampleFloats r'.context r'.riskEngine.config = .ok r'') ∧
    ∃ err r', r₀.call sessionDigests sampleFloats String.toLower
        (.observe noEdgeDecision "w" [] 1000) { append := some (.short 1) } = (.error err, r') ∧
      r'.journal.file ≠ r₀.journal.file := by
  obtain ⟨r₀, x, h₀, hengine, hholds, hwrote, hid, hsum⟩ := initializeNew_new (F := sampleFloats)
    sessionDigests_hex sampleContext "portfolio.json" tightEngine_snapshot 0
  obtain ⟨hrun₀, -⟩ := running_initializeNew sessionDigests_hex
    (show openJournal _ _ none = .ok {} from rfl) h₀
  refine ⟨r₀, h₀, ?_, ?_⟩
  · have hstaged : r₀.staged = fromSnapshot emptySnapshot tightEngine.config := by
      unfold staged
      rw [hengine, tightEngine_snapshot]
      rfl
    rw [fromSnapshot_eq_ok.mpr ⟨by decide, rfl⟩] at hstaged
    have hnew : "h" ∉ r₀.journal.observationIds := by
      rw [hwrote.ids, List.map_singleton, hid]
      decide
    obtain ⟨entry, hplan, hat⟩ := holding_halt String.toLower hstaged (by decide) hnew
      (show isBlank "halt" = false by decide) 0
    obtain ⟨store, err, hcall, hstore⟩ := late_append (D := sessionDigests) (F := sampleFloats)
      hplan haltedSnapshot (by rfl) 0 (by rw [hat, utc_ofInstant])
    refine ⟨err, _, hcall, by rw [hengine]; rfl, rfl, ?_⟩
    let late : RuntimeOp :=
      .call (.activateSafetyHold "h" "halt" (.ofInstant 0)) { append := some .before }
    have hwhole : late.Whole := ⟨by decide, .inr rfl⟩
    obtain ⟨rs, hrun⟩ := running_step String.toLower sessionDigests_hex hwhole hrun₀
    simp only [late, ShadowRuntime.step, hcall] at hrun
    rw [hrun.resumes_iff sessionDigests_hex]
    rintro ⟨⟨saved, savedAt, checksum, -, -, -, hchecksum, hlatest⟩, -⟩
    rw [hstore.checksum sessionDigests_hex] at hchecksum
    rw [latest_append [] sessionDigests_hex hwrote hsum] at hlatest
    have hpayload : payloadOf haltedSnapshot 0 ≠ payloadOf emptySnapshot 0 := by
      simp [payloadOf, snapshotToDict, haltedSnapshot, emptySnapshot, ofOptional]
    have hdiffer : digest sessionDigests sampleFloats (payloadOf haltedSnapshot 0) ≠
        digest sessionDigests sampleFloats (payloadOf emptySnapshot 0) :=
      digestOf_ne (mt (dumps_injective (canonical_payloadOf _ _) (canonical_payloadOf _ _)) hpayload)
        (by decide +kernel) (by decide +kernel)
    exact hdiffer (Option.some.inj (Except.ok.inj (hchecksum.trans hlatest.symm)))
  · have hnew : "w" ∉ r₀.journal.observationIds := by
      rw [hwrote.ids, List.map_singleton, hid]
      decide
    have hplan := observation_wait String.toLower noEdgeDecision
      1000 rfl (by decide) hnew
    obtain ⟨y, hchecked⟩ := fields_checked r₀.context (waitEntry noEdgeDecision "w")
      (by decide) (by decide) ⟨by decide, List.cons_ne_nil _ _⟩ (by rintro v ⟨⟩)
    have hy : y.observationId = "w" := congrArg AuditFields.observationId (checked_status hchecked)
    obtain ⟨err, j', happend, hfile⟩ := short_write (D := sessionDigests) (F := sampleFloats)
      (x := y) (hy ▸ hnew) (n := 1) one_pos
    refine ⟨err, { r₀ with journal := j' }, ?_, hfile⟩
    rw [call_eq]
    show r₀.perform _ _ (r₀.observation _ _ _ _ _) _ = _
    rw [hplan]
    show r₀.record _ _ (waitEntry noEdgeDecision "w") _ = _
    unfold ShadowRuntime.record
    simp only [hchecked, happend]

end Greenfield.Shadow
