import Greenfield.Shadow.Audit
import Greenfield.Shadow.Caps

/-!
# What the SHADOW runtime stores

The risk store holds the snapshot of an engine that was planned by a call, and what is
planned has the config and at least the peak of the engine before. So the stored peak is
never less than the equity of an observation that opened its positions (`peak_over_runs`).
The equity of one that waited or was rejected is noted on a copy, if at all, and forgotten
(`waiting_peak_lost`).
-/

namespace Greenfield.Shadow

open Keyed Py Risk Json PortfolioRiskEngine

variable {D : Digests} {F : Floats} {lower : String → String}

/-- The record is of the session. -/
def ShadowSessionContext.Matches (context : ShadowSessionContext) (x : ShadowAuditRecord) : Prop :=
  x.sessionId = context.sessionId ∧ x.datasetFingerprint = context.datasetFingerprint ∧
    x.codeCommit = context.codeCommit ∧ x.configFingerprint = context.configFingerprint

/-! ## Saving -/

/-- The store holds this snapshot. -/
def HoldsSnapshot (D : Digests) (F : Floats) (store : PortfolioRiskStateStore)
    (saved : PortfolioRiskSnapshot) (savedAt : Instant) : Prop :=
  store.file = some (savedText D F saved savedAt)

variable {store store' : PortfolioRiskStateStore} {saved : PortfolioRiskSnapshot}
  {savedAt : Instant} {e : PortfolioRiskEngine}

theorem HoldsSnapshot.load (hhex : D.Hex) (h : HoldsSnapshot D F store saved savedAt) :
    store.load D F = .ok (some saved.inUtc) := by
  unfold PortfolioRiskStateStore.load
  rw [h]
  simp only [decode_savedText hhex, Except.map]

theorem HoldsSnapshot.checksum (hhex : D.Hex) (h : HoldsSnapshot D F store saved savedAt) :
    store.checksum D F = .ok (some (digest D F (payloadOf saved savedAt))) := by
  unfold PortfolioRiskStateStore.checksum
  rw [h]
  simp only [decode_savedText hhex, Except.map]

/-- The text of a snapshot does not depend on the zones of its timestamps. -/
theorem HoldsSnapshot.inUtc (h : HoldsSnapshot D F store saved savedAt) : HoldsSnapshot D F store saved.inUtc savedAt := by
  have hsame : snapshotToDict saved.inUtc = snapshotToDict saved := by
    have hposition : positionToDict ∘ PortfolioPosition.inUtc = positionToDict := by
      funext x
      have hinstant : (Datetime.ofInstant x.openedAtUtc.instant).instant = x.openedAtUtc.instant :=
        Int.sub_zero _
      simp only [Function.comp_apply, positionToDict, PortfolioPosition.inUtc, hinstant]
    simp only [snapshotToDict, PortfolioRiskSnapshot.inUtc, List.map_map, hposition]
  unfold HoldsSnapshot at h ⊢
  rw [h]
  simp only [savedText, envelopeOf, payloadOf, hsame]

namespace ShadowRuntime

/-- What a save leaves. -/
theorem save_cases (store : PortfolioRiskStateStore) (staged : PortfolioRiskEngine) (savedAtUtc : Datetime)
    (fault : Option SaveFault) :
    (∃ err, save D F store staged savedAtUtc fault = (.error err, store)) ∨
      ∃ saved savedAt, staged.snapshot = .ok saved ∧
        HoldsSnapshot D F (save D F store staged savedAtUtc fault).2 saved savedAt ∧
        ((fault = some .after ∧ (save D F store staged savedAtUtc fault).1 = .error .osError) ∨
          (fault = none ∧ (save D F store staged savedAtUtc fault).1 =
            .ok (digest D F (payloadOf saved savedAt)))) := by
  unfold save
  cases hsave : (do store.save D F (← staged.snapshot) savedAtUtc) with
  | error err => exact .inl ⟨err, rfl⟩
  | ok p =>
    obtain ⟨checksum, saved'⟩ := p
    obtain ⟨saved, hsnapshot, hsave⟩ := bind_eq_ok.mp hsave
    unfold PortfolioRiskStateStore.save at hsave
    obtain ⟨savedAt, -, hsave⟩ := bind_eq_ok.mp hsave
    cases hsave
    cases fault with
    | none => exact .inr ⟨saved, savedAt, hsnapshot, rfl, .inr ⟨rfl, rfl⟩⟩
    | some fault =>
      cases fault with
      | before => exact .inl ⟨.osError, rfl⟩
      | after => exact .inr ⟨saved, savedAt, hsnapshot, rfl, .inl ⟨rfl, rfl⟩⟩

theorem save_ok (store : PortfolioRiskStateStore) {staged : PortfolioRiskEngine}
    (hsaved : staged.snapshot = .ok saved)
    {savedAtUtc : Datetime} (hutc : utc savedAtUtc "risk state timestamp" = .ok savedAt) :
    save D F store staged savedAtUtc none = (.ok (digest D F (payloadOf saved savedAt)),
      { store with file := some (savedText D F saved savedAt) }) := by
  unfold save PortfolioRiskStateStore.save
  rw [hsaved, hutc]
  rfl

/-! ## Recording -/

variable {r : ShadowRuntime} {staged : PortfolioRiskEngine} {entry : AuditEntry}
  {x : ShadowAuditRecord}

variable {record : ShadowAuditRecord}

theorem checked_status {fields : AuditFields}
    (h : fields.checked = .ok record) : record.toAuditFields = fields := by
  unfold AuditFields.checked at h
  split_ifs at h
  cases h
  rfl

/-- The record of an entry that is named, aware and described can be made. -/
theorem fields_checked (context : ShadowSessionContext) (entry : AuditEntry)
    (hnamed : isBlank entry.observationId = false)
    (haware : entry.decisionTimestampUtc.utcOffset ≠ none)
    (hdescribed : isBlank entry.action = false ∧ entry.reasonCodes ≠ [])
    (hsum : ∀ v ∈ entry.riskStateSha256, v.length = 64) :
    ∃ x, (context.fields entry).checked = .ok x := by
  have hcomplete := context.complete
  simp only [List.forall_mem_cons] at hcomplete
  obtain ⟨hsession, hdataset, hcommit, hconfig, -⟩ := hcomplete
  have hfingerprints : ∀ v ∈ [context.datasetFingerprint, context.codeCommit,
      context.configFingerprint], isBlank v = false := by
    simp only [List.forall_mem_cons, hdataset, hcommit, hconfig, true_and]
    exact fun v hv => absurd hv List.not_mem_nil
  exact ⟨_, checked_record
    ⟨context.fields entry, ⟨hnamed, hsession⟩, haware, hdescribed, hfingerprints, hsum⟩⟩

variable {j : ShadowAuditJournal}

theorem append_new (x : ShadowAuditRecord) (h : x.observationId ∉ j.observationIds) :
    ∃ checksum j', j.append D F x none = (.ok checksum, j') := by
  unfold ShadowAuditJournal.append
  rw [if_neg h]
  exact ⟨_, _, rfl⟩

theorem recorded (r : ShadowRuntime) (entry : AuditEntry) (hnamed : isBlank entry.observationId = false ∧
      entry.observationId ∉ r.journal.observationIds)
    (haware : entry.decisionTimestampUtc.utcOffset ≠ none)
    (hdescribed : isBlank entry.action = false ∧ entry.reasonCodes ≠ [])
    (hsum : ∀ v ∈ entry.riskStateSha256, v.length = 64) :
    ∃ x r', r.record D F entry none = (.ok x, r') := by
  obtain ⟨x, hchecked⟩ := fields_checked r.context entry hnamed.1 haware hdescribed hsum
  have hid : x.observationId = entry.observationId :=
    congrArg AuditFields.observationId (checked_status hchecked)
  obtain ⟨checksum, j', happend⟩ := append_new (D := D) (F := F) x
    (show x.observationId ∉ r.journal.observationIds from hid ▸ hnamed.2)
  unfold ShadowRuntime.record
  simp only [hchecked, happend]
  exact ⟨x, _, rfl⟩

variable {r' : ShadowRuntime}

theorem record_eq_ok {fault : Option WriteFault}
    (h : r.record D F entry fault = (.ok record, r')) :
    (r.context.fields entry).checked = .ok record ∧ ∃ checksum,
      r.journal.append D F record fault = (.ok checksum, r'.journal) ∧
      r' = { r with journal := r'.journal } := by
  unfold ShadowRuntime.record at h
  split at h
  · cases h
  · next x hchecked =>
    split at h
    · cases h
    · next checksum journal happend =>
      cases h
      exact ⟨hchecked, checksum, happend, rfl⟩

variable {faults : Faults}

/-- A call that answers with a record has saved the engine that it planned. -/
theorem adopt_eq_ok
    (h : r.adopt D F staged entry faults = (.ok record, r')) :
    ∃ saved savedAt, staged.snapshot = .ok saved ∧ HoldsSnapshot D F r'.riskStore saved savedAt ∧
      r'.riskEngine = staged ∧ r'.context = r.context ∧
      (r.context.fields { entry with
        riskStateSha256 := some (digest D F (payloadOf saved savedAt)) }).checked = .ok record ∧
      ∃ checksum, r.journal.append D F record faults.append = (.ok checksum, r'.journal) := by
  unfold adopt at h
  have hcases := save_cases (D := D) (F := F) r.riskStore staged
    entry.decisionTimestampUtc faults.save
  generalize save D F r.riskStore staged entry.decisionTimestampUtc faults.save = p at h hcases
  obtain ⟨result, store'⟩ := p
  cases result with
  | error err => cases h
  | ok checksum =>
    obtain ⟨hchecked, c, happend, hr'⟩ := record_eq_ok h
    rcases hcases with ⟨err, heq⟩ | ⟨saved, savedAt, hsaved, hholds, ⟨-, heq⟩ | ⟨-, heq⟩⟩
    · cases heq
    · cases heq
    · cases heq
      rw [hr']
      exact ⟨saved, savedAt, hsaved, hholds, rfl, rfl, hchecked, c, happend⟩

/-! ## Plans -/

/-- An engine that a call plans to take over. -/
structure Planned (r : ShadowRuntime) (staged : PortfolioRiskEngine) (entry : AuditEntry) :
    Prop where
  config : staged.config = r.riskEngine.config
  count : (staged.positions.rows.length : Int) ≤ staged.config.maximumOpenPositions
  peak : r.riskEngine.peakEquity ≤ staged.peakEquity
  named : isBlank entry.observationId = false ∧ entry.observationId ∉ r.journal.observationIds
  aware : entry.decisionTimestampUtc.utcOffset ≠ none
  described : isBlank entry.action = false ∧ entry.reasonCodes ≠ []

variable {observationId : String}

theorem ensureAvailable_eq_ok
    (h : j.ensureAvailable observationId = .ok ()) :
    isBlank observationId = false ∧ observationId ∉ j.observationIds := by
  simp only [ShadowAuditJournal.ensureAvailable, bind_eq_ok, require_eq_ok, decide_eq_true_eq] at h
  obtain ⟨-, hblank, h⟩ := h
  exact ⟨by simpa using hblank, h⟩

theorem ensureAvailable_ok
    (hnamed : isBlank observationId = false) (hnew : observationId ∉ j.observationIds) :
    j.ensureAvailable observationId = .ok () := by
  simp only [ShadowAuditJournal.ensureAvailable, hnamed, hnew, not_false_eq_true, decide_true,
    Bool.not_false]
  rfl

theorem staged_start (h : r.staged = .ok e) : e.config = r.riskEngine.config ∧
    e.peakEquity = r.riskEngine.peakEquity ∧
    (e.positions.rows.length : Int) ≤ e.config.maximumOpenPositions := by
  obtain ⟨s, hs, hfrom⟩ := staged_eq_ok h
  obtain ⟨hcount, rfl⟩ := fromSnapshot_eq_ok.mp hfrom
  exact ⟨rfl, (snapshot_eq_ok hs).2.1, hcount⟩

variable {closedAtUtc : Datetime} {closes : List (String × ℚ)}

theorem closeAll_eq_ok
    (h : closeAll closedAtUtc e closes = .ok staged) :
    staged.config = e.config ∧ e.peakEquity ≤ staged.peakEquity ∧
      staged.positions.rows.length ≤ e.positions.rows.length := by
  induction closes generalizing e with
  | nil =>
    cases h
    exact ⟨rfl, le_refl _, le_refl _⟩
  | cons close closes ih =>
    obtain ⟨key, pnl⟩ := close
    unfold closeAll at h
    split at h
    · cases h
    · next e₁ hclose =>
      obtain ⟨hconfig, hpeak, hlen⟩ := ih h
      unfold recordClose at hclose
      split at hclose
      · cases hclose
      · next now _ =>
        have hroll := (sameBook_rollDay (e := e) now).1
        simp only at hclose
        split at hclose
        · cases hclose
        · cases hclose
          have hsub : ((e.rollDay now).2.positions.erase key).rows.Sublist
              (e.rollDay now).2.positions.rows := List.filter_sublist
          have hlen' := hsub.length_le
          rw [hroll.positions] at hlen'
          refine ⟨hconfig.trans hroll.config, hroll.peak.trans hpeak, hlen.trans ?_⟩
          show ((e.rollDay now).2.positions.erase key).rows.length ≤ _
          rw [hroll.positions]
          exact hlen'

variable {equity : ℚ}

variable {decision : MetaDecision} {proposals : List PortfolioEntryProposal}

theorem planned_observation
    (h : r.observation lower decision observationId proposals equity =
      .ok (.adopted staged entry)) :
    Planned r staged entry ∧ equity ≤ staged.peakEquity := by
  obtain ⟨havailable, hne, e, decisions, he, hall, rfl⟩ := observation_adopted h
  obtain ⟨xs, hopens, hkeys⟩ := evaluateAll_opened hall
  obtain ⟨hconfig, hpeak, hcount⟩ := staged_start he
  have haction : ∀ a : SetupAction, isBlank a.value = false := by
    intro a
    cases a <;> decide
  refine ⟨⟨hopens.config.trans hconfig, ?_, hpeak ▸ hopens.peak, ensureAvailable_eq_ok havailable,
    decision.aware, haction _, List.cons_ne_nil _ _⟩, hopens.noted ?_⟩
  · cases xs with
    | nil =>
      rw [hopens.rows, List.append_nil, hopens.config]
      exact hcount
    | cons x xs => exact (hopens.capped x List.mem_cons_self).count
  · rintro rfl
    exact hne (List.map_eq_nil_iff.mp hkeys.symm)

theorem planned_closing
    (h : r.closing observationId closes closedAtUtc = .ok (.adopted staged entry)) :
    Planned r staged entry := by
  unfold closing at h
  simp only [bind_eq_ok] at h
  obtain ⟨u, havailable, closedAt, -, w, -, e, he, engine, hclose, hplan⟩ := h
  cases hplan
  obtain ⟨hconfig, hpeak, hcount⟩ := staged_start he
  obtain ⟨hconfig', hpeak', hcount'⟩ := closeAll_eq_ok hclose
  refine ⟨hconfig'.trans hconfig, ?_, hpeak ▸ hpeak', ensureAvailable_eq_ok havailable, ?_,
    ⟨show isBlank "CLOSE" = false by decide, List.cons_ne_nil _ _⟩⟩
  · rw [hconfig']
    exact (Int.ofNat_le.mpr hcount').trans hcount
  · intro hnaive
    cases hnaive

theorem planned_holding {observationId reason : String} {activatedAtUtc : Datetime}
    (h : r.holding observationId reason activatedAtUtc = .ok (.adopted staged entry)) :
    Planned r staged entry := by
  unfold holding at h
  simp only [bind_eq_ok] at h
  obtain ⟨u, havailable, activatedAt, -, w, hreason, e, he, h⟩ := h
  obtain ⟨hconfig, hpeak, hcount⟩ := staged_start he
  have hactivate : e.activateKillSwitch reason =
      (.ok (), { e with killSwitchReason := some reason }) := by
    have hrequire : require (!isBlank reason)
        (.valueError "kill switch activation requires a reason") = .ok () :=
      require_eq_ok.mpr (require_eq_ok.mp hreason)
    unfold activateKillSwitch
    rw [hrequire]
  rw [hactivate] at h
  cases h
  refine ⟨hconfig, hcount, hpeak.ge, ensureAvailable_eq_ok havailable, ?_,
    ⟨show isBlank "SAFETY_HOLD" = false by decide, List.cons_ne_nil _ _⟩⟩
  intro hnaive
  cases hnaive

/-- **Plans.** -/
theorem planned {c : RuntimeCall} (h : r.plan lower c = .ok (.adopted staged entry)) :
    Planned r staged entry := by
  cases c with
  | observe decision observationId proposals equity => exact (planned_observation h).1
  | closeVirtual observationId closes closedAtUtc => exact planned_closing h
  | activateSafetyHold observationId reason activatedAtUtc => exact planned_holding h

/-! ## The peak -/

/-- The engine and the stored snapshot have at least this peak. -/
structure PeakAtLeast (D : Digests) (F : Floats) (peak : ℚ) (r : ShadowRuntime) : Prop where
  engine : peak ≤ r.riskEngine.peakEquity
  stored : ∃ saved savedAt, HoldsSnapshot D F r.riskStore saved savedAt ∧ peak ≤ saved.peakEquity

variable {peak : ℚ}

theorem peak_adopt (faults : Faults) (h : ∃ saved savedAt,
    HoldsSnapshot D F r.riskStore saved savedAt ∧ peak ≤ saved.peakEquity)
    (hr : peak ≤ r.riskEngine.peakEquity) (hstaged : peak ≤ staged.peakEquity) :
    PeakAtLeast D F peak (r.adopt D F staged entry faults).2 := by
  unfold adopt
  have hcases := save_cases (D := D) (F := F) r.riskStore staged
    entry.decisionTimestampUtc faults.save
  generalize save D F r.riskStore staged entry.decisionTimestampUtc faults.save = p at hcases
  obtain ⟨result, store'⟩ := p
  have hstored : ∃ saved savedAt, HoldsSnapshot D F store' saved savedAt ∧
      peak ≤ saved.peakEquity := by
    rcases hcases with ⟨err, heq⟩ | ⟨saved, savedAt, hsaved, hholds, -⟩
    · cases heq
      exact h
    · exact ⟨saved, savedAt, hholds, by rw [(snapshot_eq_ok hsaved).2.1]; exact hstaged⟩
  cases result with
  | error err => exact ⟨hr, hstored⟩
  | ok checksum =>
    obtain ⟨hengine, hstore, -⟩ := record_same (D := D) (F := F)
      (r := { r with riskStore := store', riskEngine := staged })
      { entry with riskStateSha256 := some checksum } faults.append
    refine ⟨?_, ?_⟩
    · rw [hengine]
      exact hstaged
    · rw [hstore]
      exact hstored

theorem peak_call (c : RuntimeCall) (faults : Faults) (h : PeakAtLeast D F peak r) :
    PeakAtLeast D F peak (r.call D F lower c faults).2 := by
  rw [call_eq]
  by_cases hplan : ∃ staged entry, r.plan lower c = .ok (.adopted staged entry)
  · obtain ⟨staged, entry, hplan⟩ := hplan
    rw [hplan]
    exact peak_adopt faults h.stored h.engine (h.engine.trans (planned hplan).peak)
  · obtain ⟨hengine, hstore⟩ := perform_same (D := D) (F := F) (r := r) faults
      fun staged entry h => hplan ⟨staged, entry, h⟩
    exact ⟨by rw [hengine]; exact h.engine, by rw [hstore]; exact h.stored⟩

variable {context : ShadowSessionContext}

variable {journal : ShadowAuditJournal}

/-- What a resumption that succeeds has found. -/
theorem resume_eq_ok {store : PortfolioRiskStateStore}
    {config : PortfolioRiskConfig} :
    resume D F context store journal config = .ok r' ↔
      ∃ snapshot records latest checksum engine, store.loadRequired D F = .ok snapshot ∧
        verify D F journal.file = .ok records ∧ records ≠ [] ∧
        (∀ x ∈ records, context.Matches x) ∧ journal.latestRiskStateSha256 D F = .ok latest ∧
        store.checksum D F = .ok checksum ∧ (latest = none ∨ latest = checksum) ∧
        fromSnapshot snapshot config = .ok engine ∧
        { context, riskEngine := engine, riskStore := store, journal } = r' := by
  unfold resume
  simp only [bind_eq_ok, require_eq_ok, List.all_eq_true, decide_eq_true_eq, Bool.not_eq_true',
    List.isEmpty_eq_false_iff, Except.ok.injEq]
  constructor
  · rintro ⟨snapshot, hload, records, hverify, u, hne, v, hmatch, latest, hlatest, checksum, hsum,
      w, hsame, engine, hfrom, rfl⟩
    exact ⟨snapshot, records, latest, checksum, engine, hload, hverify, hne, hmatch, hlatest, hsum,
      hsame, hfrom, rfl⟩
  · rintro ⟨snapshot, records, latest, checksum, engine, hload, hverify, hne, hmatch, hlatest, hsum,
      hsame, hfrom, rfl⟩
    exact ⟨snapshot, hload, records, hverify, (), hne, (), hmatch, latest, hlatest, checksum, hsum,
      (), hsame, engine, hfrom, rfl⟩

theorem reopen_eq_ok
    {riskConfig : PortfolioRiskConfig} (h : r.reopen D F context riskConfig = .ok r') :
    r'.riskStore = r.riskStore ∧ ∃ snapshot, r.riskStore.loadRequired D F = .ok snapshot ∧
      fromSnapshot snapshot riskConfig = .ok r'.riskEngine := by
  obtain ⟨journal, -, h⟩ := bind_eq_ok.mp h
  obtain ⟨snapshot, records, latest, checksum, engine, hload, -, -, -, -, -, -, hengine, rfl⟩ :=
    resume_eq_ok.mp h
  exact ⟨rfl, snapshot, hload, hengine⟩

theorem loadRequired_holds (hhex : D.Hex) (h : HoldsSnapshot D F store saved savedAt) :
    store.loadRequired D F = .ok saved.inUtc := by
  unfold PortfolioRiskStateStore.loadRequired
  rw [h.load hhex]
  rfl

theorem peak_step (lower : String → String) (hhex : D.Hex) (r : ShadowRuntime) (op : RuntimeOp)
    (h : PeakAtLeast D F peak r) : PeakAtLeast D F peak (r.step D F lower op) := by
  cases op with
  | call c faults => exact peak_call c faults h
  | resume context riskConfig =>
    simp only [step]
    split
    · next r' hreopen =>
      obtain ⟨saved, savedAt, hholds, hpeak⟩ := h.stored
      obtain ⟨hstore, snapshot, hload, hengine⟩ := reopen_eq_ok hreopen
      rw [loadRequired_holds hhex hholds] at hload
      cases hload
      obtain ⟨-, hengine⟩ := fromSnapshot_eq_ok.mp hengine
      refine ⟨?_, saved, savedAt, hstore ▸ hholds, hpeak⟩
      rw [← hengine]
      exact hpeak
    · exact h

variable {riskEngine : PortfolioRiskEngine} {riskStore : PortfolioRiskStateStore}
  {initializedAtUtc : Datetime} {r₀ : ShadowRuntime}

theorem initializeNew_eq_ok
    (h : initializeNew D F context riskEngine riskStore journal initializedAtUtc = .ok r₀) :
    verify D F journal.file = .ok [] ∧ ∃ entry record, entry.status = .initialized ∧
      ({ context, riskEngine, riskStore, journal } : ShadowRuntime).adopt D F riskEngine entry {} =
        (.ok record, r₀) := by
  unfold initializeNew at h
  simp only [bind_eq_ok, require_eq_ok] at h
  obtain ⟨existing, -, u, -, records, hverify, w, hempty, h⟩ := h
  rw [List.isEmpty_iff.mp hempty] at hverify
  split at h
  · cases h
  · next record r happend =>
    cases h
    exact ⟨hverify, _, record, rfl, happend⟩

/-- A new session, of an engine whose snapshot can be taken. -/
theorem initializeNew_new (hhex : D.Hex) (context : ShadowSessionContext) (path : String)
    {e : PortfolioRiskEngine} {saved : PortfolioRiskSnapshot} (hsaved : e.snapshot = .ok saved)
    (t : Instant) :
    ∃ r₀ x, initializeNew D F context e ⟨path, none⟩ {} (.ofInstant t) = .ok r₀ ∧
      r₀.riskEngine = e ∧ HoldsSnapshot D F r₀.riskStore saved t ∧ Wrote D F r₀.journal [x] ∧
      x.observationId = context.sessionId ++ ":initialize" ∧
      x.riskStateSha256 = some (digest D F (payloadOf saved t)) := by
  have hsession : isBlank context.sessionId = false := context.complete _ List.mem_cons_self
  have hnamed : isBlank (context.sessionId ++ ":initialize") = false := by
    rw [isBlank_append, hsession, Bool.false_and]
  have hlen : (digest D F (payloadOf saved t)).length = 64 := hhex.length _
  have hsave := save_ok (D := D) (F := F) ⟨path, none⟩ hsaved
    (utc_ofInstant t "risk state timestamp")
  let entry : AuditEntry :=
    { observationId := context.sessionId ++ ":initialize"
      decisionTimestampUtc := .ofInstant t
      action := "INITIALIZE"
      status := .initialized
      reasonCodes := ["SHADOW_SESSION_INITIALIZED"]
      riskStateSha256 := some (digest D F (payloadOf saved t)) }
  let r : ShadowRuntime :=
    { context, riskEngine := e, riskStore := ⟨path, some (savedText D F saved t)⟩, journal := {} }
  obtain ⟨x, r₀, hrecord⟩ := recorded (D := D) (F := F) r entry
    ⟨hnamed, List.not_mem_nil⟩ (Option.some_ne_none _)
    ⟨show isBlank "INITIALIZE" = false by decide, List.cons_ne_nil _ _⟩
    (fun v hv => by rw [← Option.some.inj hv]; exact hlen)
  obtain ⟨hchecked, checksum, happend, hr₀⟩ := record_eq_ok hrecord
  have hfields := checked_status hchecked
  refine ⟨r₀, x, ?_, by rw [hr₀], by rw [hr₀]; rfl, append_eq_ok wrote_new happend,
    congrArg AuditFields.observationId hfields, congrArg AuditFields.riskStateSha256 hfields⟩
  have hadopt : ({ context, riskEngine := e, riskStore := ⟨path, none⟩, journal := {} } :
      ShadowRuntime).adopt D F e { entry with riskStateSha256 := none } {} = (.ok x, r₀) := by
    unfold adopt
    simp only [entry, hsave]
    exact hrecord
  unfold initializeNew
  have hverify : verify D F none = .ok [] := rfl
  have hload : PortfolioRiskStateStore.load D F ⟨path, none⟩ = .ok none := rfl
  simp only [entry] at hadopt
  simp only [hload, hverify, hadopt]
  rfl

theorem peak_initializeNew
    (h : initializeNew D F context riskEngine riskStore journal initializedAtUtc = .ok r₀) :
    PeakAtLeast D F riskEngine.peakEquity r₀ := by
  obtain ⟨-, entry, record, -, hadopt⟩ := initializeNew_eq_ok h
  obtain ⟨saved, savedAt, hsaved, hholds, hengine, -⟩ := adopt_eq_ok hadopt
  exact ⟨by rw [hengine], saved, savedAt, hholds, by rw [(snapshot_eq_ok hsaved).2.1]⟩

variable (D F lower) in
/-- The equity of an observation that opened its positions. -/
def openedEquity (r : ShadowRuntime) : RuntimeOp → Option ℚ
  | .call (.observe decision observationId proposals equity) faults =>
    match (r.observe D F lower decision observationId proposals equity faults).1 with
    | .ok record => if record.status = .eligibleNoOrder then some equity else none
    | .error _ => none
  | _ => none

/-- An observation that opened its positions has saved its equity in the peak. -/
theorem peak_opened {op : RuntimeOp}
    (h : r.openedEquity D F lower op = some equity) :
    PeakAtLeast D F equity (r.step D F lower op) := by
  unfold openedEquity at h
  split at h
  · next decision observationId proposals q faults =>
    split at h
    · next record hrecord =>
      split_ifs at h with hstatus
      cases h
      show PeakAtLeast D F equity (r.perform D F
        (r.observation lower decision observationId proposals equity) faults).2
      change (r.perform D F (r.observation lower decision observationId proposals equity)
        faults).1 = _ at hrecord
      cases hplan : r.observation lower decision observationId proposals equity with
      | error err =>
        rw [hplan] at hrecord
        cases hrecord
      | ok plan =>
        cases plan with
        | audited entry =>
          rw [hplan] at hrecord
          obtain ⟨hchecked, -⟩ := record_eq_ok (Prod.ext hrecord rfl)
          rw [checked_status hchecked] at hstatus
          exact absurd hstatus (observation_audited hplan).1
        | adopted staged entry =>
          rw [hplan] at hrecord
          obtain ⟨saved, savedAt, hsaved, hholds, hengine, -⟩ :=
            adopt_eq_ok (Prod.ext hrecord rfl)
          have hnoted := (planned_observation hplan).2
          refine ⟨?_, saved, savedAt, hholds, ?_⟩
          · show equity ≤ (r.adopt D F staged entry faults).2.riskEngine.peakEquity
            rw [hengine]
            exact hnoted
          · rw [(snapshot_eq_ok hsaved).2.1]
            exact hnoted
    · cases h
  · cases h

/-- An observation that waited or was rejected leaves the engine and the store. -/
theorem observe_rejected
    (h : (r.observe D F lower decision observationId proposals equity faults).1 = .ok record)
    (hstatus : record.status ≠ .eligibleNoOrder) :
    (r.observe D F lower decision observationId proposals equity faults).2.riskEngine =
        r.riskEngine ∧
      (r.observe D F lower decision observationId proposals equity faults).2.riskStore =
        r.riskStore := by
  refine perform_same faults fun staged entry hplan => hstatus ?_
  change (r.perform D F (r.observation lower decision observationId proposals equity)
    faults).1 = _ at h
  rw [hplan] at h
  obtain ⟨saved, savedAt, -, -, -, -, hchecked, -⟩ := adopt_eq_ok (Prod.ext h rfl)
  obtain ⟨-, -, e, decisions, -, -, rfl⟩ := observation_adopted hplan
  rw [checked_status hchecked]
  rfl

/-- The entry of a decision to wait. -/
def waitEntry (decision : MetaDecision) (observationId : String) : AuditEntry where
  observationId
  decisionTimestampUtc := decision.decisionTimestampUtc
  action := decision.action.value
  status := .wait
  reasonCodes := decision.reasonCodes

theorem observation_wait (lower : String → String) (decision : MetaDecision)
    (equity : ℚ)
    (haction : decision.action = .wait) (hnamed : isBlank observationId = false)
    (hnew : observationId ∉ r.journal.observationIds) :
    r.observation lower decision observationId [] equity =
      .ok (.audited (waitEntry decision observationId)) := by
  unfold observation
  rw [ensureAvailable_ok hnamed hnew]
  exact if_pos haction

/-- An observation that waits is recorded, and leaves the store. -/
theorem observe_wait (lower : String → String) (decision : MetaDecision)
    (equity : ℚ)
    (haction : decision.action = .wait) (hnamed : isBlank observationId = false)
    (hnew : observationId ∉ r.journal.observationIds) :
    ∃ x r', r.observe D F lower decision observationId [] equity {} = (.ok x, r') ∧
      r'.riskStore = r.riskStore := by
  have haction' : isBlank decision.action.value = false := by
    rw [haction]
    exact show isBlank "WAIT" = false by decide
  obtain ⟨x, r', hrecord⟩ := recorded (D := D) (F := F) r
    (waitEntry decision observationId) ⟨hnamed, hnew⟩ decision.aware
    ⟨haction', (decision.wait haction).2.2.1⟩ (by rintro v ⟨⟩)
  refine ⟨x, r', ?_, ?_⟩
  · unfold observe
    rw [observation_wait lower decision equity haction hnamed hnew]
    exact hrecord
  · obtain ⟨-, checksum, -, hr'⟩ := record_eq_ok hrecord
    rw [hr']

end ShadowRuntime

open ShadowRuntime

/-- **The stored peak.** In every run, the stored peak is at least the peak of the first
engine and the equity of every observation that opened its positions; an observation that
waited or was rejected leaves the stored peak. -/
theorem peak_over_runs (D : Digests) (F : Floats) (lower : String → String) (hhex : D.Hex)
    (context : ShadowSessionContext) (riskEngine : PortfolioRiskEngine)
    (riskStore : PortfolioRiskStateStore) (journal : ShadowAuditJournal)
    (initializedAtUtc : Datetime) (r₀ : ShadowRuntime)
    (h₀ : initializeNew D F context riskEngine riskStore journal initializedAtUtc = .ok r₀)
    (ops : List RuntimeOp) :
    let r := Runs.run (step D F lower) r₀ ops
    (∃ saved, r.riskStore.load D F = .ok (some saved) ∧
      riskEngine.peakEquity ≤ saved.peakEquity ∧
      ∀ equity, some equity ∈ Runs.trace (step D F lower) (openedEquity D F lower) r₀ ops →
        equity ≤ saved.peakEquity) ∧
    ∀ decision observationId proposals equity faults record,
      (r.observe D F lower decision observationId proposals equity faults).1 = .ok record →
      record.status ≠ .eligibleNoOrder →
      (r.observe D F lower decision observationId proposals equity faults).2.riskStore =
        r.riskStore := by
  intro r
  refine ⟨?_, fun decision observationId proposals equity faults record h hstatus =>
    (observe_rejected h hstatus).2⟩
  have hfirst : PeakAtLeast D F riskEngine.peakEquity r :=
    Runs.run_invariant (peak_step lower hhex) ops (peak_initializeNew h₀)
  obtain ⟨saved, savedAt, hholds, hpeak⟩ := hfirst.stored
  refine ⟨saved.inUtc, hholds.load hhex, hpeak, fun equity hequity => ?_⟩
  obtain ⟨before, op, after, hops, hopened⟩ := Runs.mem_trace hequity
  have hnoted : PeakAtLeast D F equity r := by
    have hafter := Runs.run_invariant (peak_step lower hhex) after
      (peak_opened hopened.symm)
    rwa [← Runs.run_cons, ← Runs.run_append, ← hops] at hafter
  obtain ⟨saved', savedAt', hholds', hpeak'⟩ := hnoted.stored
  have hload := hholds.load hhex
  rw [hholds'.load hhex] at hload
  have hsame : saved'.inUtc = saved.inUtc := Option.some.inj (Except.ok.inj hload)
  show equity ≤ saved.inUtc.peakEquity
  rw [← hsame]
  exact hpeak'

def sampleContext : ShadowSessionContext := ⟨"s", "d", "c", "f", by decide⟩

def emptySnapshot : PortfolioRiskSnapshot where
  positions := []
  peakEquity := 0
  dailyRealizedPnl := 0
  currentDay := none
  killSwitchReason := none
  unique := List.nodup_nil
  peak := le_refl 0
  reason := rfl

def haltedSnapshot : PortfolioRiskSnapshot :=
  { emptySnapshot with
    killSwitchReason := some "halt"
    reason := by decide }

def initializedRecord : ShadowAuditRecord :=
  { waitRecord "s:initialize" "SHADOW_SESSION_INITIALIZED" (by decide) with
    action := "INITIALIZE"
    status := .initialized
    riskStateSha256 := some "e0014487253401c3853410b55cc4eff160bd626f3376bb32bd2479d68b5460ef"
    described := ⟨by decide, List.cons_ne_nil _ _⟩
    checksum := by decide }

def haltedRecord : ShadowAuditRecord :=
  { waitRecord "h" "SHADOW_EVENT_LOOP_FAILURE_THRESHOLD" (by decide) with
    action := "SAFETY_HOLD"
    status := .safetyHold
    riskReasons := ["halt"]
    riskStateSha256 := some "ea92eb1a51af76290800c0287505cb1411f4fafbb4fffa2ac53ab8508554c0a6"
    described := ⟨by decide, List.cons_ne_nil _ _⟩
    checksum := by decide }

/-- The SHA-256 of what a session writes that starts, and then waits or is halted. -/
def sessionDigests : Digests :=
  let first := "8e6c248546fabbc15c058f990f73abaa094ae6eb842ed0fb00d776a3be9a6a57"
  digestOf
    [(dumps sampleFloats (payloadOf emptySnapshot 0),
        "e0014487253401c3853410b55cc4eff160bd626f3376bb32bd2479d68b5460ef"),
      (dumps sampleFloats (chained .null (recordToDict initializedRecord)), first),
      (dumps sampleFloats (chained (.str first)
          (recordToDict (waitRecord "w" "NO_EDGE" (by decide)))),
        "e4902256063792d35adbf346a2e50bdfae1d325793350b6dbb6f6060a017b8c6"),
      (dumps sampleFloats (payloadOf haltedSnapshot 0),
        "ea92eb1a51af76290800c0287505cb1411f4fafbb4fffa2ac53ab8508554c0a6"),
      (dumps sampleFloats (chained (.str first) (recordToDict haltedRecord)),
        "2c960bc5afabe255913f6e46a7cad5f290f1bbd8d41c73d62ec8840ab711fffe")]

theorem sessionDigests_hex : sessionDigests.Hex := digestOf_hex (by decide +kernel)

theorem tightEngine_snapshot : tightEngine.snapshot = .ok emptySnapshot := by rfl

/-- A session that starts and waits at an equity of 1000. -/
theorem peak_over_runs_waiting : ∃ r₀, initializeNew sessionDigests sampleFloats sampleContext
      tightEngine ⟨"portfolio.json", none⟩ {} (.ofInstant 0) = .ok r₀ ∧
    ∃ saved, (Runs.run (step sessionDigests sampleFloats String.toLower) r₀
      [.call (.observe noEdgeDecision "w" [] 1000) {}]).riskStore.load sessionDigests
        sampleFloats = .ok (some saved) ∧ tightEngine.peakEquity ≤ saved.peakEquity := by
  obtain ⟨r₀, x, h₀, -⟩ := initializeNew_new (F := sampleFloats) sessionDigests_hex sampleContext
    "portfolio.json" tightEngine_snapshot 0
  have hpeak := peak_over_runs sessionDigests sampleFloats String.toLower
    sessionDigests_hex sampleContext tightEngine ⟨"portfolio.json", none⟩ {} (.ofInstant 0) r₀ h₀
    [.call (.observe noEdgeDecision "w" [] 1000) {}]
  obtain ⟨⟨saved, hload, hfirst, -⟩, -⟩ := hpeak
  exact ⟨r₀, h₀, saved, hload, hfirst⟩

/-- The observation is recorded, and the stored peak is less than its equity. -/
theorem waiting_peak_lost : ∃ r₀ x r' saved, initializeNew sessionDigests sampleFloats
      sampleContext tightEngine ⟨"portfolio.json", none⟩ {} (.ofInstant 0) = .ok r₀ ∧
    r₀.observe sessionDigests sampleFloats String.toLower noEdgeDecision "w" [] 1000 {} =
      (.ok x, r') ∧
    r'.riskStore.load sessionDigests sampleFloats = .ok (some saved) ∧
    saved.peakEquity < 1000 := by
  obtain ⟨r₀, y, h₀, -, hholds, hwrote, hid, -⟩ := initializeNew_new (F := sampleFloats)
    sessionDigests_hex sampleContext "portfolio.json" tightEngine_snapshot 0
  have hnew : "w" ∉ r₀.journal.observationIds := by
    rw [hwrote.ids, List.map_singleton, hid]
    decide
  obtain ⟨x, r', hobserve, hstore⟩ := observe_wait (D := sessionDigests) (F := sampleFloats)
    String.toLower noEdgeDecision 1000 rfl (by decide) hnew
  refine ⟨r₀, x, r', emptySnapshot.inUtc, h₀, hobserve, ?_, ?_⟩
  · rw [hstore]
    exact hholds.load sessionDigests_hex
  · show (0 : ℚ) < 1000
    norm_num

end Greenfield.Shadow
