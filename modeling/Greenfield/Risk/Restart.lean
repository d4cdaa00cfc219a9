import Greenfield.Risk.StateStore

/-!
# Restarting from the store

An engine that is rebuilt from its stored snapshot has the same positions, in the order of
their keys and with their timestamps in UTC. Nothing that the engine answers depends on
either (`Alike`), so the restart cannot be seen (`restart_transparent`).
-/

namespace Greenfield.Risk

open Keyed Py Json

/-- What an operation returns or raises. -/
inductive EngineResult where
  | decision (result : Except PyError PortfolioRiskDecision)
  | done (result : Except PyError Unit)

namespace PortfolioRiskEngine

def result (e : PortfolioRiskEngine) : EngineOp → EngineResult
  | .evaluateEntry proposal equity => .decision (e.evaluateEntry proposal equity).1
  | .recordOpen proposal decision => .done (e.recordOpen proposal decision).1
  | .recordClose key pnl at_ => .done (e.recordClose key pnl at_).1
  | .activateKillSwitch reason => .done (e.activateKillSwitch reason).1
  | .clearKillSwitch reason => .done (e.clearKillSwitch reason).1
  | .updateEquity equity => .done (e.updateEquity equity).1

/-- The positions with their timestamps in UTC. -/
def book (e : PortfolioRiskEngine) : List PortfolioPosition :=
  e.positions.rows.map PortfolioPosition.inUtc

/-- Engines that differ in the order of their positions and the zones of their timestamps. -/
structure Alike (e e' : PortfolioRiskEngine) : Prop where
  config : e'.config = e.config
  book : e'.book.Perm e.book
  peakEquity : e'.peakEquity = e.peakEquity
  dailyRealizedPnl : e'.dailyRealizedPnl = e.dailyRealizedPnl
  currentDay : e'.currentDay = e.currentDay
  killSwitchReason : e'.killSwitchReason = e.killSwitchReason
  pendingDecisions : e'.pendingDecisions = e.pendingDecisions

variable {e e' : PortfolioRiskEngine} {proposal : PortfolioEntryProposal} {equity : ℚ}
  {d : PortfolioRiskDecision}

/-! ## What alike engines read off their books -/

/-- A field that is not the timestamp. -/
theorem Alike.perm_map {β : Type} (h : Alike e e') {f : PortfolioPosition → β}
    (hf : f ∘ PortfolioPosition.inUtc = f) :
    (e'.positions.rows.map f).Perm (e.positions.rows.map f) := by
  have hperm := h.book.map f
  unfold PortfolioRiskEngine.book at hperm
  rw [List.map_map, List.map_map, hf] at hperm
  exact hperm

theorem Alike.grossWhere (h : Alike e e') (p : PortfolioPosition → Bool)
    (hp : p ∘ PortfolioPosition.inUtc = p) : e'.grossWhere p = e.grossWhere p := by
  have hfilter : ∀ xs : List PortfolioPosition,
      (xs.filter p).map (fun x => |x.signedNotional|) =
        ((xs.map PortfolioPosition.inUtc).filter p).map fun x => |x.signedNotional| := by
    intro xs
    rw [List.filter_map, hp, List.map_map]
    rfl
  unfold PortfolioRiskEngine.grossWhere
  rw [hfilter e'.positions.rows, hfilter e.positions.rows]
  have hperm := (h.book.filter p).map fun x => |x.signedNotional|
  exact hperm.sum_eq

theorem Alike.grossExposure (h : Alike e e') : e'.grossExposure = e.grossExposure :=
  h.grossWhere _ rfl

theorem Alike.netExposure (h : Alike e e') : e'.netExposure = e.netExposure :=
  (h.perm_map (f := PortfolioPosition.signedNotional) rfl).sum_eq

theorem Alike.committedRiskFraction (h : Alike e e') :
    e'.committedRiskFraction = e.committedRiskFraction :=
  (h.perm_map (f := PortfolioPosition.committedRiskFraction) rfl).sum_eq

theorem Alike.length (h : Alike e e') : e'.positions.rows.length = e.positions.rows.length := by
  have hlen := (h.perm_map (f := PortfolioPosition.key) rfl).length_eq
  rwa [List.length_map, List.length_map] at hlen

theorem Alike.find_none (h : Alike e e') (key : String) :
    e'.positions.find key = none ↔ e.positions.find key = none := by
  rw [Table.find_none_iff_mem, Table.find_none_iff_mem, (h.perm_map rfl).mem_iff]

theorem Alike.find_isSome (h : Alike e e') (key : String) :
    (e'.positions.find key).isSome = (e.positions.find key).isSome := by
  rw [Bool.eq_iff_iff, ← not_iff_not, Bool.not_eq_true, Bool.not_eq_true,
    Option.isSome_eq_false_iff, Option.isSome_eq_false_iff, Option.isNone_iff_eq_none,
    Option.isNone_iff_eq_none]
  exact h.find_none key

theorem Alike.rejected (h : Alike e e') (reason key : String) :
    e'.rejected reason key = e.rejected reason key := by
  unfold PortfolioRiskEngine.rejected
  rw [h.grossExposure, h.netExposure, h.committedRiskFraction]

theorem Alike.approval (h : Alike e e') (approved : ℚ) :
    e'.approval proposal approved = e.approval proposal approved := by
  unfold PortfolioRiskEngine.approval
  rw [h.grossExposure, h.netExposure, h.committedRiskFraction]

theorem Alike.blockingReason (h : Alike e e') :
    e'.blockingReason proposal equity = e.blockingReason proposal equity := by
  have hsymbols := ((h.perm_map (f := PortfolioPosition.symbol) rfl).filter
    fun s => decide (s ≠ proposal.symbol)).all_eq
      (f := fun s => decide (s ∈ proposal.correlationCheckedSymbols))
  unfold PortfolioRiskEngine.blockingReason
  rw [h.killSwitchReason, h.find_isSome, h.length, h.config, h.dailyRealizedPnl, h.peakEquity]
  simp only [hsymbols]

theorem Alike.approvedNotional (h : Alike e e') :
    e'.approvedNotional proposal equity = e.approvedNotional proposal equity := by
  have hcorrelated := h.grossWhere
    (fun x => decide (x.symbol ∈ proposal.symbol :: proposal.correlatedSymbols)) rfl
  unfold PortfolioRiskEngine.approvedNotional
  rw [h.grossExposure, h.netExposure, h.committedRiskFraction, h.config, h.grossWhere _ rfl,
    h.grossWhere _ rfl, h.grossWhere _ rfl, h.grossWhere _ rfl]
  simp only [hcorrelated]

theorem Alike.openable (h : Alike e e') : e'.openable proposal d = e.openable proposal d := by
  unfold PortfolioRiskEngine.openable
  rw [h.config, h.pendingDecisions, ← Option.not_isSome, ← Option.not_isSome, h.find_isSome]

/-! ## Steps of alike engines -/

theorem Alike.rollDay (h : Alike e e') (now : Instant) :
    (e'.rollDay now).1 = (e.rollDay now).1 ∧ Alike (e.rollDay now).2 (e'.rollDay now).2 := by
  have hadvance : Alike { e with currentDay := some (utcDate now), dailyRealizedPnl := 0 }
      { e' with currentDay := some (utcDate now), dailyRealizedPnl := 0 } :=
    { h with dailyRealizedPnl := rfl, currentDay := rfl }
  unfold PortfolioRiskEngine.rollDay
  rw [h.currentDay]
  cases e.currentDay with
  | none => exact ⟨rfl, hadvance⟩
  | some day =>
    simp only
    split
    · exact ⟨rfl, hadvance⟩
    · exact ⟨rfl, h⟩

theorem Alike.raisePeak (h : Alike e e') (equity : ℚ) :
    Alike (e.raisePeak equity) (e'.raisePeak equity) :=
  { h with peakEquity := congrArg (max · equity) h.peakEquity }

theorem Alike.judge (h : Alike e e') : (e'.judge proposal equity).1 = (e.judge proposal equity).1 ∧
    Alike (e.judge proposal equity).2 (e'.judge proposal equity).2 := by
  unfold PortfolioRiskEngine.judge
  rw [h.blockingReason, h.approvedNotional, h.approval, h.rejected, h.config]
  cases e.blockingReason proposal equity with
  | some reason => exact ⟨h.rejected reason proposal.key, h⟩
  | none =>
    simp only
    split_ifs
    · exact ⟨rfl, h⟩
    · cases (e.approval proposal (e.approvedNotional proposal equity)).checked with
      | error err => exact ⟨rfl, h⟩
      | ok decision =>
        exact ⟨rfl, rfl, h.book, h.peakEquity, h.dailyRealizedPnl, h.currentDay,
          h.killSwitchReason, congrArg (Table.upsert · decision) h.pendingDecisions⟩

theorem Alike.evaluateEntry (h : Alike e e') :
    (e'.evaluateEntry proposal equity).1 = (e.evaluateEntry proposal equity).1 ∧
      Alike (e.evaluateEntry proposal equity).2 (e'.evaluateEntry proposal equity).2 := by
  rw [evaluateEntry_eq, evaluateEntry_eq]
  cases utc proposal.proposedAtUtc "proposal timestamp" with
  | error err => exact ⟨rfl, h⟩
  | ok now =>
    obtain ⟨hrolled, hroll⟩ := h.rollDay now
    simp only [hrolled]
    split_ifs
    · exact ⟨hroll.rejected _ _, hroll⟩
    · cases positiveEquity equity with
      | error err => exact ⟨rfl, hroll⟩
      | ok u => exact (hroll.raisePeak equity).judge

theorem Alike.recordOpen (h : Alike e e') :
    (e'.recordOpen proposal d).1 = (e.recordOpen proposal d).1 ∧
      Alike (e.recordOpen proposal d).2 (e'.recordOpen proposal d).2 := by
  unfold PortfolioRiskEngine.recordOpen
  rw [h.openable]
  cases hopen : e.openable proposal d with
  | error err => exact ⟨rfl, h⟩
  | ok x =>
    obtain ⟨-, hfree, -, hkey, -⟩ := Tracked.openable_eq_ok hopen
    have hrows : (e.positions.upsert x).rows = e.positions.rows ++ [x] :=
      Table.upsert_rows (hkey ▸ hfree)
    have hrows' : (e'.positions.upsert x).rows = e'.positions.rows ++ [x] :=
      Table.upsert_rows (hkey ▸ (h.find_none proposal.key).mpr hfree)
    refine ⟨rfl, { h with
      book := ?_
      pendingDecisions := congrArg (Table.erase · proposal.key) h.pendingDecisions }⟩
    show ((e'.positions.upsert x).rows.map PortfolioPosition.inUtc).Perm
      ((e.positions.upsert x).rows.map PortfolioPosition.inUtc)
    rw [hrows, hrows', List.map_append, List.map_append]
    exact h.book.append_right _

theorem Alike.recordClose (h : Alike e e') (key : String) (realizedPnl : ℚ)
    (closedAtUtc : Datetime) :
    (e'.recordClose key realizedPnl closedAtUtc).1 = (e.recordClose key realizedPnl closedAtUtc).1 ∧
      Alike (e.recordClose key realizedPnl closedAtUtc).2
        (e'.recordClose key realizedPnl closedAtUtc).2 := by
  unfold PortfolioRiskEngine.recordClose
  cases utc closedAtUtc "position closed timestamp" with
  | error err => exact ⟨rfl, h⟩
  | ok now =>
    have hroll := (h.rollDay now).2
    simp only
    generalize (e.rollDay now).2 = a at hroll
    generalize (e'.rollDay now).2 = a' at hroll
    cases hfind : a.positions.find key with
    | none =>
      rw [(hroll.find_none key).mpr hfind]
      exact ⟨rfl, hroll⟩
    | some x =>
      cases hfind' : a'.positions.find key with
      | none =>
        rw [(hroll.find_none key).mp hfind'] at hfind
        cases hfind
      | some x' =>
        refine ⟨rfl, { hroll with
          book := ?_
          dailyRealizedPnl := congrArg (· + realizedPnl) hroll.dailyRealizedPnl }⟩
        have hfilter : ∀ xs : List PortfolioPosition,
            (xs.filter fun x => x.key ≠ key).map PortfolioPosition.inUtc =
              (xs.map PortfolioPosition.inUtc).filter fun x => x.key ≠ key := by
          intro xs
          rw [List.filter_map]
          rfl
        show ((a'.positions.rows.filter fun x => x.key ≠ key).map _).Perm
          ((a.positions.rows.filter fun x => x.key ≠ key).map _)
        rw [hfilter, hfilter]
        exact hroll.book.filter _

/-- **Alike engines answer alike**, and stay so. -/
theorem Alike.step (e e' : PortfolioRiskEngine) (op : EngineOp) (h : Alike e e') :
    e'.result op = e.result op ∧ Alike (e.step op) (e'.step op) := by
  cases op with
  | evaluateEntry proposal equity =>
    obtain ⟨hresult, hnext⟩ := @Alike.evaluateEntry e e' proposal equity h
    exact ⟨congrArg EngineResult.decision hresult, hnext⟩
  | recordOpen proposal d =>
    obtain ⟨hresult, hnext⟩ := @Alike.recordOpen e e' proposal d h
    exact ⟨congrArg EngineResult.done hresult, hnext⟩
  | recordClose key pnl closed =>
    obtain ⟨hresult, hnext⟩ := h.recordClose key pnl closed
    exact ⟨congrArg EngineResult.done hresult, hnext⟩
  | activateKillSwitch reason =>
    simp only [PortfolioRiskEngine.result, PortfolioRiskEngine.step, activateKillSwitch]
    split
    · exact ⟨rfl, h⟩
    · exact ⟨rfl, { h with killSwitchReason := rfl }⟩
  | clearKillSwitch reason =>
    simp only [PortfolioRiskEngine.result, PortfolioRiskEngine.step, clearKillSwitch]
    split
    · exact ⟨rfl, h⟩
    · exact ⟨rfl, { h with killSwitchReason := rfl }⟩
  | updateEquity equity =>
    simp only [PortfolioRiskEngine.result, PortfolioRiskEngine.step, updateEquity]
    split
    · exact ⟨rfl, h⟩
    · exact ⟨rfl, h.raisePeak equity⟩

/-! ## Snapshots of a run -/

/-- What the constructor of a snapshot tests. -/
structure Sound (e : PortfolioRiskEngine) : Prop where
  peak : 0 ≤ e.peakEquity
  reason : e.killSwitchReason.all (fun r => !isBlank r) = true

theorem Initial.sound (h : e.Initial) : Sound e := by
  rcases h with h | ⟨snapshot, h⟩
  · rw [h]
    exact ⟨le_refl _, rfl⟩
  · obtain ⟨-, h⟩ := fromSnapshot_eq_ok.mp h
    rw [← h]
    exact ⟨snapshot.peak, snapshot.reason⟩

theorem SameBook.sound (h : SameBook e e') (hsound : Sound e) : Sound e' :=
  ⟨hsound.peak.trans h.peak, by rw [h.killSwitchReason]; exact hsound.reason⟩

theorem sound_step (e : PortfolioRiskEngine) (op : EngineOp) (h : Sound e) : Sound (e.step op) := by
  cases op with
  | evaluateEntry proposal equity => exact evaluateEntry_cases.1.sound h
  | recordOpen proposal d =>
    simp only [PortfolioRiskEngine.step, PortfolioRiskEngine.recordOpen]
    split
    · exact h
    · exact ⟨h.peak, h.reason⟩
  | recordClose key pnl closed =>
    simp only [PortfolioRiskEngine.step, PortfolioRiskEngine.recordClose]
    split
    · exact h
    · next now _ =>
      have hroll := (sameBook_rollDay now).1.sound h
      split
      · exact hroll
      · exact ⟨hroll.peak, hroll.reason⟩
  | activateKillSwitch reason =>
    simp only [PortfolioRiskEngine.step, activateKillSwitch]
    split
    · exact h
    · next hreason => exact ⟨h.peak, by simpa [require_eq_ok] using hreason⟩
  | clearKillSwitch reason =>
    simp only [PortfolioRiskEngine.step, clearKillSwitch]
    split
    · exact h
    · exact ⟨h.peak, rfl⟩
  | updateEquity equity =>
    simp only [PortfolioRiskEngine.step, updateEquity]
    split
    · exact h
    · exact ⟨h.peak.trans (le_max_left _ _), h.reason⟩

theorem Sound.snapshot (h : Sound e) : ∃ s, e.snapshot = .ok s := by
  unfold PortfolioRiskEngine.snapshot
  rw [dif_pos h.peak, dif_pos h.reason]
  exact ⟨_, rfl⟩

variable {s : PortfolioRiskSnapshot}

/-- What a snapshot holds. -/
theorem snapshot_eq_ok (h : e.snapshot = .ok s) :
    s.positions = e.sortedPositions ∧ s.peakEquity = e.peakEquity ∧
      s.dailyRealizedPnl = e.dailyRealizedPnl ∧ s.currentDay = e.currentDay ∧
      s.killSwitchReason = e.killSwitchReason := by
  unfold PortfolioRiskEngine.snapshot at h
  split at h
  · split at h
    · cases h
      exact ⟨rfl, rfl, rfl, rfl, rfl⟩
    · cases h
  · cases h

/-- A snapshot in the order of its keys is the snapshot of the engine it gives. -/
theorem snapshot_fromSnapshot {config : PortfolioRiskConfig}
    (hsorted : s.positions.Pairwise fun a b => a.key ≤ b.key)
    (h : fromSnapshot s config = .ok e) : e.snapshot = .ok s := by
  have hself : sorted (fun a b => decide (a.key ≤ b.key)) s.positions = s.positions :=
    sorted_eq_self (by simpa using hsorted)
  obtain ⟨-, rfl⟩ := fromSnapshot_eq_ok.mp h
  refine (dif_pos s.peak).trans ((dif_pos s.reason).trans ?_)
  simp only [sortedPositions, hself]

theorem sortedPositions_pairwise (e : PortfolioRiskEngine) :
    e.sortedPositions.Pairwise fun a b => a.key ≤ b.key := by
  have h := pairwise_sorted (fun a b : PortfolioPosition => decide (a.key ≤ b.key))
    (fun a b => by simpa using le_total a.key b.key) (fun a b c => by simpa using le_trans)
    e.positions.rows
  unfold sortedPositions
  simpa using h

/-- **Rebuilding.** The engine rebuilt from a snapshot whose timestamps are in UTC is alike,
and has this snapshot. -/
theorem rebuilt (h : e.snapshot = .ok s)
    (hpending : e.pendingDecisions.rows = [])
    (hcount : (e.positions.rows.length : Int) ≤ e.config.maximumOpenPositions) :
    ∃ e', fromSnapshot s.inUtc e.config = .ok e' ∧ Alike e e' ∧ e'.snapshot = .ok s.inUtc := by
  obtain ⟨hpositions, hpeak, hpnl, hday, hreason⟩ := snapshot_eq_ok h
  have hpend : e.pendingDecisions = .empty := Table.ext_rows hpending
  have hlen : (s.inUtc.positions.length : Int) ≤ e.config.maximumOpenPositions := by
    show ((s.positions.map PortfolioPosition.inUtc).length : Int) ≤ _
    rw [List.length_map, hpositions, e.sortedPositions_perm.length_eq]
    exact hcount
  have hsorted : s.inUtc.positions.Pairwise fun a b => a.key ≤ b.key := by
    refine List.pairwise_map.mpr ?_
    rw [hpositions]
    exact e.sortedPositions_pairwise
  have hrebuilt := fromSnapshot_eq_ok.mpr ⟨hlen, rfl⟩
  refine ⟨_, hrebuilt, ⟨rfl, ?_, hpeak, hpnl, hday, hreason, hpend.symm⟩,
    snapshot_fromSnapshot hsorted hrebuilt⟩
  show ((s.positions.map PortfolioPosition.inUtc).map PortfolioPosition.inUtc).Perm _
  rw [List.map_map, PortfolioPosition.inUtc_comp_inUtc, hpositions]
  exact e.sortedPositions_perm.map _

end PortfolioRiskEngine

open PortfolioRiskEngine

/-! ## Restarts -/

/-- The engine's snapshot can be saved and loaded; the engine that is rebuilt has an equal
snapshot and answers every later sequence of operations alike; and another file with the
stored checksum, whose payload is not the stored one, is refused. -/
def Restarts (D : Digests) (F : Floats) (store : PortfolioRiskStateStore)
    (e : PortfolioRiskEngine) (savedAtUtc : Datetime) : Prop :=
  ∃ saved checksum store' loaded e' again text stored,
    e.snapshot = .ok saved ∧
    store.save D F saved savedAtUtc = .ok (checksum, store') ∧
    store'.load D F = .ok (some loaded) ∧
    fromSnapshot loaded e.config = .ok e' ∧
    e'.snapshot = .ok again ∧ again.inUtc = saved.inUtc ∧
    (∀ ops, Runs.trace step result e' ops = Runs.trace step result e ops) ∧
    store'.file = some text ∧ loads F text = some (.obj stored) ∧
    ∀ altered envelope, loads F altered = some (.obj envelope) →
      Json.get envelope "sha256" = some (.str checksum) →
      withoutChecksum envelope ≠ withoutChecksum stored →
      NoCollision D F (.obj (withoutChecksum envelope)) (.obj (withoutChecksum stored)) →
      ∃ err, { store' with file := some altered }.load D F = .error err

/-- The payload of an engine that opened and closed a position. -/
def closedPayload : String :=
  "\x7b\"saved_at_utc\":\"1970-01-01T00:00:00+00:00\",\"schema_version\":1" ++
  ",\"snapshot\":\x7b\"current_day\":\"1970-01-01\",\"daily_realized_pnl\":5.0,\"kill_switch_reason\":null" ++
  ",\"peak_equity\":1000.0,\"positions\":[]\x7d\x7d"

end Greenfield.Risk
