import Greenfield.Strategies.HoldForBars

/-!
# When the risk slot agrees with the platform

A bar that comes to no entry leaves the slots (`onBar_idle`), and one that does submits it
(`onBar_entry`). One step of a world whose ids are tracked keeps `SlotAgrees` exactly when it
`KeepsSlot` (`agrees_iff`). With one position at a time, a slot that leaked blocks every later
entry (`leaked_blocks`).
-/

namespace Greenfield.Strategies

open Risk Py

namespace HoldForBars

variable {root : ℚ → ℚ} {s t u : HoldForBars} {e : BarEvent} {isFlat : Bool}
  {instrument : Instrument} {entry : Entry} {orderId : String} {now : Instant}

/-! ## What leaves the slots -/

/-- The slots, the ids that are pending and the configuration are the same. -/
structure SameSlots (s t : HoldForBars) : Prop where
  config : t.config = s.config
  pending : t.pendingEntryOrderIds = s.pendingEntryOrderIds
  positions : t.riskEngine.openPositions = s.riskEngine.openPositions
  risk : t.riskEngine.config = s.riskEngine.config

theorem SameSlots.refl (s : HoldForBars) : SameSlots s s := ⟨rfl, rfl, rfl, rfl⟩

theorem SameSlots.trans (h : SameSlots s t) (h' : SameSlots t u) : SameSlots s u :=
  ⟨h'.config.trans h.config, h'.pending.trans h.pending, h'.positions.trans h.positions,
    h'.risk.trans h.risk⟩

theorem SameSlots.slot (h : SameSlots s t) : t.slot = s.slot := by
  unfold HoldForBars.slot riskKey
  rw [h.config, h.positions]

theorem noteBar_same (s : HoldForBars) (bar : Bar) : SameSlots s (s.noteBar bar) :=
  ⟨rfl, rfl, rfl, rfl⟩

theorem holdBar_same (s : HoldForBars) (bar : Bar) : SameSlots s (s.holdBar bar).1 := by
  unfold holdBar
  split
  · exact ⟨rfl, rfl, rfl, rfl⟩
  · simp only
    split <;> exact ⟨rfl, rfl, rfl, rfl⟩

theorem dueSide_same (s : HoldForBars) (newSide : Option OrderSide) :
    SameSlots s (s.dueSide newSide).2 := by
  unfold dueSide
  split <;> split <;> exact ⟨rfl, rfl, rfl, rfl⟩

/-- An evaluation changes the day and the peak only. -/
theorem approve_same (s : HoldForBars) (instrument : Instrument) (e : BarEvent)
    (side : OrderSide) : SameSlots s (s.approve root instrument e side).2 := by
  unfold approve
  split
  · exact .refl s
  · split
    · exact .refl s
    · refine ⟨rfl, rfl, ?_, ?_⟩
      · simp only [RiskEngine.evaluate_engine]
        split <;> exact RiskEngine.rollDay_positions
      · simp only [RiskEngine.evaluate_engine]
        split <;> exact RiskEngine.rollDay_config

theorem decideEntry_same (s : HoldForBars) (instrument : Instrument) (e : BarEvent) :
    SameSlots s (s.decideEntry root instrument e).2 := by
  unfold decideEntry
  split
  · exact .refl s
  · split
    · exact .refl s
    · next newSide _ =>
      have hdue := s.dueSide_same newSide
      split
      · next h =>
        rw [h] at hdue
        exact hdue
      · next h =>
        rw [h] at hdue
        exact hdue.trans (approve_same _ _ _ _)

theorem setStops_same (s : HoldForBars) (price : ℚ) (entry : Entry) :
    SameSlots s (s.setStops price entry) := by
  unfold setStops
  split
  · exact .refl s
  · simp only
    split <;> exact ⟨rfl, rfl, rfl, rfl⟩

/-! ## What a bar does -/

/-- A bar without an entry leaves the slots. -/
theorem onBar_idle (h : s.entryOn root isFlat e = none) :
    SameSlots s (s.onBar root isFlat e).1 ∧ (s.onBar root isFlat e).2.orders = [] := by
  have hnote := s.noteBar_same e.bar
  unfold entryOn at h
  unfold onBar
  cases hinstrument : e.instrument with
  | none => exact ⟨hnote, rfl⟩
  | some instrument =>
    rw [hinstrument] at h
    simp only at h ⊢
    split at h
    · next hflat =>
      rw [if_pos hflat]
      refine ⟨hnote.trans (holdBar_same _ _), ?_⟩
      unfold holdBar
      split
      · rfl
      · simp only
        split <;> rfl
    · next hflat =>
      rw [if_neg hflat]
      have hdecide : SameSlots (s.noteBar e.bar)
          ((s.noteBar e.bar).decideEntry root instrument e).2 := decideEntry_same _ instrument e
      rcases hd : (s.noteBar e.bar).decideEntry root instrument e with ⟨_ | _ | entry, t⟩
      · rw [hd] at hdecide
        exact ⟨hnote.trans hdecide, rfl⟩
      · rw [hd] at hdecide
        exact ⟨hnote.trans hdecide, rfl⟩
      · rw [hd] at h
        cases h

/-- A bar with an entry submits it. -/
theorem onBar_entry (h : s.entryOn root isFlat e = some entry) :
    isFlat = true ∧ ∃ t, SameSlots s t ∧ s.onBar root isFlat e = t.submitEntry e entry := by
  have hnote := s.noteBar_same e.bar
  unfold entryOn at h
  unfold onBar
  cases hinstrument : e.instrument with
  | none =>
    rw [hinstrument] at h
    cases h
  | some instrument =>
    rw [hinstrument] at h
    simp only at h ⊢
    split at h
    · cases h
    · next hflat =>
      rw [if_neg hflat]
      have hdecide : SameSlots (s.noteBar e.bar)
          ((s.noteBar e.bar).decideEntry root instrument e).2 := decideEntry_same _ instrument e
      rcases hd : (s.noteBar e.bar).decideEntry root instrument e with ⟨_ | _ | entry, t⟩
      · rw [hd] at h
        cases h
      · rw [hd] at h
        cases h
      · rw [hd] at h hdecide
        cases h
        exact ⟨by simpa using hflat, t, hnote.trans hdecide, rfl⟩

/-! ## What an entry needs -/

/-- An entry is approved in a room that is left. -/
theorem approve_room {side : OrderSide}
    (h : (s.approve root instrument e side).1 = .ok (some entry)) :
    (s.riskEngine.openPositions.rows.length : ℤ) < s.riskEngine.config.maxConcurrentPositions := by
  unfold approve at h
  split at h
  · cases h
  · split at h
    · cases h
    · next equity _ =>
      simp only at h
      cases hd : (s.riskEngine.evaluate instrument e.bar.close equity (.ofInstant e.now)
          (s.realizedVol root)).1 with
      | error err =>
        rw [hd] at h
        cases h
      | ok decision =>
        rw [hd] at h
        simp only [Except.map, Except.ok.injEq] at h
        split at h
        · next happroved =>
          have hroom := (RiskEngine.evaluate_approves hd happroved).2.slot
          simpa using hroom
        · cases h

theorem decideEntry_room (h : (s.decideEntry root instrument e).1 = .ok (some entry)) :
    (s.riskEngine.openPositions.rows.length : ℤ) < s.riskEngine.config.maxConcurrentPositions := by
  unfold decideEntry at h
  split at h
  · cases h
  · split at h
    · cases h
    · next newSide _ =>
      have hdue := s.dueSide_same newSide
      split at h
      · cases h
      · next side t hside =>
        rw [hside] at hdue
        rw [← hdue.positions, ← hdue.risk]
        exact approve_room h

theorem entryOn_room (h : s.entryOn root isFlat e = some entry) :
    (s.riskEngine.openPositions.rows.length : ℤ) < s.riskEngine.config.maxConcurrentPositions := by
  unfold entryOn at h
  split at h
  · cases h
  · split at h
    · cases h
    · split at h
      · next hd =>
        subst h
        exact decideEntry_room (s := s.noteBar e.bar) hd
      · cases h

/-- A slot that is taken is the only one of an engine with one position at a time. -/
theorem entryOn_none (hone : s.riskEngine.config.maxConcurrentPositions ≤ 1)
    (hslot : s.slot ≠ none) : s.entryOn root isFlat e = none := by
  cases hentry : s.entryOn root isFlat e with
  | none => rfl
  | some entry =>
    have hroom := entryOn_room hentry
    obtain ⟨slot, hfind⟩ := Option.ne_none_iff_exists'.mp hslot
    have hpos := List.length_pos_of_mem (Keyed.Table.find_mem hfind)
    omega

/-! ## What an entry does -/

theorem closePosition_find (engine : RiskEngine) (key : String) (pnl : ℚ) (now : Datetime) :
    (engine.closePosition key pnl now).openPositions.find key = none := by
  simp [RiskEngine.closePosition, Keyed.Table.find_erase]

theorem openPosition_find (engine : RiskEngine) (key : String) (risk : ℚ) :
    (engine.openPosition key risk).openPositions.find key = some ⟨key, risk⟩ := by
  simp [RiskEngine.openPosition, Keyed.Table.find_upsert]

theorem slot_release (s : HoldForBars) (orderId : String) (now : Instant) :
    (s.release orderId now).slot = none := closePosition_find _ _ _ _

theorem slot_onPositionClosed (s : HoldForBars) (pnl : ℚ) (now : Instant) :
    (s.onPositionClosed pnl now).slot = none := closePosition_find _ _ _ _

/-- Where `submit_order` raises, the slot is released again. -/
theorem submitEntry_raises (s : HoldForBars) (h : e.submitError ≠ none) (entry : Entry) :
    (s.submitEntry e entry).1.slot = none ∧ (s.submitEntry e entry).2.orders = [] := by
  unfold submitEntry
  cases herr : e.submitError with
  | none => exact absurd herr h
  | some err => exact ⟨slot_release _ _ _, rfl⟩

theorem submitEntry_ok (s : HoldForBars) (h : e.submitError = none) (entry : Entry) :
    (∃ slot, (s.submitEntry e entry).1.slot = some slot ∧
      slot.riskFraction = entry.decision.riskFraction) ∧
    (s.submitEntry e entry).2.orders = [⟨e.orderId, entry.decision.riskFraction⟩] := by
  unfold submitEntry
  rw [h]
  refine ⟨⟨⟨s.riskKey, entry.decision.riskFraction⟩, ?_, rfl⟩, rfl⟩
  simp only
  rw [(setStops_same _ _ _).slot]
  exact openPosition_find _ _ _

/-- What is pending after an entry, besides its own id. -/
theorem submitEntry_pending {id : String} (h : id ≠ e.orderId) :
    id ∈ (s.submitEntry e entry).1.pendingEntryOrderIds ↔ id ∈ s.pendingEntryOrderIds := by
  unfold submitEntry
  cases herr : e.submitError with
  | none =>
    simp only [(setStops_same _ _ _).pending, List.mem_insert_iff, h, false_or]
  | some err => simp [release, h]

end HoldForBars

/-! ## Steps -/

namespace World

variable {root : ℚ → ℚ} {w : World} {event : Event} {orderId : String}

/-- The ids of what is outstanding or pending were given, and an outstanding entry that is not
pending was filled in part. -/
structure Tracked (w : World) : Prop where
  outstanding : ∀ o ∈ w.outstanding, o.orderId ∈ w.orderIds
  pending : ∀ id ∈ w.strategy.pendingEntryOrderIds, id ∈ w.orderIds
  filled : ∀ o ∈ w.outstanding, o.orderId ∉ w.strategy.pendingEntryOrderIds →
    w.positionOpen = true

theorem mem_without {o : EntryOrder} :
    o ∈ w.without orderId ↔ o ∈ w.outstanding ∧ o.orderId ≠ orderId := by
  simp [without]

theorem without_eq_nil :
    w.without orderId = [] ↔ ∀ o ∈ w.outstanding, o.orderId = orderId := by
  simp [without]

/-- What is not outstanding is not removed. -/
theorem without_eq_self (h : ¬ w.IsOutstanding orderId) : w.without orderId = w.outstanding := by
  refine List.filter_eq_self.mpr fun o ho => ?_
  simpa using fun heq => h ⟨o, ho, heq⟩

variable {s : HoldForBars} {isFlat : Bool} {e : BarEvent} {id : String}

/-- What a bar leaves pending, besides the id of its own order. -/
theorem onBar_pending
    (h : id ≠ e.orderId) : id ∈ (s.onBar root isFlat e).1.pendingEntryOrderIds ↔
      id ∈ s.pendingEntryOrderIds := by
  cases hentry : s.entryOn root isFlat e with
  | none => rw [(HoldForBars.onBar_idle hentry).1.pending]
  | some entry =>
    obtain ⟨-, t, hsame, heq⟩ := HoldForBars.onBar_entry hentry
    rw [heq, HoldForBars.submitEntry_pending h, hsame.pending]

/-- An order of a bar is that of its own id, which is pending then. -/
theorem onBar_orders {o : EntryOrder}
    (h : o ∈ (s.onBar root isFlat e).2.orders) : o.orderId = e.orderId ∧
      e.orderId ∈ (s.onBar root isFlat e).1.pendingEntryOrderIds := by
  cases hentry : s.entryOn root isFlat e with
  | none =>
    rw [(HoldForBars.onBar_idle hentry).2] at h
    cases h
  | some entry =>
    obtain ⟨-, t, -, heq⟩ := HoldForBars.onBar_entry hentry
    rw [heq] at h ⊢
    cases herr : e.submitError with
    | some err =>
      rw [(t.submitEntry_raises (by simp [herr]) entry).2] at h
      cases h
    | none =>
      rw [(t.submitEntry_ok herr entry).2, List.mem_singleton] at h
      refine ⟨by rw [h], ?_⟩
      unfold HoldForBars.submitEntry
      rw [herr]
      simp only [(HoldForBars.setStops_same _ _ _).pending, List.mem_insert_self]

theorem tracked_start (config : BenchmarkStrategyConfig) : (start config).Tracked :=
  ⟨nofun, nofun, nofun⟩

theorem mem_release (now : Instant) :
    id ∈ (s.release orderId now).pendingEntryOrderIds ↔
      id ∈ s.pendingEntryOrderIds ∧ id ≠ orderId := by
  simp [HoldForBars.release]

theorem Tracked.step (h : w.Tracked) (hfollows : w.Follows event) (hkeeps : w.KeepsSlot root event) :
    (w.step root event).Tracked := by
  obtain ⟨hout, hpending, hfilled⟩ := h
  cases event with
  | bar e =>
    have hne {id : String} (hid : id ∈ w.orderIds) : id ≠ e.orderId := by
      rintro rfl
      exact hfollows hid
    refine ⟨fun o ho => ?_, fun id hid => ?_, fun o ho hnot => ?_⟩
    · rcases List.mem_append.mp ho with ho | ho
      · exact List.mem_cons_of_mem _ (hout o ho)
      · rw [(onBar_orders ho).1]
        exact List.mem_cons_self
    · by_cases hid' : id = e.orderId
      · subst hid'
        exact List.mem_cons_self
      · exact List.mem_cons_of_mem _ (hpending id ((onBar_pending hid').mp hid))
    · rcases List.mem_append.mp ho with ho | ho
      · exact hfilled o ho fun hid => hnot ((onBar_pending (hne (hout o ho))).mpr hid)
      · obtain ⟨heq, hid⟩ := onBar_orders ho
        rw [← heq] at hid
        exact absurd hid hnot
  | orderFilled orderId last =>
    have hsub : ∀ o ∈ (w.step root (.orderFilled orderId last)).outstanding, o ∈ w.outstanding := by
      intro o ho
      simp only [World.step] at ho
      split at ho
      · exact (mem_without.mp ho).1
      · exact ho
    refine ⟨fun o ho => hout o (hsub o ho), fun id hid => ?_, fun o ho hnot => ?_⟩
    · exact hpending id (List.mem_filter.mp hid).1
    · simp only [World.step, HoldForBars.onOrderFilled, List.mem_filter, not_and] at hnot
      simp only [World.step, decide_eq_true_eq]
      by_cases heq : o.orderId = orderId
      · exact .inr ⟨o, hsub o ho, heq⟩
      · exact .inl (hfilled o (hsub o ho) fun hid => hnot hid (by simpa using heq))
  | orderRejected orderId now =>
    refine ⟨fun o ho => hout o (mem_without.mp ho).1, fun id hid => ?_, fun o ho hnot => ?_⟩
    · simp only [World.step, HoldForBars.onOrderRejected] at hid
      split at hid
      · exact hpending id ((mem_release now).mp hid).1
      · exact hpending id hid
    · obtain ⟨ho, hne⟩ := mem_without.mp ho
      refine hfilled o ho fun hid => hnot ?_
      simp only [World.step, HoldForBars.onOrderRejected]
      split
      · exact (mem_release now).mpr ⟨hid, hne⟩
      · exact hid
  | orderEnded orderId how =>
    exact ⟨fun o ho => hout o (mem_without.mp ho).1, hpending,
      fun o ho => hfilled o (mem_without.mp ho).1⟩
  | positionClosed realizedPnl now =>
    refine ⟨hout, hpending, fun o ho => ?_⟩
    have hnone : w.outstanding = [] := hkeeps
    rw [show (w.step root (.positionClosed realizedPnl now)).outstanding = w.outstanding from rfl,
      hnone] at ho
    cases ho

/-! ## Agreement -/

theorem agrees_start (config : BenchmarkStrategyConfig) : (start config).SlotAgrees :=
  ⟨fun _ _ => rfl, fun h => by simp [start] at h⟩

/-- Without a slot, nothing may be outstanding or open. -/
theorem agrees_iff_of_none (h : w.slot = none) :
    w.SlotAgrees ↔ w.outstanding = [] ∧ w.positionOpen = false := by
  constructor
  · intro hagrees
    by_contra hnot
    obtain ⟨slot, hslot, -⟩ := hagrees.held (by
      by_cases hout : w.outstanding = [] <;> simp_all)
    rw [h] at hslot
    cases hslot
  · rintro ⟨hout, hopen⟩
    exact ⟨fun _ _ => h, fun hheld => by simp [hout, hopen] at hheld⟩

/-- With a slot, something must be outstanding or open, and the slot covers it. -/
theorem agrees_iff_of_some {slot : RiskSlot} (h : w.slot = some slot) :
    w.SlotAgrees ↔ (w.outstanding ≠ [] ∨ w.positionOpen = true) ∧
      ∀ o ∈ w.outstanding, o.riskFraction ≤ slot.riskFraction := by
  constructor
  · rintro ⟨hfree, hheld⟩
    have hsome : w.outstanding ≠ [] ∨ w.positionOpen = true := by
      by_contra hnot
      obtain ⟨hout, hopen⟩ := not_or.mp hnot
      rw [hfree (not_not.mp hout) (Bool.eq_false_iff.mpr hopen)] at h
      cases h
    obtain ⟨slot', hslot', hle⟩ := hheld hsome
    rw [h] at hslot'
    cases hslot'
    exact ⟨hsome, hle⟩
  · rintro ⟨hsome, hle⟩
    refine ⟨fun hout hopen => ?_, fun _ => ⟨slot, h, hle⟩⟩
    simp [hout, hopen] at hsome

theorem SlotAgrees.of_same {v : World} (h : w.SlotAgrees) (hslot : v.slot = w.slot)
    (hout : v.outstanding = w.outstanding) (hopen : v.positionOpen = w.positionOpen) :
    v.SlotAgrees := by
  obtain ⟨hfree, hheld⟩ := h
  constructor
  · rwa [hslot, hout, hopen]
  · rwa [hslot, hout, hopen]

/-- What is outstanding in a world that agrees has a slot that covers it. -/
theorem SlotAgrees.of_outstanding (h : w.SlotAgrees) (hid : w.IsOutstanding orderId) :
    ∃ slot, w.slot = some slot ∧ ∀ o ∈ w.outstanding, o.riskFraction ≤ slot.riskFraction := by
  obtain ⟨o, ho, -⟩ := hid
  exact h.held (.inl (List.ne_nil_of_mem ho))

theorem slot_onOrderRejected (h : orderId ∉ w.strategy.pendingEntryOrderIds) (now : Instant) :
    w.strategy.onOrderRejected orderId now = w.strategy := if_neg h

theorem agrees_bar (hagrees : w.SlotAgrees) (e : BarEvent) :
    (w.step root (.bar e)).SlotAgrees ↔ w.KeepsSlot root (.bar e) := by
  cases hentry : w.entryOf root e with
  | none =>
    obtain ⟨hsame, horders⟩ := HoldForBars.onBar_idle hentry
    have hout : (w.step root (.bar e)).outstanding = w.outstanding := by
      simp only [World.step, horders, List.append_nil]
    refine iff_of_true (hagrees.of_same hsame.slot hout rfl) ?_
    intro entry hmem
    rw [hentry] at hmem
    cases hmem
  | some entry =>
    obtain ⟨hflat, t, -, heq⟩ := HoldForBars.onBar_entry hentry
    have hclosed : w.positionOpen = false := by simpa using hflat
    have hkeeps : w.KeepsSlot root (.bar e) ↔ ∀ o ∈ w.outstanding,
        e.submitError = none ∧ o.riskFraction ≤ entry.decision.riskFraction := by
      simp only [KeepsSlot, hentry, Option.mem_some, forall_eq']
    have hslot_eq : (w.step root (.bar e)).slot = (t.submitEntry e entry).1.slot := by
      simp only [World.slot, World.step, heq]
    have hout : (w.step root (.bar e)).outstanding =
        w.outstanding ++ (t.submitEntry e entry).2.orders := by
      simp only [World.step, heq]
    have hopen : (w.step root (.bar e)).positionOpen = false := hclosed
    rw [hkeeps]
    cases herr : e.submitError with
    | some err =>
      -- The slot is released, so nothing else may stand for it.
      have hraises : e.submitError ≠ none := by simp [herr]
      obtain ⟨hslot, horders⟩ := t.submitEntry_raises hraises entry
      rw [agrees_iff_of_none (hslot_eq.trans hslot), hout, hopen, horders]
      simp [List.eq_nil_iff_forall_not_mem]
    | none =>
      obtain ⟨⟨slot, hslot, hrisk⟩, horders⟩ := t.submitEntry_ok herr entry
      rw [agrees_iff_of_some (hslot_eq.trans hslot), hout, horders]
      simp [hrisk, or_imp, forall_and]

theorem agrees_iff (htracked : w.Tracked) (hagrees : w.SlotAgrees) (hfollows : w.Follows event) :
    (w.step root event).SlotAgrees ↔ w.KeepsSlot root event := by
  cases event with
  | bar e => exact agrees_bar hagrees e
  | orderFilled orderId last =>
    refine iff_of_true ?_ trivial
    by_cases hid : w.IsOutstanding orderId
    · obtain ⟨slot, hslot, hle⟩ := hagrees.of_outstanding hid
      have hslot' : (w.step root (.orderFilled orderId last)).slot = some slot := hslot
      refine (agrees_iff_of_some hslot').mpr ⟨.inr (by simp [World.step, hid]), fun o ho => ?_⟩
      apply hle
      simp only [World.step] at ho
      split at ho
      · exact (mem_without.mp ho).1
      · exact ho
    · refine hagrees.of_same rfl ?_ ?_
      · simp only [World.step, without_eq_self hid, ite_self]
      · simp [World.step, hid]
  | orderRejected orderId now =>
    by_cases hpending : orderId ∈ w.strategy.pendingEntryOrderIds
    · have hslot : (w.step root (.orderRejected orderId now)).slot = none := by
        simp only [World.slot, World.step, HoldForBars.onOrderRejected, if_pos hpending]
        exact w.strategy.slot_release orderId now
      rw [agrees_iff_of_none hslot]
      simp only [World.step, without_eq_nil, KeepsSlot, hpending, true_imp_iff, and_comm]
    · have hsame := slot_onOrderRejected hpending now
      refine iff_of_true ?_ fun h => absurd h hpending
      by_cases hid : w.IsOutstanding orderId
      · -- It was filled in part, so a position is open.
        obtain ⟨slot, hslot, hle⟩ := hagrees.of_outstanding hid
        obtain ⟨o, ho, rfl⟩ := hid
        refine (agrees_iff_of_some ?_).mpr
          ⟨.inr (htracked.filled o ho hpending), fun x hx => hle x (mem_without.mp hx).1⟩
        rw [← hslot, World.slot, World.step, hsame]
        rfl
      · refine hagrees.of_same ?_ (without_eq_self hid) rfl
        rw [World.slot, World.step, hsame]
        rfl
  | orderEnded orderId how =>
    by_cases hid : w.IsOutstanding orderId
    · obtain ⟨slot, hslot, hle⟩ := hagrees.of_outstanding hid
      have hslot' : (w.step root (.orderEnded orderId how)).slot = some slot := hslot
      rw [agrees_iff_of_some hslot']
      simp only [KeepsSlot, hid, true_imp_iff]
      constructor
      · rintro ⟨hother | hopen, -⟩
        · obtain ⟨o, ho⟩ := List.exists_mem_of_ne_nil _ hother
          exact .inr ⟨o, mem_without.mp ho⟩
        · exact .inl hopen
      · intro hor
        refine ⟨?_, fun o ho => hle o (mem_without.mp ho).1⟩
        rcases hor with hopen | ⟨o, ho⟩
        · exact .inr hopen
        · exact .inl (List.ne_nil_of_mem (mem_without.mpr ho))
    · refine iff_of_true ?_ fun h => absurd h hid
      exact hagrees.of_same rfl (without_eq_self hid) rfl
  | positionClosed realizedPnl now =>
    have hslot : (w.step root (.positionClosed realizedPnl now)).slot = none :=
      w.strategy.slot_onPositionClosed realizedPnl now
    rw [agrees_iff_of_none hslot]
    exact and_iff_left rfl

/-! ## A leaked slot -/

/-- A slot that stands for nothing, with one position at a time. -/
structure Leaked (w : World) : Prop where
  outstanding : w.outstanding = []
  positionOpen : w.positionOpen = false
  slot : w.slot ≠ none
  single : w.strategy.riskEngine.config.maxConcurrentPositions ≤ 1
  pending : ∀ id ∈ w.strategy.pendingEntryOrderIds, id ∈ w.orderIds

theorem Leaked.not_outstanding (h : w.Leaked) : ¬ w.IsOutstanding orderId := by
  rintro ⟨o, ho, -⟩
  rw [h.outstanding] at ho
  cases ho

theorem Leaked.entryOf (h : w.Leaked) (e : BarEvent) : w.entryOf root e = none :=
  HoldForBars.entryOn_none h.single h.slot

/-- Nothing that the platform can deliver releases it. -/
theorem Leaked.step (h : w.Leaked) (hfollows : w.Follows event) : (w.step root event).Leaked := by
  have hnone {orderId : String} : w.without orderId = [] := by
    rw [without_eq_self h.not_outstanding, h.outstanding]
  cases event with
  | bar e =>
    have hidle : w.entryOf root e = none := h.entryOf e
    obtain ⟨hsame, horders⟩ := HoldForBars.onBar_idle hidle
    refine ⟨?_, h.positionOpen, ?_, ?_, fun id hid => ?_⟩
    · simp only [World.step, horders, h.outstanding, List.append_nil]
    · rw [show (w.step root (.bar e)).slot = w.slot from hsame.slot]
      exact h.slot
    · rw [show (w.step root (.bar e)).strategy.riskEngine.config = _ from hsame.risk]
      exact h.single
    · rw [show (w.step root (.bar e)).strategy.pendingEntryOrderIds = _ from hsame.pending] at hid
      exact List.mem_cons_of_mem _ (h.pending id hid)
  | orderFilled orderId last =>
    refine ⟨?_, ?_, h.slot, h.single, fun id hid => h.pending id (List.mem_filter.mp hid).1⟩
    · simp only [World.step, hnone, h.outstanding, ite_self]
    · simp [World.step, h.positionOpen, h.not_outstanding]
  | orderRejected orderId now =>
    have hid : orderId ∉ w.strategy.pendingEntryOrderIds := fun hid =>
      hfollows.elim h.not_outstanding fun hnew => hnew (h.pending orderId hid)
    have hsame := slot_onOrderRejected hid now
    refine ⟨hnone, h.positionOpen, ?_, ?_, ?_⟩
    · rw [World.slot, World.step, hsame]
      exact h.slot
    · rw [World.step, hsame]
      exact h.single
    · rw [World.step, hsame]
      exact h.pending
  | orderEnded orderId how => exact ⟨hnone, h.positionOpen, h.slot, h.single, h.pending⟩
  | positionClosed realizedPnl now => exact absurd (h.positionOpen.symm.trans hfollows) nofun

/-- **A leaked slot blocks every later entry.** -/
theorem leaked_blocks (h : w.Leaked) {events : List Event}
    (hfollows : Runs.Meets (World.step root) Follows w events) (e : BarEvent) :
    (Runs.run (World.step root) w events).entryOf root e = none :=
  Leaked.entryOf (Runs.Meets.invariant (fun _ _ hf hl => Leaked.step hl hf) events hfollows h) e

end World

/-- **The slot agrees with the platform** in every state of a run of order and position life
cycles exactly when every step keeps it: an entry is denied, canceled or expires only while
another entry or a position holds the slot, a rejection and a close leave nothing else that
needs it, and a bar enters only with at least the risk of what is outstanding. -/
theorem slot_agrees_iff (root : ℚ → ℚ) (config : BenchmarkStrategyConfig) {events : List Event}
    (h : Runs.Meets (World.step root) World.Follows (.start config) events) :
    Runs.Always (World.step root) World.SlotAgrees (.start config) events ↔
      Runs.Meets (World.step root) (World.KeepsSlot root) (.start config) events :=
  Runs.always_iff_meets_within (fun _ _ htracked hf hk => World.Tracked.step htracked hf hk)
    (fun _ _ htracked hagrees hf => World.agrees_iff htracked hagrees hf) events
    (World.tracked_start config) (World.agrees_start config) h

/-- The defaults: one position at a time. -/
def oneAtATime : BenchmarkStrategyConfig := { instrumentId := "BTC" }

/-- A bar at a price of 100 with a signal to buy. -/
def buyBar (orderId : String) : BarEvent where
  bar := ⟨101, 99, 100, 0⟩
  instrument := some thousandths
  signal := .ok (some .buy)
  equity := .ok 1000
  now := 0
  orderId
  submitError := none

/-- An entry that is filled in two parts, held over a bar, and closed. -/
def heldEntry : List Event :=
  [.bar (buyBar "O-1"), .orderFilled "O-1" false, .orderFilled "O-1" true, .bar (buyBar "O-2"),
    .positionClosed 5 0]

theorem slot_agrees_held :
    Runs.Meets (World.step id) World.Follows (.start oneAtATime) heldEntry ∧
    Runs.Always (World.step id) World.SlotAgrees (.start oneAtATime) heldEntry := by
  have hmeets : Runs.Meets (World.step id) World.Follows (.start oneAtATime) heldEntry ∧
      Runs.Meets (World.step id) (World.KeepsSlot id) (.start oneAtATime) heldEntry := by
    decide +kernel
  exact ⟨hmeets.1, (slot_agrees_iff id oneAtATime hmeets.1).mpr hmeets.2⟩

/-- A denied entry leaves its slot, and the next signal comes to no entry; and the close of the
part that was filled frees the slot of an entry whose rest is outstanding. -/
theorem denied_entry_leaks :
    let denied := [.bar (buyBar "O-1"), .orderEnded "O-1" .denied]
    let closed := [.bar (buyBar "O-1"), .orderFilled "O-1" false, .positionClosed 5 0]
    (∀ events ∈ [denied, closed],
      Runs.Meets (World.step id) World.Follows (.start oneAtATime) events ∧
      ¬ Runs.Always (World.step id) World.SlotAgrees (.start oneAtATime) events) ∧
    ((Runs.run (World.step id) (.start oneAtATime) denied).entryOf id (buyBar "O-2")).isNone = true ∧
    (Runs.run (World.step id) (.start oneAtATime) closed).outstanding ≠ [] ∧
    (Runs.run (World.step id) (.start oneAtATime) closed).slot = none := by
  intro denied closed
  have hdenied : Runs.Meets (World.step id) World.Follows (.start oneAtATime) denied ∧
      (Runs.run (World.step id) (.start oneAtATime) denied).outstanding = [] ∧
      (Runs.run (World.step id) (.start oneAtATime) denied).positionOpen = false ∧
      (Runs.run (World.step id) (.start oneAtATime) denied).slot ≠ none ∧
      ((Runs.run (World.step id) (.start oneAtATime) denied).entryOf id
        (buyBar "O-2")).isNone = true := by decide +kernel
  have hclosed : Runs.Meets (World.step id) World.Follows (.start oneAtATime) closed ∧
      (Runs.run (World.step id) (.start oneAtATime) closed).outstanding ≠ [] ∧
      (Runs.run (World.step id) (.start oneAtATime) closed).slot = none := by decide +kernel
  refine ⟨?_, hdenied.2.2.2.2, hclosed.2⟩
  intro events hevents
  simp only [List.mem_cons, List.not_mem_nil, or_false] at hevents
  rcases hevents with rfl | rfl
  · exact ⟨hdenied.1, fun h => hdenied.2.2.2.1 (h.run.free hdenied.2.1 hdenied.2.2.1)⟩
  · refine ⟨hclosed.1, fun h => ?_⟩
    obtain ⟨slot, hslot, -⟩ := h.run.held (.inl hclosed.2.1)
    rw [hclosed.2.2] at hslot
    cases hslot

/-- The slot of a denied entry. -/
theorem leaked_blocks_denied :
    ∃ w : World, w.Leaked ∧
      Runs.Meets (World.step id) World.Follows w [.bar (buyBar "O-2"), .orderRejected "O-3" 0] ∧
      (Runs.run (World.step id) w [.bar (buyBar "O-2"), .orderRejected "O-3" 0]).entryOf id
        (buyBar "O-4") = none := by
  have hleaked : (Runs.run (World.step id) (.start oneAtATime)
      [.bar (buyBar "O-1"), .orderEnded "O-1" .denied]).Leaked :=
    ⟨by decide +kernel, by decide +kernel, by decide +kernel, by decide +kernel, by decide +kernel⟩
  have hmeets : Runs.Meets (World.step id) World.Follows (Runs.run (World.step id)
      (.start oneAtATime) [.bar (buyBar "O-1"), .orderEnded "O-1" .denied])
        [.bar (buyBar "O-2"), .orderRejected "O-3" 0] := by decide +kernel
  exact ⟨_, hleaked, hmeets, World.leaked_blocks hleaked hmeets (buyBar "O-4")⟩

end Greenfield.Strategies
