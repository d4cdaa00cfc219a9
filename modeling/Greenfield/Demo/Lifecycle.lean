import Greenfield.Demo.State

/-!
# The life of a trade

What a transaction of the state store does to the trades (`TradeChange`): nothing, a new trade
after all others are closed, or one trade that moves `Forward`. Callers interleave their
transactions in a pool; `close_unsubmitted_safety_hold` has two, and a trade that passed
the test of the first (`Cleared`) still passes it at the second, because a held trade has
its order ids for good.
-/

namespace Greenfield.Demo

open Keyed Py Effects AutonomousDemoStateStore

/-- The transition relation. -/
inductive Moves : AutonomousTradePhase → AutonomousTradePhase → Prop where
  | submitEntry : Moves .observed .entrySubmitted
  | fillEntry : Moves .entrySubmitted .open
  | rejectEntry : Moves .entrySubmitted .closed
  | submitExit : Moves .open .exitSubmitted
  | fillExit : Moves .exitSubmitted .closed
  | hold {p : AutonomousTradePhase} (h : p ∈ [.observed, .entrySubmitted, .open, .exitSubmitted]) :
      Moves p .safetyHold
  | clear : Moves .safetyHold .closed

theorem not_moves_closed (p : AutonomousTradePhase) : ¬ Moves .closed p := by
  intro h
  cases h with
  | hold h => simp at h

variable {p : AutonomousTradePhase}

theorem moves_safetyHold (h : Moves .safetyHold p) : p = .closed := by
  cases h with
  | hold h => simp at h
  | clear => rfl

/-- The trade has none of the ids and times of an order that was submitted. -/
structure Unsubmitted (t : AutonomousTradeRecord) : Prop where
  entry : t.entryClientOrderId = none
  opened : t.openedAtUtc = none
  exit : t.exitClientOrderId = none

/-- What becomes of a trade in one transaction. Ids are never taken away. -/
structure Forward (t t' : AutonomousTradeRecord) : Prop where
  key : t'.tradeId = t.tradeId
  phase : t'.phase = t.phase ∨ Moves t.phase t'.phase
  ids : Unsubmitted t' → Unsubmitted t
  held : t.phase = .safetyHold → Unsubmitted t → Unsubmitted t'

variable {t t' : AutonomousTradeRecord}

theorem Forward.closed (h : Forward t t')
    (hc : t.phase = .closed) : t'.phase = .closed := by
  rcases h.phase with hp | hp
  · exact hp.trans hc
  · rw [hc] at hp
    exact absurd hp (not_moves_closed _)

/-- What a transaction does to the trades, where `R` relates a trade to what it becomes. -/
inductive TradeChange (R : AutonomousTradeRecord → AutonomousTradeRecord → Prop)
    (s s' : AutonomousDemoStateStore) : Prop where
  | kept (h : s'.trades = s.trades)
  | begun (r : AutonomousTradeRecord) (hr : r.phase = .observed)
      (hclosed : ∀ t ∈ s.trades.rows, t.phase = .closed) (h : s.trades.insert r = some s'.trades)
  | moved (t : AutonomousTradeRecord) (f : AutonomousTradeRecord → AutonomousTradeRecord)
      (hf : ∀ r, (f r).tradeId = r.tradeId) (ht : s.fetch t.tradeId = some t) (hR : R t (f t))
      (h : s'.trades = s.trades.modify t.tradeId f hf)

variable {s s' : AutonomousDemoStateStore} {R R' : AutonomousTradeRecord → AutonomousTradeRecord → Prop}

theorem TradeChange.mono (hRR : ∀ t t', R t t' → R' t t') (h : TradeChange R s s') : TradeChange R' s s' := by
  cases h with
  | kept h => exact .kept h
  | begun r hr hclosed h => exact .begun r hr hclosed h
  | moved t f hf ht hR h => exact .moved t f hf ht (hRR t (f t) hR) h

variable {k : String} {t : AutonomousTradeRecord}

/-- A trade is still there after a change. -/
theorem TradeChange.fetch (hrefl : ∀ t, R t t) (h : TradeChange R s s')
    (ht : s.fetch k = some t) : ∃ t', s'.fetch k = some t' ∧ R t t' := by
  cases h with
  | kept h => exact ⟨t, by rw [AutonomousDemoStateStore.fetch, h]; exact ht, hrefl t⟩
  | begun r hr hclosed h =>
    refine ⟨t, ?_, hrefl t⟩
    rw [AutonomousDemoStateStore.fetch, Table.find_insert h]
    split
    · next hk =>
      have := (Table.insert_eq_some.mp h).1
      rw [← hk] at this
      rw [AutonomousDemoStateStore.fetch, this] at ht
      cases ht
    · exact ht
  | moved x f hf hx hR h =>
    rw [AutonomousDemoStateStore.fetch, h, Table.find_modify]
    split
    · next hk =>
      have hxt : x = t := by
        rw [← hk, ht] at hx
        exact (Option.some.inj hx).symm
      subst hxt
      exact ⟨f x, by rw [show s.trades.find x.tradeId = some x from hx]; rfl, hR⟩
    · exact ⟨t, ht, hrefl t⟩

/-- A trade comes from one before the change, or is new while all others are closed. -/
theorem TradeChange.origin (hrefl : ∀ t, R t t) (h : TradeChange R s s') {t' : AutonomousTradeRecord}
    (ht' : t' ∈ s'.trades.rows) : (∃ t ∈ s.trades.rows, R t t') ∨
      (s.trades.insert t' = some s'.trades ∧ ∀ t ∈ s.trades.rows, t.phase = .closed) := by
  cases h with
  | kept h => exact .inl ⟨t', h ▸ ht', hrefl t'⟩
  | begun r hr hclosed h =>
    rw [(Table.insert_eq_some.mp h).2] at ht'
    rcases List.mem_append.mp ht' with ht' | ht'
    · exact .inl ⟨t', ht', hrefl t'⟩
    · rw [List.mem_singleton.mp ht']
      exact .inr ⟨h, hclosed⟩
  | moved x f hf hx hR h =>
    rw [h] at ht'
    rcases Table.mem_modify.mp ht' with ⟨ht', -⟩ | ⟨r, hr, rfl⟩
    · exact .inl ⟨t', ht', hrefl t'⟩
    · have hxr : x = r := Option.some.inj (hx.symm.trans hr)
      exact .inl ⟨x, Table.find_mem hx, hxr ▸ hR⟩

/-! ## The transactions -/

variable {target : AutonomousTradePhase} {updates : List FieldUpdate} {at_ : Datetime}
  {r : AutonomousTradeRecord}

variable {allowed : List AutonomousTradePhase} {replaceable : List TradeField}

/-- What a successful `_transition` did. -/
theorem transition_eq_ok
    (h : s.transition k allowed target updates at_ replaceable = .ok (r, s')) :
    ∃ t now, s.fetch k = some t ∧ t.phase ∈ allowed ∧ iso at_ = .ok now ∧
      s.idTaken (transitionRow target updates now t) = false ∧
      r = transitionRow target updates now t ∧
      s' = { s with trades := s.trades.modify k (transitionRow target updates now)
                      (transitionRow_key target updates now) } := by
  unfold transition at h
  split at h
  · cases h
  · next t ht =>
    simp only [bind_eq_ok, require_eq_ok, decide_eq_true_eq, Bool.not_eq_true'] at h
    obtain ⟨-, hallowed, -, -, now, hnow, -, htaken, h⟩ := h
    have hfind : (s.trades.modify k (transitionRow target updates now)
        (transitionRow_key target updates now)).find k = some (transitionRow target updates now t) := by
      rw [Table.find_modify, if_pos rfl, show s.trades.find k = some t from ht]
      rfl
    simp only [fetch, hfind] at h
    cases h
    exact ⟨t, now, ht, hallowed, hnow, htaken, rfl, rfl⟩

/-- A transition moves its trade as its row does. -/
theorem transition_change
    (h : s.transition k allowed target updates at_ replaceable = .ok (r, s'))
    (hR : ∀ t now, s.fetch k = some t → t.phase ∈ allowed →
      R t (transitionRow target updates now t)) :
    TradeChange R s s' := by
  obtain ⟨t, now, ht, hallowed, -, -, -, rfl⟩ := transition_eq_ok h
  obtain rfl := Table.find_key ht
  exact .moved t _ (transitionRow_key target updates now) ht (hR t now ht hallowed) rfl

theorem mem_activePhases : p ∈ activePhases ↔ p ≠ .closed := by
  cases p <;> decide

theorem fetchActive_none (h : s.fetchActive = .ok none) : ∀ t ∈ s.trades.rows, t.phase = .closed := by
  intro t ht
  by_contra hc
  simp only [fetchActive, bind_eq_ok, Except.ok.injEq] at h
  obtain ⟨-, -, h⟩ := h
  have hnil := List.head?_eq_none_iff.mp h
  have hmem : t ∈ s.activeRows :=
    List.mem_filter.mpr ⟨ht, decide_eq_true (mem_activePhases.mpr hc)⟩
  exact absurd (hnil ▸ mem_sorted.mpr hmem) List.not_mem_nil

/-- The arguments that `begin_trade` accepts. -/
structure ValidTrade (req : TradeRequest) : Prop where
  action : req.action = .long ∨ req.action = .short
  symbol : isBlank req.symbol = false
  stop : ∀ b, req.stopLossBps = some b → 0 < b
  target : ∀ b, req.takeProfitBps = some b → 0 < b

variable {D : Digests} {req : TradeRequest}

/-- What a successful `begin_trade` did: the trade of the observation, or a new one while
all others are closed. -/
theorem beginTrade_eq_ok
    (h : s.beginTrade D req at_ = .ok (r, s')) :
    ValidTrade req ∧ (s.fetch (tradeIdFor D req.observationId) = some r ∧ s' = s ∨
      ∃ now trades, s.fetchActive = .ok none ∧
        r = newTrade req (tradeIdFor D req.observationId) now ∧
        s.trades.insert r = some trades ∧ s' = { s with trades }) := by
  simp only [beginTrade, bind_eq_ok, require_eq_ok, Bool.not_eq_true',
    decide_eq_true_eq, positiveOpt_eq_ok] at h
  obtain ⟨-, haction, -, ⟨-, -, hsymbol⟩, -, -, -, -, -, hstop, -, htarget, now, -, h⟩ := h
  refine ⟨⟨haction, hsymbol, hstop, htarget⟩, ?_⟩
  split at h
  · next existing hexisting =>
    simp only [bind_eq_ok, Except.ok.injEq, Prod.mk.injEq] at h
    obtain ⟨-, -, rfl, rfl⟩ := h
    exact .inl ⟨hexisting, rfl⟩
  · simp only [bind_eq_ok, require_eq_ok, Option.isNone_iff_eq_none] at h
    obtain ⟨active, hactive, -, rfl, -, -, h⟩ := h
    split at h
    · cases h
    · next trades hinsert =>
      have hfind : trades.find (tradeIdFor D req.observationId) =
          some (newTrade req (tradeIdFor D req.observationId) now) := by
        rw [Table.find_insert hinsert]
        exact if_pos rfl
      rw [hfind] at h
      cases h
      exact .inr ⟨now, trades, hactive, rfl, hinsert, rfl⟩

theorem beginTrade_change
    (h : s.beginTrade D req at_ = .ok (r, s')) : TradeChange R s s' := by
  obtain ⟨-, ⟨-, rfl⟩ | ⟨now, trades, hactive, rfl, hinsert, rfl⟩⟩ := beginTrade_eq_ok h
  · exact .kept rfl
  · exact .begun _ rfl (fetchActive_none hactive) hinsert

variable {capital : ℚ}

theorem ensureDay_trades {now : Instant} {r : AutonomousDailyRiskRecord}
    (h : s.ensureDay now capital = .ok (r, s')) : s'.trades = s.trades := by
  unfold ensureDay at h
  split at h
  · cases h; rfl
  · split at h
    · cases h
    · split at h
      · cases h
      · cases h; rfl

theorem updateDay_trades {day : Int} {f : AutonomousDailyRiskRecord → AutonomousDailyRiskRecord}
    {hf : ∀ r, (f r).utcDate = r.utcDate} {r : AutonomousDailyRiskRecord}
    (h : s.updateDay day f hf = .ok (r, s')) : s'.trades = s.trades := by
  unfold updateDay at h
  simp only at h
  split at h
  · cases h
  · cases h; rfl

variable {config : AutonomousDemoRiskConfig} {now : Datetime}

theorem authorizeEntry_trades
    {r : AutonomousDailyRiskRecord} (h : s.authorizeEntry now capital config = .ok (r, s')) :
    s'.trades = s.trades := by
  simp only [AutonomousDemoStateStore.authorizeEntry, bind_eq_ok, Prod.exists] at h
  obtain ⟨-, -, _, -, _, _, hday, -, -, h⟩ := h
  cases h
  exact ensureDay_trades hday

theorem recordEntry_trades
    {r : AutonomousDailyRiskRecord} (h : s.recordEntry now capital config = .ok (r, s')) :
    s'.trades = s.trades := by
  simp only [AutonomousDemoStateStore.recordEntry, bind_eq_ok, Prod.exists] at h
  obtain ⟨_, -, _, _, hday, -, -, h⟩ := h
  exact (updateDay_trades h).trans (ensureDay_trades hday)

theorem recordClose_trades {capital pnl : ℚ}
    {r : AutonomousDailyRiskRecord} (h : s.recordClose now capital pnl config = .ok (r, s')) :
    s'.trades = s.trades := by
  simp only [AutonomousDemoStateStore.recordClose, bind_eq_ok, Prod.exists] at h
  obtain ⟨_, -, _, _, hday, _, -, h⟩ := h
  exact (updateDay_trades h).trans (ensureDay_trades hday)

/-! ## Methods -/

/-- The fields that tell of an order. -/
def TradeField.ofOrder : TradeField → Bool
  | .entryClientOrderId | .openedAtUtc | .exitClientOrderId => true
  | _ => false

variable {u : FieldUpdate}

theorem Unsubmitted.of_set
    (h : Unsubmitted (u.set t)) : Unsubmitted t := by
  cases u with
  | entryClientOrderId v => cases h.entry
  | openedAtUtc v => cases h.opened
  | exitClientOrderId v => cases h.exit
  | entryFillPrice v => exact ⟨h.entry, h.opened, h.exit⟩
  | exitReason v => exact ⟨h.entry, h.opened, h.exit⟩
  | realizedPnlUsd v => exact ⟨h.entry, h.opened, h.exit⟩
  | closedAtUtc v => exact ⟨h.entry, h.opened, h.exit⟩
  | safetyReason v => exact ⟨h.entry, h.opened, h.exit⟩

theorem Unsubmitted.set
    (hu : u.field.ofOrder = false) (h : Unsubmitted t) : Unsubmitted (u.set t) := by
  cases u with
  | entryClientOrderId v => cases hu
  | openedAtUtc v => cases hu
  | exitClientOrderId v => cases hu
  | entryFillPrice v => exact ⟨h.entry, h.opened, h.exit⟩
  | exitReason v => exact ⟨h.entry, h.opened, h.exit⟩
  | realizedPnlUsd v => exact ⟨h.entry, h.opened, h.exit⟩
  | closedAtUtc v => exact ⟨h.entry, h.opened, h.exit⟩
  | safetyReason v => exact ⟨h.entry, h.opened, h.exit⟩

theorem unsubmitted_foldl :
    (Unsubmitted (updates.foldl FieldUpdate.set t) → Unsubmitted t) ∧
      ((∀ u ∈ updates, u.field.ofOrder = false) → Unsubmitted t →
        Unsubmitted (updates.foldl FieldUpdate.set t)) := by
  induction updates generalizing t with
  | nil => exact ⟨id, fun _ => id⟩
  | cons u us ih =>
    exact ⟨fun h => (ih.1 h).of_set, fun hu h => ih.2 (fun v hv => hu v (List.mem_cons_of_mem u hv))
      (h.set (hu u List.mem_cons_self))⟩

/-- A row moves forward when its phase does, and a held one gets no id. -/
theorem forward_transitionRow
    {now : Instant} (hphase : target = t.phase ∨ Moves t.phase target)
    (hheld : t.phase = .safetyHold → ∀ u ∈ updates, u.field.ofOrder = false) :
    Forward t (transitionRow target updates now t) where
  key := transitionRow_key target updates now t
  phase := by rw [transitionRow_phase]; exact hphase
  ids := fun h =>
    have h' := unsubmitted_foldl.1 h
    ⟨h'.entry, h'.opened, h'.exit⟩
  held := fun hp h => unsubmitted_foldl.2 (hheld hp) ⟨h.entry, h.opened, h.exit⟩

/-- What becomes of a trade in a method of one transaction: a hold stays. -/
structure MethodForward (t t' : AutonomousTradeRecord) : Prop extends Forward t t' where
  stays : t.phase = .safetyHold → t'.phase = .safetyHold

theorem Forward.refl (t : AutonomousTradeRecord) : Forward t t := ⟨rfl, .inl rfl, id, fun _ => id⟩

/-- A row that does not start in `SAFETY_HOLD` moves forward when its phase does. -/
theorem methodForward_row
    {now : Instant} (hphase : target = t.phase ∨ Moves t.phase target)
    (hheld : t.phase ≠ .safetyHold) : MethodForward t (transitionRow target updates now t) :=
  ⟨forward_transitionRow hphase fun h => absurd h hheld, fun h => absurd h hheld⟩

theorem markEntrySubmitted_change {k c : String}
    (h : s.markEntrySubmitted k c at_ = .ok (r, s')) : TradeChange MethodForward s s' := by
  refine transition_change h fun t now _ hp => ?_
  simp only [List.mem_cons, List.not_mem_nil, or_false] at hp
  rcases hp with hp | hp
  · exact methodForward_row (.inr (hp ▸ .submitEntry)) (by rw [hp]; decide)
  · exact methodForward_row (.inl hp.symm) (by rw [hp]; decide)

theorem markOpen_change {price : ℚ}
    (h : s.markOpen k price at_ = .ok (r, s')) : TradeChange MethodForward s s' := by
  simp only [markOpen, bind_eq_ok] at h
  obtain ⟨-, -, opened, -, h⟩ := h
  refine transition_change h fun t now _ hp => ?_
  simp only [List.mem_cons, List.not_mem_nil, or_false] at hp
  rcases hp with hp | hp
  · exact methodForward_row (.inr (hp ▸ .fillEntry)) (by rw [hp]; decide)
  · exact methodForward_row (.inl hp.symm) (by rw [hp]; decide)

theorem markExitSubmitted_change {k c reason : String}
    (h : s.markExitSubmitted k c reason at_ = .ok (r, s')) : TradeChange MethodForward s s' := by
  simp only [markExitSubmitted, bind_eq_ok] at h
  obtain ⟨-, -, h⟩ := h
  refine transition_change h fun t now _ hp => ?_
  simp only [List.mem_cons, List.not_mem_nil, or_false] at hp
  rcases hp with hp | hp
  · exact methodForward_row (.inr (hp ▸ .submitExit)) (by rw [hp]; decide)
  · exact methodForward_row (.inl hp.symm) (by rw [hp]; decide)

theorem markClosed_change {pnl : ℚ}
    (h : s.markClosed k pnl at_ = .ok (r, s')) : TradeChange MethodForward s s' := by
  simp only [markClosed, bind_eq_ok] at h
  obtain ⟨closed, -, h⟩ := h
  refine transition_change h fun t now _ hp => ?_
  simp only [List.mem_cons, List.not_mem_nil, or_false] at hp
  rcases hp with hp | hp | hp
  · exact methodForward_row (.inr (hp ▸ .rejectEntry)) (by rw [hp]; decide)
  · exact methodForward_row (.inr (hp ▸ .fillExit)) (by rw [hp]; decide)
  · exact methodForward_row (.inl hp.symm) (by rw [hp]; decide)

theorem markSafetyHold_change {k reason : String}
    (h : s.markSafetyHold k reason at_ = .ok (r, s')) : TradeChange MethodForward s s' := by
  simp only [markSafetyHold, bind_eq_ok] at h
  obtain ⟨-, -, h⟩ := h
  refine transition_change h fun t now _ hp => ⟨forward_transitionRow ?_ fun _ u hu => ?_, fun _ =>
    transitionRow_phase .safetyHold _ now t⟩
  · rcases (by simpa [activePhases] using hp :
      t.phase = .observed ∨ t.phase = .entrySubmitted ∨ t.phase = .open ∨ t.phase = .exitSubmitted ∨
        t.phase = .safetyHold) with hp | hp | hp | hp | hp
    · exact .inr (hp ▸ .hold (by simp))
    · exact .inr (hp ▸ .hold (by simp))
    · exact .inr (hp ▸ .hold (by simp))
    · exact .inr (hp ▸ .hold (by simp))
    · exact .inl hp.symm
  · rw [List.mem_singleton.mp hu]
    rfl

/-- A transaction that is a method of its own. -/
def StateOp.isMethod : StateOp → Bool
  | .checkUnsubmittedSafetyHold _ | .closeCheckedSafetyHold .. => false
  | _ => true

theorem method_change {o : StateOp} {a : o.Res} (ho : o.isMethod = true)
    (h : o.txn D s = .ok (a, s')) : TradeChange MethodForward s s' := by
  cases o with
  | activeTrade =>
    simp only [StateOp.txn, AutonomousDemoStateStore.activeTrade, bind_eq_ok, Except.ok.injEq,
      Prod.mk.injEq] at h
    obtain ⟨-, -, -, rfl⟩ := h
    exact .kept rfl
  | dailyRiskState now =>
    simp only [StateOp.txn, AutonomousDemoStateStore.dailyRiskState, bind_eq_ok, Except.ok.injEq,
      Prod.mk.injEq] at h
    obtain ⟨-, -, -, rfl⟩ := h
    exact .kept rfl
  | beginTrade req now => exact beginTrade_change h
  | markEntrySubmitted k c now => exact markEntrySubmitted_change h
  | markOpen k price now => exact markOpen_change h
  | markExitSubmitted k c reason now => exact markExitSubmitted_change h
  | markClosed k pnl now => exact markClosed_change h
  | markSafetyHold k reason now => exact markSafetyHold_change h
  | checkUnsubmittedSafetyHold k => cases ho
  | closeCheckedSafetyHold k now => cases ho
  | authorizeEntry now capital config => exact .kept (authorizeEntry_trades h)
  | recordEntry now capital config => exact .kept (recordEntry_trades h)
  | recordClose now capital pnl config => exact .kept (recordClose_trades h)
  | activateKillSwitch now capital reason =>
    simp only [StateOp.txn, AutonomousDemoStateStore.activateKillSwitch, bind_eq_ok, Prod.exists] at h
    obtain ⟨-, -, _, -, _, _, hday, h⟩ := h
    exact .kept ((updateDay_trades h).trans (ensureDay_trades hday))

/-! ## Closing a hold -/

/-- The trade passes the test of `close_unsubmitted_safety_hold`, or is closed. -/
def Cleared (s : AutonomousDemoStateStore) (k : String) : Prop :=
  ∃ t, s.fetch k = some t ∧ (t.phase = .safetyHold ∧ Unsubmitted t ∨ t.phase = .closed)

/-- What becomes of a trade in any transaction of a pool. -/
structure Lawful (t t' : AutonomousTradeRecord) : Prop extends Forward t t' where
  released : t.phase = .safetyHold → t'.phase ≠ .safetyHold → Unsubmitted t

theorem Lawful.refl (t : AutonomousTradeRecord) : Lawful t t := ⟨.refl t, fun h h' => absurd h h'⟩

theorem MethodForward.lawful (h : MethodForward t t') : Lawful t t' :=
  ⟨h.toForward, fun hp hp' => absurd (h.stays hp) hp'⟩

theorem checkUnsubmittedSafetyHold_cleared {u : Unit}
    (h : s.checkUnsubmittedSafetyHold k = .ok (u, s')) : s' = s ∧ Cleared s k := by
  unfold checkUnsubmittedSafetyHold at h
  split at h
  · cases h
  · next t ht =>
    simp only [bind_eq_ok, require_eq_ok, decide_eq_true_eq, Option.isNone_iff_eq_none] at h
    obtain ⟨-, hp, -, ⟨hentry, hopened, hexit⟩, h⟩ := h
    cases h
    exact ⟨rfl, t, ht, .inl ⟨hp, hentry, hopened, hexit⟩⟩

theorem closeCheckedSafetyHold_change
    (hk : Cleared s k) (h : s.closeCheckedSafetyHold k at_ = .ok (r, s')) : TradeChange Lawful s s' := by
  simp only [closeCheckedSafetyHold, bind_eq_ok] at h
  obtain ⟨closed, -, h⟩ := h
  refine transition_change h fun t now ht hp => ?_
  have hp : t.phase = .safetyHold := List.mem_singleton.mp hp
  obtain ⟨x, hx, hcleared⟩ := hk
  cases ht.symm.trans hx
  have hunsub : Unsubmitted t := by
    rcases hcleared with ⟨-, h⟩ | hc
    · exact h
    · rw [hp] at hc; cases hc
  refine ⟨forward_transitionRow (.inr (hp ▸ .clear)) fun _ u hu => ?_, fun _ _ => hunsub⟩
  simp only [List.mem_cons, List.not_mem_nil, or_false] at hu
  rcases hu with rfl | rfl | rfl <;> rfl

/-- A cleared trade stays cleared, whatever runs between the read and the write. -/
theorem TradeChange.cleared (h : TradeChange Lawful s s') (hk : Cleared s k) : Cleared s' k := by
  obtain ⟨t, ht, hcleared⟩ := hk
  obtain ⟨t', ht', hlaw⟩ := h.fetch Lawful.refl ht
  refine ⟨t', ht', ?_⟩
  rcases hcleared with ⟨hp, hunsub⟩ | hc
  · rcases hlaw.phase with hp' | hmove
    · exact .inl ⟨hp'.trans hp, hlaw.held hp hunsub⟩
    · rw [hp] at hmove
      exact .inr (moves_safetyHold hmove)
  · exact .inr (hlaw.closed hc)

/-! ## Interleaved callers -/

/-- The calls of the store's methods. -/
inductive Caller : Prog StateOp StateOp.Res PyError Unit → Prop where
  | method (o : StateOp) (ho : o.isMethod = true) :
      Caller (do let _ ← Prog.perform o; pure ())
  | closeUnsubmitted (k : String) (at_ : Datetime) :
      Caller (do let _ ← closeUnsubmittedSafetyHold k at_; pure ())

/-- A call that can be in the pool: it has not begun, is past its first transaction, or ended. -/
inductive InFlight (s : AutonomousDemoStateStore) : Prog StateOp StateOp.Res PyError Unit → Prop where
  | begin {p : Prog StateOp StateOp.Res PyError Unit} (h : Caller p) : InFlight s p
  | checked (k : String) (at_ : Datetime) (h : Cleared s k) :
      InFlight s (do let _ ← Prog.perform (StateOp.closeCheckedSafetyHold k at_); pure ())
  | returned : InFlight s (.ret ())
  | raised (e : PyError) : InFlight s (.raise e)

theorem InFlight.mono {p : Prog StateOp StateOp.Res PyError Unit} (hc : TradeChange Lawful s s')
    (h : InFlight s p) : InFlight s' p := by
  cases h with
  | begin h => exact .begin h
  | checked k at_ h => exact .checked k at_ (hc.cleared h)
  | returned => exact .returned
  | raised e => exact .raised e

theorem inFlight_lift {α : Type} (r : Except PyError α) :
    InFlight s (Prog.lift r >>= fun _ => (pure () : Prog StateOp StateOp.Res PyError Unit)) := by
  cases r with
  | ok a => exact .returned
  | error e => exact .raised e

variable {D : Digests}

/-- One transaction of a call in the pool. -/
theorem inFlight_op {o : StateOp} {k : Except PyError o.Res → Prog StateOp StateOp.Res PyError Unit}
    {r : Except PyError o.Res} (h : InFlight s (.call o k)) (hx : execState D o s r s') :
    TradeChange Lawful s s' ∧ InFlight s' (k r) := by
  generalize hp : Prog.call o k = p at h
  cases h with
  | begin h =>
    cases h with
    | method o' ho =>
      cases hp
      refine ⟨?_, inFlight_lift r⟩
      rcases outcome_cases hx with ⟨a, -, h⟩ | ⟨e, -, -, rfl⟩
      · exact (method_change ho h).mono fun _ _ => MethodForward.lawful
      · exact .kept rfl
    | closeUnsubmitted key at_ =>
      cases hp
      rcases outcome_cases hx with ⟨a, rfl, h⟩ | ⟨e, rfl, -, rfl⟩
      · obtain ⟨rfl, hcleared⟩ := checkUnsubmittedSafetyHold_cleared h
        exact ⟨.kept rfl, .checked key at_ hcleared⟩
      · exact ⟨.kept rfl, .raised e⟩
  | checked key at_ hcleared =>
    cases hp
    refine ⟨?_, inFlight_lift r⟩
    rcases outcome_cases hx with ⟨a, -, h⟩ | ⟨e, -, -, rfl⟩
    · exact closeCheckedSafetyHold_change hcleared h
    · exact .kept rfl
  | returned => cases hp
  | raised e => cases hp

/-- At most one trade is not closed. -/
def SingleActive (s : AutonomousDemoStateStore) : Prop :=
  ∀ t ∈ s.trades.rows, ∀ u ∈ s.trades.rows, t.phase ≠ .closed → u.phase ≠ .closed → t = u

theorem TradeChange.singleActive (h : TradeChange Lawful s s') (hs : SingleActive s) : SingleActive s' := by
  intro t' ht' u' hu' htp hup
  rcases h.origin Lawful.refl ht' with ⟨t, ht, hlt⟩ | ⟨hnewt, hclosed⟩
  · rcases h.origin Lawful.refl hu' with ⟨u, hu, hlu⟩ | ⟨-, hclosed⟩
    · obtain rfl := hs t ht u hu (fun hc => htp (hlt.closed hc)) (fun hc => hup (hlu.closed hc))
      exact Table.eq_of_key_eq ht' hu' (hlt.key.trans hlu.key.symm)
    · exact absurd (hlt.closed (hclosed t ht)) htp
  · rcases h.origin Lawful.refl hu' with ⟨u, hu, hlu⟩ | ⟨hnewu, -⟩
    · exact absurd (hlu.closed (hclosed u hu)) hup
    · have := (Table.insert_eq_some.mp hnewt).2.symm.trans (Table.insert_eq_some.mp hnewu).2
      exact List.singleton_inj.mp (List.append_cancel_left this)

/-- A store with the calls that run on it. -/
abbrev Pool := AutonomousDemoStateStore × List (Prog StateOp StateOp.Res PyError Unit)

/-- The invariant of the pools. -/
structure Orderly (c : Pool) : Prop where
  single : SingleActive c.1
  calls : ∀ p ∈ c.2, InFlight c.1 p

/-- **One step of a pool** moves at most one trade, lawfully. -/
theorem orderly_step {c c' : Pool} (h : PoolStep (execState D) Caller c c') (hc : Orderly c) :
    TradeChange Lawful c.1 c'.1 ∧ Orderly c' := by
  cases h with
  | spawn hp =>
    refine ⟨.kept rfl, hc.single, fun q hq => ?_⟩
    rcases List.mem_cons.mp hq with rfl | hq
    · exact .begin hp
    · exact hc.calls q hq
  | op hx =>
    have hmem := hc.calls _ (List.mem_append_right _ List.mem_cons_self)
    obtain ⟨hchange, hk⟩ := inFlight_op hmem hx
    refine ⟨hchange, hchange.singleActive hc.single, fun q hq => ?_⟩
    rcases List.mem_append.mp hq with hq | hq
    · exact (hc.calls q (List.mem_append_left _ hq)).mono hchange
    · rcases List.mem_cons.mp hq with rfl | hq
      · exact hk
      · exact (hc.calls q (List.mem_append_right _ (List.mem_cons_of_mem _ hq))).mono hchange

theorem orderly_reach {c : Pool} (h : PoolReach (execState D) Caller .empty c) : Orderly c :=
  h.invariant ⟨fun _ ht => absurd ht List.not_mem_nil, fun _ hp => absurd hp List.not_mem_nil⟩
    fun _ _ hs hc => (orderly_step hs hc).2

/-- A trade without ids had none before. -/
theorem unsubmitted_before {c c' : Pool}
    (h : Relation.ReflTransGen (PoolStep (execState D) Caller) c c') (hc : Orderly c) :
    Orderly c' ∧ ∀ k t, c.1.fetch k = some t →
      ∃ t', c'.1.fetch k = some t' ∧ (Unsubmitted t' → Unsubmitted t) := by
  induction h with
  | refl => exact ⟨hc, fun k t ht => ⟨t, ht, id⟩⟩
  | tail _ hs ih =>
    obtain ⟨hmid, hback⟩ := ih
    obtain ⟨hchange, hend⟩ := orderly_step hs hmid
    refine ⟨hend, fun k t ht => ?_⟩
    obtain ⟨t', ht', hu'⟩ := hback k t ht
    obtain ⟨t'', ht'', hlaw⟩ := hchange.fetch Lawful.refl ht'
    exact ⟨t'', ht'', fun h => hu' (hlaw.ids h)⟩

/-- **Single active trade.** In a pool `c'` that any calls reach by way of `c`, at most one
trade is not closed. Every next step moves each trade along the transition relation or not
at all, keeps what is closed, and releases a hold only to `CLOSED`, of a trade that had no
order in any earlier `c`. -/
theorem single_active_trade {c c' : Pool} (h : PoolReach (execState D) Caller .empty c)
    (h' : Relation.ReflTransGen (PoolStep (execState D) Caller) c c') :
    SingleActive c'.1 ∧ ∀ next, PoolStep (execState D) Caller c' next →
      ∀ t ∈ c'.1.trades.rows, ∃ u ∈ next.1.trades.rows, u.tradeId = t.tradeId ∧
        (u.phase = t.phase ∨ Moves t.phase u.phase) ∧
        (t.phase = .closed → u.phase = .closed) ∧
        (t.phase = .safetyHold → u.phase ≠ .safetyHold → u.phase = .closed ∧
          ∀ x ∈ c.1.trades.rows, x.tradeId = t.tradeId → Unsubmitted x) := by
  obtain ⟨hc', hback⟩ := unsubmitted_before h' (orderly_reach h)
  refine ⟨hc'.single, fun next hs t ht => ?_⟩
  obtain ⟨hchange, -⟩ := orderly_step hs hc'
  obtain ⟨u, hu, hlaw⟩ := hchange.fetch Lawful.refl (Table.find_of_mem ht)
  refine ⟨u, Table.find_mem hu, hlaw.key, hlaw.phase, hlaw.closed, fun hp hup => ⟨?_, ?_⟩⟩
  · rcases hlaw.phase with hk | hmove
    · exact absurd (hk.trans hp) hup
    · rw [hp] at hmove
      exact moves_safetyHold hmove
  · intro x hx hkey
    obtain ⟨x', hx', hids⟩ := hback x.tradeId x (Table.find_of_mem hx)
    rw [hkey] at hx'
    cases (Table.find_of_mem ht).symm.trans hx'
    exact hids (hlaw.released hp hup)

/-- A trade that is begun, held and cleared, with a submission in the gap of the clearing. -/
def clearedCalls : List (Prog StateOp StateOp.Res PyError Unit) :=
  let k := tradeIdFor sampleDigests "obs"
  let at0 : Datetime := .ofInstant 0
  [do let _ ← Prog.perform (StateOp.beginTrade ⟨"obs", "cand", "BTCUSDT", .long, 1, 100, none, none⟩ at0)
      pure (),
    do let _ ← Prog.perform (StateOp.markSafetyHold k "stale preflight" at0); pure (),
    do let _ ← closeUnsubmittedSafetyHold k at0; pure (),
    do let _ ← Prog.perform (StateOp.markEntrySubmitted k "demo-entry" at0); pure ()]

theorem caller_clearedCalls : ∀ p ∈ clearedCalls, Caller p := by
  intro p hp
  simp only [clearedCalls, List.mem_cons, List.not_mem_nil, or_false] at hp
  rcases hp with rfl | rfl | rfl | rfl
  · exact .method _ rfl
  · exact .method _ rfl
  · exact .closeUnsubmitted _ _
  · exact .method _ rfl

/-- A transaction of the store, computed. -/
def handleState (o : StateOp) (s : AutonomousDemoStateStore) :
    Except PyError o.Res × AutonomousDemoStateStore := outcome (o.txn sampleDigests s) s

/-- The pool before the write of the clearing. -/
def heldPool : Pool :=
  let c := runPool (fun _ _ => true) handleState [0, 1] .empty clearedCalls
  runPool (fun _ _ => true) handleState [2, 3] c.1 c.2

theorem single_active_trade_cleared : heldPool.1.trades.rows.map (·.phase) = [.safetyHold] ∧
    SingleActive heldPool.1 ∧ ∀ next, PoolStep (execState sampleDigests) Caller heldPool next →
      ∀ t ∈ heldPool.1.trades.rows, ∃ u ∈ next.1.trades.rows, u.tradeId = t.tradeId ∧
        (u.phase = t.phase ∨ Moves t.phase u.phase) ∧
        (t.phase = .closed → u.phase = .closed) ∧
        (t.phase = .safetyHold → u.phase ≠ .safetyHold → u.phase = .closed ∧
          ∀ x ∈ (runPool (fun _ _ => true) handleState [0, 1] .empty clearedCalls).1.trades.rows,
            x.tradeId = t.tradeId → Unsubmitted x) :=
  ⟨by decide +kernel, single_active_trade
    (poolReach_runPool (fun _ _ => true) handleState (fun _ _ _ => rfl) caller_clearedCalls [0, 1])
    (poolSteps_runPool (fun _ _ => true) handleState (fun _ _ _ => rfl) [2, 3] _ _)⟩

end Greenfield.Demo
