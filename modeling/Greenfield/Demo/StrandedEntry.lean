import Greenfield.Demo.RealizedPnl
import Greenfield.Demo.Tidy

/-!
# Entry orders that ended

A trade in `ENTRY_SUBMITTED` waits for its entry order. Once the order is reconciled, a call
of `advance` opens the trade of a filled order and closes that of a rejected one
(`wp_advanceEntry`). A canceled order, whatever was filled of it, is neither: the trade stays
where it is, under this call and all later ones (`Stranded`).
-/

namespace Greenfield.Demo

open Keyed Py Paper Effects PaperOrderStore AutonomousDemoStateStore

variable {D : Digests} {obs : Answers} {w w' : World} {k c : String}

/-! ## Operations -/

/-- The operation is on the state store. -/
def Op.isState : Op → Bool
  | .state _ => true
  | _ => false

/-- The operation begins an order. -/
def Op.beginsOrder : Op → Bool
  | .orders (.beginOrder ..) => true
  | _ => false

theorem changes_txn {o : OrderOp} {s s' : PaperOrderStore} {a : o.Res}
    (h : o.txn D s = .ok (a, s')) : Changes s s' := by
  cases o with
  | get c =>
    cases h
    exact .refl
  | listByLegGroup g => rw [(listByLegGroup_txn h).2]
  | beginOrder req now => exact changes_of_or (change_of_beginOrder h)
  | markSubmitted c now => exact .single (change_of_markSubmitted h)
  | applyFillResult c fill => exact changes_of_or (change_of_applyFillResult h)
  | markCanceled c now => exact changes_of_or (change_of_markCanceled h)

variable {o : Op}

/-- What an operation does to the order store. -/
theorem exec_changes {r : Except PyError o.Res} (h : exec D obs o w r w') :
    Changes w.orders w'.orders := by
  cases o with
  | orders o =>
    obtain ⟨s', hr, rfl⟩ := h
    rcases outcome_cases hr with ⟨a, rfl, ht⟩ | ⟨e, rfl, ht, rfl⟩
    · exact changes_txn ht
    · exact .refl
  | state o =>
    obtain ⟨s', -, rfl⟩ := h
    exact .refl
  | place now c request =>
    obtain ⟨received, rfl, -⟩ := h
    exact .refl
  | query q =>
    obtain ⟨rfl, -⟩ := h
    exact .refl

theorem exec_state {r : Except PyError o.Res} (ho : o.isState = false)
    (h : exec D obs o w r w') : w'.state = w.state := by
  cases o with
  | orders o =>
    obtain ⟨s', -, rfl⟩ := h
    rfl
  | state o => cases ho
  | place now c request =>
    obtain ⟨received, rfl, -⟩ := h
    rfl
  | query q =>
    obtain ⟨rfl, -⟩ := h
    rfl

/-- The order is in this terminal state. -/
def EndedIn (state : PaperOrderState) (c : String) (w : World) : Prop :=
  ∃ o, w.orders.orders.find c = some o ∧ o.state = state

theorem EndedIn.exec {state : PaperOrderState} (hterminal : state.terminal = true)
    {r : Except PyError o.Res} (hx : exec D obs o w r w') (h : EndedIn state c w) :
    EndedIn state c w' := by
  obtain ⟨x, hfind, hstate⟩ := h
  obtain ⟨x', hfind', hstate', -⟩ :=
    outlasts_changes (exec_changes hx) c x hfind (hstate ▸ hterminal)
  exact ⟨x', hfind', hstate'.trans hstate⟩

/-! ## Reconciling -/

section

variable {J : Op → Prop} (horders : ∀ o, (Op.orders o).beginsOrder = false → J (.orders o))

include horders

theorem askOrders_all {o : OrderOp} (ho : (Op.orders o).beginsOrder = false) :
    (askOrders o).All J := Prog.All.perform (horders o ho)

theorem applyExecutions_all (record : PaperOrderRecord) (xs : List DemoExecution) :
    (applyExecutions c record xs).All J := by
  induction xs with
  | nil => trivial
  | cons x xs ih => exact (askOrders_all horders rfl).bind fun _ => ih

theorem followStatus_all (record : PaperOrderRecord) (snapshot : DemoOrderSnapshot) :
    (followStatus c record snapshot).All J := by
  unfold followStatus
  split
  · refine Prog.All.bind ?_ fun _ => trivial
    unfold Prog.check
    split <;> trivial
  · exact askOrders_all horders rfl
  · split
    · exact askOrders_all horders rfl
    · split
      · exact askOrders_all horders rfl
      · trivial
  · split
    · exact askOrders_all horders rfl
    · split
      · exact askOrders_all horders rfl
      · trivial
  · trivial
  · trivial

/-- The operations of a reconciliation: it changes orders that are there, and asks. -/
theorem reconcile_all (hquery : ∀ q, J (.query q)) (c : String) : (reconcile D c).All J := by
  have hask (q : Query) : (ask q).All J := Prog.All.perform (hquery q)
  unfold reconcile
  refine (askOrders_all horders rfl).bind fun found => Prog.All.lift.bind fun record => ?_
  refine Prog.All.lift.bind fun link => (hask _).bind fun executions => ?_
  refine (applyExecutions_all horders _ _).bind fun _ =>
    (askOrders_all horders rfl).bind fun found => ?_
  refine Prog.All.lift.bind fun record => (hask _).bind fun order => ?_
  split
  · trivial
  · exact Prog.All.lift.bind fun _ => (followStatus_all horders _ _).bind fun _ => trivial

end

variable {E : PyError → World → Prop} {I : World → Prop}

/-- A body that lags returns nothing. -/
theorem wp_orLag {α : Type} {p : DemoProg α} {Q : Option α → World → Prop}
    (h : wp (exec D obs) I p (fun a => Q (some a)) (fun e v => Q none v ∧ E e v) w) :
    wp (exec D obs) I (orLag p) Q E w := by
  unfold orLag
  rw [wp_bind, wp_attempt]
  refine wp_mono (fun _ h => h) (fun _ _ h => h) (fun e v h => ?_) h
  cases e with
  | demoExecutionLag msg => exact h.1
  | _ => exact h.2

/-- The order that following the status returns is the one in the store. -/
theorem wp_followStatus_returns {record : PaperOrderRecord} {snapshot : DemoOrderSnapshot}
    (h : w.orders.fetch c = some record) :
    wp (exec D obs) (fun _ => True) (followStatus c record snapshot)
      (fun r w' => w'.orders.fetch c = some r) (fun _ _ => True) w := by
  have hcancel : wp (exec D obs) (fun _ => True)
      (askOrders (.markCanceled c snapshot.updatedAtUtc))
      (fun r w' => w'.orders.fetch c = some r) (fun _ _ => True) w := by
    rw [wp_askOrders]
    exact ⟨trivial, fun r s' hr => (touched_markCanceled hr).2, fun _ _ => trivial⟩
  have hreject : wp (exec D obs) (fun _ => True)
      (askOrders (.applyFillResult c (rejectionOf snapshot)))
      (fun r w' => w'.orders.fetch c = some r) (fun _ _ => True) w := by
    rw [wp_askOrders]
    exact ⟨trivial, fun r s' hr => (touched_applyFillResult hr).2, fun _ _ => trivial⟩
  unfold followStatus
  split
  · rw [wp_bind, wp_check]
    exact ⟨fun _ => h, fun _ => trivial⟩
  · exact hcancel
  · split
    · exact hcancel
    · split
      · exact hreject
      · exact h
  · split
    · exact hcancel
    · split
      · exact hreject
      · exact h
  · exact h
  · exact h

/-- **The order that `reconcile` returns** is the one in the store. -/
theorem wp_reconcile_returns (c : String) (w : World) :
    wp (exec D obs) (fun _ => True) (reconcile D c)
      (fun r w' => w'.orders.fetch c = some r.1) (fun _ _ => True) w := by
  unfold reconcile
  rw [wp_bind, wp_askOrders]
  refine ⟨trivial, fun found s' _ => ?_, fun _ _ => trivial⟩
  rw [wp_bind, wp_lift]
  refine ⟨fun record _ => ?_, fun _ _ => trivial⟩
  rw [wp_bind, wp_lift]
  refine ⟨fun link _ => ?_, fun _ _ => trivial⟩
  rw [wp_bind, wp_ask]
  refine ⟨trivial, fun executions _ => ?_, fun _ _ => trivial⟩
  rw [wp_bind]
  refine wp_mono (fun _ _ => trivial) (fun _ w₁ _ => ?_) (fun _ _ _ => trivial)
    (wp_invariant (I := fun _ => True) (fun _ _ _ _ _ _ => trivial) trivial)
  rw [wp_bind, wp_askOrders]
  refine ⟨trivial, fun found s' hget => ?_, fun _ _ => trivial⟩
  cases hget
  rw [wp_bind, wp_lift]
  refine ⟨fun record hrecord => ?_, fun _ _ => trivial⟩
  have hfetch : w₁.orders.fetch c = some record := existingOrder_eq_ok hrecord
  rw [wp_bind, wp_ask]
  refine ⟨trivial, fun order _ => ?_, fun _ _ => trivial⟩
  cases order with
  | none => exact hfetch
  | some snapshot =>
    rw [wp_bind, wp_lift]
    refine ⟨fun _ _ => ?_, fun _ _ => trivial⟩
    rw [wp_bind]
    exact wp_mono (fun _ h => h) (fun _ _ h => h) (fun _ _ h => h) (wp_followStatus_returns hfetch)

/-- Reconciling keeps what the operations keep, and returns the order that is stored. -/
theorem wp_reconcileOrder {P : World → Prop} (hP : Keeps (exec D obs) P (reconcile D c))
    (h : P w) : wp (exec D obs) P (DemoStrategyExecutor.reconcileOrder D c)
      (fun found v => P v ∧ ∀ order, found = some order → v.orders.fetch c = some order)
      (fun _ => P) w := by
  unfold DemoStrategyExecutor.reconcileOrder
  apply wp_orLag
  rw [wp_bind]
  refine wp_mono (fun _ h => h.1) (fun r v h => ?_) (fun e v h => ?_)
    (wp_and (hP w h) (wp_reconcile_returns c w))
  · refine ⟨h.1, fun order horder => ?_⟩
    cases horder
    exact h.2
  · refine ⟨⟨h.1, fun order horder => ?_⟩, h.1⟩
    cases horder

/-! ## Trades that were opened -/

/-- `mark_open` was recorded. -/
def WasOpened (t : AutonomousTradeRecord) : Prop := t.entryFillPrice ≠ none ∧ t.openedAtUtc ≠ none

/-- The phases from `OPEN` on. -/
def AutonomousTradePhase.fromOpen : AutonomousTradePhase → Bool
  | .observed | .entrySubmitted => false
  | _ => true

variable {t : AutonomousTradeRecord}

theorem WasOpened.set {u : FieldUpdate} (h : WasOpened t) :
    WasOpened (u.set t) := by
  cases u with
  | entryFillPrice v => exact ⟨Option.some_ne_none v, h.2⟩
  | openedAtUtc v => exact ⟨h.1, Option.some_ne_none v⟩
  | _ => exact h

theorem WasOpened.row (h : WasOpened t)
    (target : AutonomousTradePhase) (updates : List FieldUpdate) (now : Instant) :
    WasOpened (transitionRow target updates now t) := by
  have hset {t : AutonomousTradeRecord} (h : WasOpened t) :
      WasOpened (updates.foldl FieldUpdate.set t) := by
    induction updates generalizing t with
    | nil => exact h
    | cons u us ih => exact ih h.set
  exact hset ⟨h.1, h.2⟩

/-- What is beyond its entry stays so. -/
structure StaysOpened (t t' : AutonomousTradeRecord) : Prop where
  phase : t.phase.fromOpen = true → t'.phase.fromOpen = true
  opened : WasOpened t → WasOpened t'

theorem StaysOpened.refl (t : AutonomousTradeRecord) : StaysOpened t t := ⟨id, id⟩

theorem staysOpened_row {target : AutonomousTradePhase}
    {updates : List FieldUpdate} {now : Instant}
    (h : t.phase.fromOpen = true → target.fromOpen = true) :
    StaysOpened t (transitionRow target updates now t) :=
  ⟨fun hp => (transitionRow_phase target updates now t).symm ▸ h hp, fun ho => ho.row _ _ _⟩

variable {s s' : AutonomousDemoStateStore}

/-- **No transaction** takes a trade back to its entry. -/
theorem txn_staysOpened {o : StateOp} {a : o.Res}
    (h : o.txn D s = .ok (a, s')) : TradeChange StaysOpened s s' := by
  cases o with
  | activeTrade =>
    simp only [StateOp.txn, AutonomousDemoStateStore.activeTrade, bind_eq_ok, Except.ok.injEq,
      Prod.mk.injEq] at h
    obtain ⟨-, -, -, rfl⟩ := h
    exact .kept rfl
  | dailyRiskState now =>
    simp only [StateOp.txn, AutonomousDemoStateStore.dailyRiskState, bind_eq_ok, Except.ok.injEq,
      Prod.mk.injEq] at h
    obtain ⟨-, -, -, rfl⟩ := h
    exact .kept rfl
  | beginTrade req now => exact beginTrade_change h
  | markEntrySubmitted k c now =>
    refine transition_change h fun t i _ hp => staysOpened_row fun ho => ?_
    simp only [List.mem_cons, List.not_mem_nil, or_false] at hp
    rcases hp with hp | hp <;> rw [hp] at ho <;> cases ho
  | markOpen k price now =>
    simp only [StateOp.txn, markOpen, bind_eq_ok] at h
    obtain ⟨-, -, opened, -, h⟩ := h
    exact transition_change h fun t i _ _ => staysOpened_row fun _ => rfl
  | markExitSubmitted k c reason now =>
    simp only [StateOp.txn, markExitSubmitted, bind_eq_ok] at h
    obtain ⟨-, -, h⟩ := h
    exact transition_change h fun t i _ _ => staysOpened_row fun _ => rfl
  | markClosed k pnl now =>
    simp only [StateOp.txn, markClosed, bind_eq_ok] at h
    obtain ⟨closed, -, h⟩ := h
    exact transition_change h fun t i _ _ => staysOpened_row fun _ => rfl
  | markSafetyHold k reason now =>
    simp only [StateOp.txn, markSafetyHold, bind_eq_ok] at h
    obtain ⟨-, -, h⟩ := h
    exact transition_change h fun t i _ _ => staysOpened_row fun _ => rfl
  | checkUnsubmittedSafetyHold k =>
    obtain ⟨rfl, -⟩ := checkUnsubmittedSafetyHold_cleared h
    exact .kept rfl
  | closeCheckedSafetyHold k now =>
    simp only [StateOp.txn, closeCheckedSafetyHold, bind_eq_ok] at h
    obtain ⟨closed, -, h⟩ := h
    exact transition_change h fun t i _ _ => staysOpened_row fun _ => rfl
  | authorizeEntry now capital config => exact .kept (authorizeEntry_trades h)
  | recordEntry now capital config => exact .kept (recordEntry_trades h)
  | recordClose now capital pnl config => exact .kept (recordClose_trades h)
  | activateKillSwitch now capital reason =>
    simp only [StateOp.txn, AutonomousDemoStateStore.activateKillSwitch, bind_eq_ok, Prod.exists] at h
    obtain ⟨-, -, _, -, _, _, hday, h⟩ := h
    exact .kept ((updateDay_trades h).trans (ensureDay_trades hday))

/-- The trade `k` was opened, and is in a phase from `OPEN` on. -/
def OpenedIn (k : String) (w : World) : Prop :=
  ∃ t, w.state.fetch k = some t ∧ t.phase.fromOpen = true ∧ WasOpened t

theorem OpenedIn.exec {r : Except PyError o.Res} (hx : exec D obs o w r w')
    (h : OpenedIn k w) : OpenedIn k w' := by
  cases hstate : o.isState with
  | false =>
    unfold OpenedIn
    rw [exec_state hstate hx]
    exact h
  | true =>
    cases o with
    | state o =>
      obtain ⟨s', hr, rfl⟩ := hx
      rcases outcome_cases hr with ⟨a, rfl, ht⟩ | ⟨e, rfl, ht, rfl⟩
      · obtain ⟨t, hfetch, hphase, hopened⟩ := h
        obtain ⟨t', hfetch', hstays⟩ := (txn_staysOpened ht).fetch StaysOpened.refl hfetch
        exact ⟨t', hfetch', hstays.phase hphase, hstays.opened hopened⟩
      · exact h
    | _ => cases hstate

/-! ## The call after the entry ended -/

variable {self : DemoStrategyExecutor} {trade : AutonomousTradeRecord} {now : Instant}

/-- What `advance` returns when the order could not be reconciled. -/
def lagged (trade : AutonomousTradeRecord) : DemoStrategyCycleResult :=
  ⟨"ENTRY_SUBMITTED", some trade, "entry execution feed is lagging; reconciliation will retry"⟩

/-- What the call did about the entry order `o`. -/
inductive Followed (w w' : World) (k : String) (o : OrderRow) : Prop where
  | opened (ho : o.state = .filled) (ht : OpenedIn k w')
  | closed (ho : o.state = .rejected) (ht : ∃ t, w'.state.fetch k = some t ∧ t.phase = .closed)
  | left (hfilled : o.state = .filled → o.filledQuantity ≤ 0)
      (hrejected : o.state = .rejected → o.filledQuantity ≠ 0) (h : w'.state = w.state)

variable {r : AutonomousTradeRecord}

theorem markOpen_opened {price : ℚ}
    (h : s.markOpen k price (.ofInstant now) = .ok (r, s')) :
    ∃ t, s'.fetch k = some t ∧ t.phase.fromOpen = true ∧ WasOpened t := by
  simp only [markOpen, bind_eq_ok] at h
  obtain ⟨-, -, opened, -, h⟩ := h
  obtain ⟨-, t, i, hfetch⟩ := transition_fetch h
  exact ⟨_, hfetch, rfl, Option.some_ne_none price, Option.some_ne_none opened⟩

theorem markClosed_closed {pnl : ℚ}
    (h : s.markClosed k pnl (.ofInstant now) = .ok (r, s')) :
    ∃ t, s'.fetch k = some t ∧ t.phase = .closed := by
  simp only [markClosed, bind_eq_ok] at h
  obtain ⟨closed, -, h⟩ := h
  obtain ⟨-, t, i, hfetch⟩ := transition_fetch h
  exact ⟨_, hfetch, rfl⟩

variable {o : OrderRow}

theorem wp_closeRejectedEntry {Q : Option DemoStrategyCycleResult → World → Prop}
    (hnone : (o.state = .rejected → o.filledQuantity ≠ 0) → Q none w)
    (hsome : ∀ result w', o.state = .rejected → w'.orders = w.orders →
      (∃ t, w'.state.fetch trade.tradeId = some t ∧ t.phase = .closed) → Q (some result) w') :
    wp (exec D obs) (fun _ => True)
      (DemoStrategyExecutor.closeRejectedEntry trade now o.toRecord) Q (fun _ _ => True) w := by
  unfold DemoStrategyExecutor.closeRejectedEntry
  split
  · next hor => exact hnone fun hst hzero => hor.elim (fun h => h hst) (fun h => h hzero)
  · next hor =>
    rw [not_or, not_not, not_not] at hor
    rw [wp_bind, wp_askState]
    exact ⟨trivial, fun r s' hr => hsome _ _ hor.1 rfl (markClosed_closed hr), fun _ _ => trivial⟩

/-- What is done once the order is reconciled. -/
theorem wp_follow (ho : w.orders.orders.find c = some o) :
    wp (exec D obs) (fun _ => True)
      (match o.toRecord.state, o.toRecord.averageFillPrice with
        | .filled, some price => do
          let trade ← askState (.markOpen trade.tradeId price (.ofInstant now))
          self.advancePosition D trade now
        | _, _ => do
          match ← DemoStrategyExecutor.closeRejectedEntry trade now o.toRecord with
          | some rejected => return rejected
          | none => return ⟨"ENTRY_SUBMITTED", some trade, "entry awaiting reconciliation"⟩)
      (fun _ w' => ∃ o', w'.orders.orders.find c = some o' ∧
        (o'.state.terminal = true → Followed w w' trade.tradeId o')) (fun _ _ => True) w := by
  have hrejected (hfilled : o.state = .filled → o.filledQuantity ≤ 0) :
      wp (exec D obs) (fun _ => True) (do
        match ← DemoStrategyExecutor.closeRejectedEntry trade now o.toRecord with
        | some rejected => return rejected
        | none => return (⟨"ENTRY_SUBMITTED", some trade, "entry awaiting reconciliation"⟩ :
          DemoStrategyCycleResult))
      (fun _ w' => ∃ o', w'.orders.orders.find c = some o' ∧
        (o'.state.terminal = true → Followed w w' trade.tradeId o')) (fun _ _ => True) w := by
    rw [wp_bind]
    apply wp_closeRejectedEntry
    · exact fun hrejected => ⟨o, ho, fun _ => .left hfilled hrejected rfl⟩
    · intro result w' hst horders hclosed
      exact ⟨o, horders ▸ ho, fun _ => .closed hst hclosed⟩
  split
  · next price hst hprice =>
    rw [wp_bind, wp_askState]
    refine ⟨trivial, fun r s' hr => ?_, fun _ _ => trivial⟩
    have hboth : EndedIn .filled c { w with state := s' } ∧
        OpenedIn trade.tradeId { w with state := s' } := ⟨⟨o, ho, hst⟩, markOpen_opened hr⟩
    have hkeeps (o : Op) (v : World) (r : Except PyError o.Res) (v' : World)
        (hx : exec D obs o v r v') (h : EndedIn .filled c v ∧ OpenedIn trade.tradeId v) :
        EndedIn .filled c v' ∧ OpenedIn trade.tradeId v' := ⟨h.1.exec rfl hx, h.2.exec hx⟩
    refine wp_mono (fun _ _ => trivial) (fun _ w' h => ?_) (fun _ _ _ => trivial)
      (wp_invariant hkeeps hboth)
    obtain ⟨⟨o', ho', hst'⟩, hopened⟩ := h
    exact ⟨o', ho', fun _ => .opened hst' hopened⟩
  · next hno =>
    refine hrejected fun hst => ?_
    by_contra hpos
    refine hno (o.filledNotional / o.filledQuantity) hst ?_
    simp only [OrderRow.toRecord]
    exact if_pos (lt_of_not_ge hpos)

/-- A call for a trade in `ENTRY_SUBMITTED`. -/
theorem wp_advanceEntry (hentry : trade.entryClientOrderId = some c) :
    wp (exec D obs) (fun _ => True) (self.advanceEntry D trade now)
      (fun result w' => result ≠ lagged trade → ∃ o', w'.orders.orders.find c = some o' ∧
        (o'.state.terminal = true → Followed w w' trade.tradeId o')) (fun _ _ => True) w := by
  unfold DemoStrategyExecutor.advanceEntry
  rw [wp_bind, wp_lift]
  refine ⟨fun entryId hid => ?_, fun _ _ => trivial⟩
  obtain rfl := Option.some.inj (hentry.symm.trans (asserted_eq_ok hid))
  have hleaves (o : Op) (v : World) (r : Except PyError o.Res) (v' : World)
      (ho : o.isState = false) (hx : exec D obs o v r v') (h : v.state = w.state) :
      v'.state = w.state := (exec_state ho hx).trans h
  rw [wp_bind]
  refine wp_mono (fun _ _ => trivial) (fun found v h => ?_) (fun _ _ _ => trivial)
    (wp_reconcileOrder (keeps_all hleaves (reconcile_all (fun _ _ => rfl) (fun _ => rfl) c)) rfl)
  obtain ⟨hstate, hfound⟩ := h
  cases found with
  | none => exact fun hne => absurd rfl hne
  | some order =>
    obtain ⟨o, ho, rfl⟩ := fetch_eq_some.mp (hfound order rfl)
    refine wp_mono (fun _ h => h) (fun result w' h _ => ?_) (fun _ _ h => h) (wp_follow ho)
    obtain ⟨o', ho', hfollowed⟩ := h
    refine ⟨o', ho', fun hterminal => ?_⟩
    cases hfollowed hterminal with
    | opened ho ht => exact .opened ho ht
    | closed ho ht => exact .closed ho ht
    | left hfilled hrejected h => exact .left hfilled hrejected (h.trans hstate)

/-! ## Calls -/

/-- The checks before a call leave the world. -/
theorem wp_gate (args : AdvanceArgs) (w : World) : wp (exec D obs) (· = w)
    (DemoStrategyExecutor.gate args) (fun _ => (· = w)) (fun _ => (· = w)) w := by
  unfold DemoStrategyExecutor.gate
  rw [wp_bind, wp_lift]
  refine ⟨fun _ _ => ?_, fun _ _ => rfl⟩
  rw [wp_bind, wp_check]
  refine ⟨fun _ => ?_, fun _ => rfl⟩
  split
  · rw [wp_ask]
    exact ⟨rfl, fun _ _ => rfl, fun _ _ => rfl⟩
  · rfl

variable {Q : DemoStrategyCycleResult → World → Prop} {args : AdvanceArgs}

/-- A call, when the trade is the active one. -/
theorem wp_advance_active
    (hI : I w) (hE : ∀ e, E e w)
    (htrade : w.state.fetch trade.tradeId = some trade) (hopen : trade.phase ≠ .closed)
    (h : wp (exec D obs) I (self.advanceActive D trade args.now) Q E w) :
    wp (exec D obs) I (self.advance D args) Q E w := by
  unfold DemoStrategyExecutor.advance
  rw [wp_bind]
  refine wp_mono (fun _ h => h ▸ hI) (fun _ v hv => ?_) (fun e _ h => h ▸ hE e) (wp_gate args w)
  rw [hv, wp_bind, wp_askState]
  refine ⟨hI, fun active st hactive => ?_, fun e _ => hE e⟩
  obtain ⟨rfl, -, hall⟩ := activeTrade_eq_ok hactive
  obtain rfl := hall trade (Table.find_mem htrade) hopen
  exact h

/-- A call, when the active trade waits for its entry. -/
theorem wp_advance
    (hI : I w) (hE : ∀ e, E e w)
    (htrade : w.state.fetch trade.tradeId = some trade) (hphase : trade.phase = .entrySubmitted)
    (h : wp (exec D obs) I (self.advanceEntry D trade args.now) Q E w) :
    wp (exec D obs) I (self.advance D args) Q E w := by
  refine wp_advance_active hI hE htrade (by rw [hphase]; decide) ?_
  unfold DemoStrategyExecutor.advanceActive
  rw [hphase]
  exact h

/-- The trade waits for an entry order that is canceled. -/
structure Stranded (k c : String) (w : World) : Prop where
  waiting : ∃ t, w.state.fetch k = some t ∧ t.phase = .entrySubmitted ∧
    t.entryClientOrderId = some c
  canceled : EndedIn .canceled c w

theorem stranded_reconcile (c' : String) :
    Keeps (exec D obs) (Stranded k c) (reconcile D c') := by
  have hkeeps (o : Op) (v : World) (r : Except PyError o.Res) (v' : World)
      (ho : o.isState = false) (hx : exec D obs o v r v') (h : Stranded k c v) :
      Stranded k c v' := ⟨by rw [exec_state ho hx]; exact h.waiting, h.canceled.exec rfl hx⟩
  exact keeps_all hkeeps (reconcile_all (fun _ _ => rfl) (fun _ => rfl) c')

/-- **No call** moves a stranded trade. -/
theorem stranded_advance (args : AdvanceArgs) :
    Keeps (exec D obs) (Stranded k c) (self.advance D args) := by
  intro w h
  obtain ⟨t, ht, hphase, hentry⟩ := h.waiting
  obtain rfl : t.tradeId = k := Table.find_key ht
  refine wp_advance h (fun _ => h) ht hphase ?_
  unfold DemoStrategyExecutor.advanceEntry
  rw [wp_bind, wp_lift]
  refine ⟨fun entryId hid => ?_, fun _ _ => h⟩
  obtain rfl := Option.some.inj (hentry.symm.trans (asserted_eq_ok hid))
  rw [wp_bind]
  refine wp_mono (fun _ h => h) (fun found v h => ?_) (fun _ _ h => h)
    (wp_reconcileOrder (stranded_reconcile c) h)
  obtain ⟨hstranded, hfound⟩ := h
  cases found with
  | none => exact hstranded
  | some order =>
    obtain ⟨o, ho, rfl⟩ := fetch_eq_some.mp (hfound order rfl)
    obtain ⟨o', ho', hcanceled⟩ := hstranded.canceled
    cases ho'.symm.trans ho
    have hnone : DemoStrategyExecutor.closeRejectedEntry t args.now o.toRecord = return none := by
      unfold DemoStrategyExecutor.closeRejectedEntry
      rw [if_pos]
      exact .inl (by rw [toRecord_state, hcanceled]; decide)
    dsimp only
    split
    · next hst _ =>
      rw [toRecord_state, hcanceled] at hst
      cases hst
    · rw [hnone]
      exact hstranded

theorem stranded_calls (hcalls : Calls D obs w w') (h : Stranded k c w) : Stranded k c w' := by
  induction hcalls with
  | refl => exact h
  | tail _ hcall ih =>
    cases hcall with
    | advance self args p hsteps => exact (stranded_advance args).steps hsteps ih
    | reconcile c' p hsteps => exact (stranded_reconcile c').steps hsteps ih

/-! ## The trade of an entry order that ended -/

/-- The trade left `ENTRY_SUBMITTED` as the entry order `o` asks: without a fill it is closed or
held, and with one it was opened, or is held. -/
def LeftEntry (w : World) (k : String) (o : OrderRow) : Prop :=
  ∃ t, w.state.fetch k = some t ∧ t.phase ≠ .entrySubmitted ∧
    (o.filledQuantity = 0 → t.phase = .closed ∨ t.phase = .safetyHold) ∧
    (0 < o.filledQuantity → t.phase = .safetyHold ∨ t.phase.fromOpen = true ∧ WasOpened t)

/-- A filled order has been filled. -/
theorem Mapped.filled_pos {s : PaperOrderStore} (h : Mapped s)
    (ho : s.orders.find c = some o) (hst : o.state = .filled) : 0 < o.filledQuantity := by
  have ha := h.ledgers.accounted ho
  obtain ⟨⟨x, hx, hid⟩, -⟩ := ha.filled hst
  obtain ⟨o', hmapped⟩ := h.fills x hx
  rw [ha.quantity]
  refine lt_of_lt_of_le hmapped.quantity (List.single_le_sum ?_ _ ?_)
  · intro v hv
    obtain ⟨y, hy, rfl⟩ := List.mem_map.mp hv
    obtain ⟨o', hy⟩ := h.fills y (List.mem_of_mem_filter hy)
    exact hy.quantity.le
  · exact List.mem_map.mpr ⟨x, List.mem_filter.mpr ⟨hx, decide_eq_true hid⟩, rfl⟩

/-- **Entries that ended.** A call of `advance` that reconciled a terminal entry order takes the
trade out of `ENTRY_SUBMITTED` exactly when the order is not canceled. After a canceled one the
trade is there under all later calls. -/
theorem entry_ended (D : Digests) (obs : Answers) {w w' : World} (hcalls : Calls D obs .empty w)
    (self : DemoStrategyExecutor) (args : AdvanceArgs) {trade : AutonomousTradeRecord} {c : String}
    (htrade : w.state.fetch trade.tradeId = some trade) (hphase : trade.phase = .entrySubmitted)
    (hentry : trade.entryClientOrderId = some c) {result : DemoStrategyCycleResult}
    (hcall : Steps (exec D obs) (self.advance D args) w (.ret result) w')
    (hreconciled : result ≠ lagged trade) {o : OrderRow}
    (ho : w'.orders.orders.find c = some o) (hterminal : o.state.terminal = true) :
    (LeftEntry w' trade.tradeId o ↔ o.state ≠ .canceled) ∧
      (o.state = .canceled → ∀ w'', Calls D obs w' w'' →
        ∃ t, w''.state.fetch trade.tradeId = some t ∧ t.phase = .entrySubmitted) := by
  have hmapped : Mapped w'.orders := mapped_calls (hcalls.tail (.advance self args _ hcall))
  obtain ⟨o', ho', hfollowed⟩ := wp_steps hcall
    (wp_advance trivial (fun _ => trivial) htrade hphase (wp_advanceEntry hentry)) hreconciled
  cases ho'.symm.trans ho
  have ha := hmapped.ledgers.accounted ho
  cases hfollowed hterminal with
  | opened hst ht =>
    obtain ⟨t, ht, hfrom, hopened⟩ := ht
    have hpos := hmapped.filled_pos ho hst
    refine ⟨⟨fun _ => ?_, fun _ => ⟨t, ht, ?_, fun hzero => ?_, fun _ => .inr ⟨hfrom, hopened⟩⟩⟩, ?_⟩
    · rw [hst]
      decide
    · intro hentry
      rw [hentry] at hfrom
      cases hfrom
    · rw [hzero] at hpos
      exact absurd hpos (lt_irrefl 0)
    · intro hcanceled
      rw [hst] at hcanceled
      cases hcanceled
  | closed hst ht =>
    obtain ⟨t, ht, hclosed⟩ := ht
    have hzero : o.filledQuantity = 0 := ha.unfilled (.inr (.inr hst))
    refine ⟨⟨fun _ => ?_, fun _ => ⟨t, ht, ?_, fun _ => .inl hclosed, fun hpos => ?_⟩⟩, ?_⟩
    · rw [hst]
      decide
    · rw [hclosed]
      decide
    · rw [hzero] at hpos
      exact absurd hpos (lt_irrefl 0)
    · intro hcanceled
      rw [hst] at hcanceled
      cases hcanceled
  | left hfilled hrejected hstate =>
    have hcanceled : o.state = .canceled := by
      cases hst : o.state with
      | canceled => rfl
      | filled => exact absurd (hmapped.filled_pos ho hst) (not_lt_of_ge (hfilled hst))
      | rejected => exact absurd (ha.unfilled (.inr (.inr hst))) (hrejected hst)
      | _ =>
        rw [hst] at hterminal
        cases hterminal
    have hfetch : w'.state.fetch trade.tradeId = some trade := hstate ▸ htrade
    refine ⟨⟨fun hleft => ?_, fun hne => absurd hcanceled hne⟩, fun _ w'' hlater => ?_⟩
    · obtain ⟨t, ht, hne, -⟩ := hleft
      cases hfetch.symm.trans ht
      exact absurd hphase hne
    · have hstranded : Stranded trade.tradeId c w' :=
        ⟨⟨trade, hfetch, hphase, hentry⟩, o, ho, hcanceled⟩
      obtain ⟨t, ht, hwaiting, -⟩ := (stranded_calls hlater hstranded).waiting
      exact ⟨t, ht, hwaiting⟩

/-! ### A long entry of one unit -/

/-- The world after `n` operations of a first call. -/
def entered (answer : World → (q : Query) → Except PyError q.Res) (n : Nat) : World :=
  (runOps (handle sampleDigests answer) n (strategyCall 0) .empty).2

/-- What the next call makes of it. -/
def nextCall (answer : World → (q : Query) → Except PyError q.Res) (n : Nat) :
    Except PyError DemoStrategyCycleResult × World :=
  (strategyCall 1000000).run (handle sampleDigests answer) (entered answer n)

theorem calls_entered (answer : World → (q : Query) → Except PyError q.Res) (n : Nat) :
    Calls sampleDigests (fun _ _ _ => True) .empty (entered answer n) := by
  have hx (o : Op) (w : World) : exec sampleDigests (fun _ _ _ => True) o w
      (handle sampleDigests answer o w).1 (handle sampleDigests answer o w).2 :=
    exec_handle (fun _ _ => trivial) o w
  exact .single (.advance strategyExecutor _ _ (steps_runOps hx n (strategyCall 0) _))

theorem nextCall_steps {answer : World → (q : Query) → Except PyError q.Res} {n : Nat}
    (g : DemoStrategyCycleResult → String) {text : String}
    (h : (nextCall answer n).1.toOption.map g = some text) :
    ∃ result, Steps (exec sampleDigests fun _ _ _ => True) (strategyCall 1000000)
      (entered answer n) (.ret result) (nextCall answer n).2 ∧ g result = text := by
  have hx (o : Op) (w : World) : exec sampleDigests (fun _ _ _ => True) o w
      (handle sampleDigests answer o w).1 (handle sampleDigests answer o w).2 :=
    exec_handle (fun _ _ => trivial) o w
  obtain ⟨result, hresult, htext⟩ := Option.map_eq_some_iff.mp h
  refine ⟨result, steps_run hx (Prod.ext ?_ rfl), htext⟩
  show (nextCall answer n).1 = _
  cases hrun : (nextCall answer n).1 with
  | error e =>
    rw [hrun] at hresult
    cases hresult
  | ok a =>
    rw [hrun] at hresult
    cases hresult
    rfl

/-- The exchange executes a half of the entry, and then cancels it. -/
def canceledAnswer (w : World) (q : Query) : Except PyError q.Res :=
  match q with
  | .fetchOrder _ _ => .ok (some ⟨"1", strategyLink, "SOLUSDT", .cancelled, 1 / 2, .ofInstant 1,
      none, by decide, by decide, by decide, by norm_num, by decide⟩)
  | .fetchExecutions _ _ => .ok [⟨"entry", strategyLink, 1 / 2, 150, 0, .ofInstant 1, by decide,
      by decide, by norm_num, by norm_num, le_refl 0, by decide⟩]
  | q => fairAnswer w q

/-- The row of the trade, and that of its entry order, in a world. -/
def entryRows (w : World) : Option (AutonomousTradeRecord × OrderRow) := do
  let t ← w.state.fetch "demo-o1"
  let o ← w.orders.orders.find strategyEntryId
  some (t, o)

theorem entryRows_eq_some {w : World}
    (h : entryRows w = some (t, o)) : w.state.fetch "demo-o1" = some t ∧
      w.orders.orders.find strategyEntryId = some o := by
  simp only [entryRows, Option.bind_eq_bind, Option.bind_eq_some_iff, Option.some.injEq,
    Prod.mk.injEq] at h
  obtain ⟨t, ht, o, ho, rfl, rfl⟩ := h
  exact ⟨ht, ho⟩

/-- A first call that stopped once the entry was sent, and the exchange fills it. -/
theorem entry_ended_filled : ∃ o,
    (nextCall fairAnswer 14).2.orders.orders.find strategyEntryId = some o ∧ o.state = .filled ∧
      LeftEntry (nextCall fairAnswer 14).2 "demo-o1" o := by
  have hrun : (nextCall fairAnswer 14).1.toOption.map (·.status) = some "CLOSED" ∧
      (entryRows (entered fairAnswer 14)).map (fun p => (p.1.phase, p.1.entryClientOrderId)) =
        some (.entrySubmitted, some strategyEntryId) ∧
      (entryRows (nextCall fairAnswer 14).2).map (·.2.state) = some .filled := by decide +kernel
  obtain ⟨hclosed, hbefore, hafter⟩ := hrun
  obtain ⟨result, hsteps, hstatus⟩ := nextCall_steps (·.status) hclosed
  obtain ⟨⟨trade, e⟩, hrows, heq⟩ := Option.map_eq_some_iff.mp hbefore
  obtain ⟨⟨t, o⟩, hrows', hst⟩ := Option.map_eq_some_iff.mp hafter
  obtain ⟨hphase, hentry⟩ := Prod.mk.inj heq
  have htrade := (entryRows_eq_some hrows).1
  have hid : trade.tradeId = "demo-o1" := Table.find_key htrade
  have ho := (entryRows_eq_some hrows').2
  have hreconciled : result ≠ lagged trade := by
    rintro rfl
    exact absurd hstatus (show "ENTRY_SUBMITTED" ≠ "CLOSED" by decide)
  have hended := (entry_ended _ _ (calls_entered fairAnswer 14) strategyExecutor _ (hid ▸ htrade)
    hphase hentry hsteps hreconciled ho (by rw [hst]; rfl)).1
  exact ⟨o, ho, hst, hid ▸ hended.mpr (by rw [hst]; decide)⟩

/-- A half of the entry is filled and the rest canceled, and the trade waits for its entry. -/
theorem canceled_entry_waits : ∃ (w w' : World) (trade : AutonomousTradeRecord) (c : String)
    (result : DemoStrategyCycleResult) (o : OrderRow),
    Calls sampleDigests (fun _ _ _ => True) .empty w ∧
    w.state.fetch trade.tradeId = some trade ∧ trade.phase = .entrySubmitted ∧
    trade.entryClientOrderId = some c ∧
    Steps (exec sampleDigests fun _ _ _ => True) (strategyCall 1000000) w (.ret result) w' ∧
    result ≠ lagged trade ∧ w'.orders.orders.find c = some o ∧ o.state.terminal = true ∧
    o.filledQuantity = 1 / 2 ∧ ¬ LeftEntry w' trade.tradeId o := by
  have hrun : (nextCall canceledAnswer 21).1.toOption.map (·.detail) =
        some "entry awaiting reconciliation" ∧
      (entryRows (entered canceledAnswer 21)).map (fun p => (p.1.phase, p.1.entryClientOrderId)) =
        some (.entrySubmitted, some strategyEntryId) ∧
      (entryRows (nextCall canceledAnswer 21).2).map
        (fun p => (p.1.phase, p.2.state, p.2.filledQuantity)) =
        some (.entrySubmitted, .canceled, 1 / 2) := by decide +kernel
  obtain ⟨hwaits, hbefore, hafter⟩ := hrun
  obtain ⟨result, hsteps, hdetail⟩ := nextCall_steps (·.detail) hwaits
  obtain ⟨⟨trade, e⟩, hrows, heq⟩ := Option.map_eq_some_iff.mp hbefore
  obtain ⟨⟨t, o⟩, hrows', heq'⟩ := Option.map_eq_some_iff.mp hafter
  obtain ⟨hphase, hentry⟩ := Prod.mk.inj heq
  obtain ⟨hphase', hst⟩ := Prod.mk.inj heq'
  obtain ⟨hst, hquantity⟩ := Prod.mk.inj hst
  have htrade := (entryRows_eq_some hrows).1
  have hid : trade.tradeId = "demo-o1" := Table.find_key htrade
  obtain ⟨htrade', ho⟩ := entryRows_eq_some hrows'
  refine ⟨_, _, trade, strategyEntryId, result, o, calls_entered canceledAnswer 21, hid ▸ htrade,
    hphase, hentry, hsteps, ?_, ho, by rw [hst]; rfl, hquantity, ?_⟩
  · rintro rfl
    refine absurd hdetail (show "entry execution feed is lagging; reconciliation will retry" ≠
      "entry awaiting reconciliation" by decide)
  · rintro ⟨t', ht', hne, -⟩
    rw [hid, htrade'] at ht'
    cases ht'
    exact hne hphase'

end Greenfield.Demo
