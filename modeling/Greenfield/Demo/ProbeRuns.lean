import Greenfield.Demo.Tidy

/-!
# What a closed probe leaves

A run keeps the world tidy as long as it stays out of two branches (`resolves`): a trade
is opened at the overall deadline while its entry is filled in part, and a trade is closed
while its exit is. The runs are followed part by part; `Entering`, `Holding` and `Exiting`
say where the trade is.
-/

namespace Greenfield.Demo

open Keyed Py Paper Effects PaperOrderStore AutonomousDemoStateStore

/-! ## Steps that resolve -/

/-- Order `c` is filled in part. -/
def partlyFilled (s : PaperOrderStore) (c : String) : Bool :=
  (s.orders.find c).any fun o => o.state = .partiallyFilled

/-- The entry of trade `k` is filled in part. -/
def entryInPart (w : World) (k : String) : Bool :=
  (w.state.fetch k).any fun t => t.entryClientOrderId.any (partlyFilled w.orders)

/-- The exit that the trade awaits is filled in part, and its exits make up its entry. -/
def exitInPart (s : PaperOrderStore) (t : AutonomousTradeRecord) : Bool :=
  t.phase = .exitSubmitted ∧ t.exitClientOrderId.any (partlyFilled s) ∧
    t.entryClientOrderId.any fun entryId =>
      match s.get entryId, s.listByLegGroup t.tradeId with
      | some entry, .ok orders => evenedOut entry (exitOrdersOf entryId orders)
      | _, _ => false

/-- No trade is opened while its entry is filled in part, and no position is reported flat
while the exit from it is, although it makes up the entry. -/
def resolves : (o : ProbeOp) → World → Except PyError o.Res → Bool
  | .demo (.state (.markOpen k _ _)), w, _ => !entryInPart w k
  | .demo (.query (.fetchPositions symbol)), w, .ok positions =>
    signedSize positions ≠ 0 ∨
      !w.state.trades.rows.any fun t => t.symbol = symbol && exitInPart w.orders t
  | _, _, _ => true

/-- An operation that resolves. -/
def resolvedExec (D : Digests) : Sem ProbeOp ProbeOp.Res PyError World :=
  fun o w r w' => probeExec D o w r w' ∧ resolves o w r = true

/-- A run of operations in `exec`, stopped anywhere. -/
def ProbeRun (D : Digests) (exec : Sem ProbeOp ProbeOp.Res PyError World) (w w' : World) : Prop :=
  ∃ (self : PaperExecutionProbeExecutor) (polls : Nat) (args : ProbeArgs)
    (p : ProbeProg ProbeCycleResult), Steps exec (self.run D polls args) w p w'

variable {D : Digests} {α β : Type} {w : World} {t : AutonomousTradeRecord} {c k : String}

/-! ## Rules -/

theorem wp_asProbe {exec' : Sem ProbeOp ProbeOp.Res PyError World} {I : World → Prop}
    {Q : α → World → Prop} {E : PyError → World → Prop} : ∀ {p : DemoProg α} {w : World},
      wp exec' I (asProbe p) Q E w ↔ wp (fun o => exec' (.demo o)) I p Q E w
  | .ret _, _ => .rfl
  | .raise _, _ => .rfl
  | .call _ _, _ => and_congr_right fun _ =>
      forall_congr' fun _ => forall_congr' fun _ => imp_congr_right fun _ => wp_asProbe

/-- The operations of a Demo process, with any answers. -/
abbrev anyExec (D : Digests) : Sem Op Op.Res PyError World := exec D fun _ _ _ => True

/-- `p` from `w` keeps the world tidy wherever it stops, and ends in `Q`. -/
abbrev Safe (D : Digests) (p : ProbeProg α) (Q : α → World → Prop) (w : World) : Prop :=
  wp (resolvedExec D) Tidy p Q (fun _ => Tidy) w

variable {Q : α → World → Prop} {p : ProbeProg α}

theorem safe_bind {f : α → ProbeProg β} {Q : β → World → Prop}
    (h : Safe D p (fun a w => Safe D (f a) Q w) w) : Safe D (p >>= f) Q w :=
  (wp_bind f).mpr h

theorem safe_lift {x : Except PyError α} (h : Tidy w) (hQ : ∀ a, x = .ok a → Q a w) :
    Safe D (Prog.lift x) Q w := wp_lift.mpr ⟨hQ, fun _ _ => h⟩

theorem safe_check {b : Bool} {e : PyError} {Q : Unit → World → Prop} (h : Tidy w)
    (hQ : b = true → Q () w) : Safe D (Prog.check b e) Q w := wp_check.mpr ⟨hQ, fun _ => h⟩

/-- A part of a run that does not look at the trades. -/
theorem safe_demo {p : DemoProg α} (h : wp (anyExec D) Tidy p Q (fun _ => Tidy) w) :
    Safe D (asProbe p) Q w :=
  wp_asProbe.mpr (wp_of_exec (fun _ _ _ _ hx => hx.1) h)

theorem safe_orders {o : OrderOp} {Q : o.Res → World → Prop} (h : Tidy w)
    (hQ : ∀ a s', o.txn D w.orders = .ok (a, s') → Q a { w with orders := s' }) :
    Safe D (asProbe (askOrders o)) Q w := safe_demo (wp_askOrders.mpr ⟨h, hQ, fun _ _ => h⟩)

theorem safe_state {o : StateOp} {Q : o.Res → World → Prop} (h : Tidy w)
    (hQ : ∀ a st, o.txn D w.state = .ok (a, st) → Q a { w with state := st }) :
    Safe D (asProbe (askState o)) Q w := safe_demo (wp_askState.mpr ⟨h, hQ, fun _ _ => h⟩)

/-- A call for an order that was submitted. -/
theorem safe_place {now : Instant} {request : PlaceRequest} {Q : DemoOrderAck → World → Prop}
    (h : Tidy w) (hmarked : w.orders.Marked c)
    (hQ : ∀ ack w', Tidy w' → w'.orders = w.orders → w'.state = w.state → Q ack w') :
    Safe D (asProbe (place now c request)) Q w := by
  refine safe_demo (wp_perform.mpr ⟨h, fun r w' hx => ?_⟩)
  obtain ⟨received, rfl, -⟩ := hx
  have htidy : Tidy { w with calls := w.calls ++ [⟨now, c, request, received⟩] } := by
    refine ⟨h.ledgers, h.legs, h.trades, fun x hx => ?_⟩
    rcases List.mem_append.mp hx with hx | hx
    · exact h.calls x hx
    · rw [List.mem_singleton.mp hx]
      exact hmarked
  exact ⟨fun ack _ => hQ ack _ htidy rfl rfl, fun _ _ => htidy⟩

/-- The operations that leave the world. -/
def leavesWorld : ProbeOp → Bool
  | .demo (.query _) => true
  | .demo _ => false
  | _ => true

theorem safe_leaves (hp : p.All fun o => leavesWorld o = true) (h : Tidy w)
    (hQ : ∀ a, Q a w) : Safe D p Q w := by
  refine wp_leaves (fun o w r w' ho hx => ?_) h hQ (fun _ => h) hp
  obtain ⟨hx, -⟩ := hx
  cases o with
  | demo o =>
    cases o with
    | query q => exact hx.1
    | _ => cases ho
  | listFills c => exact hx.1
  | _ => exact hx

/-! ## Reconciling -/

/-- The world is tidy, with these trades. -/
def TidyWith (st : AutonomousDemoStateStore) (w : World) : Prop := Tidy w ∧ w.state = st

section

variable {st : AutonomousDemoStateStore} {s' : PaperOrderStore} {record r : PaperOrderRecord}

/-- A change of the order that a trade awaits. -/
theorem TidyWith.touched (h : TidyWith st w) (ht : t ∈ st.trades.rows) (hc : t.awaited = some c)
    (htouched : Touched c w.orders s') (hchange : s' = w.orders ∨ Change w.orders s') :
    TidyWith st { w with orders := s' } := by
  obtain ⟨h, rfl⟩ := h
  exact ⟨h.touched ht hc htouched hchange, rfl⟩

theorem wp_applyExecutions_tidy (ht : t ∈ st.trades.rows) (hc : t.awaited = some c) :
    ∀ {xs : List DemoExecution} {w : World}, TidyWith st w → wp (anyExec D) (TidyWith st)
      (applyExecutions c record xs) (fun _ => TidyWith st) (fun _ => TidyWith st) w
  | [], _, h => h
  | x :: xs, w, h => by
    unfold applyExecutions
    rw [wp_bind, wp_askOrders]
    refine ⟨h, fun r s' hr => ?_, fun _ _ => h⟩
    exact wp_applyExecutions_tidy ht hc
      (h.touched ht hc (touched_applyFillResult hr).1 (change_of_applyFillResult hr))

/-- The record that is returned is the order's. -/
theorem wp_followStatus_tidy (h : TidyWith st w) (ht : t ∈ st.trades.rows) (hc : t.awaited = some c)
    (hrecord : w.orders.fetch c = some record) (snapshot : DemoOrderSnapshot) :
    wp (anyExec D) (TidyWith st) (followStatus c record snapshot)
      (fun r w => TidyWith st w ∧ w.orders.fetch c = some r) (fun _ => TidyWith st) w := by
  have hcancel : wp (anyExec D) (TidyWith st) (askOrders (.markCanceled c snapshot.updatedAtUtc))
      (fun r w => TidyWith st w ∧ w.orders.fetch c = some r) (fun _ => TidyWith st) w := by
    rw [wp_askOrders]
    refine ⟨h, fun r s' hr => ?_, fun _ _ => h⟩
    obtain ⟨htouched, hfetch⟩ := touched_markCanceled hr
    exact ⟨h.touched ht hc htouched (change_of_markCanceled hr), hfetch⟩
  have hreject : wp (anyExec D) (TidyWith st)
      (if record.filledQuantity > 0 then askOrders (.markCanceled c snapshot.updatedAtUtc)
        else if record.state ≠ .rejected then askOrders (.applyFillResult c (rejectionOf snapshot))
        else return record)
      (fun r w => TidyWith st w ∧ w.orders.fetch c = some r) (fun _ => TidyWith st) w := by
    split
    · exact hcancel
    · split
      · rw [wp_askOrders]
        refine ⟨h, fun r s' hr => ?_, fun _ _ => h⟩
        obtain ⟨htouched, hfetch⟩ := touched_applyFillResult hr
        exact ⟨h.touched ht hc htouched (change_of_applyFillResult hr), hfetch⟩
      · exact ⟨h, hrecord⟩
  unfold followStatus
  cases snapshot.status with
  | filled =>
    rw [wp_bind, wp_check]
    exact ⟨fun _ => ⟨h, hrecord⟩, fun _ => h⟩
  | cancelled => exact hcancel
  | rejected => exact hreject
  | deactivated => exact hreject
  | new => exact ⟨h, hrecord⟩
  | partiallyFilled => exact ⟨h, hrecord⟩

theorem wp_reconcile_tidy (h : TidyWith st w) (ht : t ∈ st.trades.rows) (hc : t.awaited = some c) :
    wp (anyExec D) (TidyWith st) (reconcile D c)
      (fun r w => TidyWith st w ∧ w.orders.fetch c = some r.1) (fun _ => TidyWith st) w := by
  unfold reconcile
  rw [wp_bind, wp_askOrders]
  refine ⟨h, fun found s' hget => ?_, fun _ _ => h⟩
  cases hget
  rw [wp_bind, wp_lift]
  refine ⟨fun record _ => ?_, fun _ _ => h⟩
  rw [wp_bind, wp_lift]
  refine ⟨fun link _ => ?_, fun _ _ => h⟩
  rw [wp_bind, wp_ask]
  refine ⟨h, fun xs _ => ?_, fun _ _ => h⟩
  rw [wp_bind]
  refine wp_mono (fun _ h => h) (fun _ w h => ?_) (fun _ _ h => h) (wp_applyExecutions_tidy ht hc h)
  rw [wp_bind, wp_askOrders]
  refine ⟨h, fun found s' hget => ?_, fun _ _ => h⟩
  cases hget
  rw [wp_bind, wp_lift]
  refine ⟨fun record hrecord => ?_, fun _ _ => h⟩
  have hfetch : w.orders.fetch c = some record := by
    unfold existingOrder at hrecord
    split at hrecord
    · next hfound =>
      cases hrecord
      exact hfound
    · cases hrecord
  rw [wp_bind, wp_ask]
  refine ⟨h, fun order _ => ?_, fun _ _ => h⟩
  cases order with
  | none => exact ⟨h, hfetch⟩
  | some snapshot =>
    rw [wp_bind, wp_lift]
    refine ⟨fun _ _ => ?_, fun _ _ => h⟩
    rw [wp_bind]
    exact wp_mono (fun _ h => h) (fun _ _ h => h) (fun _ _ h => h)
      (wp_followStatus_tidy h ht hc hfetch snapshot)

end

open PaperExecutionProbeExecutor

/-- A call of `reconcile` for the order that a trade awaits. -/
theorem safe_reconcileOrder {Q : Option PaperOrderRecord → World → Prop} (h : Tidy w)
    (ht : t ∈ w.state.trades.rows) (hc : t.awaited = some c)
    (hQ : ∀ r w', Tidy w' → w'.state = w.state →
      (∀ order, r = some order → w'.orders.fetch c = some order) → Q r w') :
    Safe D (asProbe (DemoStrategyExecutor.reconcileOrder D c)) Q w := by
  have hcall := wp_reconcile_tidy (D := D) (w := w) ⟨h, rfl⟩ ht hc
  refine safe_demo ?_
  unfold DemoStrategyExecutor.reconcileOrder orLag
  rw [wp_bind, wp_attempt, wp_bind]
  refine wp_mono (fun _ h => h.1) (fun r w' h => ?_) (fun e w' h => ?_) hcall
  · obtain ⟨⟨htidy, hstate⟩, hfetch⟩ := h
    exact hQ _ w' htidy hstate fun order ho => by cases ho; exact hfetch
  · obtain ⟨htidy, hstate⟩ := h
    cases e with
    | demoExecutionLag _ => exact hQ none w' htidy hstate fun order ho => by cases ho
    | _ => exact htidy

/-! ## The parts of a run -/

/-- The trade `k` awaits its entry `c`. -/
structure Entering (w : World) (k c : String) : Prop where
  tidy : Tidy w
  trade : ∃ t, w.state.fetch k = some t ∧ t.phase = .entrySubmitted ∧ t.entryClientOrderId = some c

/-- The trade `k` has no live order. -/
structure Holding (w : World) (k : String) : Prop where
  tidy : Tidy w
  trade : ∃ t, w.state.fetch k = some t
  none : NoneLive w.orders k

/-- The trade `record` awaits its exit. -/
structure Exiting (w : World) (record : AutonomousTradeRecord) : Prop where
  tidy : Tidy w
  trade : w.state.fetch record.tradeId = some record
  phase : record.phase = .exitSubmitted

variable {record : AutonomousTradeRecord} {order : PaperOrderRecord} {now : Instant}

theorem Entering.awaited (h : Entering w k c) :
    ∃ t ∈ w.state.trades.rows, t.tradeId = k ∧ t.phase = .entrySubmitted ∧
      t.entryClientOrderId = some c ∧ t.awaited = some c := by
  obtain ⟨t, ht, hp, hentry⟩ := h.trade
  refine ⟨t, Table.find_mem ht, Table.find_key ht, hp, hentry, ?_⟩
  unfold AutonomousTradeRecord.awaited
  rw [hp]
  exact hentry

/-- An entry that is over leaves nothing live. -/
theorem Entering.holding (h : Entering w k c) (hfetch : w.orders.fetch c = some order)
    (hover : order.state ≠ .submitted ∧ order.state ≠ .partiallyFilled) : Holding w k := by
  obtain ⟨t, ht, rfl, hp, -, hc⟩ := h.awaited
  refine ⟨h.tidy, ⟨t, Table.find_of_mem ht⟩, h.tidy.noneLive ht (by rw [hp]; decide) fun d o hd ho => ?_⟩
  rw [hc] at hd
  cases hd
  obtain ⟨x, hx, rfl⟩ := fetch_eq_some.mp hfetch
  cases ho.symm.trans hx
  rintro (hst | hst)
  · exact hover.1 hst
  · exact hover.2 hst

theorem Exiting.awaited (h : Exiting w record) : record ∈ w.state.trades.rows ∧
    record.awaited = record.exitClientOrderId := by
  refine ⟨Table.find_mem h.trade, ?_⟩
  unfold AutonomousTradeRecord.awaited
  rw [h.phase]

/-- An exit that is over leaves nothing live. -/
theorem Exiting.holding (h : Exiting w record) (hc : record.exitClientOrderId = some c)
    (hfetch : w.orders.fetch c = some order)
    (hover : order.state ≠ .submitted ∧ order.state ≠ .partiallyFilled) :
    Holding w record.tradeId := by
  obtain ⟨ht, hawaited⟩ := h.awaited
  refine ⟨h.tidy, ⟨record, h.trade⟩, h.tidy.noneLive ht (by rw [h.phase]; decide) fun d o hd ho => ?_⟩
  rw [hawaited, hc] at hd
  cases hd
  obtain ⟨x, hx, rfl⟩ := fetch_eq_some.mp hfetch
  cases ho.symm.trans hx
  rintro (hst | hst)
  · exact hover.1 hst
  · exact hover.2 hst

/-- A part of a run that ends with a tidy world. -/
abbrev Ends (D : Digests) (p : ProbeProg ProbeCycleResult) (w : World) : Prop :=
  Safe D p (fun _ => Tidy) w

theorem safe_clock {Q : Instant → World → Prop} (h : Tidy w) (hQ : ∀ now, Q now w) :
    Safe D clock Q w := safe_leaves (.perform rfl) h hQ

theorem all_ask (q : Query) : (asProbe (ask q)).All fun o => leavesWorld o = true :=
  ⟨rfl, fun r => by cases r <;> trivial⟩

theorem all_fetchQuote (symbol : String) (now : Instant) :
    (fetchQuote symbol now).All fun o => leavesWorld o = true :=
  .bind (.perform rfl) fun _ => .lift

theorem all_journalEntry (record : AutonomousTradeRecord) (order : PaperOrderRecord)
    (resolvedAt : Instant) :
    (journalEntry record order resolvedAt).All fun o => leavesWorld o = true :=
  .bind .lift fun _ => .bind .lift fun _ => .bind (.perform rfl) fun _ => .perform rfl

theorem all_collectMarkouts (tradeId symbol : String) (filledAt : Instant) :
    ∀ horizons, (collectMarkouts tradeId symbol filledAt horizons).All fun o => leavesWorld o = true
  | [] => trivial
  | horizon :: rest => by
    have ih := all_collectMarkouts tradeId symbol filledAt rest
    unfold collectMarkouts
    refine .bind (.perform rfl) fun now => .bind ?_ fun _ => .bind (.perform rfl) fun now =>
      .bind (all_fetchQuote symbol now).attempt fun q => ?_
    · split
      · exact .perform rfl
      · trivial
    · cases q with
      | ok quote => exact .bind (.perform rfl) fun _ => ih
      | error e =>
        show (if _ then _ else _ : ProbeProg Unit).All _
        split
        · exact ih
        · trivial

theorem safe_hold (h : Tidy w) (reason : String) : Ends D (holdProbe record reason now) w :=
  safe_bind (safe_state h fun _ _ hr => h.held hr)

theorem safe_pendingResult (h : Tidy w) (detail : String) : Ends D (pendingResult detail) w :=
  safe_bind (safe_state h fun _ _ hr => by
    obtain ⟨rfl, -⟩ := activeTrade_eq_ok hr
    exact h)

/-! ### Closing -/

/-- The trade can be closed, or its exits do not make up its entry. -/
def Closable (w : World) (record : AutonomousTradeRecord) : Prop :=
  NoneLive w.orders record.tradeId ∨ ∀ entryId entry orders,
    record.entryClientOrderId = some entryId → w.orders.get entryId = some entry →
    w.orders.listByLegGroup record.tradeId = .ok orders →
    evenedOut entry (exitOrdersOf entryId orders) = false

variable {self : PaperExecutionProbeExecutor}

theorem safe_closeProbe (h : Tidy w) (hclose : Closable w record) :
    Ends D (self.closeProbe record now) w := by
  unfold closeProbe
  refine safe_bind (safe_lift h fun entryId hentryId => ?_)
  refine safe_bind (safe_lift h fun _ _ => ?_)
  refine safe_bind (safe_orders h fun found s' hget => ?_)
  cases hget
  refine safe_bind (safe_orders h fun orders s' hlist => ?_)
  obtain ⟨-, rfl⟩ := listByLegGroup_txn hlist
  refine safe_bind (safe_lift h fun entry hentry => ?_)
  refine safe_bind (safe_check h fun _ => ?_)
  have horders : w.orders.listByLegGroup record.tradeId = .ok orders := by
    simp only [OrderOp.txn] at hlist
    cases hrows : w.orders.listByLegGroup record.tradeId with
    | error e => rw [hrows] at hlist; cases hlist
    | ok rows => rw [hrows] at hlist; cases hlist; rfl
  split
  · exact safe_hold h _
  · next heven =>
    have hnone : NoneLive w.orders record.tradeId := by
      rcases hclose with hnone | hodd
      · exact hnone
      · have hfalse := hodd entryId entry orders (asserted_eq_ok hentryId)
          (existingOrder_eq_ok hentry) horders
        rw [hfalse] at heven
        exact absurd rfl heven
    refine safe_bind (safe_check h fun _ => ?_)
    refine safe_bind (safe_state h fun closed st hclosed => ?_)
    have hclosed := h.closed hnone hclosed
    refine safe_bind (safe_state hclosed fun day st' hday => ?_)
    exact hclosed.sameTrades (recordClose_trades hday)

theorem safe_closeZeroFill (h : Holding w record.tradeId) (detail : String) :
    Ends D (closeZeroFill record order now detail) w := by
  refine safe_bind (safe_leaves (all_journalEntry record order _) h.tidy fun _ => ?_)
  exact safe_bind (safe_state h.tidy fun closed st hclosed => h.tidy.closed h.none hclosed)

/-! ### The exit -/

/-- An order that a trade awaits is submitted. -/
theorem safe_markSubmitted {Q : PaperOrderRecord → World → Prop} (h : Tidy w)
    (ht : t ∈ w.state.trades.rows) (hc : t.awaited = some c) {at_ : Datetime}
    (hQ : ∀ r w', Tidy w' → w'.state = w.state → r.clientOrderId = c → w'.orders.Marked c → Q r w') :
    Safe D (asProbe (askOrders (.markSubmitted c at_))) Q w := by
  refine safe_orders h fun r s' hr => ?_
  have hr : w.orders.markSubmitted c at_ = .ok (r, s') := hr
  have htidy := h.touched ht hc (touched_markSubmitted hr) (.inr (change_of_markSubmitted hr))
  obtain ⟨now, o, -, ho, -, rfl, rfl⟩ := markSubmitted_eq_ok.mp hr
  have hid : o.clientOrderId = c := Table.find_key ho
  refine hQ _ _ htidy rfl hid ⟨submitRow now o, ?_, fun hst => by cases hst⟩
  rw [find_updateOrder, if_pos rfl, ho]
  rfl

theorem safe_sendExit (h : Tidy w) (ht : t ∈ w.state.trades.rows)
    (hc : t.awaited = some order.clientOrderId) (side : IntentSide) (quantity : ℚ) :
    Safe D (sendExit D record side quantity now order)
      (fun _ w' => Tidy w' ∧ w'.state = w.state) w := by
  unfold sendExit
  refine safe_bind (safe_markSubmitted h ht hc fun r w' htidy hstate hid hmarked => ?_)
  refine safe_bind (safe_lift htidy fun link _ => ?_)
  refine safe_bind (safe_place htidy (hid ▸ hmarked) fun ack w'' htidy' _ hstate' => ?_)
  exact safe_check htidy' fun _ => ⟨htidy', hstate'.trans hstate⟩

theorem safe_flattenWith {cont : AutonomousTradeRecord → ProbeProg ProbeCycleResult}
    (hcont : ∀ record w, Exiting w record → Ends D (cont record) w)
    (h : Holding w record.tradeId) : Ends D (self.flattenWith D cont record now) w := by
  unfold flattenWith
  refine safe_bind (safe_leaves (.bind (all_ask _) fun _ => trivial) h.tidy fun signed => ?_)
  split
  · exact safe_hold h.tidy _
  refine safe_bind (safe_bind (safe_orders h.tidy fun orders s' hlist => ?_))
  obtain ⟨-, rfl⟩ := listByLegGroup_txn hlist
  show Ends D _ w
  split
  · exact safe_hold h.tidy _
  refine safe_bind (safe_leaves (all_ask _) h.tidy fun market => ?_)
  refine safe_bind (safe_orders h.tidy fun order s' hbegin => ?_)
  obtain ⟨t, ht⟩ := h.trade
  have htidy := h.tidy.begun ht rfl hbegin
  obtain ⟨hnone, hfind⟩ := h.none.begun rfl hbegin
  refine safe_bind (safe_state htidy fun r st hmark => ?_)
  obtain ⟨htidy, hfetch, hphase, hexit⟩ := htidy.exitSubmitted hnone hfind hmark
  have hmem : r ∈ st.trades.rows := Table.find_mem hfetch
  have hawaited : r.awaited = some order.clientOrderId := by
    unfold AutonomousTradeRecord.awaited
    rw [hphase]
    exact hexit
  refine safe_bind (wp_mono (fun _ h => h) (fun _ w' hw' => ?_) (fun _ _ h => h)
    (show Safe D _ (fun _ w' => Tidy w' ∧ w'.state = st) _ from ?_))
  · obtain ⟨htidy', rfl⟩ := hw'
    refine safe_bind (safe_state htidy' fun active st' hactive => ?_)
    obtain ⟨rfl, hfetched, hall⟩ := activeTrade_eq_ok hactive
    have hsome := hall r hmem (by rw [hphase]; decide)
    subst hsome
    exact hcont r _ ⟨htidy', hfetched r rfl, hphase⟩
  · split
    · exact safe_sendExit htidy hmem hawaited _ _
    · exact ⟨htidy, rfl⟩

/-- A position is reported while the trade awaits its exit. -/
theorem safe_exitPosition {Q : ℚ → World → Prop} (h : Exiting w record)
    (hQ : ∀ signed, (signed = 0 → exitInPart w.orders record = false) → Q signed w) :
    Safe D (probePosition record.symbol) Q w := by
  unfold probePosition
  refine safe_bind (wp_asProbe.mpr (wp_perform.mpr ⟨h.tidy, fun r w' hx => ?_⟩))
  obtain ⟨⟨rfl, -⟩, hresolves⟩ := hx
  refine ⟨fun positions hr => ?_, fun _ _ => h.tidy⟩
  subst hr
  refine hQ _ fun hflat => ?_
  have hany : (w'.state.trades.rows.any fun t => t.symbol = record.symbol &&
      exitInPart w'.orders t) = false := by
    simpa [resolves, hflat] using hresolves
  rw [List.any_eq_false] at hany
  simpa using hany record h.awaited.1

/-- A submitted order has no fill. -/
theorem Tidy.not_submitted (h : Tidy w) (hfetch : w.orders.fetch c = some order)
    (hfilled : 0 < order.filledQuantity) : order.state ≠ .submitted := by
  obtain ⟨o, ho, rfl⟩ := fetch_eq_some.mp hfetch
  intro hst
  have hzero := (h.ledgers.accounted ho).unfilled (.inr (.inl hst))
  change 0 < o.filledQuantity at hfilled
  rw [hzero] at hfilled
  exact lt_irrefl 0 hfilled

/-- An exit that is not filled in part, or does not make up the entry with the others. -/
theorem closable_of_exit (h : Exiting w record) (hc : record.exitClientOrderId = some c)
    (hfetch : w.orders.fetch c = some order) (hfilled : 0 < order.filledQuantity)
    (hpart : exitInPart w.orders record = false) : Closable w record := by
  have hsubmitted := h.tidy.not_submitted hfetch hfilled
  obtain ⟨o, ho, rfl⟩ := fetch_eq_some.mp hfetch
  by_cases hst : o.state = .partiallyFilled
  · refine .inr fun entryId entry orders hentryId hentry horders => ?_
    have hpartly : partlyFilled w.orders c = true := by
      unfold partlyFilled
      rw [ho]
      exact decide_eq_true hst
    unfold exitInPart at hpart
    rw [hc, hentryId] at hpart
    simpa [h.phase, hpartly, hentry, horders] using hpart
  · exact .inl (h.holding hc hfetch ⟨hsubmitted, hst⟩).none

theorem safe_pollExit : ∀ (polls : Nat) {record : AutonomousTradeRecord} {exitId : String}
    {deadline : Instant} {w : World}, Exiting w record → record.exitClientOrderId = some exitId →
      Ends D (self.pollExit D polls record exitId deadline) w
  | 0, _, _, _, _, h, _ => h.tidy
  | polls + 1, record, exitId, deadline, w, h, hc => by
    have hagain : ∀ w, Exiting w record →
        Ends D (self.pause >>= fun _ => self.pollExit D polls record exitId deadline) w :=
      fun w h => safe_bind (safe_leaves (.perform rfl) h.tidy fun _ => safe_pollExit polls h hc)
    unfold pollExit
    refine safe_bind (safe_clock h.tidy fun wallNow => ?_)
    obtain ⟨ht, hawaited⟩ := h.awaited
    refine safe_bind (safe_reconcileOrder h.tidy ht (hawaited.trans hc) fun r w' htidy hstate hr => ?_)
    have h' : Exiting w' record := ⟨htidy, hstate ▸ h.trade, h.phase⟩
    cases r with
    | none =>
      show Ends D (if _ then _ else _) w'
      split
      · exact htidy
      · exact hagain w' h'
    | some order =>
      have hfetch := hr order rfl
      refine safe_bind (safe_exitPosition h' fun signed hpart => ?_)
      split
      · next hflat =>
        exact safe_closeProbe htidy (closable_of_exit h' hc hfetch hflat.2 (hpart hflat.1))
      · split
        · next hover =>
          have hhold : Holding w' record.tradeId := by
            refine h'.holding hc hfetch ?_
            rcases hover with hst | hst <;> rw [hst] <;> decide
          split
          · exact safe_closeProbe htidy (.inl hhold.none)
          · refine safe_flattenWith (fun record w h => ?_) hhold
            refine safe_bind (safe_lift h.tidy fun exitId hexitId => ?_)
            refine safe_bind (safe_clock h.tidy fun now => ?_)
            exact safe_pollExit polls h (asserted_eq_ok hexitId)
        · split
          · exact htidy
          · exact hagain w' h'

theorem safe_continueExit (polls : Nat) (h : Exiting w record) :
    Ends D (self.continueExit D polls record) w := by
  refine safe_bind (safe_lift h.tidy fun exitId hexitId => ?_)
  refine safe_bind (safe_clock h.tidy fun now => ?_)
  exact safe_pollExit polls h (asserted_eq_ok hexitId)

theorem safe_flatten (polls : Nat) (h : Holding w record.tradeId) :
    Ends D (self.flatten D polls record now) w :=
  safe_flattenWith (fun _ _ h => safe_continueExit polls h) h

/-! ### The entry -/

/-- A trade is opened, when its entry is not filled in part. -/
theorem safe_markOpen {Q : AutonomousTradeRecord → World → Prop} (h : Entering w k c)
    (hfetch : w.orders.fetch c = some order) (hst : order.state ≠ .submitted) {price : ℚ}
    {at_ : Datetime} (hQ : ∀ r w', Holding w' r.tradeId → Q r w') :
    Safe D (asProbe (askState (.markOpen k price at_))) Q w := by
  refine wp_asProbe.mpr (wp_perform.mpr ⟨h.tidy, fun r w' hx => ?_⟩)
  obtain ⟨⟨st, ho, rfl⟩, hresolves⟩ := hx
  have hpart : entryInPart w k = false := by simpa [resolves] using hresolves
  rcases outcome_cases ho with ⟨opened, rfl, hopen⟩ | ⟨e, rfl, -, rfl⟩
  · refine ⟨fun a ha => ?_, fun e he => by cases he⟩
    cases ha
    have hover : order.state ≠ .partiallyFilled := by
      obtain ⟨t, ht, -, hentry⟩ := h.trade
      obtain ⟨o, ho, rfl⟩ := fetch_eq_some.mp hfetch
      unfold entryInPart partlyFilled at hpart
      rw [ht, Option.any_some, hentry, Option.any_some, ho, Option.any_some] at hpart
      exact of_decide_eq_false hpart
    have hnone := (h.holding hfetch ⟨hst, hover⟩).none
    obtain ⟨htidy, hopened, hk, -⟩ := h.tidy.opened hnone hopen
    exact hQ opened _ ⟨htidy, ⟨opened, hk ▸ hopened⟩, hk ▸ hnone⟩
  · exact ⟨fun a ha => (by cases ha), fun _ _ => h.tidy⟩

theorem safe_finalizeFilledEntry (polls : Nat) (h : Entering w record.tradeId c)
    (hfetch : w.orders.fetch c = some order) (hst : order.state ≠ .submitted) :
    Ends D (self.finalizeFilledEntry D polls record order) w := by
  unfold finalizeFilledEntry
  split
  · exact h.tidy
  · refine safe_bind (safe_leaves (.perform rfl) h.tidy fun fills => ?_)
    refine safe_bind (safe_markOpen h hfetch hst fun opened w' hopened => ?_)
    refine safe_bind (safe_leaves (all_journalEntry _ _ _) hopened.tidy fun _ => ?_)
    refine safe_bind (safe_clock hopened.tidy fun now => ?_)
    refine safe_bind (wp_mono (fun _ h => h) (fun result w'' htidy => ?_) (fun _ _ h => h)
      (safe_flatten polls hopened))
    exact safe_bind (safe_leaves (all_collectMarkouts _ _ _ _) htidy fun _ => htidy)

variable {mode : ProbeOrderType}

theorem safe_pollEntry {makerDeadline overallDeadline : Instant} :
    ∀ (polls : Nat) {cancelAttempted : Bool} {w : World}, Entering w record.tradeId c →
      Ends D (self.pollEntry D record mode c makerDeadline overallDeadline polls cancelAttempted) w
  | 0, _, _, h => h.tidy
  | polls + 1, cancelAttempted, w, h => by
    have hagain : ∀ w, Entering w record.tradeId c → Ends D (self.pause >>= fun _ =>
        self.pollEntry D record mode c makerDeadline overallDeadline polls cancelAttempted) w :=
      fun w h => safe_bind (safe_leaves (.perform rfl) h.tidy fun _ => safe_pollEntry polls h)
    unfold pollEntry
    refine safe_bind (safe_clock h.tidy fun wallNow => ?_)
    obtain ⟨t, ht, -, -, -, hawaited⟩ := h.awaited
    refine safe_bind (safe_reconcileOrder h.tidy ht hawaited fun r w' htidy hstate hr => ?_)
    have h' : Entering w' record.tradeId c := ⟨htidy, hstate ▸ h.trade⟩
    cases r with
    | none =>
      show Ends D (if _ then _ else _) w'
      split
      · exact safe_pendingResult htidy _
      · exact hagain w' h'
    | some order =>
      have hfetch := hr order rfl
      have hfinal : order.state ≠ .submitted →
          Ends D (self.finalizeFilledEntry D polls record order) w' :=
        safe_finalizeFilledEntry polls h' hfetch
      show Ends D (if _ then _ else _) w'
      split
      · next hst => exact hfinal (by rw [hst]; decide)
      split
      · next hst => exact safe_closeZeroFill (h'.holding hfetch (by rw [hst]; decide)) _
      split
      · next hst =>
        split
        · exact hfinal (by rw [hst]; decide)
        · exact safe_closeZeroFill (h'.holding hfetch (by rw [hst]; decide)) _
      split
      · refine safe_bind (safe_lift htidy fun link _ => ?_)
        exact safe_bind (safe_leaves (.perform rfl) htidy fun _ => safe_pollEntry polls h')
      split
      · split
        · next hfilled => exact hfinal (htidy.not_submitted hfetch hfilled)
        · exact safe_pendingResult htidy _
      · exact hagain w' h'

theorem safe_awaitAndResolveEntry (polls : Nat) {startedAt : Instant}
    (h : Entering w record.tradeId order.clientOrderId) :
    Ends D (self.awaitAndResolveEntry D polls record mode order startedAt) w :=
  safe_bind (safe_lift h.tidy fun _ _ => safe_pollEntry polls h)

theorem all_entryOrderType (symbol : String) (mode : ProbeOrderType) (side : IntentSide)
    (now : Instant) : (entryOrderType symbol mode side now).All fun o => leavesWorld o = true := by
  cases mode with
  | maker => exact .bind (all_fetchQuote symbol now) fun _ => trivial
  | taker => trivial

theorem safe_sendEntry {side : IntentSide} (h : Tidy w)
    (ht : t ∈ w.state.trades.rows) (hc : t.awaited = some order.clientOrderId) :
    Safe D (sendEntry D record mode side now order) (fun r w' => Tidy w' ∧ w'.state = w.state ∧
      r.clientOrderId = order.clientOrderId) w := by
  unfold sendEntry
  refine safe_bind (safe_markSubmitted h ht hc fun r w' htidy hstate hid hmarked => ?_)
  refine safe_bind (safe_lift htidy fun link _ => ?_)
  refine safe_bind (safe_leaves (all_entryOrderType _ _ _ _) htidy fun orderType => ?_)
  refine safe_bind (safe_place htidy (hid ▸ hmarked) fun ack w'' htidy' _ hstate' => ?_)
  exact safe_bind (safe_check htidy' fun _ => ⟨htidy', hstate'.trans hstate, hid⟩)

theorem safe_submitEntry (h : Tidy w)
    (hfetch : w.state.fetch record.tradeId = some record) (hp : record.phase = .observed) :
    Safe D (submitEntry D record mode now)
      (fun r w' => Entering w' record.tradeId r.clientOrderId) w := by
  have hnone : NoneLive w.orders record.tradeId := by
    refine h.noneLive (Table.find_mem hfetch) (by rw [hp]; decide) fun d o hd => ?_
    rw [awaited_eq_none (by rw [hp]; decide) (by rw [hp]; decide)] at hd
    cases hd
  unfold submitEntry
  refine safe_bind (safe_orders h fun order s' hbegin => ?_)
  have htidy := h.begun hfetch rfl hbegin
  obtain ⟨hnone, hfind⟩ := hnone.begun rfl hbegin
  refine safe_bind (safe_state htidy fun r st hmark => ?_)
  obtain ⟨htidy, hfetch, hphase, hentry⟩ := htidy.entrySubmitted hnone hfind hmark
  split
  · have hawaited : r.awaited = some order.clientOrderId := by
      unfold AutonomousTradeRecord.awaited
      rw [hphase]
      exact hentry
    refine wp_mono (fun _ h => h) (fun r' w' hsent => ?_) (fun _ _ h => h)
      (safe_sendEntry htidy (Table.find_mem hfetch) hawaited)
    obtain ⟨htidy', hstate, hid⟩ := hsent
    exact ⟨htidy', r, hstate ▸ hfetch, hphase, hid ▸ hentry⟩
  · exact ⟨htidy, r, hfetch, hphase, hentry⟩

/-! ### `run` -/

theorem safe_advanceProbe (polls : Nat) (h : Tidy w)
    (hfetch : w.state.fetch record.tradeId = some record) :
    Ends D (self.advanceProbe D polls record now) w := by
  unfold advanceProbe
  cases hp : record.phase with
  | safetyHold => exact h
  | closed => exact h
  | observed =>
    refine safe_bind (safe_lift h fun mode _ => ?_)
    refine safe_bind (safe_leaves (all_ask _) h fun _ => ?_)
    refine safe_bind (wp_mono (fun _ h => h) (fun order w' hentering => ?_) (fun _ _ h => h)
      (safe_submitEntry h hfetch hp))
    exact safe_awaitAndResolveEntry polls hentering
  | entrySubmitted =>
    refine safe_bind (safe_lift h fun mode _ => ?_)
    refine safe_bind (safe_lift h fun entryId hentryId => ?_)
    refine safe_bind (safe_orders h fun found s' hget => ?_)
    cases hget
    refine safe_bind (safe_lift h fun order horder => ?_)
    obtain ⟨o, ho, rfl⟩ := fetch_eq_some.mp (existingOrder_eq_ok horder)
    have hid : o.clientOrderId = entryId := Table.find_key ho
    refine safe_awaitAndResolveEntry polls ⟨h, record, hfetch, hp, ?_⟩
    exact (asserted_eq_ok hentryId).trans (congrArg some hid.symm)
  | «open» =>
    refine safe_bind (safe_lift h fun _ _ => ?_)
    refine safe_flatten polls ⟨h, ⟨record, hfetch⟩, ?_⟩
    refine h.noneLive (Table.find_mem hfetch) (by rw [hp]; decide) fun d o hd => ?_
    rw [awaited_eq_none (by rw [hp]; decide) (by rw [hp]; decide)] at hd
    cases hd
  | exitSubmitted =>
    exact safe_bind (safe_lift h fun _ _ => safe_continueExit polls ⟨h, hfetch, hp⟩)

theorem safe_advanceNew (polls : Nat) {quote : TopOfBookQuote} (h : Tidy w)
    (hfetch : w.state.fetch record.tradeId = some record) :
    Ends D (self.advanceNew D polls record quote now) w := by
  refine safe_bind (wp_mono (fun _ h => h) (fun _ w' hw' => ?_) (fun _ _ h => h)
    (show Safe D _ (fun _ w' => Tidy w' ∧ w'.state.fetch record.tradeId = some record) w from ?_))
  · exact safe_advanceProbe polls hw'.1 hw'.2
  · split
    · refine safe_bind (safe_state h fun day st hday => ?_)
      have hsame := recordEntry_trades hday
      have htidy := h.sameTrades hsame
      refine safe_leaves (.perform rfl) htidy fun _ => ⟨htidy, ?_⟩
      unfold AutonomousDemoStateStore.fetch
      rw [hsame]
      exact hfetch
    · exact ⟨h, hfetch⟩

variable {args : ProbeArgs}

theorem safe_beginProbe (polls : Nat) (h : Tidy w) :
    Ends D (self.beginProbe D polls args now) w := by
  unfold beginProbe
  refine safe_bind (safe_leaves (all_ask _) h fun exposure => ?_)
  refine safe_bind (safe_check h fun _ => ?_)
  refine safe_bind (safe_state h fun daily st hday => ?_)
  have htidy := h.sameTrades (authorizeEntry_trades hday)
  refine safe_bind (safe_leaves (all_fetchQuote _ _) htidy fun quote => ?_)
  refine safe_bind (safe_leaves (all_ask _) htidy fun market => ?_)
  refine safe_bind (safe_lift htidy fun quantity _ => ?_)
  refine safe_bind (wp_attempt.mpr (wp_asProbe.mpr ?_))
  refine wp_of_exec (fun _ _ _ _ hx => hx.1) (wp_askState.mpr ⟨htidy, fun r st hbegin => ?_, fun e _ => ?_⟩)
  · obtain ⟨htidy', hfetch⟩ := htidy.beginTrade hbegin
    exact safe_advanceNew polls htidy' hfetch
  · cases e <;> exact htidy

theorem safe_run (polls : Nat) (h : Tidy w) :
    Ends D (self.run D polls args) w := by
  refine safe_bind (safe_lift h fun _ _ => ?_)
  refine safe_bind (safe_leaves ?_ h fun now => ?_)
  · unfold runTime
    split
    · exact .lift
    · exact .perform rfl
  refine safe_bind (safe_leaves (all_ask _) h fun _ => ?_)
  refine safe_bind (safe_state h fun active st hactive => ?_)
  obtain ⟨rfl, hfetched, -⟩ := activeTrade_eq_ok hactive
  cases active with
  | none => exact safe_beginProbe polls h
  | some record => exact safe_advanceProbe polls h (hfetched record rfl)

/-! ## Runs -/

theorem tidy_runs (hw : Relation.ReflTransGen (ProbeRun D (resolvedExec D)) .empty w) : Tidy w := by
  induction hw with
  | refl => exact tidy_empty
  | tail _ hrun ih =>
    obtain ⟨self, polls, args, p, hsteps⟩ := hrun
    exact wp_crash hsteps (safe_run polls ih)

/-- **A closed probe leaves nothing live.** Whatever the exchange answers and wherever the
runs are stopped, every order that a closed trade submitted is over, as long as no trade is
opened while its entry is filled in part and no position is reported flat while an exit
that makes up the entry is. -/
theorem closed_leaves_nothing_live (D : Digests) (w : World)
    (hw : Relation.ReflTransGen (ProbeRun D (resolvedExec D)) .empty w) : NothingLive w :=
  (tidy_runs hw).nothingLive

/-! ### A maker entry -/

/-- The digests of the probe `r1`. -/
def probeDigests : Digests where
  uuid5Hex _ name :=
    if name = "execution-probe:r1" then "020fce97acb3525587048ff300f611db"
    else if name = "execution-probe:demo-020fce97acb3525587048ff300f611db:entry-v1" then
      "4e74c47ac3c5596e8f6454224cf3fa31"
    else "3b8fbf1be60b55f3b433aa0c7378bf7a"
  sha256Hex text :=
    if text = "paper-4e74c47ac3c5596e8f6454224cf3fa31" then
      "0a516bec85305c09c5cde04323055871cd3b28036a61e0e68b898cb7adec2dc0"
    else "050d0de38388117cac21ec425893dca17c7d127dd651fde1b1dff468fe5b8a7a"

def probeEntryLink : String := "gfd-0a516bec85305c09c5cde04323055871"

def probeExitLink : String := "gfd-050d0de38388117cac21ec425893dca1"

def probeEnv : Env := fun name =>
  if name = "TRADING_MODE" then some "PAPER"
  else if name = "BYBIT_DEMO_API_KEY" then some "key"
  else if name = "BYBIT_DEMO_API_SECRET" then some "secret"
  else if name = "GREENFIELD_DEMO_ORDER_CONFIRMATION" then some "BYBIT_DEMO_ONLY"
  else if name = "GREENFIELD_DEMO_EXECUTION_PROBE_CONFIRMATION" then some "EXECUTION_EVIDENCE_ONLY"
  else none

/-- `PaperExecutionProbeConfig()`. -/
def defaultProbeConfig : PaperExecutionProbeConfig where
  notionals := by decide +kernel
  makerTimeout := by decide
  daily := by decide +kernel
  horizons := show markoutHorizons ≠ [] ∧ ∀ h ∈ markoutHorizons, 0 < h from
    ⟨List.cons_ne_nil _ _, by decide +kernel⟩
  polling := by decide +kernel
  exits := by decide

/-- A maker probe of SOLUSDT that is begun at the time 0. -/
def makerProbe : ProbeProg ProbeCycleResult :=
  (PaperExecutionProbeExecutor.mk defaultProbeConfig).run probeDigests 3
    { env := probeEnv, symbol := "SOLUSDT", requestId := "r1", nowUtc := some (.ofInstant 0)
      modeOverride := some .maker }

def probeExecution (id link : String) (q : ℚ) (hid : isBlank id = false)
    (hlink : isOrderLinkId link = true) (hq : 0 < q) : DemoExecution :=
  ⟨id, link, q, 1499 / 10, 0, .ofInstant 1000000, hid, hlink, hq, by norm_num, le_refl 0,
    Option.some_ne_none _⟩

def probeSnapshot (link : String) (status : DemoOrderStatus) (q : ℚ)
    (hlink : isOrderLinkId link = true) (hq : 0 ≤ q) : DemoOrderSnapshot :=
  ⟨"1", link, "SOLUSDT", status, q, .ofInstant 1000000, none, by decide, hlink, by decide, hq,
    Option.some_ne_none _⟩

theorem entry_named : isBlank "entry" = false := by decide

theorem exit_named : isBlank "exit" = false := by decide

/-- The exchange executes `q` of the entry, and the whole of an exit from it. -/
def probeAnswer (status : DemoOrderStatus) (q : ℚ) (hq : 0 < q) (w : World) (query : Query) :
    Except PyError query.Res :=
  match query with
  | .preflight => .ok ()
  | .accountBalance => .error (.bybitDemoGateway "unavailable")
  | .accountExposure => .ok ⟨[], []⟩
  | .instrumentSnapshot _ => .ok ⟨"SOLUSDT", 150, 1 / 10, 1 / 10, by decide, by norm_num⟩
  | .setLeverage _ _ => .ok ()
  | .fetchPositions _ => .ok (if w.calls.length = 1 then
      [⟨"SOLUSDT", 0, some "Buy", q, 1, by decide, by decide, by decide, hq.le, by norm_num⟩] else [])
  | .fetchOrder link _ => .ok (some (if link = probeEntryLink then
      probeSnapshot probeEntryLink status q (by decide) hq.le
      else probeSnapshot probeExitLink .filled q (by decide) hq.le))
  | .fetchExecutions link _ => .ok [if link = probeEntryLink then
      probeExecution "entry" probeEntryLink q entry_named (by decide) hq
      else probeExecution "exit" probeExitLink q exit_named (by decide) hq]

/-- 40 seconds have passed, and the exchange answers so. -/
def probeHandle (status : DemoOrderStatus) (q : ℚ) (hq : 0 < q) :
    (o : ProbeOp) → World → Except PyError o.Res × World
  | .demo o, w => handle probeDigests (probeAnswer status q hq) o w
  | .clock, w => (.ok (40 * microsPerSecond), w)
  | .getTicker _, w => (.ok ⟨1499 / 10, 1501 / 10, 100, 100⟩, w)
  | .cancel _ _, w => (.ok ⟨"1", probeEntryLink, by decide, by decide⟩, w)
  | .listFills c, w => (.ok (w.orders.listFills c), w)
  | .sleep _, w | .recordQuote .., w | .recordOrderObservation .., w => (.ok (), w)

theorem probeExec_handle (status : DemoOrderStatus) (q : ℚ) (hq : 0 < q) (o : ProbeOp) (w : World) :
    probeExec probeDigests o w (probeHandle status q hq o w).1 (probeHandle status q hq o w).2 := by
  cases o with
  | demo o => exact exec_handle (fun _ _ => trivial) o w
  | listFills c => exact ⟨rfl, rfl⟩
  | _ => rfl

/-- The world after the probe whose entry is filled, every step of which resolves. -/
def filledProbe : World :=
  let handle := probeHandle .filled (1 / 5) (by norm_num)
  (runOpsWhile (fun o w => resolves o w (handle o w).1) handle 45 makerProbe .empty).2

theorem closed_leaves_nothing_live_filled :
    filledProbe.state.trades.rows.map (·.phase) = [.closed] ∧ NothingLive filledProbe :=
  ⟨by decide +kernel, closed_leaves_nothing_live probeDigests filledProbe
    (.single ⟨_, _, _, _, steps_runOpsWhile (fun o w hok => ⟨probeExec_handle _ _ _ o w, hok⟩) _ _ _⟩)⟩

/-- The world after the probe whose entry is filled in part, and is not cancelled yet. -/
def partialProbe : World :=
  (runOps (probeHandle .partiallyFilled (1 / 10) (by norm_num)) 53 makerProbe .empty).2

/-- A probe is closed while its entry rests. -/
theorem resting_entry_closed : ¬ ∀ (D : Digests) (w : World),
    Relation.ReflTransGen (ProbeRun D (probeExec D)) .empty w → NothingLive w := by
  intro h
  have hlive := (h probeDigests partialProbe
    (.single ⟨_, _, _, _, steps_runOps (probeExec_handle _ _ _) _ _ _⟩)).closed
  have hbad : (partialProbe.state.trades.rows.all fun t => partialProbe.orders.orders.rows.all fun o =>
      !(t.phase = .closed ∧ o.legGroupId = some t.tradeId ∧ o.state ≠ .pendingSubmit ∧
        o.state.terminal = false)) = false := by
    decide +kernel
  rw [List.all_eq_false] at hbad
  obtain ⟨t, ht, hbad⟩ := hbad
  rw [Bool.not_eq_true, List.all_eq_false] at hbad
  obtain ⟨o, ho, hbad⟩ := hbad
  simp only [Bool.not_eq_true, Bool.not_eq_false', decide_eq_true_eq] at hbad
  obtain ⟨hclosed, hleg, hpending, hterminal⟩ := hbad
  rw [hlive t ht hclosed o ho hleg hpending] at hterminal
  cases hterminal

end Greenfield.Demo
