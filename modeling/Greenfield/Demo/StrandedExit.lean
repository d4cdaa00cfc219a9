import Greenfield.Demo.RoundTrip
import Greenfield.Lib.Run

/-!
# Exit orders that were filled

An exit is for the position that the exchange reports when it is sent. Where that was only a
part of the entry, the exit is filled and a position stays open. A later call then reconciles
the filled exit again and reports it: an exit follows only one that was canceled or rejected.
So no later call sends anything or holds the trade (`Stuck`), and there is one that returns
and changes nothing, which can be repeated without end.
-/

namespace Greenfield.Demo

open Keyed Py Paper Effects PaperOrderStore

variable {D : Digests} {obs : Answers} {w w' : World} {c : String}

/-- A position is open in every snapshot. -/
def stillOpen : Answers := fun _ q r =>
  match q with
  | .fetchPositions _ => ∀ positions, r = .ok positions → signedSize positions ≠ 0
  | _ => True

/-- A reduce-only order was sent after `w`. -/
def ExitSent (w w' : World) : Prop :=
  ∃ x ∈ w'.calls.drop w.calls.length, x.request.orderType = .market true

theorem not_exitSent (w : World) : ¬ ExitSent w w := by
  rintro ⟨x, hx, -⟩
  rw [List.drop_length] at hx
  cases hx

/-! ## Operations -/

/-- The operation neither changes a trade nor places an order. -/
def Op.isQuiet : Op → Bool
  | .orders _ => true
  | .query _ => true
  | _ => false

/-- The trades and the calls are those of `w₀`, and the order is filled. -/
structure Stuck (w₀ : World) (c : String) (w : World) : Prop where
  state : w.state = w₀.state
  calls : w.calls = w₀.calls
  filled : EndedIn .filled c w

theorem Stuck.exec {w₀ : World} (o : Op) (v : World) (a : Except PyError o.Res) (v' : World)
    (ho : o.isQuiet = true) (hx : exec D obs o v a v') (h : Stuck w₀ c v) : Stuck w₀ c v' := by
  have hfilled := h.filled.exec rfl hx
  cases o with
  | orders o =>
    obtain ⟨s', -, rfl⟩ := hx
    exact ⟨h.state, h.calls, hfilled⟩
  | query q =>
    obtain ⟨rfl, -⟩ := hx
    exact h
  | _ => cases ho

theorem stuck_reconcile {w₀ : World} (c' : String) :
    Keeps (exec D obs) (Stuck w₀ c) (reconcile D c') :=
  keeps_all Stuck.exec (reconcile_all (fun _ _ => rfl) (fun _ => rfl) c')

/-- The order that is read is the one that is filled. -/
theorem EndedIn.fetch {state : PaperOrderState} (h : EndedIn state c w)
    {order : PaperOrderRecord} (horder : w.orders.fetch c = some order) : order.state = state := by
  obtain ⟨o, ho, rfl⟩ := fetch_eq_some.mp horder
  obtain ⟨o', ho', hstate⟩ := h
  cases ho.symm.trans ho'
  exact hstate

/-! ## The strategy executor -/

/-- The active trade waits for an exit order, which is filled. -/
structure ExitFilled (w : World) (trade : AutonomousTradeRecord) (c : String) : Prop where
  active : w.state.fetchActive = .ok (some trade)
  phase : trade.phase = .exitSubmitted
  exit : trade.exitClientOrderId = some c
  filled : EndedIn .filled c w

theorem ExitFilled.activeTrade {trade : AutonomousTradeRecord} (h : ExitFilled w trade c) :
    w.state.activeTrade = .ok (some trade, w.state) := by
  unfold AutonomousDemoStateStore.activeTrade
  rw [h.active]
  rfl

variable {self : DemoStrategyExecutor} {trade : AutonomousTradeRecord} {args : AdvanceArgs}

/-- A call leaves the trades and sends nothing. -/
theorem stuck_advance (h : ExitFilled w trade c) :
    Keeps (exec D stillOpen) (Stuck w c) (self.advance D args) := by
  intro v hv
  obtain ⟨-, hfetch, -⟩ := activeTrade_eq_ok h.activeTrade
  have htrade : v.state.fetch trade.tradeId = some trade := hv.state ▸ hfetch trade rfl
  refine wp_advance_active hv (fun _ => hv) htrade (by rw [h.phase]; decide) ?_
  have hposition : wp (exec D stillOpen) (Stuck w c) (self.advancePosition D trade args.now)
      (fun _ => Stuck w c) (fun _ => Stuck w c) v := by
    unfold DemoStrategyExecutor.advancePosition
    rw [wp_bind, wp_ask]
    refine ⟨hv, fun _ _ => ?_, fun _ _ => hv⟩
    rw [if_pos h.phase]
    unfold DemoStrategyExecutor.advanceExit
    rw [wp_bind, wp_lift]
    refine ⟨fun exitId hid => ?_, fun _ _ => hv⟩
    obtain rfl := Option.some.inj (h.exit.symm.trans (asserted_eq_ok hid))
    rw [wp_bind]
    refine wp_mono (fun _ h => h) (fun found u hu => ?_) (fun _ _ h => h)
      (wp_reconcileOrder (stuck_reconcile c) hv)
    obtain ⟨hstuck, hfound⟩ := hu
    cases found with
    | none => exact hstuck
    | some order =>
      have hstate := hstuck.filled.fetch (hfound order rfl)
      unfold DemoStrategyExecutor.signedPosition
      rw [wp_bind, wp_bind, wp_ask]
      refine ⟨hstuck, fun positions hpositions => ?_, fun _ _ => hstuck⟩
      have hopen : signedSize positions ≠ 0 := hpositions positions rfl
      rw [wp_pure, if_neg (fun h => hopen h.1), if_neg (by rw [hstate]; decide)]
      exact hstuck
  unfold DemoStrategyExecutor.advanceActive
  split
  · next hphase =>
    rw [h.phase] at hphase
    cases hphase
  · next hphase =>
    rw [h.phase] at hphase
    cases hphase
  · exact hposition

theorem stuck_calls (h : ExitFilled w trade c) (hcalls : Calls D stillOpen w w') : Stuck w c w' := by
  induction hcalls with
  | refl => exact ⟨rfl, rfl, h.filled⟩
  | tail _ hcall ih =>
    cases hcall with
    | advance self args p hsteps => exact (stuck_advance h).steps hsteps ih
    | reconcile c' p hsteps => exact (stuck_reconcile c').steps hsteps ih

/-! ### Ids of orders -/

/-- Every order has an id. -/
def Named (s : PaperOrderStore) : Prop := ∀ o ∈ s.orders.rows, isBlank o.clientOrderId = false

theorem Named.exec {o : Op} {a : Except PyError o.Res} (hx : exec D obs o w a w')
    (h : Named w.orders) : Named w'.orders := by
  intro x hmem
  cases hbegins : o.beginsOrder with
  | false =>
    obtain ⟨y, hy, hclient, -⟩ := DemoBtcRoundTripCoordinator.exec_origin hbegins hx hmem
    rw [hclient]
    exact h y hy
  | true =>
    cases o with
    | orders o =>
      cases o with
      | beginOrder req now =>
        obtain ⟨s', hr, rfl⟩ := hx
        rcases outcome_cases hr with ⟨b, rfl, ht⟩ | ⟨e, rfl, ht, rfl⟩
        · obtain ⟨y, -, -, -, -, rfl | ⟨-, hclient, orders, hi, rfl⟩⟩ := begun_of_beginOrder ht
          · exact h x hmem
          · rw [(Table.insert_eq_some.mp hi).2, List.mem_append, List.mem_singleton] at hmem
            rcases hmem with hmem | rfl
            · exact h x hmem
            · rw [hclient]
              exact DemoBtcRoundTripCoordinator.isBlank_legId _
        · exact h x hmem
      | _ => cases hbegins
    | _ => cases hbegins

theorem named_calls (hcalls : Calls D obs .empty w) : Named w.orders := by
  have hop (o : Op) (v : World) (a : Except PyError o.Res) (v' : World)
      (hx : exec D obs o v a v') (h : Named v.orders) : Named v'.orders := h.exec hx
  induction hcalls with
  | refl => exact fun _ ho => absurd ho List.not_mem_nil
  | tail _ hcall ih =>
    cases hcall with
    | advance self args p hsteps => exact hsteps.invariant hop ih
    | reconcile c' p hsteps => exact hsteps.invariant hop ih

/-! ### A call that returns -/

/-- Nothing new is known of the order. -/
theorem steps_reconcileOrder {o : OrderRow} (ho : w.orders.orders.find c = some o)
    (hc : isBlank c = false) : Steps (exec D stillOpen) (DemoStrategyExecutor.reconcileOrder D c) w
      (.ret (some o.toRecord)) w := by
  have hget : Steps (exec D stillOpen) (askOrders (.get c)) w (.ret (some o.toRecord)) w := by
    refine Steps.perform ⟨w.orders, ?_, rfl⟩
    show _ = outcome (.ok (w.orders.fetch c, w.orders)) w.orders
    rw [fetch_eq_some.mpr ⟨o, ho, rfl⟩]
    rfl
  have hexecutions : Steps (exec D stillOpen) (ask (.fetchExecutions (linkOf D c) o.symbol)) w
      (.ret []) w := Steps.perform ⟨rfl, trivial⟩
  have hstatus : Steps (exec D stillOpen) (ask (.fetchOrder (linkOf D c) o.symbol)) w
      (.ret none) w := Steps.perform ⟨rfl, trivial⟩
  have hlink : demoOrderLinkIdFor D c = .ok (linkOf D c) := demoOrderLinkIdFor_eq_ok.mpr ⟨hc, rfl⟩
  have hreconcile : Steps (exec D stillOpen) (reconcile D c) w (.ret (o.toRecord, none, 0)) w := by
    unfold reconcile
    refine hget.andThen ((Steps.lift rfl w).andThen ((Steps.lift hlink w).andThen ?_))
    refine hexecutions.andThen ((Steps.refl _ w).andThen (hget.andThen ?_))
    exact (Steps.lift rfl w).andThen (hstatus.andThen (Steps.refl _ w))
  exact (hreconcile.andThen (Steps.refl _ w)).attempt.andThen (Steps.refl _ w)

/-- A long position of this size. -/
def openPosition (size : ℚ) (h : 0 < size) : List DemoPositionSnapshot :=
  [⟨"BTCUSDT", 0, some "Buy", size, 100, by decide, by decide, by decide, h.le, by norm_num⟩]

theorem signedSize_openPosition {size : ℚ} (h : 0 < size) :
    signedSize (openPosition size h) = size := by
  simp [signedSize, openPosition]

theorem steps_openPosition {size : ℚ} (h : 0 < size) (symbol : String) :
    Steps (exec D stillOpen) (ask (.fetchPositions symbol)) w (.ret (openPosition size h)) w := by
  refine Steps.perform ⟨rfl, fun positions hpositions => ?_⟩
  cases hpositions
  rw [signedSize_openPosition]
  exact h.ne'

/-- What the repeated call is asked. -/
def waitingArgs : AdvanceArgs where
  env := strategyEnv
  symbol := ""
  action := .wait
  observationId := ""
  candidateId := ""
  now := 0

theorem steps_gate (w : World) : Steps (exec D stillOpen) (DemoStrategyExecutor.gate waitingArgs) w
    (.ret ()) w := by
  have hgate : requireDemoPaperEnvironment strategyEnv true = .ok () ∧
      decide (strategyEnv "GREENFIELD_DEMO_STRATEGY_CONFIRMATION" =
        some "CONTINUOUS_BYBIT_DEMO_STRATEGY_ONLY") = true := by decide +kernel
  have hpreflight : Steps (exec D stillOpen) (ask .preflight) w (.ret ()) w :=
    Steps.perform ⟨rfl, trivial⟩
  exact (Steps.lift hgate.1 w).andThen ((Steps.check hgate.2 _ w).andThen hpreflight)

/-- The call that is repeated: the exit is filled, and a position of one unit is open. -/
theorem steps_advance (h : ExitFilled w trade c) (hc : isBlank c = false) :
    Steps (exec D stillOpen) (strategyExecutor.advance D waitingArgs) w
      (.ret ⟨"EXIT_SUBMITTED", some trade, "reduce-only exit awaiting reconciliation"⟩) w := by
  obtain ⟨o, ho, hstate⟩ := h.filled
  have hposition := @steps_openPosition D w 1 one_pos trade.symbol
  have hexit : asserted trade.exitClientOrderId = .ok c := by
    rw [h.exit, asserted, if_neg]
    rintro rfl
    cases hc
  have hactive : Steps (exec D stillOpen) (askState .activeTrade) w (.ret (some trade)) w := by
    refine Steps.perform ⟨w.state, ?_, rfl⟩
    show _ = outcome w.state.activeTrade w.state
    rw [h.activeTrade]
    rfl
  unfold DemoStrategyExecutor.advance
  refine (steps_gate w).andThen (hactive.andThen ?_)
  show Steps _ (DemoStrategyExecutor.advanceActive D strategyExecutor trade 0) w _ w
  unfold DemoStrategyExecutor.advanceActive
  rw [h.phase]
  unfold DemoStrategyExecutor.advancePosition
  refine hposition.andThen ?_
  rw [if_pos h.phase]
  unfold DemoStrategyExecutor.advanceExit
  refine (Steps.lift hexit w).andThen ((steps_reconcileOrder ho hc).andThen ?_)
  have hsigned : Steps (exec D stillOpen) (DemoStrategyExecutor.signedPosition trade.symbol) w
      (.ret (signedSize (openPosition 1 one_pos))) w := hposition.andThen (Steps.refl _ w)
  refine hsigned.andThen ?_
  rw [signedSize_openPosition, if_neg (by norm_num), if_neg]
  · exact Steps.refl _ w
  · rw [toRecord_state, hstate]
    decide

/-! ## The round trip -/

namespace DemoBtcRoundTripCoordinator

variable {r : DemoBtcRoundTripRequest} {n : Nat} {before rest : List Nat}

/-- The order of the `n`-th close is filled. -/
structure CloseFilled (D : Digests) (r : DemoBtcRoundTripRequest) (n : Nat) (w : World) :
    Prop where
  named : ∃ o, w.orders.orders.find (legId D (closeKey r.requestId n)) = some o ∧
    o.idempotencyKey = closeKey r.requestId n
  filled : EndedIn .filled (legId D (closeKey r.requestId n)) w

/-- The calls are those of `w₀`, and of the legs before the filled close each was sent. -/
structure StuckAt (w₀ : World) (D : Digests) (requestId : String) (before : List Nat) (n : Nat)
    (w : World) : Prop where
  calls : w.calls = w₀.calls
  sent : Sent D requestId before w.orders
  filled : EndedIn .filled (legId D (closeKey requestId n)) w

theorem CloseFilled.stuckAt (h : CloseFilled D r n w) (hinorder : InOrder D w) :
    ∃ before rest, closeAttempts = before ++ n :: rest ∧ StuckAt w D r.requestId before n w := by
  obtain ⟨o, ho, hkey⟩ := h.named
  obtain ⟨before, rest, hsplit, hsent⟩ := hinorder o (Table.find_mem ho) r n hkey
  exact ⟨before, rest, hsplit, rfl, hsent, h.filled⟩

variable {w₀ : World} {requestId : String}

theorem StuckAt.exec (o : Op) (v : World)
    (a : Except PyError o.Res) (v' : World) (ho : o.isQuiet = true) (hx : exec D obs o v a v')
    (h : StuckAt w₀ D requestId before n v) : StuckAt w₀ D requestId before n v' := by
  refine ⟨?_, h.sent.changes (exec_changes hx), h.filled.exec rfl hx⟩
  cases o with
  | orders o =>
    obtain ⟨s', -, rfl⟩ := hx
    exact h.calls
  | query q =>
    obtain ⟨rfl, -⟩ := hx
    exact h.calls
  | _ => cases ho

/-- A close that was sent is not sent again; what comes back is the order that is stored. -/
theorem wp_closeAndReconcile_sent {m : Nat}
    {quantity price : ℚ} {now : Instant} (h : StuckAt w₀ D requestId before n w)
    (hm : Marked w.orders (legId D (closeKey requestId m))) :
    wp (exec D obs) (StuckAt w₀ D requestId before n)
      (closeAndReconcile D requestId m quantity price now)
      (fun closed v => StuckAt w₀ D requestId before n v ∧
        v.orders.fetch (legId D (closeKey requestId m)) = some closed.1)
      (fun _ => StuckAt w₀ D requestId before n) w := by
  obtain ⟨o, ho, hst⟩ := hm
  have hget : w.orders.get (legId D (closeKey requestId m)) = some o.toRecord :=
    fetch_eq_some.mpr ⟨o, ho, rfl⟩
  have hkey : o.clientOrderId = legId D (closeKey requestId m) := Table.find_key ho
  have hid : o.toRecord.clientOrderId = legId D (closeKey requestId m) := hkey
  have hattempt : wp (exec D obs) (StuckAt w₀ D requestId before n)
      (closeAttempt D requestId m quantity price now)
      (fun close v => close = o.toRecord ∧ v = w) (fun _ => StuckAt w₀ D requestId before n) w := by
    unfold closeAttempt getByIdempotencyKey
    rw [clientOrderIdFor_leg (isBlank_closeKey _ _), wp_bind, Prog.lift_ok_bind, wp_askOrders]
    refine ⟨h, fun found s' ht => ?_, fun _ _ => h⟩
    cases ht
    rw [hget]
    show wp _ _ (sendPending D _ _ _ now o.toRecord) _ _ _
    unfold sendPending
    rw [if_neg (show o.toRecord.state ≠ .pendingSubmit from hst)]
    exact ⟨rfl, rfl⟩
  have hreconcile : Keeps (exec D obs) (StuckAt w₀ D requestId before n)
      (reconcile D (legId D (closeKey requestId m))) :=
    keeps_all StuckAt.exec (reconcile_all (fun _ _ => rfl) (fun _ => rfl) _)
  unfold closeAndReconcile
  rw [wp_bind]
  refine wp_mono (fun _ h => h) (fun close v hv => ?_) (fun _ _ h => h) hattempt
  obtain ⟨rfl, rfl⟩ := hv
  rw [hid, wp_bind]
  refine wp_mono (fun _ h => h) (fun found u hu => ?_) (fun _ _ h => h)
    (wp_reconcileOrder hreconcile h)
  obtain ⟨hstuck, hfound⟩ := hu
  cases found with
  | some order => exact ⟨hstuck, hfound order rfl⟩
  | none =>
    dsimp only
    unfold durableOrder
    rw [wp_bind, wp_bind, wp_askOrders]
    refine ⟨hstuck, fun record s' ht => ?_, fun _ _ => hstuck⟩
    cases ht
    rw [wp_lift]
    exact ⟨fun order horder => ⟨hstuck, existingOrder_eq_ok horder⟩, fun _ _ => hstuck⟩

section

variable {w₀ : World} {market : PublicLinearInstrumentSnapshot} {entryOrder : PaperOrderRecord}
  {now : Instant} {requestId : String} {attempts : List Nat}

/-- The filled close is marked. -/
theorem StuckAt.marked (h : StuckAt w₀ D requestId before n w) :
    Marked w.orders (legId D (closeKey requestId n)) := by
  obtain ⟨o, ho, hst⟩ := h.filled
  exact ⟨o, ho, by rw [hst]; decide⟩

/-- The loop comes to the filled close at most. -/
theorem stuck_closeEntry {quantity price : ℚ} : ∀ {closes : List PaperOrderRecord} {w : World},
      attempts ⊆ before → StuckAt w₀ D requestId before n w →
      wp (execRoundTrip D stillOpen) (StuckAt w₀ D requestId before n)
        (closeEntry D requestId market quantity entryOrder price now (attempts ++ n :: rest) closes)
        (fun _ => StuckAt w₀ D requestId before n) (fun _ => StuckAt w₀ D requestId before n) w := by
  induction attempts with
  | nil =>
    intro closes w _ h
    refine wp_closeEntry_cons (fun _ => id) (fun _ _ h => h.1)
      (fun size v h => wp_closeAndReconcile_sent h h.marked) (fun closed v hfilled h => ?_) h
    exact absurd (h.1.filled.fetch h.2) hfilled
  | cons m attempts ih =>
    intro closes w hsub h
    refine wp_closeEntry_cons (fun _ => id) (fun _ _ h => h.1)
      (fun size v h => wp_closeAndReconcile_sent h (h.sent.closes m (hsub List.mem_cons_self)))
      (fun closed v _ h => ?_) h
    exact ih (fun k hk => hsub (List.mem_cons_of_mem _ hk)) h.1

theorem stuck_closeDuringLag : ∀ {closes : List PaperOrderRecord} {w : World},
      attempts ⊆ before → StuckAt w₀ D requestId before n w →
      wp (execRoundTrip D stillOpen) (StuckAt w₀ D requestId before n)
        (closeDuringEntryExecutionLag D requestId market entryOrder now (attempts ++ n :: rest) closes)
        (fun _ => StuckAt w₀ D requestId before n) (fun _ => StuckAt w₀ D requestId before n) w := by
  induction attempts with
  | nil =>
    intro closes w _ h
    refine wp_closeDuringLag_cons (fun _ => id) (fun _ _ h => h.1)
      (fun size v h => wp_closeAndReconcile_sent h h.marked) (fun closed v hfilled h => ?_) h
    exact absurd (h.1.filled.fetch h.2) hfilled
  | cons m attempts ih =>
    intro closes w hsub h
    refine wp_closeDuringLag_cons (fun _ => id) (fun _ _ h => h.1)
      (fun size v h => wp_closeAndReconcile_sent h (h.sent.closes m (hsub List.mem_cons_self)))
      (fun closed v _ h => ?_) h
    exact ih (fun k hk => hsub (List.mem_cons_of_mem _ hk)) h.1

end

/-- An entry that was sent is not sent again. -/
theorem wp_entry_sent {market : PublicLinearInstrumentSnapshot}
    {quantity : ℚ} {now : Instant} (h : StuckAt w₀ D requestId before n w) :
    wp (execRoundTrip D obs) (StuckAt w₀ D requestId before n)
      (entry D requestId market quantity now) (fun _ => StuckAt w₀ D requestId before n)
      (fun _ => StuckAt w₀ D requestId before n) w := by
  obtain ⟨o, ho, hst⟩ := h.sent.entry
  have hget : w.orders.get (legId D (entryKey requestId)) = some o.toRecord :=
    fetch_eq_some.mpr ⟨o, ho, rfl⟩
  unfold entry getByIdempotencyKey
  rw [clientOrderIdFor_leg (isBlank_entryKey _), Prog.lift_ok_bind, wp_bind, wp_inl, wp_askOrders]
  refine ⟨h, fun found s' ht => ?_, fun _ _ => h⟩
  cases ht
  rw [hget]
  show wp _ _ (sendPending D _ _ _ now o.toRecord).inl _ _ _
  unfold sendPending
  rw [if_neg (show o.toRecord.state ≠ .pendingSubmit from hst)]
  exact h

/-- A call for the request sends nothing. -/
theorem stuck_advance (hsplit : closeAttempts = before ++ n :: rest) (env : Env)
    (now : Instant) : Keeps (execRoundTrip D stillOpen) (StuckAt w₀ D r.requestId before n)
      (advance D r env now) := by
  refine (keeps_lift _).bind fun _ => (keeps_ask _).inl.bind fun _ => ?_
  refine (keeps_ask _).inl.bind fun market => (keeps_lift _).bind fun quantity => ?_
  intro w h
  rw [wp_bind]
  refine wp_mono (fun _ h => h) (fun order w h => ?_) (fun _ _ h => h) (wp_entry_sent h)
  have hreconcile (c : String) : Keeps (exec D stillOpen) (StuckAt w₀ D r.requestId before n)
      (reconcile D c) := keeps_all StuckAt.exec (reconcile_all (fun _ _ => rfl) (fun _ => rfl) c)
  rw [wp_bind, wp_inl]
  refine wp_mono (fun _ h => h) (fun found w hw => ?_) (fun _ _ h => h)
    (wp_reconcileOrder (hreconcile _) h)
  have h := hw.1
  split
  · next order =>
    unfold followEntry
    split
    · exact keeps_result w h
    · split
      · exact keeps_result w h
      · rw [wp_bind, wp_check]
        refine ⟨fun _ => ?_, fun _ => h⟩
        split
        · exact h
        · rw [hsplit]
          exact stuck_closeEntry (List.Subset.refl _) h
  · refine wp_bind_keeps (keeps_durableOrder _).inl h (fun _ h => h) (fun _ _ h => h)
      fun order w h => ?_
    rw [hsplit]
    exact stuck_closeDuringLag (List.Subset.refl _) h

/-! ### Sizes of orders -/

/-- Every order is for a quantity. -/
def Sized (s : PaperOrderStore) : Prop := ∀ c o, s.orders.find c = some o → 0 < o.quantity

theorem sized_change {s s' : PaperOrderStore} (hc : Change s s') (h : Sized s) : Sized s' := by
  have hupdate {k : String} {f : OrderRow → OrderRow}
      {hf : ∀ r, (f r).clientOrderId = r.clientOrderId} (hsame : ∀ r, (f r).quantity = r.quantity) :
      Sized (s.updateOrder k f hf) := by
    intro c o ho
    rw [find_updateOrder] at ho
    split at ho
    · obtain ⟨x, hx, rfl⟩ := Option.map_eq_some_iff.mp ho
      rw [hsame]
      exact h _ x hx
    · exact h c o ho
  cases hc with
  | begin hq hn hi =>
    intro c o ho
    rw [Table.find_insert hi] at ho
    split at ho
    · cases ho
      exact hq
    · exact h c o ho
  | submit _ _ => exact hupdate fun _ => rfl
  | cancel _ _ => exact hupdate fun _ => rfl
  | reject _ _ => exact hupdate fun _ => rfl
  | fill hv hf hi => exact @hupdate _ _ (fillOrder_key _ _ _) fun _ => rfl

theorem sized_calls (hcalls : RoundTripCalls D obs .empty w) : Sized w.orders := by
  have hop (o : Op) (v : World) (a : Except PyError o.Res) (v' : World)
      (hx : exec D obs o v a v') (h : Sized v.orders) : Sized v'.orders :=
    (exec_changes hx).invariant (fun hc h => sized_change hc h) h
  induction hcalls with
  | refl =>
    intro c o ho
    cases ho
  | tail _ hcall ih =>
    cases hcall with
    | advance r env now p hsteps =>
      refine hsteps.invariant (I := fun v => Sized v.orders) (fun o v a v' hx h => ?_) ih
      cases o with
      | inl o => exact hop o v a v' hx h
      | inr q =>
        cases q with
        | openOrderCount symbol =>
          cases (hx : v' = v)
          exact h
        | getPosition symbol =>
          cases (hx : v' = v ∧ _).1
          exact h
    | reconcile c' p hsteps => exact hsteps.invariant hop ih

/-! ### A call that returns -/

section

variable {size : ℚ} (hsize : 0 < size)

include hsize

theorem steps_exchangeSize : Steps (exec D stillOpen) exchangeSize w (.ret size) w := by
  have hlong : longPositionSize (openPosition size hsize) = .ok size := by
    unfold longPositionSize
    rw [signedSize_openPosition]
    simp [openPosition, hsize.le, require]
    rfl
  exact (steps_openPosition hsize _).andThen (Steps.lift hlong w)

theorem steps_result {phase : DemoBtcRoundTripPhase} {market : PublicLinearInstrumentSnapshot}
    {quantity : ℚ} {entryOrder : PaperOrderRecord} {closes : List PaperOrderRecord} :
    ∃ answer, Steps (execRoundTrip D stillOpen) (result phase market quantity entryOrder closes) w
      (.ret answer) w ∧ answer.phase = phase := by
  have hposition : Steps (execRoundTrip D stillOpen) (getPosition symbol) w
      (.ret (w.orders.getPosition symbol)) w := Steps.perform ⟨rfl, rfl⟩
  let answer : DemoBtcRoundTripResult :=
    { phase, market, leverage, targetNotionalQuote := targetNotional, submittedQuantity := quantity
      estimatedEntryNotionalQuote := quantity * market.lastPrice, entryOrder, closeOrders := closes
      exchangePositionSize := size, paperPosition := w.orders.getPosition symbol }
  refine ⟨answer, ?_, rfl⟩
  exact (steps_exchangeSize hsize).inl.andThen (hposition.andThen (Steps.refl _ w))

omit hsize in
theorem steps_getByIdempotencyKey {key : String} (hkey : isBlank key = false) :
    Steps (exec D stillOpen) (getByIdempotencyKey D key) w (.ret (w.orders.get (legId D key))) w :=
  (Steps.lift (clientOrderIdFor_leg hkey) w).andThen (Steps.perform ⟨w.orders, rfl, rfl⟩)

variable {now : Instant}

omit hsize in
theorem steps_sendPending {side : IntentSide} {reduceOnly : Bool} {mismatch : String}
    {order : PaperOrderRecord} (h : order.state ≠ .pendingSubmit) :
    Steps (exec D stillOpen) (sendPending D side reduceOnly mismatch now order) w (.ret order) w := by
  unfold sendPending
  rw [if_neg h]
  exact Steps.refl _ w

variable {requestId : String} {quantity price : ℚ} {o : OrderRow}

omit hsize in
/-- A close that was sent comes back as it is. -/
theorem steps_closeAndReconcile {m : Nat}
    (ho : w.orders.orders.find (legId D (closeKey requestId m)) = some o)
    (hst : o.state ≠ .pendingSubmit) :
    Steps (exec D stillOpen) (closeAndReconcile D requestId m quantity price now) w
      (.ret (o.toRecord, true)) w := by
  have hget : w.orders.get (legId D (closeKey requestId m)) = some o.toRecord :=
    fetch_eq_some.mpr ⟨o, ho, rfl⟩
  have hkey : o.clientOrderId = legId D (closeKey requestId m) := Table.find_key ho
  have hid : o.toRecord.clientOrderId = legId D (closeKey requestId m) := hkey
  have hread : Steps (exec D stillOpen) (getByIdempotencyKey D (closeKey requestId m)) w
      (.ret (some o.toRecord)) w := hget ▸ steps_getByIdempotencyKey (isBlank_closeKey _ _)
  have hattempt : Steps (exec D stillOpen) (closeAttempt D requestId m quantity price now) w
      (.ret o.toRecord) w :=
    hread.andThen ((Steps.refl _ w).andThen (steps_sendPending hst))
  refine hattempt.andThen ?_
  rw [hid]
  exact (steps_reconcileOrder ho (isBlank_legId _)).andThen (Steps.refl _ w)

variable {attempts : List Nat}

/-- An attempt whose close was sent: what comes back decides whether there is another. -/
theorem steps_attempt {market : PublicLinearInstrumentSnapshot}
    {entryOrder : PaperOrderRecord} {m : Nat}
    {closes : List PaperOrderRecord}
    (hbound : size ≤ entryOrder.filledQuantity + 1 / 10 ^ 9)
    (ho : w.orders.orders.find (legId D (closeKey requestId m)) = some o)
    (hst : o.state ≠ .pendingSubmit)
    (hnext : o.state = .canceled ∨ o.state = .rejected → ∃ answer,
      Steps (execRoundTrip D stillOpen) (closeEntry D requestId market quantity entryOrder price now
        attempts (closes ++ [o.toRecord])) w (.ret answer) w ∧ answer.phase = .closeUnresolved) :
    ∃ answer, Steps (execRoundTrip D stillOpen) (closeEntry D requestId market quantity entryOrder
      price now (m :: attempts) closes) w (.ret answer) w ∧ answer.phase = .closeUnresolved := by
  have hexchange : Steps (execRoundTrip D stillOpen) exchangeSize.inl w (.ret size) w :=
    (steps_exchangeSize hsize).inl
  have hread : Steps (execRoundTrip D stillOpen)
      (getByIdempotencyKey D (closeKey requestId m)).inl w
      (.ret (w.orders.get (legId D (closeKey requestId m)))) w :=
    (steps_getByIdempotencyKey (isBlank_closeKey _ _)).inl
  have hclose : Steps (execRoundTrip D stillOpen)
      (closeAndReconcile D requestId m size price now).inl w (.ret (o.toRecord, true)) w :=
    (steps_closeAndReconcile ho hst).inl
  have hresult := @steps_result D w size hsize .closeUnresolved market quantity entryOrder
    (closes ++ [o.toRecord])
  have hrest : ∃ answer, Steps (execRoundTrip D stillOpen)
      (if (o.toRecord, true).2 = false ∨ ¬ ((o.toRecord, true).1.state = .filled ∨
          (o.toRecord, true).1.state = .canceled ∨ (o.toRecord, true).1.state = .rejected) then
        result .closeUnresolved market quantity entryOrder (closes ++ [o.toRecord])
      else do
        let remaining ← exchangeSize.inl
        if remaining = 0 then complete market quantity entryOrder (closes ++ [o.toRecord])
        else if o.toRecord.state = .filled then
          result .closeUnresolved market quantity entryOrder (closes ++ [o.toRecord])
        else
          closeEntry D requestId market quantity entryOrder price now attempts
            (closes ++ [o.toRecord])) w (.ret answer) w ∧ answer.phase = .closeUnresolved := by
    split
    · exact hresult
    · next hended =>
      have hafter : ∃ answer, Steps (execRoundTrip D stillOpen)
          (if o.toRecord.state = .filled then
            result .closeUnresolved market quantity entryOrder (closes ++ [o.toRecord])
          else closeEntry D requestId market quantity entryOrder price now attempts
            (closes ++ [o.toRecord])) w (.ret answer) w ∧ answer.phase = .closeUnresolved := by
        split
        · exact hresult
        · next hne =>
          apply hnext
          rw [not_or, not_not] at hended
          exact hended.2.resolve_left hne
      obtain ⟨answer, hsteps, hphase⟩ := hafter
      refine ⟨answer, hexchange.andThen ?_, hphase⟩
      rw [if_neg hsize.ne']
      exact hsteps
  obtain ⟨answer, hsteps, hphase⟩ := hrest
  refine ⟨answer, ?_, hphase⟩
  unfold closeEntry
  refine hexchange.andThen (hread.andThen ?_)
  rw [if_neg fun h => hsize.ne' h.1]
  exact (Steps.check (decide_eq_true hbound) _ w).andThen (hclose.andThen hsteps)

/-- The loop returns, at the filled close or before. -/
theorem steps_closeEntry {market : PublicLinearInstrumentSnapshot}
    {entryOrder : PaperOrderRecord}
    (hbound : size ≤ entryOrder.filledQuantity + 1 / 10 ^ 9)
    (hfilled : EndedIn .filled (legId D (closeKey requestId n)) w) :
    ∀ {closes : List PaperOrderRecord},
      (∀ m ∈ attempts, Marked w.orders (legId D (closeKey requestId m))) →
      ∃ answer, Steps (execRoundTrip D stillOpen) (closeEntry D requestId market quantity entryOrder
        price now (attempts ++ n :: rest) closes) w (.ret answer) w ∧
        answer.phase = .closeUnresolved := by
  induction attempts with
  | nil =>
    intro closes _
    obtain ⟨o, ho, hst⟩ := hfilled
    refine steps_attempt hsize hbound ho (by rw [hst]; decide) fun h => ?_
    rw [hst] at h
    exact absurd h (by decide)
  | cons m attempts ih =>
    intro closes hmarked
    obtain ⟨o, ho, hst⟩ := hmarked m List.mem_cons_self
    exact steps_attempt hsize hbound ho hst fun _ =>
      ih fun k hk => hmarked k (List.mem_cons_of_mem _ hk)

/-- The loop of an entry whose executions lag returns as well. -/
theorem steps_closeDuringLag {market : PublicLinearInstrumentSnapshot} {entryOrder : PaperOrderRecord}
    (hbound : size ≤ entryOrder.quantity + 1 / 10 ^ 9)
    (hfilled : EndedIn .filled (legId D (closeKey requestId n)) w) :
    ∀ {closes : List PaperOrderRecord},
      (∀ m ∈ attempts, Marked w.orders (legId D (closeKey requestId m))) →
      ∃ answer, Steps (execRoundTrip D stillOpen) (closeDuringEntryExecutionLag D requestId market
        entryOrder now (attempts ++ n :: rest) closes) w (.ret answer) w ∧
        answer.phase = .closeUnresolved := by
  have hexchange : Steps (execRoundTrip D stillOpen) exchangeSize.inl w (.ret size) w :=
    (steps_exchangeSize hsize).inl
  -- what is left to do when the close of an attempt came back
  have hattempt {m : Nat} {tail : List Nat} {closes : List PaperOrderRecord} {o : OrderRow}
      (ho : w.orders.orders.find (legId D (closeKey requestId m)) = some o)
      (hst : o.state ≠ .pendingSubmit) {p : RoundTripProg DemoBtcRoundTripResult}
      (hrest : Steps (execRoundTrip D stillOpen)
        (if size = 0 ∨ ¬ (o.toRecord.state = .canceled ∨ o.toRecord.state = .rejected) then
          result .closeUnresolved market entryOrder.quantity entryOrder (closes ++ [o.toRecord])
        else
          closeDuringEntryExecutionLag D requestId market entryOrder now tail
            (closes ++ [o.toRecord])) w p w) :
      Steps (execRoundTrip D stillOpen) (closeDuringEntryExecutionLag D requestId market entryOrder
        now (m :: tail) closes) w p w := by
    have hread : Steps (execRoundTrip D stillOpen)
        (getByIdempotencyKey D (closeKey requestId m)).inl w
        (.ret (w.orders.get (legId D (closeKey requestId m)))) w :=
      (steps_getByIdempotencyKey (isBlank_closeKey _ _)).inl
    have hclose : Steps (execRoundTrip D stillOpen)
        (closeAndReconcile D requestId m size market.lastPrice now).inl w
        (.ret (o.toRecord, true)) w := (steps_closeAndReconcile ho hst).inl
    unfold closeDuringEntryExecutionLag
    refine hexchange.andThen (hread.andThen ?_)
    rw [if_neg fun h => hsize.ne' h.1]
    exact (Steps.check (decide_eq_true hbound) _ w).andThen
      (hclose.andThen (hexchange.andThen hrest))
  induction attempts with
  | nil =>
    intro closes _
    obtain ⟨o, ho, hst⟩ := hfilled
    obtain ⟨answer, hsteps, hphase⟩ := @steps_result D w size hsize .closeUnresolved market
      entryOrder.quantity entryOrder (closes ++ [o.toRecord])
    refine ⟨answer, hattempt ho (by rw [hst]; decide) ?_, hphase⟩
    rw [if_pos (.inr (by rw [toRecord_state, hst]; decide))]
    exact hsteps
  | cons m attempts ih =>
    intro closes hmarked
    obtain ⟨o, ho, hst⟩ := hmarked m List.mem_cons_self
    have hrest : ∃ answer, Steps (execRoundTrip D stillOpen)
        (if size = 0 ∨ ¬ (o.toRecord.state = .canceled ∨ o.toRecord.state = .rejected) then
          result .closeUnresolved market entryOrder.quantity entryOrder (closes ++ [o.toRecord])
        else
          closeDuringEntryExecutionLag D requestId market entryOrder now (attempts ++ n :: rest)
            (closes ++ [o.toRecord])) w (.ret answer) w ∧ answer.phase = .closeUnresolved := by
      split
      · exact steps_result hsize
      · exact ih fun k hk => hmarked k (List.mem_cons_of_mem _ hk)
    obtain ⟨answer, hsteps, hphase⟩ := hrest
    exact ⟨answer, hattempt ho hst hsteps, hphase⟩

omit hsize in
/-- The exchange has executed more of the order than it shows executions of. -/
theorem steps_reconcileOrder_lag {c : String}
    (ho : w.orders.orders.find c = some o) (hc : isBlank c = false) :
    Steps (exec D stillOpen) (DemoStrategyExecutor.reconcileOrder D c) w (.ret none) w := by
  have hget : Steps (exec D stillOpen) (askOrders (.get c)) w (.ret (some o.toRecord)) w := by
    refine Steps.perform ⟨w.orders, ?_, rfl⟩
    show _ = outcome (.ok (w.orders.fetch c, w.orders)) w.orders
    rw [fetch_eq_some.mpr ⟨o, ho, rfl⟩]
    rfl
  let ahead : DemoOrderSnapshot :=
    ⟨"1", "1", "BTCUSDT", .filled, |o.filledQuantity| + 1, .ofInstant 0, none, by decide, by decide,
      by decide, by positivity, by decide⟩
  have hexecutions : Steps (exec D stillOpen) (ask (.fetchExecutions (linkOf D c) o.symbol)) w
      (.ret []) w := Steps.perform ⟨rfl, trivial⟩
  have hstatus : Steps (exec D stillOpen) (ask (.fetchOrder (linkOf D c) o.symbol)) w
      (.ret (some ahead)) w := Steps.perform ⟨rfl, trivial⟩
  have hlink : demoOrderLinkIdFor D c = .ok (linkOf D c) := demoOrderLinkIdFor_eq_ok.mpr ⟨hc, rfl⟩
  have hlag : requireMatchingCumulativeQuantity o.toRecord ahead = .error (.demoExecutionLag
      "Bybit Demo cumulative fill quantity does not match durable executions") := by
    have hfar : ¬ |o.filledQuantity - (|o.filledQuantity| + 1)| ≤ cumulativeTol := by
      have habs := le_abs_self o.filledQuantity
      rw [abs_of_nonpos (by linarith), cumulativeTol]
      intro hle
      norm_num at hle
      linarith
    exact if_neg fun h => hfar (of_decide_eq_true h)
  have hreconcile : Steps (exec D stillOpen) (reconcile D c) w (.raise (.demoExecutionLag
      "Bybit Demo cumulative fill quantity does not match durable executions")) w := by
    unfold reconcile
    refine hget.andThen ((Steps.lift rfl w).andThen ((Steps.lift hlink w).andThen ?_))
    refine hexecutions.andThen ((Steps.refl _ w).andThen (hget.andThen ?_))
    refine (Steps.lift rfl w).andThen (hstatus.andThen ?_)
    dsimp only
    rw [hlag]
    exact Steps.refl _ w
  have hbody := (hreconcile.bind fun found => (return found.1 : DemoProg PaperOrderRecord)).attempt
  exact hbody.andThen (Steps.refl _ w)

/-! ### The call that is repeated -/

def roundTripEnv : Env := fun name =>
  if name = "GREENFIELD_DEMO_BTC_ROUND_TRIP_CONFIRMATION" then some "BTC_100_USDT_100X_DEMO_ONLY"
  else strategyEnv name

def roundTripMarket : PublicLinearInstrumentSnapshot := ⟨"BTCUSDT", 100, 1, 1, by decide, by norm_num⟩

omit hsize in
theorem roundTrip_permitted : gate roundTripEnv = .ok () ∧ boundedQuantity roundTripMarket = .ok 1 := by
  decide +kernel

omit hsize in
/-- The first part of the call, up to the reconciliation of the entry. -/
theorem steps_entry {e : OrderRow}
    (he : w.orders.orders.find (legId D (entryKey r.requestId)) = some e)
    (hst : e.state ≠ .pendingSubmit) {p : RoundTripProg DemoBtcRoundTripResult}
    {found : Option PaperOrderRecord}
    (hreconcile : Steps (exec D stillOpen)
      (DemoStrategyExecutor.reconcileOrder D (legId D (entryKey r.requestId))) w (.ret found) w)
    (hrest : Steps (execRoundTrip D stillOpen) (match found with
      | some order => followEntry D r.requestId roundTripMarket order 0
      | none => do
        let order ← (durableOrder (legId D (entryKey r.requestId))).inl
        closeDuringEntryExecutionLag D r.requestId roundTripMarket order 0 closeAttempts []) w p w) :
    Steps (execRoundTrip D stillOpen) (advance D r roundTripEnv 0) w p w := by
  have hget : w.orders.get (legId D (entryKey r.requestId)) = some e.toRecord :=
    fetch_eq_some.mpr ⟨e, he, rfl⟩
  have hkey : e.clientOrderId = legId D (entryKey r.requestId) := Table.find_key he
  have hid : e.toRecord.clientOrderId = legId D (entryKey r.requestId) := hkey
  have hpreflight : Steps (execRoundTrip D stillOpen) (ask .preflight).inl w (.ret ()) w :=
    Steps.inl (Steps.perform ⟨rfl, trivial⟩)
  have hmarket : Steps (execRoundTrip D stillOpen) (ask (.instrumentSnapshot symbol)).inl w
      (.ret roundTripMarket) w := Steps.inl (Steps.perform ⟨rfl, trivial⟩)
  have hread : Steps (execRoundTrip D stillOpen)
      (getByIdempotencyKey D (entryKey r.requestId)).inl w (.ret (some e.toRecord)) w :=
    hget ▸ (steps_getByIdempotencyKey (isBlank_entryKey _)).inl
  have hentry : Steps (execRoundTrip D stillOpen) (entry D r.requestId roundTripMarket 1 0) w
      (.ret e.toRecord) w :=
    hread.andThen ((Steps.refl _ w).andThen (steps_sendPending hst).inl)
  unfold advance
  refine (Steps.lift roundTrip_permitted.1 w).andThen (hpreflight.andThen (hmarket.andThen ?_))
  refine (Steps.lift roundTrip_permitted.2 w).andThen (hentry.andThen ?_)
  rw [hid]
  exact hreconcile.inl.andThen hrest

omit hsize in
/-- The call returns, whatever became of the entry. -/
theorem steps_roundTrip (hinorder : InOrder D w)
    (hsized : Sized w.orders) (h : CloseFilled D r n w) : ∃ answer, Steps (execRoundTrip D stillOpen)
      (advance D r roundTripEnv 0) w (.ret answer) w ∧ answer.phase = .closeUnresolved := by
  obtain ⟨before, rest, hsplit, hstuck⟩ := h.stuckAt hinorder
  obtain ⟨e, he, hst⟩ := hstuck.sent.entry
  by_cases hsettled : (e.state = .filled ∨ e.state = .canceled) ∧ 0 < e.filledQuantity
  · obtain ⟨hended, hpos⟩ := hsettled
    have hbound : e.filledQuantity ≤ e.toRecord.filledQuantity + 1 / 10 ^ 9 := by
      show e.filledQuantity ≤ e.filledQuantity + 1 / 10 ^ 9
      norm_num
    have hloop : ∃ answer, Steps (execRoundTrip D stillOpen) (closeEntry D r.requestId
        roundTripMarket e.quantity e.toRecord (e.filledNotional / e.filledQuantity) 0
        (before ++ n :: rest) []) w (.ret answer) w ∧ answer.phase = .closeUnresolved :=
      steps_closeEntry hpos hbound hstuck.filled hstuck.sent.closes
    obtain ⟨answer, hsteps, hphase⟩ := hloop
    refine ⟨answer, steps_entry he hst (steps_reconcileOrder he (isBlank_legId _)) ?_, hphase⟩
    have haverage : e.toRecord.averageFillPrice = some (e.filledNotional / e.filledQuantity) :=
      if_pos hpos
    have hrejected : e.toRecord.state ≠ .rejected := by
      rw [toRecord_state]
      rcases hended with h | h <;> rw [h] <;> decide
    show Steps _ (followEntry D r.requestId roundTripMarket e.toRecord 0) _ _ _
    unfold followEntry
    have hsettled : ¬ ¬ (e.toRecord.state = .filled ∨ e.toRecord.state = .canceled) :=
      not_not.mpr hended
    rw [if_neg hrejected, if_neg hsettled, haverage, hsplit]
    exact (Steps.check (decide_eq_true hpos) _ w).andThen hsteps
  · have hbound : e.quantity ≤ e.toRecord.quantity + 1 / 10 ^ 9 := by
      show e.quantity ≤ e.quantity + 1 / 10 ^ 9
      norm_num
    have hloop : ∃ answer, Steps (execRoundTrip D stillOpen) (closeDuringEntryExecutionLag D
        r.requestId roundTripMarket e.toRecord 0 (before ++ n :: rest) []) w (.ret answer) w ∧
        answer.phase = .closeUnresolved :=
      steps_closeDuringLag (hsized _ e he) hbound hstuck.filled hstuck.sent.closes
    obtain ⟨answer, hsteps, hphase⟩ := hloop
    refine ⟨answer, steps_entry he hst (steps_reconcileOrder_lag he (isBlank_legId _)) ?_, hphase⟩
    have hget : Steps (exec D stillOpen) (askOrders (.get (legId D (entryKey r.requestId)))) w
        (.ret (some e.toRecord)) w := by
      have hfetch : w.orders.get (legId D (entryKey r.requestId)) = some e.toRecord :=
        fetch_eq_some.mpr ⟨e, he, rfl⟩
      exact hfetch ▸ Steps.perform ⟨w.orders, rfl, rfl⟩
    have hdurable : Steps (exec D stillOpen) (durableOrder (legId D (entryKey r.requestId))) w
        (.ret e.toRecord) w := hget.andThen (Steps.lift rfl w)
    dsimp only
    rw [hsplit]
    exact hdurable.inl.andThen hsteps

end

/-- A call of `advance` for the request that returns, while a position is open. -/
def Returns (D : Digests) (r : DemoBtcRoundTripRequest) (w w' : World) : Prop :=
  ∃ (env : Env) (now : Instant) (answer : DemoBtcRoundTripResult),
    Steps (execRoundTrip D stillOpen) (advance D r env now) w (.ret answer) w'

/-- A call of `advance` for the request, stopped anywhere. -/
def Advances (D : Digests) (r : DemoBtcRoundTripRequest) (w w' : World) : Prop :=
  ∃ (env : Env) (now : Instant) (p : RoundTripProg DemoBtcRoundTripResult),
    Steps (execRoundTrip D stillOpen) (advance D r env now) w p w'

/-- However the request is advanced, another close is sent. -/
def Recovers (D : Digests) (r : DemoBtcRoundTripRequest) (w : World) : Prop :=
  Runs.Eventually (Returns D r) (ExitSent w) w

theorem not_recovers (hcalls : RoundTripCalls D obs .empty w) (h : CloseFilled D r n w) :
    ¬ Recovers D r w := by
  obtain ⟨answer, hsteps, -⟩ := steps_roundTrip (inOrder_calls hcalls) (sized_calls hcalls) h
  exact Runs.not_eventually ⟨roundTripEnv, 0, answer, hsteps⟩ (not_exitSent w)

theorem calls_eq (hcalls : RoundTripCalls D obs .empty w) (h : CloseFilled D r n w)
    (hlater : Relation.ReflTransGen (Advances D r) w w') : w'.calls = w.calls := by
  obtain ⟨before, rest, hsplit, hstuck⟩ := h.stuckAt (inOrder_calls hcalls)
  have hkept : StuckAt w D r.requestId before n w' := by
    induction hlater with
    | refl => exact hstuck
    | tail _ hcall ih =>
      obtain ⟨env, now, p, hsteps⟩ := hcall
      exact (stuck_advance hsplit env now).steps hsteps ih
  exact hkept.calls

end DemoBtcRoundTripCoordinator

/-! ## Both coordinators -/

/-- A call of `advance` that returns, while a position is open. -/
def AdvanceReturns (D : Digests) (w w' : World) : Prop :=
  ∃ (self : DemoStrategyExecutor) (args : AdvanceArgs) (result : DemoStrategyCycleResult),
    Steps (exec D stillOpen) (self.advance D args) w (.ret result) w'

/-- However the trade is advanced, another exit is sent or the trade is held. -/
def ExitRecovers (D : Digests) (w : World) (trade : AutonomousTradeRecord) : Prop :=
  Runs.Eventually (AdvanceReturns D) (fun w' => ExitSent w w' ∨
    ∃ t, w'.state.fetch trade.tradeId = some t ∧ t.phase = .safetyHold) w

theorem not_exitRecovers (hcalls : Calls D obs .empty w) (h : ExitFilled w trade c) :
    ¬ ExitRecovers D w trade := by
  obtain ⟨o, ho, -⟩ := h.filled
  have hc : isBlank c = false := Table.find_key ho ▸ named_calls hcalls o (Table.find_mem ho)
  refine Runs.not_eventually ⟨_, _, _, steps_advance h hc⟩ ?_
  rintro (hsent | ⟨t, ht, hheld⟩)
  · exact not_exitSent w hsent
  · have hfetch := (activeTrade_eq_ok h.activeTrade).2.1 trade rfl
    cases hfetch.symm.trans ht
    rw [h.phase] at hheld
    cases hheld

open DemoBtcRoundTripCoordinator in
/-- **Filled exits with a position left.** Whenever the latest exit order is filled, calls that
find a position can be repeated without end: none sends an exit, none holds the trade. -/
theorem filled_exit_strands (D : Digests) (obs : Answers) :
    (∀ w trade c, Calls D obs .empty w → ExitFilled w trade c → ¬ ExitRecovers D w trade ∧
      ∀ w', Calls D stillOpen w w' → w'.state = w.state ∧ w'.calls = w.calls) ∧
    ∀ w r n, RoundTripCalls D obs .empty w → CloseFilled D r n w → ¬ Recovers D r w ∧
      ∀ w', Relation.ReflTransGen (Advances D r) w w' → w'.calls = w.calls := by
  constructor
  · intro w trade c hcalls h
    refine ⟨not_exitRecovers hcalls h, fun w' hlater => ?_⟩
    have hstuck := stuck_calls h hlater
    exact ⟨hstuck.state, hstuck.calls⟩
  · intro w r n hcalls h
    exact ⟨not_recovers hcalls h, fun w' hlater => calls_eq hcalls h hlater⟩

/-! ### An exit for a half of the entry -/

/-- An execution of a run on one order at a time. -/
def sampleExecution (id : String) (quantity price : ℚ)
    (h : isBlank id = false ∧ 0 < quantity ∧ 0 < price) : DemoExecution :=
  ⟨id, strategyLink, quantity, price, 0, .ofInstant 1, h.1, by decide, h.2.1, h.2.2, le_refl 0,
    by decide⟩

/-- The first order is filled for one unit and the second for a half. The snapshots show a half
once the first was sent: at first because they lag, and then because it is what is left. -/
def halfAnswer (w : World) (q : Query) : Except PyError q.Res :=
  match q with
  | .fetchPositions _ => .ok (if w.calls.isEmpty then [] else openPosition (1 / 2) (by norm_num))
  | .fetchOrder _ _ => .ok (some ⟨"1", strategyLink, "SOLUSDT", .filled,
      if w.calls.length = 1 then 1 else 1 / 2, .ofInstant 1, none, by decide, by decide, by decide,
      by split <;> norm_num, by decide⟩)
  | .fetchExecutions _ _ => .ok [if w.calls.length = 1 then
      sampleExecution "entry" 1 150 (by decide +kernel)
      else sampleExecution "exit" (1 / 2) 160 (by decide +kernel)]
  | .instrumentSnapshot symbol =>
    if symbol = "BTCUSDT" then .ok DemoBtcRoundTripCoordinator.roundTripMarket
    else fairAnswer w (.instrumentSnapshot symbol)
  | q => fairAnswer w q

def strategyExitId : String := "paper-demo-strategy:demo-o1:exit-v1"

/-- After two calls: the entry, and its exit. -/
def halfExited : World :=
  (runOps (handle sampleDigests halfAnswer) 40 (strategyCall 1000000)
    (runOps (handle sampleDigests halfAnswer) 40 (strategyCall 0) .empty).2).2

theorem calls_halfExited : Calls sampleDigests (fun _ _ _ => True) .empty halfExited := by
  have hx (o : Op) (w : World) : exec sampleDigests (fun _ _ _ => True) o w
      (handle sampleDigests halfAnswer o w).1 (handle sampleDigests halfAnswer o w).2 :=
    exec_handle (fun _ _ => trivial) o w
  refine .tail (.single (.advance strategyExecutor _ _ (steps_runOps hx 40 (strategyCall 0) _))) ?_
  exact .advance strategyExecutor _ _ (steps_runOps hx 40 (strategyCall 1000000) _)

/-- The coordinator's operations, where no order is open. -/
def handleRoundTrip (answer : World → (q : Query) → Except PyError q.Res) :
    (o : Op ⊕ RoundTripQuery) → World →
      Except PyError (Sum.elim Op.Res RoundTripQuery.Res o) × World
  | .inl o, w => handle sampleDigests answer o w
  | .inr (.openOrderCount _), w => (.ok (0 : Nat), w)
  | .inr (.getPosition symbol), w => (.ok (w.orders.getPosition symbol), w)

def sampleRequest : DemoBtcRoundTripRequest := ⟨"r1", by decide⟩

/-- After one call: the entry, and its close. -/
def halfClosed : World :=
  (runOps (handleRoundTrip halfAnswer) 60
    (DemoBtcRoundTripCoordinator.advance sampleDigests sampleRequest
      DemoBtcRoundTripCoordinator.roundTripEnv 0) .empty).2

theorem calls_halfClosed : DemoBtcRoundTripCoordinator.RoundTripCalls sampleDigests
    (fun _ _ _ => True) .empty halfClosed := by
  have hx (o : Op ⊕ RoundTripQuery) (w : World) :
      execRoundTrip sampleDigests (fun _ _ _ => True) o w (handleRoundTrip halfAnswer o w).1
        (handleRoundTrip halfAnswer o w).2 := by
    cases o with
    | inl o => exact exec_handle (fun _ _ => trivial) o w
    | inr q =>
      cases q with
      | openOrderCount symbol => rfl
      | getPosition symbol => exact ⟨rfl, rfl⟩
  exact .single (.advance sampleRequest DemoBtcRoundTripCoordinator.roundTripEnv 0 _
    (steps_runOps hx 60 _ .empty))

theorem halfExited_filled : ∃ trade, ExitFilled halfExited trade strategyExitId := by
  have hrun : (halfExited.state.fetchActive.toOption.map fun t =>
        t.map fun t => (t.phase, t.exitClientOrderId)) =
          some (some (.exitSubmitted, some strategyExitId)) ∧
      (halfExited.orders.orders.find strategyExitId).map (·.state) = some .filled := by
    decide +kernel
  obtain ⟨hactive, hfilled⟩ := hrun
  obtain ⟨o, ho, hstate⟩ := Option.map_eq_some_iff.mp hfilled
  cases hfetch : halfExited.state.fetchActive with
  | error e =>
    rw [hfetch] at hactive
    cases hactive
  | ok active =>
    rw [hfetch] at hactive
    obtain ⟨trade, rfl, hrow⟩ := Option.map_eq_some_iff.mp (Option.some.inj hactive)
    obtain ⟨hphase, hexit⟩ := Prod.mk.inj hrow
    exact ⟨trade, hfetch, hphase, hexit, o, ho, hstate⟩

theorem halfClosed_filled :
    DemoBtcRoundTripCoordinator.CloseFilled sampleDigests sampleRequest 1 halfClosed := by
  have hrun : (halfClosed.orders.orders.find (DemoBtcRoundTripCoordinator.legId sampleDigests
        (DemoBtcRoundTripCoordinator.closeKey sampleRequest.requestId 1))).map
          (fun o => (o.idempotencyKey, o.state)) =
        some (DemoBtcRoundTripCoordinator.closeKey sampleRequest.requestId 1, .filled) := by
    decide +kernel
  obtain ⟨o, ho, hrow⟩ := Option.map_eq_some_iff.mp hrun
  obtain ⟨hkey, hstate⟩ := Prod.mk.inj hrow
  exact ⟨⟨o, ho, hkey⟩, o, ho, hstate⟩

/-- Of one unit a half was exited, and the other half stays. -/
theorem filled_exit_strands_half :
    (∃ trade, ¬ ExitRecovers sampleDigests halfExited trade) ∧
      ¬ DemoBtcRoundTripCoordinator.Recovers sampleDigests sampleRequest halfClosed := by
  have hstrands := filled_exit_strands sampleDigests fun _ _ _ => True
  obtain ⟨trade, htrade⟩ := halfExited_filled
  exact ⟨⟨trade, (hstrands.1 _ _ _ calls_halfExited htrade).1⟩,
    (hstrands.2 _ _ _ calls_halfClosed halfClosed_filled).1⟩

/-- Not every filled exit is followed by another for what is left. -/
theorem filled_exit_stays :
    (¬ ∀ (w : World) (trade : AutonomousTradeRecord) (c : String),
      Calls sampleDigests (fun _ _ _ => True) .empty w → ExitFilled w trade c →
      ExitRecovers sampleDigests w trade) ∧
    ¬ ∀ (w : World) (r : DemoBtcRoundTripRequest) (n : Nat),
      DemoBtcRoundTripCoordinator.RoundTripCalls sampleDigests (fun _ _ _ => True) .empty w →
      DemoBtcRoundTripCoordinator.CloseFilled sampleDigests r n w →
      DemoBtcRoundTripCoordinator.Recovers sampleDigests r w := by
  constructor
  · intro h
    obtain ⟨trade, htrade⟩ := halfExited_filled
    exact not_exitRecovers calls_halfExited htrade (h _ _ _ calls_halfExited htrade)
  · intro h
    exact DemoBtcRoundTripCoordinator.not_recovers calls_halfClosed halfClosed_filled
      (h _ _ _ calls_halfClosed halfClosed_filled)

end Greenfield.Demo
