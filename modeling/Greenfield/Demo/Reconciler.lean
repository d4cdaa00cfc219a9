import Greenfield.Demo.World
import Greenfield.Paper.Accounting

/-!
# Reconciling an order

`DemoOrderReconciler.reconcile` of `src/execution/demo_order_reconciler.py`. A call
records the executions it sees and then follows the order's status, so it writes
`CANCELED` or `REJECTED` only when what is recorded matches the exchange's cumulative
quantity (`Settled`). The match has a tolerance: executions that together are within it
can be left out (`dust_unrecordable`).
-/

namespace Greenfield.Demo

open Keyed Py Paper Effects

/-! ## The reconciler -/

/-- `_fill_from_execution`. -/
def fillFromExecution (record : PaperOrderRecord) (execution : DemoExecution) : Fill :=
  let price := execution.price
  let quantity := execution.quantity
  let adversePerUnit := if record.side = .buy then max 0 (price - record.referencePrice)
    else max 0 (record.referencePrice - price)
  { filledPrice := price
    filledQuantity := quantity
    filledAt := execution.executedAtUtc
    slippageCostQuote := adversePerUnit * quantity
    feeCostQuote := execution.feeQuote
    fillId := execution.executionId }

/-- The fill that `reconcile` reports for a rejected order. -/
def rejectionOf (snapshot : DemoOrderSnapshot) : Fill where
  filledPrice := 0
  filledQuantity := 0
  filledAt := snapshot.updatedAtUtc
  rejected := true
  rejectReason := match snapshot.rejectReason with
    | some reason => if reason = "" then snapshot.status.value else reason
    | none => snapshot.status.value

/-- The tolerance of `_require_matching_cumulative_quantity`. -/
def cumulativeTol : ℚ := 1 / 10 ^ 9

/-- `_require_matching_cumulative_quantity`. -/
def requireMatchingCumulativeQuantity (record : PaperOrderRecord) (snapshot : DemoOrderSnapshot) :
    Except PyError Unit :=
  require (|record.filledQuantity - snapshot.cumulativeFilledQuantity| ≤ cumulativeTol)
    (.demoExecutionLag "Bybit Demo cumulative fill quantity does not match durable executions")

/-- The key `(executed_at_utc, execution_id)`. -/
def executedBefore (a b : DemoExecution) : Bool :=
  let at_ := fun (x : DemoExecution) => x.executedAtUtc.micros - x.executedAtUtc.utcOffset.getD 0
  at_ a < at_ b ∨ at_ a = at_ b ∧ ¬ b.executionId < a.executionId

/-- The loop over the executions. -/
def applyExecutions (clientOrderId : String) (record : PaperOrderRecord) :
    List DemoExecution → DemoProg Unit
  | [] => return
  | execution :: rest => do
    let _ ← askOrders (.applyFillResult clientOrderId (fillFromExecution record execution))
    applyExecutions clientOrderId record rest

/-- The record that was read, or the error for none. -/
def existingOrder (record : Option PaperOrderRecord) (e : PyError) :
    Except PyError PaperOrderRecord :=
  match record with
  | some record => .ok record
  | none => .error e

theorem existingOrder_eq_ok {found : Option PaperOrderRecord} {e : PyError}
    {record : PaperOrderRecord} (h : existingOrder found e = .ok record) : found = some record := by
  cases found with
  | none => cases h
  | some x =>
    cases h
    rfl

/-- What `reconcile` does with the order's status. -/
def followStatus (clientOrderId : String) (record : PaperOrderRecord)
    (snapshot : DemoOrderSnapshot) : DemoProg PaperOrderRecord :=
  match snapshot.status with
  | .filled => do
    Prog.check (record.state = .filled) (.paperReconciliation
      "Bybit Demo reports FILLED but durable executions are incomplete")
    return record
  | .cancelled => askOrders (.markCanceled clientOrderId snapshot.updatedAtUtc)
  | .rejected | .deactivated =>
    if record.filledQuantity > 0 then askOrders (.markCanceled clientOrderId snapshot.updatedAtUtc)
    else if record.state ≠ .rejected then
      askOrders (.applyFillResult clientOrderId (rejectionOf snapshot))
    else return record
  | .new | .partiallyFilled => return record

def reconcile (D : Digests) (clientOrderId : String) :
    DemoProg (PaperOrderRecord × Option DemoOrderSnapshot × Nat) := do
  let found ← askOrders (.get clientOrderId)
  let record ← Prog.lift (existingOrder found (PaperOrderStore.unknownOrder clientOrderId))
  let orderLinkId ← Prog.lift (demoOrderLinkIdFor D clientOrderId)
  let executions ← ask (.fetchExecutions orderLinkId record.symbol)
  applyExecutions clientOrderId record (sorted executedBefore executions)
  let found ← askOrders (.get clientOrderId)
  let record ← Prog.lift (existingOrder found .assertionError)
  let exchangeOrder ← ask (.fetchOrder orderLinkId record.symbol)
  match exchangeOrder with
  | none => return (record, none, executions.length)
  | some snapshot =>
    Prog.lift (requireMatchingCumulativeQuantity record snapshot)
    let record ← followStatus clientOrderId record snapshot
    return (record, some snapshot, executions.length)

/-! ## The exchange's side of one order -/

def DemoOrderStatus.terminal : DemoOrderStatus → Bool
  | .filled | .cancelled | .rejected | .deactivated => true
  | _ => false

/-- What the exchange executes of the order in the end. -/
def executedQuantity (final : List DemoExecution) : ℚ := (final.map (·.quantity)).sum

/-- A call may see any of the executions, in any order; a terminal status comes with the
final cumulative quantity. -/
def lagging (final : List DemoExecution) : Answers := fun _ q r =>
  match q with
  | .fetchExecutions .. => ∀ xs, r = .ok xs → ∀ x ∈ xs, x ∈ final
  | .fetchOrder .. => ∀ snapshot, r = .ok (some snapshot) → snapshot.status.terminal = true →
      snapshot.cumulativeFilledQuantity = executedQuantity final
  | _ => True

section

variable {D : Digests} {final : List DemoExecution} {c : String} {w : World}

/-- Order `c` ended without being filled. -/
def Stopped (s : PaperOrderStore) (c : String) (o : OrderRow) : Prop :=
  s.orders.find c = some o ∧ (o.state = .canceled ∨ o.state = .rejected)

/-- The invariant of the calls: the books balance, the order's fills are executions of the
exchange, and a stopped order has what the exchange executed. -/
structure Settled (final : List DemoExecution) (c : String) (s : PaperOrderStore) : Prop where
  ledgers : Ledgers s
  executed : ∀ x ∈ s.fills.rows, x.clientOrderId = c →
    ∃ y ∈ final, x.fillId = y.executionId ∧ x.filledQuantity = y.quantity
  stopped : ∀ o, Stopped s c o → |o.filledQuantity - executedQuantity final| ≤ cumulativeTol

variable {s : PaperOrderStore} {o : OrderRow}

open PaperOrderStore in
/-- Rewriting the order keeps the invariant when a stopped row has what was executed. -/
theorem Settled.update {f : OrderRow → OrderRow}
    {hf : ∀ r, (f r).clientOrderId = r.clientOrderId} (h : Settled final c s)
    (ho : s.orders.find c = some o) (hl : Ledgers (s.updateOrder c f hf))
    (hstop : |(f o).filledQuantity - executedQuantity final| ≤ cumulativeTol) :
    Settled final c (s.updateOrder c f hf) := by
  refine ⟨hl, h.executed, fun x hx => ?_⟩
  obtain ⟨hx, -⟩ := hx
  rw [find_updateOrder, if_pos rfl, ho] at hx
  cases hx
  exact hstop

variable {s s' : PaperOrderStore}

open PaperOrderStore in
/-- Recording one of the exchange's executions keeps the invariant. -/
theorem settled_applyFillResult {r record : PaperOrderRecord}
    {x : DemoExecution} (h : Settled final c s) (hx : x ∈ final)
    (hr : s.applyFillResult c (fillFromExecution record x) = .ok (r, s')) :
    Settled final c s' := by
  have hfill : s.recordFill c (fillFromExecution record x) = .ok (r, s') := hr
  obtain ⟨now, hv, ⟨_, -, -, -, rfl⟩ | ⟨o, fills, hf, hi, -, rfl⟩⟩ := recordFill_eq_ok.mp hfill
  · exact h
  · refine ⟨ledgers_change (.fill hv hf hi) h.ledgers, fun y hy hyc => ?_, fun z hz => ?_⟩
    · obtain ⟨-, hrows⟩ := Table.insert_eq_some.mp hi
      change y ∈ fills.rows at hy
      rw [hrows, List.mem_append, List.mem_singleton] at hy
      rcases hy with hy | rfl
      · exact h.executed y hy hyc
      · exact ⟨x, hx, rfl, rfl⟩
    · obtain ⟨hz, hst⟩ := hz
      rw [find_fillStore, if_pos rfl, hf.2.1] at hz
      cases hz
      rcases fillOrder_state o.toRecord (fillFromExecution record x) now o with e | e <;>
        rw [e] at hst <;> rcases hst with hst | hst <;> cases hst

variable {r : PaperOrderRecord}

open PaperOrderStore in
theorem settled_markCanceled {now : Datetime}
    (h : Settled final c s)
    (hmatch : ∀ o, s.orders.find c = some o →
      |o.filledQuantity - executedQuantity final| ≤ cumulativeTol)
    (hr : s.markCanceled c now = .ok (r, s')) : Settled final c s' := by
  obtain ⟨now, o, -, ho, ⟨-, -, rfl⟩ | ⟨hst, -, rfl⟩⟩ := markCanceled_eq_ok.mp hr
  · exact h
  · exact h.update ho (ledgers_change (.cancel ho hst) h.ledgers) (hmatch o ho)

variable {snapshot : DemoOrderSnapshot}

open PaperOrderStore in
theorem settled_rejection
    (h : Settled final c s)
    (hmatch : ∀ o, s.orders.find c = some o →
      |o.filledQuantity - executedQuantity final| ≤ cumulativeTol)
    (hr : s.applyFillResult c (rejectionOf snapshot) = .ok (r, s')) : Settled final c s' := by
  have hrej : ∃ reason now, s.recordRejection c reason now = .ok (r, s') := ⟨_, _, hr⟩
  obtain ⟨reason, now, hrej⟩ := hrej
  obtain ⟨now, o, -, ho, hst, -, rfl⟩ := recordRejection_eq_ok.mp hrej
  exact h.update ho (ledgers_change (.reject ho hst) h.ledgers) (hmatch o ho)

/-! ## Calls -/

/-- The crash condition. -/
abbrev SettledIn (final : List DemoExecution) (c : String) (w : World) : Prop :=
  Settled final c w.orders

variable {record : PaperOrderRecord}

theorem wp_applyExecutions :
    ∀ {xs : List DemoExecution} {w : World}, (∀ x ∈ xs, x ∈ final) → SettledIn final c w →
      wp (exec D (lagging final)) (SettledIn final c) (applyExecutions c record xs)
        (fun _ => SettledIn final c) (fun _ => SettledIn final c) w
  | [], _, _, h => h
  | x :: xs, w, hx, h => by
    unfold applyExecutions
    rw [wp_bind, wp_askOrders]
    refine ⟨h, fun r s' hr => ?_, fun _ _ => h⟩
    have h' : Settled final c s' := settled_applyFillResult h (hx x List.mem_cons_self) hr
    exact wp_applyExecutions (fun y hy => hx y (List.mem_cons_of_mem _ hy)) h'

/-- Following a terminal status writes over a matching row. -/
theorem wp_followStatus
    (h : SettledIn final c w)
    (hmatch : snapshot.status.terminal = true → ∀ o, w.orders.orders.find c = some o →
      |o.filledQuantity - executedQuantity final| ≤ cumulativeTol) :
    wp (exec D (lagging final)) (SettledIn final c) (followStatus c record snapshot)
      (fun _ => SettledIn final c) (fun _ => SettledIn final c) w := by
  have hcancel : snapshot.status.terminal = true →
      wp (exec D (lagging final)) (SettledIn final c)
        (askOrders (.markCanceled c snapshot.updatedAtUtc))
        (fun _ => SettledIn final c) (fun _ => SettledIn final c) w := fun ht => by
    rw [wp_askOrders]
    exact ⟨h, fun r s' hr => settled_markCanceled h (hmatch ht) hr, fun _ _ => h⟩
  have hrejected : snapshot.status.terminal = true →
      wp (exec D (lagging final)) (SettledIn final c)
        (if record.filledQuantity > 0 then askOrders (.markCanceled c snapshot.updatedAtUtc)
          else if record.state ≠ .rejected then
            askOrders (.applyFillResult c (rejectionOf snapshot))
          else return record)
        (fun _ => SettledIn final c) (fun _ => SettledIn final c) w := fun ht => by
    split
    · exact hcancel ht
    · split
      · rw [wp_askOrders]
        exact ⟨h, fun r s' hr => settled_rejection h (hmatch ht) hr, fun _ _ => h⟩
      · exact h
  unfold followStatus
  cases hst : snapshot.status with
  | filled =>
    rw [wp_bind, wp_check]
    exact ⟨fun _ => h, fun _ => h⟩
  | cancelled => exact hcancel (by rw [hst]; rfl)
  | rejected => exact hrejected (by rw [hst]; rfl)
  | deactivated => exact hrejected (by rw [hst]; rfl)
  | new => exact h
  | partiallyFilled => exact h

/-- **A call keeps the invariant, wherever it is stopped.** -/
theorem wp_reconcile (h : SettledIn final c w) :
    wp (exec D (lagging final)) (SettledIn final c) (reconcile D c)
      (fun _ => SettledIn final c) (fun _ => SettledIn final c) w := by
  unfold reconcile
  rw [wp_bind, wp_askOrders]
  refine ⟨h, fun found s' hget => ?_, fun _ _ => h⟩
  cases hget
  rw [wp_bind, wp_lift]
  refine ⟨fun record _ => ?_, fun _ _ => h⟩
  rw [wp_bind, wp_lift]
  refine ⟨fun link _ => ?_, fun _ _ => h⟩
  rw [wp_bind, wp_ask]
  refine ⟨h, fun xs hxs => ?_, fun _ _ => h⟩
  rw [wp_bind]
  have hsorted : ∀ x ∈ sorted executedBefore xs, x ∈ final :=
    fun x hx => hxs xs rfl x (mem_sorted.mp hx)
  refine wp_mono (fun _ h => h) (fun _ w h => ?_) (fun _ _ h => h)
    (wp_applyExecutions hsorted h)
  rw [wp_bind, wp_askOrders]
  refine ⟨h, fun found s' hget => ?_, fun _ _ => h⟩
  cases hget
  rw [wp_bind, wp_lift]
  refine ⟨fun record hrec => ?_, fun _ _ => h⟩
  rw [wp_bind, wp_ask]
  refine ⟨h, fun order horder => ?_, fun _ _ => h⟩
  cases order with
  | none => exact h
  | some snapshot =>
    rw [wp_bind, wp_lift]
    refine ⟨fun _ hmatch => ?_, fun _ _ => h⟩
    rw [wp_bind]
    refine wp_mono (fun _ h => h) (fun _ _ h => h) (fun _ _ h => h) (wp_followStatus h ?_)
    intro ht o ho
    have hfound : (w.orders.get c) = some o.toRecord := by
      change (w.orders.orders.find c).map OrderRow.toRecord = _
      rw [ho]
      rfl
    rw [hfound] at hrec
    cases hrec
    have hle : |o.filledQuantity - snapshot.cumulativeFilledQuantity| ≤ cumulativeTol := by
      simpa [requireMatchingCumulativeQuantity, OrderRow.toRecord] using hmatch
    rw [← horder snapshot rfl ht]
    exact hle

/-- A call of `reconcile`, stopped anywhere. -/
def Call (D : Digests) (final : List DemoExecution) (c : String) (w w' : World) : Prop :=
  ∃ p, Steps (exec D (lagging final)) (reconcile D c) w p w'

theorem settled_calls {w' : World} (hw : Relation.ReflTransGen (Call D final c) w w')
    (h : SettledIn final c w) : SettledIn final c w' := by
  induction hw with
  | refl => exact h
  | tail _ hcall ih =>
    obtain ⟨p, hsteps⟩ := hcall
    exact wp_crash hsteps (wp_reconcile ih)

/-! ## What is left out -/

def recordedIn (s : PaperOrderStore) (c : String) (y : DemoExecution) : Bool :=
  s.fills.rows.any fun x => x.clientOrderId = c ∧ x.fillId = y.executionId

/-- The executions that the order's books lack. -/
def unrecorded (s : PaperOrderStore) (c : String) (final : List DemoExecution) :
    List DemoExecution := final.filter fun y => !recordedIn s c y

theorem executedQuantity_split (s : PaperOrderStore) (c : String) :
    ∀ final : List DemoExecution, executedQuantity final =
      executedQuantity (final.filter (recordedIn s c)) + executedQuantity (unrecorded s c final)
  | [] => by simp [executedQuantity, unrecorded]
  | y :: ys => by
    have ih := executedQuantity_split s c ys
    simp only [executedQuantity, unrecorded, List.map_cons, List.sum_cons, List.filter_cons] at ih ⊢
    cases recordedIn s c y with
    | true => simp only [if_true, Bool.not_true, Bool.false_eq_true, if_false, List.map_cons,
        List.sum_cons]; linarith
    | false => simp only [if_true, Bool.not_false, Bool.false_eq_true, if_false, List.map_cons,
        List.sum_cons]; linarith

/-- The recorded executions make up the order's fills. -/
theorem total_eq_recorded (h : Settled final c s)
    (hunique : (final.map DemoExecution.executionId).Nodup) :
    total s.fills.rows c (·.filledQuantity) = executedQuantity (final.filter (recordedIn s c)) := by
  refine Keyed.sum_eq_of_keys (f := FillRow.fillId) (g := DemoExecution.executionId)
    (s.fills.nodup.sublist (List.filter_sublist.map _)) (hunique.sublist (List.filter_sublist.map _))
    (fun k => ?_) fun x hx y hy hk => ?_
  · simp only [List.mem_map, List.mem_filter, recordedIn, List.any_eq_true, decide_eq_true_eq]
    constructor
    · rintro ⟨x, ⟨hx, hxc⟩, rfl⟩
      obtain ⟨y, hy, hid, -⟩ := h.executed x hx hxc
      exact ⟨y, ⟨hy, x, hx, hxc, hid⟩, hid.symm⟩
    · rintro ⟨y, ⟨-, x, hx, hxc, hid⟩, rfl⟩
      exact ⟨x, ⟨hx, hxc⟩, hid⟩
  · obtain ⟨hx, hxc⟩ := List.mem_filter.mp hx
    obtain ⟨z, hz, hid, hq⟩ := h.executed x hx (of_decide_eq_true hxc)
    have hzy : z = y := List.inj_on_of_nodup_map hunique hz (List.mem_filter.mp hy).1
      (hid.symm.trans hk)
    rw [hq, hzy]

/-- What a settled order's books lack is what its filled quantity lacks. -/
theorem unrecorded_eq (h : Settled final c s)
    (hunique : (final.map DemoExecution.executionId).Nodup) (ho : s.orders.find c = some o) :
    executedQuantity (unrecorded s c final) = executedQuantity final - o.filledQuantity := by
  have hq : o.filledQuantity = executedQuantity (final.filter (recordedIn s c)) := by
    rw [← total_eq_recorded h hunique, (h.ledgers.accounted ho).quantity, Table.find_key ho]
  have hsplit := executedQuantity_split s c final
  linarith

end

/-- **An order is stopped with its executions.** Whatever the calls see and wherever they
are stopped, the order is `CANCELED` or `REJECTED` only with a filled quantity that is the
exchange's within `1e-9`, and the executions it lacks are together within `1e-9`. -/
theorem stopped_with_executions (D : Digests) (final : List DemoExecution) (c : String)
    (hunique : (final.map DemoExecution.executionId).Nodup) (init : World)
    (hinit : init.orders.Reachable D)
    (hfills : ∀ x ∈ init.orders.fills.rows, x.clientOrderId = c →
      ∃ y ∈ final, x.fillId = y.executionId ∧ x.filledQuantity = y.quantity)
    (hopen : ∀ o, ¬ Stopped init.orders c o) (w : World)
    (hw : Relation.ReflTransGen (Call D final c) init w) (o : OrderRow)
    (ho : Stopped w.orders c o) :
    |o.filledQuantity - executedQuantity final| ≤ cumulativeTol ∧
      executedQuantity (unrecorded w.orders c final) ≤ cumulativeTol := by
  have h0 : SettledIn final c init :=
    ⟨ledgers_reachable hinit, hfills, fun o ho => absurd ho (hopen o)⟩
  have h := settled_calls hw h0
  have hle := h.stopped o ho
  refine ⟨hle, ?_⟩
  rw [unrecorded_eq h hunique ho.1]
  linarith [(abs_le.mp hle).1]

/-! ### A cancelled order -/

/-- A submitted buy of 2 at 100. -/
def drillWorld : World :=
  { World.empty with
    orders := after sampleDigests [.beginOrder ⟨"a", "BTCUSDT", .buy, 2, 100, none⟩ (.ofInstant 0),
      .markSubmitted "paper-a" (.ofInstant 0)] }

/-- An execution of the quantity `q` at 100. -/
def drillExecution (id : String) (q : ℚ) (hid : isBlank id = false) (hq : 0 < q) : DemoExecution :=
  ⟨id, "gfd-0123456789abcdef0123456789abcdef", q, 100, 0, .ofInstant 1,
    hid, by decide, hq, by norm_num, le_refl 0, by decide⟩

/-- A cancelled order with the cumulative quantity `q`. -/
def drillSnapshot (q : ℚ) (hq : 0 ≤ q) : DemoOrderSnapshot :=
  ⟨"1", "gfd-0123456789abcdef0123456789abcdef", "BTCUSDT", .cancelled, q, .ofInstant 2, none,
    by decide, by decide, by decide, hq, by decide⟩

/-- The exchange shows `xs` and the cancelled order. -/
def drillAnswer (xs : List DemoExecution) (snapshot : DemoOrderSnapshot) (_ : World) (q : Query) :
    Except PyError q.Res :=
  match q with
  | .fetchExecutions .. => .ok xs
  | .fetchOrder .. => .ok (some snapshot)
  | _ => .error (.bybitDemoGateway "unavailable")

/-- One call, with these answers. -/
def drillCall (xs : List DemoExecution) (snapshot : DemoOrderSnapshot) : World :=
  (runOps (handle sampleDigests (drillAnswer xs snapshot)) 10 (reconcile sampleDigests "paper-a")
    drillWorld).2

theorem call_drillCall {final xs : List DemoExecution} {snapshot : DemoOrderSnapshot}
    (hxs : ∀ x ∈ xs, x ∈ final)
    (hq : snapshot.cumulativeFilledQuantity = executedQuantity final) :
    Relation.ReflTransGen (Call sampleDigests final "paper-a") drillWorld (drillCall xs snapshot) := by
  refine .single ⟨_, steps_runOps (exec_handle fun w q => ?_) 10 _ _⟩
  cases q with
  | fetchExecutions l sym => intro ys hys; cases hys; exact hxs
  | fetchOrder l sym => intro y hy _; cases hy; exact hq
  | preflight | accountBalance | accountExposure => trivial
  | instrumentSnapshot _ | setLeverage _ _ | fetchPositions _ => trivial

theorem drillWorld_open : ∀ o, ¬ Stopped drillWorld.orders "paper-a" o := by
  rintro o ⟨ho, hst⟩
  have hstate : (drillWorld.orders.orders.find "paper-a").map OrderRow.state = some .submitted := by
    decide +kernel
  rw [ho] at hstate
  rcases hst with e | e <;> rw [Option.map_some, e] at hstate <;> cases hstate

theorem drillWorld_fills : drillWorld.orders.fills.rows = [] := by decide +kernel

def wholeExecution : DemoExecution := drillExecution "x" 1 (by decide) (by norm_num)

def wholeSnapshot : DemoOrderSnapshot := drillSnapshot 1 (by norm_num)

def dustExecution : DemoExecution := drillExecution "y" (1 / 10 ^ 10) (by decide) (by norm_num)

/-- One execution of 1, seen by the call that cancels. -/
theorem stopped_with_executions_drill :
    ∃ o, Stopped (drillCall [wholeExecution] wholeSnapshot).orders "paper-a" o ∧
      |o.filledQuantity - executedQuantity [wholeExecution]| ≤ cumulativeTol := by
  let w := drillCall [wholeExecution] wholeSnapshot
  have hstate : (w.orders.orders.find "paper-a").map OrderRow.state = some .canceled := by
    decide +kernel
  obtain ⟨o, ho, hst⟩ := Option.map_eq_some_iff.mp hstate
  refine ⟨o, ⟨ho, .inl hst⟩, (stopped_with_executions sampleDigests [wholeExecution] "paper-a"
    (by decide) drillWorld ⟨_, rfl⟩ ?_ drillWorld_open w
    (call_drillCall (fun x hx => hx) (by decide +kernel)) o ⟨ho, .inl hst⟩).1⟩
  rw [drillWorld_fills]
  exact nofun

/-- An execution of `1e-10` that the cancelling call did not see cannot be recorded. -/
theorem dust_unrecordable : ¬ ∀ (final : List DemoExecution) (c : String) (init w : World),
    (final.map DemoExecution.executionId).Nodup → init.orders.Reachable sampleDigests →
    (∀ x ∈ init.orders.fills.rows, x.clientOrderId ≠ c) → (∀ o, ¬ Stopped init.orders c o) →
    Relation.ReflTransGen (Call sampleDigests final c) init w → ∀ o, Stopped w.orders c o →
    ∀ y ∈ final, (w.orders.applyFillResult c (fillFromExecution o.toRecord y)).isOk = true := by
  intro h
  let final := [wholeExecution, dustExecution]
  let w := drillCall [wholeExecution] (drillSnapshot (1 + 1 / 10 ^ 10) (by norm_num))
  have hstate : (w.orders.orders.find "paper-a").map OrderRow.state = some .canceled := by
    decide +kernel
  obtain ⟨o, ho, hst⟩ := Option.map_eq_some_iff.mp hstate
  have hcall : Relation.ReflTransGen (Call sampleDigests final "paper-a") drillWorld w :=
    call_drillCall (fun x hx => List.mem_cons.mpr (.inl (by simpa using hx))) (by decide +kernel)
  have hok := h final "paper-a" drillWorld w (by decide) ⟨_, rfl⟩
    (by rw [drillWorld_fills]; exact nofun) drillWorld_open hcall o ⟨ho, .inl hst⟩ dustExecution
    (by simp [final])
  have hbad : ((w.orders.orders.find "paper-a").map fun o =>
      (w.orders.applyFillResult "paper-a" (fillFromExecution o.toRecord dustExecution)).isOk) =
      some false := by decide +kernel
  rw [ho, Option.map_some, hok] at hbad
  cases hbad

end Greenfield.Demo
