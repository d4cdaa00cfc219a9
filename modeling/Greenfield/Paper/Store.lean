import Greenfield.Lib.Table
import Greenfield.Lib.Run
import Greenfield.Py.Basic

/-!
# The durable paper order store

`src/execution/paper_reconciliation.py`. The three tables are keyed tables; every
public method is one `BEGIN IMMEDIATE` transaction, a function from the contents to a
record and new contents that is rolled back when it raises. `reconcile_ambiguous_*`
reads in one transaction, asks `query_fn` and writes in another.
-/

namespace Greenfield.Paper

open Keyed Py

/-- `IntentSide`. -/
inductive IntentSide where
  | buy
  | sell
  deriving DecidableEq, Repr

def IntentSide.value : IntentSide → String
  | .buy => "BUY"
  | .sell => "SELL"

/-- The fields of `Fill` that the store reads. -/
structure Fill where
  filledPrice : ℚ
  filledQuantity : ℚ
  filledAt : Datetime
  rejected : Bool := false
  rejectReason : String := ""
  spreadCostQuote : ℚ := 0
  slippageCostQuote : ℚ := 0
  feeCostQuote : ℚ := 0
  fundingCostQuote : ℚ := 0
  fillId : String := ""
  deriving DecidableEq

inductive PaperOrderState where
  | pendingSubmit
  | submitted
  | partiallyFilled
  | filled
  | canceled
  | rejected
  deriving DecidableEq, Repr

def PaperOrderState.value : PaperOrderState → String
  | .pendingSubmit => "PENDING_SUBMIT"
  | .submitted => "SUBMITTED"
  | .partiallyFilled => "PARTIALLY_FILLED"
  | .filled => "FILLED"
  | .canceled => "CANCELED"
  | .rejected => "REJECTED"

/-! ## Tables -/

/-- A row of `paper_orders`. -/
structure OrderRow where
  clientOrderId : String
  idempotencyKey : String
  legGroupId : Option String
  symbol : String
  side : IntentSide
  quantity : ℚ
  referencePrice : ℚ
  state : PaperOrderState
  filledQuantity : ℚ := 0
  filledNotional : ℚ := 0
  spreadCostQuote : ℚ := 0
  slippageCostQuote : ℚ := 0
  feeCostQuote : ℚ := 0
  fundingCostQuote : ℚ := 0
  rejectReason : Option String := none
  submitAttempts : Nat := 0
  createdAtUtc : Instant
  updatedAtUtc : Instant
  deriving DecidableEq

/-- A row of `paper_positions`. -/
structure PositionRow where
  symbol : String
  netQuantity : ℚ
  averagePrice : ℚ
  realizedPnlQuote : ℚ
  updatedAtUtc : Instant
  deriving DecidableEq

/-- A row of `paper_fills`. -/
structure FillRow where
  fillId : String
  clientOrderId : String
  filledQuantity : ℚ
  filledPrice : ℚ
  spreadCostQuote : ℚ
  slippageCostQuote : ℚ
  feeCostQuote : ℚ
  fundingCostQuote : ℚ
  filledAtUtc : Instant
  deriving DecidableEq

structure PaperOrderStore where
  orders : Table OrderRow.clientOrderId
  positions : Table PositionRow.symbol
  fills : Table FillRow.fillId

def PaperOrderStore.empty : PaperOrderStore := ⟨.empty, .empty, .empty⟩

/-- What `_fetch` returns for a row. -/
structure PaperOrderRecord where
  clientOrderId : String
  idempotencyKey : String
  legGroupId : Option String
  symbol : String
  side : IntentSide
  quantity : ℚ
  referencePrice : ℚ
  state : PaperOrderState
  filledQuantity : ℚ
  averageFillPrice : Option ℚ
  spreadCostQuote : ℚ
  slippageCostQuote : ℚ
  feeCostQuote : ℚ
  fundingCostQuote : ℚ
  rejectReason : Option String
  submitAttempts : Nat
  createdAtUtc : Instant
  updatedAtUtc : Instant
  deriving DecidableEq

def OrderRow.toRecord (row : OrderRow) : PaperOrderRecord where
  clientOrderId := row.clientOrderId
  idempotencyKey := row.idempotencyKey
  legGroupId := row.legGroupId
  symbol := row.symbol
  side := row.side
  quantity := row.quantity
  referencePrice := row.referencePrice
  state := row.state
  filledQuantity := row.filledQuantity
  averageFillPrice :=
    if row.filledQuantity > 0 then some (row.filledNotional / row.filledQuantity) else none
  spreadCostQuote := row.spreadCostQuote
  slippageCostQuote := row.slippageCostQuote
  feeCostQuote := row.feeCostQuote
  fundingCostQuote := row.fundingCostQuote
  rejectReason := row.rejectReason
  submitAttempts := row.submitAttempts
  createdAtUtc := row.createdAtUtc
  updatedAtUtc := row.updatedAtUtc

/-- The keyword arguments of `begin_order`, without the time. -/
structure OrderRequest where
  idempotencyKey : String
  symbol : String
  side : IntentSide
  quantity : ℚ
  referencePrice : ℚ
  legGroupId : Option String
  deriving DecidableEq

def relTol : ℚ := 1 / 10 ^ 9

def absTol : ℚ := 1 / 10 ^ 12

/-- The quantity tolerance `1e-9` of `_record_fill`. -/
def quantityTol : ℚ := 1 / 10 ^ 9

/-- A transaction of the store. -/
abbrev StoreTxn := Except PyError (PaperOrderRecord × PaperOrderStore)

section

variable (D : Digests)

def clientOrderIdNamespace : String := "6e1f7e2a-6c1e-4a3a-9c1a-3b1f2e5d7a10"

def clientOrderIdFor (idempotencyKey : String) : Except PyError String :=
  if isBlank idempotencyKey then .error (.valueError "paper order idempotency key must be non-empty")
  else .ok ("paper-" ++ D.uuid5Hex clientOrderIdNamespace idempotencyKey)

namespace PaperOrderStore

/-! ## Reads -/

def fetch (s : PaperOrderStore) (clientOrderId : String) : Option PaperOrderRecord :=
  (s.orders.find clientOrderId).map OrderRow.toRecord

def get (s : PaperOrderStore) (clientOrderId : String) : Option PaperOrderRecord :=
  s.fetch clientOrderId

/-- `ORDER BY created_at_utc`. -/
def listInState (s : PaperOrderStore) (state : PaperOrderState) : List PaperOrderRecord :=
  (sorted (fun a b => a.createdAtUtc ≤ b.createdAtUtc)
    (s.orders.rows.filter fun r => r.state = state)).map OrderRow.toRecord

/-- `ORDER BY created_at_utc, client_order_id`. -/
def createdBefore (a b : OrderRow) : Bool :=
  a.createdAtUtc < b.createdAtUtc ∨
    a.createdAtUtc = b.createdAtUtc ∧ ¬ b.clientOrderId < a.clientOrderId

def listByLegGroup (s : PaperOrderStore) (legGroupId : String) :
    Except PyError (List PaperOrderRecord) :=
  if isBlank legGroupId then .error (.valueError "paper leg group id must be non-empty")
  else .ok ((sorted createdBefore
    (s.orders.rows.filter fun r => r.legGroupId = some legGroupId)).map OrderRow.toRecord)

/-- `ORDER BY filled_at_utc, fill_id`. -/
def filledBefore (a b : FillRow) : Bool :=
  a.filledAtUtc < b.filledAtUtc ∨ a.filledAtUtc = b.filledAtUtc ∧ ¬ b.fillId < a.fillId

def listFills (s : PaperOrderStore) (clientOrderId : String) : List FillRow :=
  sorted filledBefore (s.fills.rows.filter fun r => r.clientOrderId = clientOrderId)

def getPosition (s : PaperOrderStore) (symbol : String) : Option PositionRow :=
  s.positions.find symbol

/-! ## Writes -/

def unknownOrder (clientOrderId : String) : PyError :=
  .paperReconciliation ("unknown paper order: " ++ clientOrderId)

/-- The order a transaction works on, or `unknown paper order`. -/
def existing (s : PaperOrderStore) (clientOrderId : String) : Except PyError PaperOrderRecord :=
  match s.fetch clientOrderId with
  | none => .error (unknownOrder clientOrderId)
  | some r => .ok r

/-- The transaction's closing read (`assert record is not None`) and commit. -/
def committed (s : PaperOrderStore) (clientOrderId : String) : StoreTxn :=
  match s.fetch clientOrderId with
  | none => .error .assertionError
  | some r => .ok (r, s)

/-- `UPDATE paper_orders SET .. WHERE client_order_id = ?`. -/
def updateOrder (s : PaperOrderStore) (clientOrderId : String) (f : OrderRow → OrderRow)
    (hf : ∀ r, (f r).clientOrderId = r.clientOrderId) : PaperOrderStore :=
  { s with orders := s.orders.modify clientOrderId f hf }

/-- The parameter list in the conflict message of `begin_order`. -/
def describeParams (symbol : String) (side : IntentSide) (quantity referencePrice : ℚ)
    (legGroupId : Option String) : String :=
  "(symbol=" ++ quoted symbol ++ ", side=" ++ quoted side.value ++ ", quantity=" ++
    toString quantity ++ ", reference_price=" ++ toString referencePrice ++ ", leg_group_id=" ++
    (legGroupId.elim "None" quoted) ++ ")"

/-- Whether a reused idempotency key names different parameters. -/
def orderConflicts (existing : PaperOrderRecord) (req : OrderRequest) : Bool :=
  existing.idempotencyKey ≠ req.idempotencyKey ∨ existing.symbol ≠ req.symbol ∨
    existing.side ≠ req.side ∨ ¬ isclose existing.quantity req.quantity relTol absTol ∨
    ¬ isclose existing.referencePrice req.referencePrice relTol absTol ∨
    existing.legGroupId ≠ req.legGroupId

/-- The row that `begin_order` inserts. -/
def newOrder (req : OrderRequest) (clientOrderId : String) (now : Instant) : OrderRow where
  clientOrderId := clientOrderId
  idempotencyKey := req.idempotencyKey
  legGroupId := req.legGroupId
  symbol := req.symbol
  side := req.side
  quantity := req.quantity
  referencePrice := req.referencePrice
  state := .pendingSubmit
  createdAtUtc := now
  updatedAtUtc := now

def beginOrder (s : PaperOrderStore) (req : OrderRequest) (nowUtc : Datetime) : StoreTxn := do
  require (!isBlank req.symbol) (.valueError "paper order symbol must be non-empty")
  require (0 < req.quantity) (.valueError "paper order quantity must be finite and positive")
  require (0 < req.referencePrice)
    (.valueError "paper order reference price must be finite and positive")
  let clientOrderId ← clientOrderIdFor D req.idempotencyKey
  let now ← utc nowUtc "paper order created_at"
  match s.fetch clientOrderId with
  | some existing =>
    require (!orderConflicts existing req) (.paperReconciliation
      ("idempotency_key " ++ quoted req.idempotencyKey ++ " conflict: an order already exists as " ++
        clientOrderId ++ " with different parameters " ++
        describeParams existing.symbol existing.side existing.quantity existing.referencePrice
          existing.legGroupId ++ " than requested " ++
        describeParams req.symbol req.side req.quantity req.referencePrice req.legGroupId))
    .ok (existing, s)
  | none =>
    -- `idempotency_key TEXT NOT NULL UNIQUE`
    require (s.orders.rows.all fun r => r.idempotencyKey ≠ req.idempotencyKey)
      (.integrityError "UNIQUE constraint failed: paper_orders.idempotency_key")
    match s.orders.insert (newOrder req clientOrderId now) with
    | none => .error (.integrityError "UNIQUE constraint failed: paper_orders.client_order_id")
    | some orders => committed { s with orders } clientOrderId

/-- The columns that `mark_submitted` writes. -/
def submitRow (now : Instant) (r : OrderRow) : OrderRow :=
  { r with state := .submitted, submitAttempts := r.submitAttempts + 1, updatedAtUtc := now }

/-- The columns that `mark_canceled` writes. -/
def cancelRow (now : Instant) (r : OrderRow) : OrderRow :=
  { r with state := .canceled, updatedAtUtc := now }

/-- The columns that `_record_rejection` writes. -/
def rejectRow (reason : String) (now : Instant) (r : OrderRow) : OrderRow :=
  { r with state := .rejected, rejectReason := some reason, updatedAtUtc := now }

theorem submitRow_key (now : Instant) (r : OrderRow) :
    (submitRow now r).clientOrderId = r.clientOrderId := rfl

theorem cancelRow_key (now : Instant) (r : OrderRow) :
    (cancelRow now r).clientOrderId = r.clientOrderId := rfl

theorem rejectRow_key (reason : String) (now : Instant) (r : OrderRow) :
    (rejectRow reason now r).clientOrderId = r.clientOrderId := rfl

def markSubmitted (s : PaperOrderStore) (clientOrderId : String) (nowUtc : Datetime) :
    StoreTxn := do
  let now ← utc nowUtc "paper order submitted_at"
  let existing ← s.existing clientOrderId
  require (existing.state = .pendingSubmit ∨ existing.state = .submitted) (.paperReconciliation
    ("cannot submit paper order " ++ clientOrderId ++ " from state " ++ existing.state.value))
  committed (s.updateOrder clientOrderId (submitRow now) (submitRow_key now)) clientOrderId

def markCanceled (s : PaperOrderStore) (clientOrderId : String) (nowUtc : Datetime) :
    StoreTxn := do
  let now ← utc nowUtc "paper order canceled_at"
  let existing ← s.existing clientOrderId
  if existing.state = .canceled then
    .ok (existing, s)
  else
    require (existing.state = .submitted ∨ existing.state = .partiallyFilled) (.paperReconciliation
      ("cannot cancel paper order " ++ clientOrderId ++ " from state " ++ existing.state.value))
    committed (s.updateOrder clientOrderId (cancelRow now) (cancelRow_key now)) clientOrderId

/-- `_record_rejection`. -/
def recordRejection (s : PaperOrderStore) (clientOrderId reason : String) (nowUtc : Datetime) :
    StoreTxn := do
  let now ← utc nowUtc "paper order rejected_at"
  let existing ← s.existing clientOrderId
  require (existing.state = .pendingSubmit ∨ existing.state = .submitted) (.paperReconciliation
    ("cannot reject paper order " ++ clientOrderId ++ " from state " ++ existing.state.value))
  committed (s.updateOrder clientOrderId (rejectRow reason now) (rejectRow_key reason now))
    clientOrderId

/-- `_fill_row_conflicts`. -/
def fillRowConflicts (row : FillRow) (clientOrderId : String) (fill : Fill)
    (filledAtIso : Instant) : Bool :=
  row.clientOrderId ≠ clientOrderId ∨ row.filledAtUtc ≠ filledAtIso ∨
    [(row.filledQuantity, fill.filledQuantity), (row.filledPrice, fill.filledPrice),
      (row.spreadCostQuote, fill.spreadCostQuote), (row.slippageCostQuote, fill.slippageCostQuote),
      (row.feeCostQuote, fill.feeCostQuote), (row.fundingCostQuote, fill.fundingCostQuote)].any
      fun p => !isclose p.1 p.2 relTol absTol

/-- `signed_delta` of `_apply_fill_to_position`. -/
def signedDelta (side : IntentSide) (filledQuantity : ℚ) : ℚ :=
  if side = .buy then filledQuantity else -filledQuantity

/-- The new `(net_quantity, average_price, realized_pnl)` of `_apply_fill_to_position`. -/
def positionAfter (row : Option (ℚ × ℚ × ℚ)) (signedDelta filledPrice : ℚ) : ℚ × ℚ × ℚ :=
  match row with
  | none => (signedDelta, filledPrice, 0)
  | some (oldQuantity, oldAveragePrice, realizedPnl) =>
    let newQuantity := oldQuantity + signedDelta
    if oldQuantity = 0 ∨ (0 < oldQuantity ↔ 0 < signedDelta) then
      (newQuantity,
        if newQuantity ≠ 0 then
          (oldAveragePrice * |oldQuantity| + filledPrice * |signedDelta|) / |newQuantity|
        else oldAveragePrice,
        realizedPnl)
    else
      let closingQuantity := min |oldQuantity| |signedDelta|
      let direction : ℚ := if 0 < oldQuantity then 1 else -1
      let remainder := |signedDelta| - closingQuantity
      (newQuantity, if remainder > 1 / 10 ^ 12 then filledPrice else oldAveragePrice,
        realizedPnl + closingQuantity * (filledPrice - oldAveragePrice) * direction)

/-- `_apply_fill_to_position`. -/
def applyFillToPosition (positions : Table PositionRow.symbol) (symbol : String)
    (side : IntentSide) (filledQuantity filledPrice : ℚ) (now : Instant) :
    Table PositionRow.symbol :=
  let row := (positions.find symbol).map fun r =>
    (r.netQuantity, r.averagePrice, r.realizedPnlQuote)
  let new := positionAfter row (signedDelta side filledQuantity) filledPrice
  positions.upsert ⟨symbol, new.1, new.2.1, new.2.2, now⟩

/-- The row that `_record_fill` inserts. -/
def newFill (clientOrderId : String) (fill : Fill) (now : Instant) : FillRow where
  fillId := fill.fillId
  clientOrderId := clientOrderId
  filledQuantity := fill.filledQuantity
  filledPrice := fill.filledPrice
  spreadCostQuote := fill.spreadCostQuote
  slippageCostQuote := fill.slippageCostQuote
  feeCostQuote := fill.feeCostQuote
  fundingCostQuote := fill.fundingCostQuote
  filledAtUtc := now

/-- The columns of `paper_orders` that `_record_fill` writes, from the record it read. -/
def fillOrder (existing : PaperOrderRecord) (fill : Fill) (now : Instant) (r : OrderRow) :
    OrderRow :=
  let newFilledQuantity := existing.filledQuantity + fill.filledQuantity
  let existingNotional := existing.averageFillPrice.getD 0 * existing.filledQuantity
  { r with
    state := if newFilledQuantity ≥ existing.quantity - quantityTol then .filled else .partiallyFilled
    filledQuantity := newFilledQuantity
    filledNotional := existingNotional + fill.filledPrice * fill.filledQuantity
    spreadCostQuote := r.spreadCostQuote + fill.spreadCostQuote
    slippageCostQuote := r.slippageCostQuote + fill.slippageCostQuote
    feeCostQuote := r.feeCostQuote + fill.feeCostQuote
    fundingCostQuote := r.fundingCostQuote + fill.fundingCostQuote
    updatedAtUtc := now }

theorem fillOrder_key (existing : PaperOrderRecord) (fill : Fill) (now : Instant) (r : OrderRow) :
    (fillOrder existing fill now r).clientOrderId = r.clientOrderId := rfl

/-- `_record_fill`. -/
def recordFill (s : PaperOrderStore) (clientOrderId : String) (fill : Fill) : StoreTxn := do
  require (!isBlank fill.fillId) (.valueError
    "paper fill fill_id must be non-empty - a durable execution id is required so a redelivered fill after a crash can be recognized instead of double-applied")
  require (0 < fill.filledQuantity) (.valueError "paper fill quantity must be finite and positive")
  require (0 < fill.filledPrice) (.valueError "paper fill price must be finite and positive")
  let now ← utc fill.filledAt "paper fill filled_at"
  match s.fills.find fill.fillId with
  | some fillRow =>
    require (!fillRowConflicts fillRow clientOrderId fill now) (.paperReconciliation
      ("fill_id " ++ quoted fill.fillId ++ " was already recorded with different content - refusing to apply a conflicting fill under the same id (fail-closed; an identical redelivery of the same fill is a no-op, but a changed one is never silently accepted)"))
    -- Identical redelivery: the current state, nothing applied.
    committed s clientOrderId
  | none =>
    let existing ← s.existing clientOrderId
    require (existing.state = .submitted ∨ existing.state = .partiallyFilled) (.paperReconciliation
      ("cannot fill paper order " ++ clientOrderId ++ " from state " ++ existing.state.value))
    require (existing.filledQuantity + fill.filledQuantity ≤ existing.quantity + quantityTol)
      (.paperReconciliation ("paper order " ++ clientOrderId ++ " overfilled: " ++
        toString (existing.filledQuantity + fill.filledQuantity) ++ " > " ++
        toString existing.quantity))
    match s.fills.insert (newFill clientOrderId fill now) with
    | none => .error (.integrityError "UNIQUE constraint failed: paper_fills.fill_id")
    | some fills =>
      let s := s.updateOrder clientOrderId (fillOrder existing fill now)
        (fillOrder_key existing fill now)
      committed { s with
        fills
        positions := applyFillToPosition s.positions existing.symbol existing.side
          fill.filledQuantity fill.filledPrice now } clientOrderId

def applyFillResult (s : PaperOrderStore) (clientOrderId : String) (fill : Fill) : StoreTxn :=
  if fill.rejected then
    s.recordRejection clientOrderId
      (if fill.rejectReason = "" then "rejected" else fill.rejectReason) fill.filledAt
  else s.recordFill clientOrderId fill

/-! ## Reconciliation of ambiguous orders -/

/-- What `query_fn` answers for a client order id, or raises. -/
abbrev QueryFn := String → Except PyError (Option Fill)

def reconcileAmbiguousOrder (s : PaperOrderStore) (clientOrderId : String) (queryFn : QueryFn) :
    StoreTxn := do
  let record ← s.existing clientOrderId
  if record.state ≠ .submitted then
    .ok (record, s)
  else
    match ← queryFn clientOrderId with
    | none => .ok (record, s)
    | some resolution => s.applyFillResult clientOrderId resolution

/-- One order after the other; an order that raises ends the pass and leaves what the
orders before it committed. -/
def reconcileEach (queryFn : QueryFn) :
    PaperOrderStore → List String → Except PyError (List PaperOrderRecord) × PaperOrderStore
  | s, [] => (.ok [], s)
  | s, c :: cs =>
    match s.reconcileAmbiguousOrder c queryFn with
    | .error e => (.error e, s)
    | .ok (r, s') =>
      let rest := reconcileEach queryFn s' cs
      (rest.1.map (r :: ·), rest.2)

def reconcileAmbiguousOrders (s : PaperOrderStore) (queryFn : QueryFn) :
    Except PyError (List PaperOrderRecord) × PaperOrderStore :=
  reconcileEach queryFn s ((s.listInState .submitted).map (·.clientOrderId))

end PaperOrderStore

/-! ## Runs of the store -/

/-- A call of one of the store's operations. -/
inductive PaperOp where
  | beginOrder (req : OrderRequest) (nowUtc : Datetime)
  | markSubmitted (clientOrderId : String) (nowUtc : Datetime)
  | applyFillResult (clientOrderId : String) (fill : Fill)
  | markCanceled (clientOrderId : String) (nowUtc : Datetime)
  | reconcileAmbiguousOrder (clientOrderId : String) (queryFn : PaperOrderStore.QueryFn)
  | reconcileAmbiguousOrders (queryFn : PaperOrderStore.QueryFn)

/-- The contents after a call, unchanged by a transaction that raises. -/
def PaperOrderStore.step (s : PaperOrderStore) : PaperOp → PaperOrderStore
  | .beginOrder req now => commit (s.beginOrder D req now) s
  | .markSubmitted c now => commit (s.markSubmitted c now) s
  | .applyFillResult c fill => commit (s.applyFillResult c fill) s
  | .markCanceled c now => commit (s.markCanceled c now) s
  | .reconcileAmbiguousOrder c q => commit (s.reconcileAmbiguousOrder c q) s
  | .reconcileAmbiguousOrders q => (s.reconcileAmbiguousOrders q).2

/-- The contents reachable from the empty database. -/
abbrev PaperOrderStore.Reachable (s : PaperOrderStore) : Prop :=
  Runs.Reach (PaperOrderStore.step D) .empty s

end

end Greenfield.Paper
