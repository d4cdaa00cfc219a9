import Greenfield.Demo.StrandedEntry
import Greenfield.Features.Auction

/-!
# The BTC round trip

`DemoBtcRoundTripCoordinator` of `src/execution/demo_btc_round_trip.py`: one entry, and up to
three reduce-only closes. Beside the operations of a `World` it counts the open orders of the
exchange and reads the position that the store has. In every world that calls come to, an
order for a close is there only when the legs before it were sent (`InOrder`).
-/

namespace Greenfield.Demo

open Keyed Py Paper Effects PaperOrderStore

/-! ## Operations -/

inductive RoundTripQuery where
  | openOrderCount (symbol : String)
  | getPosition (symbol : String)

abbrev RoundTripQuery.Res : RoundTripQuery → Type
  | .openOrderCount _ => Nat
  | .getPosition _ => Option PositionRow

/-- The exchange counts as it likes. -/
def execRoundTripQuery : Sem RoundTripQuery RoundTripQuery.Res PyError World
  | .openOrderCount _, w, _, w' => w' = w
  | .getPosition symbol, w, r, w' => w' = w ∧ r = .ok (w.orders.getPosition symbol)

abbrev RoundTripProg :=
  Prog (Op ⊕ RoundTripQuery) (Sum.elim Op.Res RoundTripQuery.Res) PyError

abbrev execRoundTrip (D : Digests) (obs : Answers) :
    Sem (Op ⊕ RoundTripQuery) (Sum.elim Op.Res RoundTripQuery.Res) PyError World :=
  Sem.sum (exec D obs) execRoundTripQuery

def openOrderCount (symbol : String) : RoundTripProg Nat :=
  Prog.perform (Sum.inr (RoundTripQuery.openOrderCount symbol))

def getPosition (symbol : String) : RoundTripProg (Option PositionRow) :=
  Prog.perform (Sum.inr (RoundTripQuery.getPosition symbol))

/-! ## Requests and results -/

inductive DemoBtcRoundTripPhase where
  | entryUnresolved
  | entryRejected
  | closeUnresolved
  | complete
  deriving DecidableEq, Repr

/-- `_REQUEST_ID`. -/
def isRequestIdChar (c : Char) : Bool :=
  ('A' ≤ c && c ≤ 'Z') || ('a' ≤ c && c ≤ 'z') || ('0' ≤ c && c ≤ '9') || c == '_' || c == '-'

structure DemoBtcRoundTripRequest where
  requestId : String
  valid : 0 < requestId.toList.length ∧ requestId.toList.length ≤ 64 ∧
    requestId.toList.all isRequestIdChar = true

structure DemoBtcRoundTripResult where
  phase : DemoBtcRoundTripPhase
  market : PublicLinearInstrumentSnapshot
  leverage : Int
  targetNotionalQuote : ℚ
  submittedQuantity : ℚ
  estimatedEntryNotionalQuote : ℚ
  entryOrder : PaperOrderRecord
  closeOrders : List PaperOrderRecord
  exchangePositionSize : ℚ
  paperPosition : Option PositionRow

namespace DemoBtcRoundTripCoordinator

/-- `_SYMBOL`. -/
def symbol : String := "BTCUSDT"

/-- `_TARGET_NOTIONAL`. -/
def targetNotional : ℚ := 100

/-- `_MINIMUM_NOTIONAL`. -/
def minimumNotional : ℚ := 75

/-- `_MAXIMUM_NOTIONAL`. -/
def maximumNotional : ℚ := 125

/-- `_LEVERAGE`. -/
def leverage : Int := 100

/-- `range(1, _MAX_CLOSE_ATTEMPTS + 1)`. -/
def closeAttempts : List Nat := [1, 2, 3]

/-- `_bounded_quantity`. -/
def boundedQuantity (market : PublicLinearInstrumentSnapshot) : Except PyError ℚ := do
  let rawSteps := targetNotional / market.lastPrice / market.quantityStep
  let quantity := max (Features.roundHalfUp rawSteps * market.quantityStep)
    market.minimumOrderQuantity
  let estimatedNotional := quantity * market.lastPrice
  require (minimumNotional ≤ estimatedNotional ∧ estimatedNotional ≤ maximumNotional)
    (.valueError "BTC minimum quantity cannot produce a Demo notional within 75-125 USDT")
  .ok quantity

/-- `_long_position_size`. -/
def longPositionSize (positions : List DemoPositionSnapshot) : Except PyError ℚ := do
  require (positions.all fun p => p.positionIndex = 0)
    (.paperReconciliation "BTC Demo account must use one-way position mode")
  require (0 ≤ signedSize positions)
    (.paperReconciliation "BTC Demo round-trip found an unexpected short position")
  .ok (signedSize positions)

/-- The leg group of a request. -/
def groupOf (requestId : String) : String := "operator-demo-btc-round-trip:" ++ requestId

/-- The key in `_entry`. -/
def entryKey (requestId : String) : String := groupOf requestId ++ ":entry-v1"

/-- `_close_key`. -/
def closeKey (requestId : String) (attempt : Nat) : String :=
  groupOf requestId ++ ":close-" ++ toString attempt ++ "-v1"

/-- What `begin_order` is asked for a leg. -/
def legRequest (requestId key : String) (side : IntentSide) (quantity referencePrice : ℚ) :
    OrderRequest where
  idempotencyKey := key
  symbol
  side
  quantity
  referencePrice
  legGroupId := some (groupOf requestId)

variable (D : Digests)

/-- `get_by_idempotency_key`. -/
def getByIdempotencyKey (key : String) : DemoProg (Option PaperOrderRecord) := do
  let clientOrderId ← Prog.lift (clientOrderIdFor D key)
  askOrders (.get clientOrderId)

/-- `_durable_order`. -/
def durableOrder (clientOrderId : String) : DemoProg PaperOrderRecord := do
  let record ← askOrders (.get clientOrderId)
  Prog.lift (existingOrder record
    (.paperReconciliation ("BTC Demo durable order disappeared: " ++ clientOrderId)))

/-- `_long_position_size(self.gateway.fetch_positions(symbol=_SYMBOL))`. -/
def exchangeSize : DemoProg ℚ := do
  let positions ← ask (.fetchPositions symbol)
  Prog.lift (longPositionSize positions)

/-! ### Legs -/

/-- The part of `_entry` and of `_close_attempt` for an order that is pending. -/
def sendPending (side : IntentSide) (reduceOnly : Bool) (mismatch : String) (now : Instant)
    (order : PaperOrderRecord) : DemoProg PaperOrderRecord :=
  if order.state = .pendingSubmit then do
    let order ← askOrders (.markSubmitted order.clientOrderId (.ofInstant now))
    let orderLinkId ← Prog.lift (demoOrderLinkIdFor D order.clientOrderId)
    let ack ← place now order.clientOrderId
      { orderLinkId, symbol, side, quantity := order.quantity, orderType := .market reduceOnly }
    Prog.check (ack.orderLinkId = orderLinkId) (.paperReconciliation mismatch)
    return order
  else return order

/-- The order of the entry, begun when there is none. -/
def beginEntry (requestId : String) (market : PublicLinearInstrumentSnapshot) (quantity : ℚ)
    (now : Instant) : Option PaperOrderRecord → RoundTripProg PaperOrderRecord
  | some existing => return existing
  | none => do
    let count ← openOrderCount symbol
    Prog.check (count = 0) (.paperReconciliation "Bybit Demo BTC has pre-existing open orders")
    let size ← exchangeSize.inl
    Prog.check (size = 0)
      (.paperReconciliation "Bybit Demo BTC position is not flat before entry")
    let _ ← (ask (.setLeverage symbol leverage)).inl
    (askOrders (.beginOrder
      (legRequest requestId (entryKey requestId) .buy quantity market.lastPrice)
      (.ofInstant now))).inl

/-- `_entry`. -/
def entry (requestId : String) (market : PublicLinearInstrumentSnapshot) (quantity : ℚ)
    (now : Instant) : RoundTripProg PaperOrderRecord := do
  let existing ← (getByIdempotencyKey D (entryKey requestId)).inl
  let order ← beginEntry requestId market quantity now existing
  (sendPending D .buy false "Bybit Demo BTC entry identity mismatch" now order).inl

/-- The order of a close, begun when there is none. -/
def beginClose (requestId : String) (attempt : Nat) (quantity referencePrice : ℚ)
    (now : Instant) : Option PaperOrderRecord → DemoProg PaperOrderRecord
  | some existing => return existing
  | none => askOrders (.beginOrder
      (legRequest requestId (closeKey requestId attempt) .sell quantity referencePrice)
      (.ofInstant now))

/-- `_close_attempt`. -/
def closeAttempt (requestId : String) (attempt : Nat) (quantity referencePrice : ℚ)
    (now : Instant) : DemoProg PaperOrderRecord := do
  let existing ← getByIdempotencyKey D (closeKey requestId attempt)
  let order ← beginClose requestId attempt quantity referencePrice now existing
  sendPending D .sell true "Bybit Demo BTC close identity mismatch" now order

/-- `_close_attempt` and the reconciliation of its order, and whether that was done. -/
def closeAndReconcile (requestId : String) (attempt : Nat) (quantity referencePrice : ℚ)
    (now : Instant) : DemoProg (PaperOrderRecord × Bool) := do
  let close ← closeAttempt D requestId attempt quantity referencePrice now
  match ← DemoStrategyExecutor.reconcileOrder D close.clientOrderId with
  | some close => return (close, true)
  | none => do
    let close ← durableOrder close.clientOrderId
    return (close, false)

/-! ### Results -/

/-- `_result`. -/
def result (phase : DemoBtcRoundTripPhase) (market : PublicLinearInstrumentSnapshot) (quantity : ℚ)
    (entryOrder : PaperOrderRecord) (closeOrders : List PaperOrderRecord) :
    RoundTripProg DemoBtcRoundTripResult := do
  let size ← exchangeSize.inl
  let paperPosition ← getPosition symbol
  return {
    phase
    market
    leverage
    targetNotionalQuote := targetNotional
    submittedQuantity := quantity
    estimatedEntryNotionalQuote := quantity * market.lastPrice
    entryOrder
    closeOrders
    exchangePositionSize := size
    paperPosition }

/-- `_complete`. -/
def complete (market : PublicLinearInstrumentSnapshot) (quantity : ℚ)
    (entryOrder : PaperOrderRecord) (closeOrders : List PaperOrderRecord) :
    RoundTripProg DemoBtcRoundTripResult := do
  let size ← exchangeSize.inl
  let paperPosition ← getPosition symbol
  Prog.check (size = 0) (.paperReconciliation "Bybit Demo BTC exchange position is not flat")
  Prog.check (paperPosition.any fun p => |p.netQuantity| ≤ 1 / 10 ^ 9)
    (.paperReconciliation "durable BTC PAPER position is not flat")
  result .complete market quantity entryOrder closeOrders

/-! ### Closing -/

/-- The loop of `advance` over the attempts that are left, and what follows it. -/
def closeEntry (requestId : String) (market : PublicLinearInstrumentSnapshot) (quantity : ℚ)
    (entryOrder : PaperOrderRecord) (averageFillPrice : ℚ) (now : Instant) :
    List Nat → List PaperOrderRecord → RoundTripProg DemoBtcRoundTripResult
  | [], closes => do
    let size ← exchangeSize.inl
    Prog.check (size = 0) (.paperReconciliation
      "Bybit Demo BTC position remains after maximum reduce-only close attempts")
    complete market quantity entryOrder closes
  | attempt :: rest, closes => do
    let size ← exchangeSize.inl
    let existing ← (getByIdempotencyKey D (closeKey requestId attempt)).inl
    if size = 0 ∧ existing.isNone then complete market quantity entryOrder closes
    else do
      Prog.check (size ≤ entryOrder.filledQuantity + 1 / 10 ^ 9)
        (.paperReconciliation "Bybit Demo BTC position exceeds the round-trip entry fill")
      let closed ← (closeAndReconcile D requestId attempt size averageFillPrice now).inl
      if closed.2 = false ∨
          ¬ (closed.1.state = .filled ∨ closed.1.state = .canceled ∨ closed.1.state = .rejected) then
        result .closeUnresolved market quantity entryOrder (closes ++ [closed.1])
      else do
        let remaining ← exchangeSize.inl
        if remaining = 0 then complete market quantity entryOrder (closes ++ [closed.1])
        else if closed.1.state = .filled then
          result .closeUnresolved market quantity entryOrder (closes ++ [closed.1])
        else
          closeEntry requestId market quantity entryOrder averageFillPrice now rest
            (closes ++ [closed.1])

/-- `_close_during_entry_execution_lag`, from the attempts that are left. -/
def closeDuringEntryExecutionLag (requestId : String) (market : PublicLinearInstrumentSnapshot)
    (entryOrder : PaperOrderRecord) (now : Instant) :
    List Nat → List PaperOrderRecord → RoundTripProg DemoBtcRoundTripResult
  | [], _ => Prog.raise (.paperReconciliation
      "Bybit Demo BTC position remains after maximum reduce-only close attempts")
  | attempt :: rest, closes => do
    let size ← exchangeSize.inl
    let existing ← (getByIdempotencyKey D (closeKey requestId attempt)).inl
    if size = 0 ∧ existing.isNone then
      result (if closes.isEmpty then .entryUnresolved else .closeUnresolved) market
        entryOrder.quantity entryOrder closes
    else do
      Prog.check (size ≤ entryOrder.quantity + 1 / 10 ^ 9)
        (.paperReconciliation "Bybit Demo BTC position exceeds the durable entry quantity")
      let closed ← (closeAndReconcile D requestId attempt size market.lastPrice now).inl
      let remaining ← exchangeSize.inl
      if remaining = 0 ∨ ¬ (closed.1.state = .canceled ∨ closed.1.state = .rejected) then
        result .closeUnresolved market entryOrder.quantity entryOrder (closes ++ [closed.1])
      else closeDuringEntryExecutionLag requestId market entryOrder now rest (closes ++ [closed.1])

/-! ### `advance` -/

/-- Its part after the entry was reconciled. -/
def followEntry (requestId : String) (market : PublicLinearInstrumentSnapshot)
    (entryOrder : PaperOrderRecord) (now : Instant) : RoundTripProg DemoBtcRoundTripResult :=
  if entryOrder.state = .rejected then
    result .entryRejected market entryOrder.quantity entryOrder []
  else if ¬ (entryOrder.state = .filled ∨ entryOrder.state = .canceled) then
    result .entryUnresolved market entryOrder.quantity entryOrder []
  else do
    Prog.check (0 < entryOrder.filledQuantity)
      (.paperReconciliation "terminal BTC Demo entry has no fill to close")
    match entryOrder.averageFillPrice with
    | none => Prog.raise (.paperReconciliation "filled BTC Demo entry has no average fill price")
    | some price =>
      closeEntry D requestId market entryOrder.quantity entryOrder price now closeAttempts []

/-- Its checks before the first request. -/
def gate (env : Env) : Except PyError Unit := do
  requireDemoPaperEnvironment env true
  require (env "GREENFIELD_DEMO_BTC_ROUND_TRIP_CONFIRMATION" = some "BTC_100_USDT_100X_DEMO_ONLY")
    (.valueError "BTC Demo round-trip requires GREENFIELD_DEMO_BTC_ROUND_TRIP_CONFIRMATION=BTC_100_USDT_100X_DEMO_ONLY")

def advance (request : DemoBtcRoundTripRequest) (env : Env) (now : Instant) :
    RoundTripProg DemoBtcRoundTripResult := do
  Prog.lift (gate env)
  let _ ← (ask .preflight).inl
  let market ← (ask (.instrumentSnapshot symbol)).inl
  let quantity ← Prog.lift (boundedQuantity market)
  let order ← entry D request.requestId market quantity now
  match ← (DemoStrategyExecutor.reconcileOrder D order.clientOrderId).inl with
  | some order => followEntry D request.requestId market order now
  | none => do
    let order ← (durableOrder order.clientOrderId).inl
    closeDuringEntryExecutionLag D request.requestId market order now closeAttempts []

/-! ## Keys -/

section

variable {D : Digests} {r r' : DemoBtcRoundTripRequest} {n n' : Nat}

theorem colon_notMem (r : DemoBtcRoundTripRequest) : ':' ∉ r.requestId.toList := by
  intro h
  have hchar := List.all_eq_true.mp r.valid.2.2 ':' h
  exact absurd hchar (by decide)

/-- What a leg is called says of which request it is. -/
theorem groupOf_append_inj {s t : String}
    (h : groupOf r.requestId ++ (":" ++ s) = groupOf r'.requestId ++ (":" ++ t)) :
    r.requestId = r'.requestId ∧ s = t := by
  unfold groupOf at h
  generalize "operator-demo-btc-round-trip:" = start at h
  have hcolon : ":".toList = [':'] := by simp
  rw [String.append_assoc, String.append_assoc, String.append_right_inj] at h
  have hlist := congrArg String.toList h
  rw [String.toList_append, String.toList_append, String.toList_append, String.toList_append,
    hcolon] at hlist
  obtain ⟨hid, hrest⟩ := append_cons_inj (colon_notMem r) (colon_notMem r') hlist
  exact ⟨String.toList_inj.mp hid, String.toList_inj.mp hrest⟩

theorem closeKey_eq (requestId : String) (n : Nat) :
    closeKey requestId n = groupOf requestId ++ (":" ++ ("close-" ++ toString n ++ "-v1")) := by
  apply String.toList_inj.mp
  simp [closeKey, String.toList_append]

theorem entryKey_eq (requestId : String) :
    entryKey requestId = groupOf requestId ++ (":" ++ "entry-v1") := by
  apply String.toList_inj.mp
  simp [entryKey, String.toList_append]

theorem closeKey_inj (h : closeKey r.requestId n = closeKey r'.requestId n') :
    r.requestId = r'.requestId ∧ n = n' := by
  rw [closeKey_eq, closeKey_eq] at h
  obtain ⟨hid, hn⟩ := groupOf_append_inj h
  rw [String.append_left_inj, String.append_right_inj] at hn
  exact ⟨hid, toString_injective hn⟩

theorem entryKey_ne_closeKey : entryKey r.requestId ≠ closeKey r'.requestId n := by
  intro h
  rw [closeKey_eq, entryKey_eq] at h
  have hlist := congrArg String.toList (groupOf_append_inj h).2
  rw [String.append_assoc, String.toList_append] at hlist
  exact absurd (List.cons.inj hlist).1 (by decide)

/-- The client order id of a leg. -/
def legId (D : Digests) (key : String) : String :=
  "paper-" ++ D.uuid5Hex clientOrderIdNamespace key

theorem isBlank_append_left {a : String} (h : isBlank a = false) (b : String) :
    isBlank (a ++ b) = false := by
  rw [isBlank_append, h, Bool.false_and]

theorem isBlank_legId (key : String) : isBlank (legId D key) = false :=
  isBlank_append_left (by simp [isBlank, isSpace]) _

theorem isBlank_groupOf_append (requestId s : String) :
    isBlank (groupOf requestId ++ s) = false :=
  isBlank_append_left (isBlank_append_left (by simp [isBlank, isSpace]) _) _

theorem isBlank_closeKey (requestId : String) (n : Nat) :
    isBlank (closeKey requestId n) = false := by
  rw [closeKey_eq]
  exact isBlank_groupOf_append ..

theorem isBlank_entryKey (requestId : String) : isBlank (entryKey requestId) = false := by
  rw [entryKey_eq]
  exact isBlank_groupOf_append ..

theorem clientOrderIdFor_leg {key : String} (h : isBlank key = false) :
    clientOrderIdFor D key = .ok (legId D key) := clientOrderIdFor_eq_ok.mpr ⟨h, rfl⟩

end

-- so that a program is not computed as far as the texts of its keys
attribute [irreducible] entryKey closeKey

/-! ## Legs in order -/

section

variable {D : Digests} {obs : Answers} {w w' : World} {requestId : String} {before : List Nat}

/-- The entry and these closes of the request were sent. -/
structure Sent (D : Digests) (requestId : String) (before : List Nat) (s : PaperOrderStore) :
    Prop where
  entry : Marked s (legId D (entryKey requestId))
  closes : ∀ n ∈ before, Marked s (legId D (closeKey requestId n))

/-- A close is there only when the legs before it were sent. -/
def InOrder (D : Digests) (w : World) : Prop :=
  ∀ o ∈ w.orders.orders.rows, ∀ (r : DemoBtcRoundTripRequest) (n : Nat),
    o.idempotencyKey = closeKey r.requestId n →
    ∃ before rest, closeAttempts = before ++ n :: rest ∧ Sent D r.requestId before w.orders

variable {s s' : PaperOrderStore}

theorem marked_changes {c : String} (h : Changes s s')
    (hc : Marked s c) : Marked s' c :=
  h.invariant (I := fun s => Marked s c) (fun hchange => marked_change hchange) hc

theorem Sent.changes (h : Sent D requestId before s)
    (hc : Changes s s') : Sent D requestId before s' :=
  ⟨marked_changes hc h.entry, fun n hn => marked_changes hc (h.closes n hn)⟩

variable {o : Op} {a : Except PyError o.Res}

/-- An operation that begins no order adds none. -/
theorem exec_origin (ho : o.beginsOrder = false)
    (h : exec D obs o w a w') {x : OrderRow} (hx : x ∈ w'.orders.orders.rows) :
    ∃ y ∈ w.orders.orders.rows, x.clientOrderId = y.clientOrderId ∧
      x.idempotencyKey = y.idempotencyKey := by
  have hkept (h : x ∈ w.orders.orders.rows) : ∃ y ∈ w.orders.orders.rows,
      x.clientOrderId = y.clientOrderId ∧ x.idempotencyKey = y.idempotencyKey := ⟨x, h, rfl, rfl⟩
  have htouched {c : String} (ht : Touched c w.orders w'.orders) : ∃ y ∈ w.orders.orders.rows,
      x.clientOrderId = y.clientOrderId ∧ x.idempotencyKey = y.idempotencyKey := by
    obtain ⟨y, hy, hclient, hfollows⟩ := ht.origin hx
    exact ⟨y, hy, hclient, hfollows.key⟩
  cases o with
  | orders o =>
    obtain ⟨s', hr, rfl⟩ := h
    rcases outcome_cases hr with ⟨b, rfl, ht⟩ | ⟨e, rfl, ht, rfl⟩
    · cases o with
      | get c =>
        cases ht
        exact hkept hx
      | listByLegGroup g =>
        rw [(listByLegGroup_txn ht).2] at hx
        exact hkept hx
      | beginOrder req now => cases ho
      | markSubmitted c now => exact htouched (touched_markSubmitted ht)
      | applyFillResult c fill => exact htouched (touched_applyFillResult ht).1
      | markCanceled c now => exact htouched (touched_markCanceled ht).1
    · exact hkept hx
  | state o =>
    obtain ⟨s', -, rfl⟩ := h
    exact hkept hx
  | place now c request =>
    obtain ⟨received, rfl, -⟩ := h
    exact hkept hx
  | query q =>
    obtain ⟨rfl, -⟩ := h
    exact hkept hx

theorem InOrder.exec (ho : o.beginsOrder = false)
    (hx : exec D obs o w a w') (h : InOrder D w) : InOrder D w' := by
  intro x hmem r n hkey
  obtain ⟨y, hy, -, hsame⟩ := exec_origin ho hx hmem
  obtain ⟨before, rest, hsplit, hsent⟩ := h y hy r n (hsame.symm.trans hkey)
  exact ⟨before, rest, hsplit, hsent.changes (exec_changes hx)⟩

variable {req : OrderRequest} {now : Datetime} {a : PaperOrderRecord}

/-- An order is begun that is no close, or whose legs before it were sent. -/
theorem InOrder.begin
    {s' : PaperOrderStore} (h : InOrder D w) (hr : w.orders.beginOrder D req now = .ok (a, s'))
    (hreq : ∀ (r : DemoBtcRoundTripRequest) (n : Nat), req.idempotencyKey = closeKey r.requestId n →
      ∃ before rest, closeAttempts = before ++ n :: rest ∧ Sent D r.requestId before w.orders) :
    InOrder D { w with orders := s' } := by
  have hchanges : Changes w.orders s' := changes_of_or (change_of_beginOrder hr)
  have hlater {r : DemoBtcRoundTripRequest} {n : Nat} (h : ∃ before rest,
      closeAttempts = before ++ n :: rest ∧ Sent D r.requestId before w.orders) :
      ∃ before rest, closeAttempts = before ++ n :: rest ∧ Sent D r.requestId before s' := by
    obtain ⟨before, rest, hsplit, hsent⟩ := h
    exact ⟨before, rest, hsplit, hsent.changes hchanges⟩
  obtain ⟨o, -, -, hokey, -, rfl | ⟨-, -, orders, hi, rfl⟩⟩ := begun_of_beginOrder hr
  · exact h
  · intro x hx r n hkey
    rw [(Table.insert_eq_some.mp hi).2, List.mem_append, List.mem_singleton] at hx
    rcases hx with hx | rfl
    · exact hlater (h x hx r n hkey)
    · exact hlater (hreq r n (hokey.symm.trans hkey))

/-- What `begin_order` returns is the order of the key. -/
theorem beginOrder_fetch
    (h : s.beginOrder D req now = .ok (a, s')) :
    s'.fetch (legId D req.idempotencyKey) = some a := by
  obtain ⟨c, at_, hv, hor⟩ := beginOrder_eq_ok.mp h
  have hc : c = legId D req.idempotencyKey := (clientOrderIdFor_eq_ok.mp hv.2.2.2.1).2
  rcases hor with ⟨hf, -, rfl⟩ | ⟨-, -, rfl, orders, hi, rfl⟩
  · exact hc ▸ hf
  · refine fetch_eq_some.mpr ⟨newOrder req c at_, ?_, rfl⟩
    show orders.find _ = _
    rw [Table.find_insert hi, newOrder_key, if_pos hc.symm]

/-! ### Legs that are sent -/

variable {P : World → Prop} {c : String}

variable {now : Instant}

/-- Once a leg was sent its order is marked. -/
theorem wp_sendPending (hP : ∀ o v a v', o.beginsOrder = false → exec D obs o v a v' → P v → P v')
    {side : IntentSide} {reduceOnly : Bool} {mismatch : String}
    {order : PaperOrderRecord} (h : P w) (horder : w.orders.fetch c = some order) :
    wp (exec D obs) P (sendPending D side reduceOnly mismatch now order)
      (fun _ v => P v ∧ Marked v.orders c) (fun _ => P) w := by
  obtain ⟨o, ho, rfl⟩ := fetch_eq_some.mp horder
  unfold sendPending
  split
  · next hpending =>
    rw [wp_bind, wp_askOrders]
    refine ⟨h, fun a s' ht => ?_, fun _ _ => h⟩
    have hmarked : Marked s' c := by
      obtain ⟨i, o', -, ho', -, -, rfl⟩ := markSubmitted_eq_ok.mp ht
      have hid : o.clientOrderId = c := Table.find_key ho
      rw [show o.toRecord.clientOrderId = c from hid] at ho' ⊢
      refine ⟨submitRow i o', ?_, nofun⟩
      rw [find_updateOrder, if_pos rfl, ho']
      rfl
    have hsubmitted : P { w with orders := s' } :=
      hP (.orders (.markSubmitted o.toRecord.clientOrderId (.ofInstant now))) w (.ok a) _ rfl
        ⟨s', by rw [show OrderOp.txn D w.orders _ = _ from ht]; rfl, rfl⟩ h
    have hrest : Keeps (exec D obs) (fun v => P v ∧ Marked v.orders c) (do
        let orderLinkId ← Prog.lift (demoOrderLinkIdFor D a.clientOrderId)
        let ack ← place now a.clientOrderId
          { orderLinkId, symbol, side, quantity := a.quantity, orderType := .market reduceOnly }
        Prog.check (ack.orderLinkId = orderLinkId) (.paperReconciliation mismatch)
        return a : DemoProg PaperOrderRecord) := by
      refine (keeps_lift _).bind fun link => Keeps.bind (keeps_perform ?_) fun ack =>
        (keeps_check _ _).bind fun _ => keeps_ret _
      exact fun v a v' hx hv =>
        ⟨hP _ v a v' rfl hx hv.1, marked_changes (exec_changes hx) hv.2⟩
    exact wp_mono (fun _ h => h.1) (fun _ _ h => h) (fun _ _ h => h.1)
      (hrest _ ⟨hsubmitted, hmarked⟩)
  · next hpending => exact ⟨h, o, ho, hpending⟩

/-! ### Parts that only ask -/

theorem keeps_ask (q : Query) : Keeps (exec D obs) P (ask q) := by
  refine keeps_perform fun v a v' hx hv => ?_
  obtain ⟨rfl, -⟩ := hx
  exact hv

theorem keeps_get (c : String) : Keeps (exec D obs) P (askOrders (.get c)) := by
  intro v hv
  rw [wp_askOrders]
  refine ⟨hv, fun a s' ht => ?_, fun _ _ => hv⟩
  cases ht
  exact hv

theorem keeps_exchangeSize : Keeps (exec D obs) P exchangeSize :=
  (keeps_ask _).bind fun _ => keeps_lift _

theorem keeps_getByIdempotencyKey (key : String) :
    Keeps (exec D obs) P (getByIdempotencyKey D key) :=
  (keeps_lift _).bind fun _ => keeps_get _

theorem keeps_durableOrder (c : String) : Keeps (exec D obs) P (durableOrder c) :=
  (keeps_get _).bind fun _ => keeps_lift _

theorem keeps_getPosition (symbol : String) :
    Keeps (execRoundTrip D obs) P (getPosition symbol) := by
  refine keeps_perform fun v a v' hx hv => ?_
  obtain ⟨rfl, -⟩ := hx
  exact hv

theorem keeps_openOrderCount (symbol : String) :
    Keeps (execRoundTrip D obs) P (openOrderCount symbol) := by
  refine keeps_perform fun v a v' hx hv => ?_
  cases (hx : v' = v)
  exact hv

variable {market : PublicLinearInstrumentSnapshot} {quantity : ℚ} {entryOrder : PaperOrderRecord}
  {closes : List PaperOrderRecord}

theorem keeps_result {phase : DemoBtcRoundTripPhase}
    :
    Keeps (execRoundTrip D obs) P (result phase market quantity entryOrder closes) :=
  keeps_exchangeSize.inl.bind fun _ => (keeps_getPosition _).bind fun _ => keeps_ret _

theorem keeps_complete
    :
    Keeps (execRoundTrip D obs) P (complete market quantity entryOrder closes) :=
  keeps_exchangeSize.inl.bind fun _ => (keeps_getPosition _).bind fun _ =>
    (keeps_check _ _).bind fun _ => (keeps_check _ _).bind fun _ => keeps_result

theorem keeps_reconcileOrder
    (hP : ∀ o v a v', o.beginsOrder = false → exec D obs o v a v' → P v → P v') (c : String) :
    Keeps (exec D obs) P (DemoStrategyExecutor.reconcileOrder D c) := by
  have hreconcile : Keeps (exec D obs) P (reconcile D c) :=
    keeps_all hP (reconcile_all (fun _ ho => ho) (fun _ => rfl) c)
  intro v hv
  exact wp_mono (fun _ h => h) (fun _ _ h => h.1) (fun _ _ h => h) (wp_reconcileOrder hreconcile hv)

/-! ### Calls keep the order -/

/-- These closes, and what is in order. -/
def SentInOrder (D : Digests) (requestId : String) (before : List Nat) (w : World) : Prop :=
  InOrder D w ∧ Sent D requestId before w.orders

theorem SentInOrder.exec (o : Op) (v : World) (a : Except PyError o.Res) (v' : World)
    (ho : o.beginsOrder = false) (hx : exec D obs o v a v') (h : SentInOrder D requestId before v) :
    SentInOrder D requestId before v' :=
  ⟨h.1.exec ho hx, h.2.changes (exec_changes hx)⟩

variable {r : DemoBtcRoundTripRequest} {n : Nat} {rest : List Nat} {quantity price : ℚ}

/-- After an attempt its close was sent. -/
theorem wp_closeAttempt (hsplit : closeAttempts = before ++ n :: rest)
    (h : SentInOrder D r.requestId before w) :
    wp (exec D obs) (InOrder D) (closeAttempt D r.requestId n quantity price now)
      (fun _ => SentInOrder D r.requestId (before ++ [n])) (fun _ => InOrder D) w := by
  have hbegin : wp (exec D obs) (InOrder D) (beginClose r.requestId n quantity price now
        (w.orders.get (legId D (closeKey r.requestId n))))
      (fun order v => SentInOrder D r.requestId before v ∧
        v.orders.fetch (legId D (closeKey r.requestId n)) = some order) (fun _ => InOrder D) w := by
    cases hfound : w.orders.get (legId D (closeKey r.requestId n)) with
    | some order => exact ⟨h, hfound⟩
    | none =>
      unfold beginClose
      rw [wp_askOrders]
      refine ⟨h.1, fun order s' ht => ⟨⟨h.1.begin ht fun r' m hkey => ?_,
        h.2.changes (changes_of_or (change_of_beginOrder ht))⟩, beginOrder_fetch ht⟩, fun _ _ => h.1⟩
      obtain ⟨hid, rfl⟩ := closeKey_inj hkey
      exact ⟨before, rest, hsplit, hid ▸ h.2⟩
  unfold closeAttempt getByIdempotencyKey
  rw [clientOrderIdFor_leg (isBlank_closeKey _ _), wp_bind, Prog.lift_ok_bind, wp_askOrders]
  refine ⟨h.1, fun found s' ht => ?_, fun _ _ => h.1⟩
  cases ht
  rw [wp_bind]
  refine wp_mono (fun _ h => h) (fun order v hv => ?_) (fun _ _ h => h) hbegin
  refine wp_mono (fun _ h => h.1) (fun a v' h => ?_) (fun _ _ h => h.1)
    (wp_sendPending SentInOrder.exec hv.1 hv.2)
  obtain ⟨⟨hinorder, hsent⟩, hmarked⟩ := h
  refine ⟨hinorder, hsent.entry, fun m hm => ?_⟩
  rcases List.mem_append.mp hm with hm | hm
  · exact hsent.closes m hm
  · rw [List.mem_singleton.mp hm]
    exact hmarked

theorem wp_closeAndReconcile (hsplit : closeAttempts = before ++ n :: rest)
    (h : SentInOrder D r.requestId before w) :
    wp (exec D obs) (InOrder D) (closeAndReconcile D r.requestId n quantity price now)
      (fun _ => SentInOrder D r.requestId (before ++ [n])) (fun _ => InOrder D) w := by
  unfold closeAndReconcile
  rw [wp_bind]
  refine wp_mono (fun _ h => h) (fun close v hv => ?_) (fun _ _ h => h) (wp_closeAttempt hsplit h)
  have hrest : Keeps (exec D obs) (SentInOrder D r.requestId (before ++ [n])) (do
      match ← DemoStrategyExecutor.reconcileOrder D close.clientOrderId with
      | some close => return (close, true)
      | none => do
        let close ← durableOrder close.clientOrderId
        return (close, false) : DemoProg (PaperOrderRecord × Bool)) := by
    refine (keeps_reconcileOrder SentInOrder.exec _).bind fun found => ?_
    split
    · exact keeps_ret _
    · exact (keeps_durableOrder _).bind fun _ => keeps_ret _
  exact wp_mono (fun _ h => h.1) (fun _ _ h => h) (fun _ _ h => h.1) (hrest v hv)

section Attempt

variable {requestId : String} {market : PublicLinearInstrumentSnapshot} {quantity price : ℚ}
  {entryOrder : PaperOrderRecord} {now : Instant} {closes : List PaperOrderRecord}
  {I P : World → Prop} {P' : PaperOrderRecord × Bool → World → Prop}

/-- An attempt of the loop: its close, and the attempts after one that was canceled or rejected. -/
theorem wp_closeEntry_cons (hP : ∀ v, P v → I v) (hP' : ∀ closed v, P' closed v → I v)
    (hclose : ∀ size v, P v → wp (exec D obs) I
      (closeAndReconcile D requestId n size price now) P' (fun _ => I) v)
    (hnext : ∀ closed v, closed.1.state ≠ .filled → P' closed v → wp (execRoundTrip D obs) I
      (closeEntry D requestId market quantity entryOrder price now rest (closes ++ [closed.1]))
      (fun _ => I) (fun _ => I) v) (h : P w) :
    wp (execRoundTrip D obs) I
      (closeEntry D requestId market quantity entryOrder price now (n :: rest) closes)
      (fun _ => I) (fun _ => I) w := by
  unfold closeEntry
  refine wp_bind_keeps keeps_exchangeSize.inl h hP (fun _ => hP) fun size w h => ?_
  refine wp_bind_keeps (keeps_getByIdempotencyKey _).inl h hP (fun _ => hP) fun existing w h => ?_
  split
  · exact keeps_complete w (hP w h)
  · rw [wp_bind, wp_check]
    refine ⟨fun _ => ?_, fun _ => hP w h⟩
    rw [wp_bind, wp_inl]
    refine wp_mono (fun _ h => h) (fun closed w h => ?_) (fun _ _ h => h) (hclose size w h)
    split
    · exact keeps_result w (hP' closed w h)
    · refine wp_bind_keeps keeps_exchangeSize.inl h (hP' closed) (fun _ => hP' closed)
        fun remaining w h => ?_
      split
      · exact keeps_complete w (hP' closed w h)
      · split
        · exact keeps_result w (hP' closed w h)
        · next hfilled => exact hnext closed w hfilled h

theorem wp_closeDuringLag_cons (hP : ∀ v, P v → I v) (hP' : ∀ closed v, P' closed v → I v)
    (hclose : ∀ size v, P v → wp (exec D obs) I
      (closeAndReconcile D requestId n size market.lastPrice now) P' (fun _ => I) v)
    (hnext : ∀ closed v, closed.1.state ≠ .filled → P' closed v → wp (execRoundTrip D obs) I
      (closeDuringEntryExecutionLag D requestId market entryOrder now rest (closes ++ [closed.1]))
      (fun _ => I) (fun _ => I) v) (h : P w) :
    wp (execRoundTrip D obs) I
      (closeDuringEntryExecutionLag D requestId market entryOrder now (n :: rest) closes)
      (fun _ => I) (fun _ => I) w := by
  unfold closeDuringEntryExecutionLag
  refine wp_bind_keeps keeps_exchangeSize.inl h hP (fun _ => hP) fun size w h => ?_
  refine wp_bind_keeps (keeps_getByIdempotencyKey _).inl h hP (fun _ => hP) fun existing w h => ?_
  split
  · exact keeps_result w (hP w h)
  · rw [wp_bind, wp_check]
    refine ⟨fun _ => ?_, fun _ => hP w h⟩
    rw [wp_bind, wp_inl]
    refine wp_mono (fun _ h => h) (fun closed w h => ?_) (fun _ _ h => h) (hclose size w h)
    refine wp_bind_keeps keeps_exchangeSize.inl h (hP' closed) (fun _ => hP' closed)
      fun remaining w h => ?_
    split
    · exact keeps_result w (hP' closed w h)
    · next hended =>
      refine hnext closed w (fun hfilled => hended (.inr ?_)) h
      rw [hfilled]
      decide

end Attempt

section

variable {market : PublicLinearInstrumentSnapshot} {entryOrder : PaperOrderRecord} {now : Instant}
  {attempts : List Nat}

/-- The attempts that are left keep the order. -/
theorem inOrder_closeEntry {quantity price : ℚ} :
    ∀ {before : List Nat} {closes : List PaperOrderRecord} {w : World},
      closeAttempts = before ++ attempts → SentInOrder D r.requestId before w →
      wp (execRoundTrip D obs) (InOrder D)
        (closeEntry D r.requestId market quantity entryOrder price now attempts closes)
        (fun _ => InOrder D) (fun _ => InOrder D) w := by
  induction attempts with
  | nil =>
    intro before closes w _ h
    unfold closeEntry
    exact (keeps_exchangeSize.inl.bind fun _ => (keeps_check _ _).bind fun _ => keeps_complete) w h.1
  | cons n rest ih =>
    intro before closes w hsplit h
    refine wp_closeEntry_cons (fun _ h => h.1) (fun _ _ h => h.1)
      (fun _ _ h => wp_closeAndReconcile hsplit h) (fun closed w _ h => ?_) h
    exact ih (by rw [hsplit, List.append_assoc]; rfl) h

theorem inOrder_closeDuringLag :
    ∀ {before : List Nat} {closes : List PaperOrderRecord} {w : World},
      closeAttempts = before ++ attempts → SentInOrder D r.requestId before w →
      wp (execRoundTrip D obs) (InOrder D)
        (closeDuringEntryExecutionLag D r.requestId market entryOrder now attempts closes)
        (fun _ => InOrder D) (fun _ => InOrder D) w := by
  induction attempts with
  | nil => exact fun _ h => h.1
  | cons n rest ih =>
    intro before closes w hsplit h
    refine wp_closeDuringLag_cons (fun _ h => h.1) (fun _ _ h => h.1)
      (fun _ _ h => wp_closeAndReconcile hsplit h) (fun closed w _ h => ?_) h
    exact ih (by rw [hsplit, List.append_assoc]; rfl) h

end

/-- After `_entry` the entry was sent. -/
theorem wp_entry
    (h : InOrder D w) : wp (execRoundTrip D obs) (InOrder D) (entry D r.requestId market quantity now)
      (fun _ => SentInOrder D r.requestId []) (fun _ => InOrder D) w := by
  have hbegin {w : World} (h : InOrder D w) : wp (execRoundTrip D obs) (InOrder D)
      (beginEntry r.requestId market quantity now (w.orders.get (legId D (entryKey r.requestId))))
      (fun order v => InOrder D v ∧
        v.orders.fetch (legId D (entryKey r.requestId)) = some order) (fun _ => InOrder D) w := by
    cases hfound : w.orders.get (legId D (entryKey r.requestId)) with
    | some order => exact ⟨h, hfound⟩
    | none =>
      unfold beginEntry
      refine wp_bind_keeps (keeps_openOrderCount _) h (fun _ h => h) (fun _ _ h => h)
        fun count w h => ?_
      rw [wp_bind, wp_check]
      refine ⟨fun _ => ?_, fun _ => h⟩
      refine wp_bind_keeps keeps_exchangeSize.inl h (fun _ h => h) (fun _ _ h => h)
        fun size w h => ?_
      rw [wp_bind, wp_check]
      refine ⟨fun _ => ?_, fun _ => h⟩
      refine wp_bind_keeps (keeps_ask _).inl h (fun _ h => h) (fun _ _ h => h) fun _ w h => ?_
      rw [wp_inl, wp_askOrders]
      refine ⟨h, fun order s' ht => ⟨h.begin ht fun r' m hkey => ?_, beginOrder_fetch ht⟩,
        fun _ _ => h⟩
      exact absurd hkey entryKey_ne_closeKey
  unfold entry getByIdempotencyKey
  rw [clientOrderIdFor_leg (isBlank_entryKey _), Prog.lift_ok_bind, wp_bind, wp_inl, wp_askOrders]
  refine ⟨h, fun found s' ht => ?_, fun _ _ => h⟩
  cases ht
  rw [wp_bind]
  refine wp_mono (fun _ h => h) (fun order v hv => ?_) (fun _ _ h => h) (hbegin h)
  rw [wp_inl]
  refine wp_mono (fun _ h => h) (fun a v' h => ⟨h.1, h.2, fun m hm => ?_⟩) (fun _ _ h => h)
    (wp_sendPending (fun o v a v' ho hx hv => hv.exec ho hx) hv.1 hv.2)
  cases hm

/-- **A call keeps the order.** -/
theorem inOrder_advance (env : Env) (now : Instant) :
    Keeps (execRoundTrip D obs) (InOrder D) (advance D r env now) := by
  refine (keeps_lift _).bind fun _ => (keeps_ask _).inl.bind fun _ => ?_
  refine (keeps_ask _).inl.bind fun market => (keeps_lift _).bind fun quantity => ?_
  intro w h
  rw [wp_bind]
  refine wp_mono (fun _ h => h) (fun order w h => ?_) (fun _ _ h => h) (wp_entry h)
  refine wp_bind_keeps (keeps_reconcileOrder SentInOrder.exec _).inl h
    (fun _ h => h.1) (fun _ _ h => h.1) fun found w h => ?_
  split
  · next order =>
    unfold followEntry
    split
    · exact keeps_result w h.1
    · split
      · exact keeps_result w h.1
      · rw [wp_bind, wp_check]
        refine ⟨fun _ => ?_, fun _ => h.1⟩
        split
        · exact h.1
        · exact inOrder_closeEntry rfl h
  · refine wp_bind_keeps (keeps_durableOrder _).inl h (fun _ h => h.1) (fun _ _ h => h.1)
      fun order w h => ?_
    exact inOrder_closeDuringLag rfl h

/-! ### Runs -/

/-- A call of `advance` or of `reconcile`, stopped anywhere. -/
inductive RoundTripCall (D : Digests) (obs : Answers) (w w' : World) : Prop where
  | advance (r : DemoBtcRoundTripRequest) (env : Env) (now : Instant)
      (p : RoundTripProg DemoBtcRoundTripResult)
      (h : Steps (execRoundTrip D obs) (advance D r env now) w p w')
  | reconcile (c : String) (p : DemoProg (PaperOrderRecord × Option DemoOrderSnapshot × Nat))
      (h : Steps (exec D obs) (reconcile D c) w p w')

/-- Calls one after another. -/
abbrev RoundTripCalls (D : Digests) (obs : Answers) : World → World → Prop :=
  Relation.ReflTransGen (RoundTripCall D obs)

/-- **All calls keep the order.** -/
theorem inOrder_calls (h : RoundTripCalls D obs .empty w) : InOrder D w := by
  induction h with
  | refl => exact fun _ ho => absurd ho List.not_mem_nil
  | tail _ hcall ih =>
    cases hcall with
    | advance r env now p hsteps => exact (inOrder_advance env now).steps hsteps ih
    | reconcile c p hsteps =>
      have hkeeps : Keeps (exec D obs) (InOrder D) (reconcile D c) :=
        keeps_all (fun o v a v' ho hx hv => hv.exec ho hx)
          (reconcile_all (fun _ ho => ho) (fun _ => rfl) c)
      exact hkeeps.steps hsteps ih

end

end DemoBtcRoundTripCoordinator

end Greenfield.Demo
