import Greenfield.Paper.Store

/-!
# The Demo gateway

`src/execution/bybit_demo_gateway.py`: what the gateway exchanges with its callers. A
record whose constructor checks its fields has the check as a field.
-/

namespace Greenfield.Demo

open Py Paper

/-- `_ORDER_LINK_ID`. -/
def isOrderLinkId (s : String) : Bool :=
  0 < s.toList.length ∧ s.toList.length ≤ 36 ∧
    s.toList.all (fun c => ('A' ≤ c && c ≤ 'Z') || ('a' ≤ c && c ≤ 'z') || ('0' ≤ c && c ≤ '9') ||
      c == '_' || c == '-')

inductive DemoOrderStatus where
  | new
  | partiallyFilled
  | filled
  | cancelled
  | rejected
  | deactivated
  deriving DecidableEq, Repr

def DemoOrderStatus.value : DemoOrderStatus → String
  | .new => "New"
  | .partiallyFilled => "PartiallyFilled"
  | .filled => "Filled"
  | .cancelled => "Cancelled"
  | .rejected => "Rejected"
  | .deactivated => "Deactivated"

structure DemoAccountBalance where
  totalEquityUsd : ℚ
  totalWalletBalanceUsd : ℚ
  totalAvailableBalanceUsd : ℚ
  valid : 0 ≤ totalEquityUsd ∧ 0 ≤ totalWalletBalanceUsd ∧ 0 ≤ totalAvailableBalanceUsd

structure DemoOpenOrderSummary where
  orderId : String
  orderLinkId : Option String
  symbol : String
  side : String
  orderType : String
  quantity : ℚ
  leavesQuantity : ℚ
  reduceOnly : Bool
  valid : isBlank orderId = false ∧ isBlank symbol = false ∧ (side = "Buy" ∨ side = "Sell") ∧
    isBlank orderType = false ∧ 0 < quantity ∧ 0 ≤ leavesQuantity

structure DemoPositionSnapshot where
  symbol : String
  positionIndex : Int
  side : Option String
  size : ℚ
  leverage : ℚ
  valid : isBlank symbol = false ∧ (positionIndex = 0 ∨ positionIndex = 1 ∨ positionIndex = 2) ∧
    (side = none ∨ side = some "Buy" ∨ side = some "Sell") ∧ 0 ≤ size ∧ 0 < leverage

structure DemoAccountExposure where
  positions : List DemoPositionSnapshot
  openOrders : List DemoOpenOrderSummary

structure DemoOrderAck where
  orderId : String
  orderLinkId : String
  valid : isBlank orderId = false ∧ isOrderLinkId orderLinkId = true

structure DemoOrderSnapshot where
  orderId : String
  orderLinkId : String
  symbol : String
  status : DemoOrderStatus
  cumulativeFilledQuantity : ℚ
  updatedAtUtc : Datetime
  rejectReason : Option String
  valid : isBlank orderId = false ∧ isOrderLinkId orderLinkId = true ∧ isBlank symbol = false ∧
    0 ≤ cumulativeFilledQuantity ∧ updatedAtUtc.utcOffset ≠ none

structure DemoExecution where
  executionId : String
  orderLinkId : String
  quantity : ℚ
  price : ℚ
  feeQuote : ℚ
  executedAtUtc : Datetime
  valid : isBlank executionId = false ∧ isOrderLinkId orderLinkId = true ∧ 0 < quantity ∧
    0 < price ∧ 0 ≤ feeQuote ∧ executedAtUtc.utcOffset ≠ none

structure PublicLinearInstrumentSnapshot where
  symbol : String
  lastPrice : ℚ
  quantityStep : ℚ
  minimumOrderQuantity : ℚ
  valid : isBlank symbol = false ∧ 0 < lastPrice ∧ 0 < quantityStep ∧ 0 < minimumOrderQuantity

/-- The part of an order that `place_post_only` and `place_market` do not share. -/
inductive OrderType where
  | postOnly (price : ℚ)
  | market (reduceOnly : Bool)
  deriving DecidableEq

/-- The arguments of `place_post_only` or `place_market`. -/
structure PlaceRequest where
  orderLinkId : String
  symbol : String
  side : IntentSide
  quantity : ℚ
  orderType : OrderType
  deriving DecidableEq

/-- `demo_order_link_id_for`. -/
def demoOrderLinkIdFor (D : Digests) (clientOrderId : String) : Except PyError String :=
  if isBlank clientOrderId then .error (.valueError "paper client order id must be non-empty")
  else .ok ("gfd-" ++ String.ofList ((D.sha256Hex clientOrderId).toList.take 32))

/-- The link id of an order that has one. -/
def linkOf (D : Digests) (clientOrderId : String) : String :=
  "gfd-" ++ String.ofList ((D.sha256Hex clientOrderId).toList.take 32)

theorem demoOrderLinkIdFor_eq_ok {D : Digests} {c l : String} :
    demoOrderLinkIdFor D c = .ok l ↔ isBlank c = false ∧ l = linkOf D c := by
  unfold demoOrderLinkIdFor linkOf
  cases isBlank c <;> simp [eq_comm]

/-- Digests that name every order and give all of them one link: enough for runs on one
order. -/
def sampleDigests : Digests := ⟨fun _ name => name, fun _ => "0123456789abcdef0123456789abcdef"⟩

end Greenfield.Demo
