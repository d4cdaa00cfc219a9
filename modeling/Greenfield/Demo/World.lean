import Greenfield.Demo.State
import Greenfield.Paper.Transitions

/-!
# The world of a Demo process

The two databases and the calls that were made to place an order. A process performs
transactions of the stores, `place_*` calls and gateway queries, one at a time. A
`place_*` call may reach the exchange and still raise; a query changes nothing and is
answered as `obs` allows.
-/

namespace Greenfield.Demo

open Keyed Py Paper Effects

/-- A `place_post_only` or `place_market` call, and whether the exchange received it. The
time and the client order id are those of the caller. -/
structure PlaceCall where
  now : Instant
  clientOrderId : String
  request : PlaceRequest
  received : Bool
  deriving DecidableEq

structure World where
  orders : PaperOrderStore
  state : AutonomousDemoStateStore
  calls : List PlaceCall

def World.empty : World := ⟨.empty, .empty, []⟩

/-! ## Operations -/

/-- The transactions of the order store that Demo processes use. -/
inductive OrderOp where
  | get (clientOrderId : String)
  | listByLegGroup (legGroupId : String)
  | beginOrder (req : OrderRequest) (nowUtc : Datetime)
  | markSubmitted (clientOrderId : String) (nowUtc : Datetime)
  | applyFillResult (clientOrderId : String) (fill : Fill)
  | markCanceled (clientOrderId : String) (nowUtc : Datetime)

abbrev OrderOp.Res : OrderOp → Type
  | .get _ => Option PaperOrderRecord
  | .listByLegGroup _ => List PaperOrderRecord
  | _ => PaperOrderRecord

/-- Queries of the gateway and of public market data, and gateway calls without an effect
on the orders. -/
inductive Query where
  | preflight
  | accountBalance
  | accountExposure
  | instrumentSnapshot (symbol : String)
  | setLeverage (symbol : String) (leverage : Int)
  | fetchPositions (symbol : String)
  | fetchOrder (orderLinkId symbol : String)
  | fetchExecutions (orderLinkId symbol : String)

abbrev Query.Res : Query → Type
  | .preflight => Unit
  | .accountBalance => DemoAccountBalance
  | .accountExposure => DemoAccountExposure
  | .instrumentSnapshot _ => PublicLinearInstrumentSnapshot
  | .setLeverage _ _ => Unit
  | .fetchPositions _ => List DemoPositionSnapshot
  | .fetchOrder _ _ => Option DemoOrderSnapshot
  | .fetchExecutions _ _ => List DemoExecution

inductive Op where
  | orders (o : OrderOp)
  | state (o : StateOp)
  | place (now : Instant) (clientOrderId : String) (request : PlaceRequest)
  | query (q : Query)

abbrev Op.Res : Op → Type
  | .orders o => o.Res
  | .state o => o.Res
  | .place .. => DemoOrderAck
  | .query q => q.Res

/-- A program of a Demo process. -/
abbrev DemoProg := Prog Op Op.Res PyError

/-! ## Semantics -/

section

variable (D : Digests)

def OrderOp.txn (s : PaperOrderStore) : (o : OrderOp) → Except PyError (o.Res × PaperOrderStore)
  | .get c => .ok (s.get c, s)
  | .listByLegGroup g => (s.listByLegGroup g).map fun rows => (rows, s)
  | .beginOrder req now => s.beginOrder D req now
  | .markSubmitted c now => s.markSubmitted c now
  | .applyFillResult c fill => s.applyFillResult c fill
  | .markCanceled c now => s.markCanceled c now

variable {D} in
theorem listByLegGroup_txn {s s' : PaperOrderStore} {g : String} {a : (OrderOp.listByLegGroup g).Res}
    (h : (OrderOp.listByLegGroup g).txn D s = .ok (a, s')) : s.listByLegGroup g = .ok a ∧ s' = s := by
  change (s.listByLegGroup g).map _ = _ at h
  cases hrows : s.listByLegGroup g with
  | error e =>
    rw [hrows] at h
    cases h
  | ok rows =>
    rw [hrows] at h
    cases h
    exact ⟨rfl, rfl⟩

/-- What a query may answer. -/
abbrev Answers := World → (q : Query) → Except PyError q.Res → Prop

/-- One operation on the world. -/
def exec (obs : Answers) : Sem Op Op.Res PyError World
  | .orders o, w, r, w' =>
    ∃ s', (r, s') = outcome (o.txn D w.orders) w.orders ∧ w' = { w with orders := s' }
  | .state o, w, r, w' =>
    ∃ s', (r, s') = outcome (o.txn D w.state) w.state ∧ w' = { w with state := s' }
  | .place now c request, w, r, w' =>
    ∃ received, w' = { w with calls := w.calls ++ [⟨now, c, request, received⟩] } ∧
      (received = false → ∃ e, r = .error e)
  | .query q, w, r, w' => w' = w ∧ obs w q r

end

/-! ## A working exchange -/

def acknowledge (request : PlaceRequest) : Except PyError DemoOrderAck :=
  if h : isOrderLinkId request.orderLinkId = true then
    .ok ⟨"1", request.orderLinkId, by decide, h⟩
  else .error (.bybitDemoGateway "invalid Demo order acknowledgement")

/-- Transactions as they are, orders received and acknowledged under their link, and
queries answered by `answer`. -/
def handle (D : Digests) (answer : World → (q : Query) → Except PyError q.Res) :
    (o : Op) → World → Except PyError o.Res × World
  | .orders o, w =>
    let p := outcome (o.txn D w.orders) w.orders
    (p.1, { w with orders := p.2 })
  | .state o, w =>
    let p := outcome (o.txn D w.state) w.state
    (p.1, { w with state := p.2 })
  | .place now c request, w =>
    (acknowledge request, { w with calls := w.calls ++ [⟨now, c, request, true⟩] })
  | .query q, w => (answer w q, w)

theorem exec_handle {D : Digests} {obs : Answers} {answer : World → (q : Query) → Except PyError q.Res}
    (h : ∀ w q, obs w q (answer w q)) (o : Op) (w : World) :
    exec D obs o w (handle D answer o w).1 (handle D answer o w).2 := by
  cases o with
  | orders o => exact ⟨_, rfl, rfl⟩
  | state o => exact ⟨_, rfl, rfl⟩
  | place now c request => exact ⟨true, rfl, nofun⟩
  | query q => exact ⟨rfl, h w q⟩

/-! ## Requests as programs -/

def askOrders (o : OrderOp) : DemoProg o.Res := Prog.perform (Op.orders o)

def askState (o : StateOp) : DemoProg o.Res := Prog.perform (Op.state o)

def ask (q : Query) : DemoProg q.Res := Prog.perform (Op.query q)

def place (now : Instant) (clientOrderId : String) (request : PlaceRequest) :
    DemoProg DemoOrderAck := Prog.perform (Op.place now clientOrderId request)

section

variable {D : Digests} {obs : Answers} {I : World → Prop} {E : PyError → World → Prop} {w : World}

/-- A transaction of the order store commits or is rolled back. -/
theorem wp_askOrders {o : OrderOp} {Q : o.Res → World → Prop} :
    wp (exec D obs) I (askOrders o) Q E w ↔ I w ∧
      (∀ a s', o.txn D w.orders = .ok (a, s') → Q a { w with orders := s' }) ∧
      ∀ e, o.txn D w.orders = .error e → E e w := by
  refine wp_perform.trans (and_congr_right fun _ => ⟨fun h => ⟨fun a s' ht => ?_, fun e ht => ?_⟩,
    fun h r w' hx => ?_⟩)
  · exact (h (.ok a) _ ⟨s', by rw [ht]; rfl, rfl⟩).1 a rfl
  · exact (h (.error e) _ ⟨w.orders, by rw [ht]; rfl, rfl⟩).2 e rfl
  · obtain ⟨s', ho, rfl⟩ := hx
    rcases outcome_cases ho with ⟨a, rfl, ht⟩ | ⟨e, rfl, ht, rfl⟩
    · exact ⟨fun b hb => by cases hb; exact h.1 _ s' ht, nofun⟩
    · exact ⟨nofun, fun e' he => by cases he; exact h.2 _ ht⟩

/-- A transaction of the state store commits or is rolled back. -/
theorem wp_askState {o : StateOp} {Q : o.Res → World → Prop} :
    wp (exec D obs) I (askState o) Q E w ↔ I w ∧
      (∀ a s', o.txn D w.state = .ok (a, s') → Q a { w with state := s' }) ∧
      ∀ e, o.txn D w.state = .error e → E e w := by
  refine wp_perform.trans (and_congr_right fun _ => ⟨fun h => ⟨fun a s' ht => ?_, fun e ht => ?_⟩,
    fun h r w' hx => ?_⟩)
  · exact (h (.ok a) _ ⟨s', by rw [ht]; rfl, rfl⟩).1 a rfl
  · exact (h (.error e) _ ⟨w.state, by rw [ht]; rfl, rfl⟩).2 e rfl
  · obtain ⟨s', ho, rfl⟩ := hx
    rcases outcome_cases ho with ⟨a, rfl, ht⟩ | ⟨e, rfl, ht, rfl⟩
    · exact ⟨fun b hb => by cases hb; exact h.1 _ s' ht, nofun⟩
    · exact ⟨nofun, fun e' he => by cases he; exact h.2 _ ht⟩

/-- A query leaves the world. -/
theorem wp_ask {q : Query} {Q : q.Res → World → Prop} :
    wp (exec D obs) I (ask q) Q E w ↔ I w ∧
      (∀ a, obs w q (.ok a) → Q a w) ∧ ∀ e, obs w q (.error e) → E e w := by
  refine wp_perform.trans (and_congr_right fun _ => ⟨fun h => ⟨fun a ha => ?_, fun e he => ?_⟩,
    fun h r w' hx => ?_⟩)
  · exact (h (.ok a) w ⟨rfl, ha⟩).1 a rfl
  · exact (h (.error e) w ⟨rfl, he⟩).2 e rfl
  · obtain ⟨rfl, ha⟩ := hx
    exact ⟨fun a hr => h.1 a (hr ▸ ha), fun e hr => h.2 e (hr ▸ ha)⟩

end

end Greenfield.Demo
