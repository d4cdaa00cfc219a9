import Greenfield.Lib.Run
import Greenfield.Paper.Store
import Mathlib.Algebra.BigOperators.Group.List.Basic
import Mathlib.Logic.Function.Basic

/-!
# The session recorder

`src/execution/session_recorder.py` and `compare_fill` of `src/execution/fill_tracking.py`. A fill
event is told from its repetitions by its order, time, price and quantity, not by its trade. So two
executions of an order that agree in these look like one, and the order stays pending. `Session`
is what really happened; `recorder_exact_iff` says in which runs the recorder knows it.
-/

namespace Greenfield.Execution

open Paper Py

/-! ## Comparison of fills -/

structure OrderIntent where
  symbol : String
  side : IntentSide
  quantity : ℚ
  referencePrice : ℚ
  createdAt : Instant
  reason : String := ""
  deriving DecidableEq

structure FillComparison where
  intent : OrderIntent
  fill : Fill
  rejected : Bool
  latencySeconds : Option ℚ
  slippage : Option ℚ
  slippagePct : Option ℚ
  dataIssue : Option String
  partialFill : Bool
  fillRatio : ℚ
  totalCostQuote : ℚ
  totalCostBps : Option ℚ
  deriving DecidableEq

/-- `total_cost_quote`. -/
def totalCostQuote (fill : Fill) : ℚ :=
  fill.spreadCostQuote + fill.slippageCostQuote + fill.feeCostQuote + fill.fundingCostQuote

/-- `1e-9`. -/
def quantityTolerance : ℚ := 1 / 1000000000

/-- `compare_fill`. -/
def compareFill (intent : OrderIntent) (fill : Fill) : FillComparison :=
  if fill.rejected then
    { intent, fill, rejected := true, latencySeconds := none, slippage := none, slippagePct := none
      dataIssue := none, partialFill := false, fillRatio := 0, totalCostQuote := 0
      totalCostBps := none }
  else
    let filledAt := fill.filledAt.micros - fill.filledAt.utcOffset.getD 0
    let latency : ℚ := (filledAt - intent.createdAt : ℤ) / microsPerSecond
    let partialFill := decide (0 < fill.filledQuantity) &&
      decide (quantityTolerance < |fill.filledQuantity - intent.quantity|)
    let rawDiff := fill.filledPrice - intent.referencePrice
    let slippage := if intent.side = .buy then rawDiff else -rawDiff
    let notional := intent.referencePrice * fill.filledQuantity
    { intent, fill, rejected := false
      latencySeconds := some latency
      slippage := some slippage
      slippagePct := if 0 < intent.referencePrice then some (slippage / intent.referencePrice) else none
      dataIssue :=
        if latency < 0 then some "filled_at is before created_at"
        else if fill.filledQuantity ≤ 0 then some "zero or negative filled quantity"
        else if partialFill then some "partial fill (filled_quantity != requested quantity)"
        else none
      partialFill
      fillRatio := if 0 < intent.quantity then fill.filledQuantity / intent.quantity else 0
      totalCostQuote := totalCostQuote fill
      totalCostBps := if 0 < notional then some (totalCostQuote fill / notional * 10000) else none }

/-! ## Events -/

/-- A price or a quantity, with its `str`. -/
structure Amount where
  text : String
  value : ℚ
  deriving DecidableEq

section

variable {Order Trade : Type}

/-- An order filled event. The recorder does not read the trade. -/
structure FilledEvent (Order Trade : Type) where
  trade : Trade
  clientOrderId : Order
  lastPx : Amount
  lastQty : Amount
  tsEvent : UInt64
  deriving DecidableEq

inductive RecorderEvent (Order Trade : Type) where
  | intent (clientOrderId : Order) (intent : OrderIntent)
  | filled (event : FilledEvent Order Trade)
  | rejected (clientOrderId : Order) (reason : String) (tsEvent : UInt64)

/-- `_ns_to_datetime`. -/
def nsToDatetime (tsEvent : UInt64) : Datetime := Datetime.ofInstant (roundHalfEven (tsEvent.toNat / 1000))

/-- What a fill event is told from its repetitions by. -/
def FilledEvent.identity (event : FilledEvent Order Trade) : Order × UInt64 × String × String :=
  (event.clientOrderId, event.tsEvent, event.lastPx.text, event.lastQty.text)

/-- The fill of an event. -/
def FilledEvent.fill (event : FilledEvent Order Trade) : Fill where
  filledPrice := event.lastPx.value
  filledQuantity := event.lastQty.value
  filledAt := nsToDatetime event.tsEvent

/-! ## The recorder -/

structure SessionRecorder (Order : Type) where
  comparisons : List FillComparison := []
  pending : Order → Option OrderIntent := fun _ => none
  filledQuantity : Order → Option ℚ := fun _ => none
  seenFills : List (Order × UInt64 × String × String) := []

variable [DecidableEq Order] [DecidableEq Trade]

namespace SessionRecorder

/-- `record_intent`. -/
def recordIntent (r : SessionRecorder Order) (clientOrderId : Order) (intent : OrderIntent) :
    SessionRecorder Order :=
  { r with
    pending := Function.update r.pending clientOrderId (some intent)
    filledQuantity := Function.update r.filledQuantity clientOrderId (some 0) }

/-- `on_order_filled`. -/
def onOrderFilled (r : SessionRecorder Order) (event : FilledEvent Order Trade) :
    SessionRecorder Order :=
  match r.pending event.clientOrderId with
  | none => r
  | some intent =>
    if event.identity ∈ r.seenFills then r
    else
      let cumulative := (r.filledQuantity event.clientOrderId).getD 0 + event.lastQty.value
      let done := decide (intent.quantity - quantityTolerance ≤ cumulative)
      { comparisons := r.comparisons ++ [compareFill intent event.fill]
        pending := if done then Function.update r.pending event.clientOrderId none else r.pending
        filledQuantity :=
          Function.update r.filledQuantity event.clientOrderId (if done then none else some cumulative)
        seenFills := event.identity :: r.seenFills }

/-- `on_order_rejected`. -/
def onOrderRejected (r : SessionRecorder Order) (clientOrderId : Order) (reason : String)
    (tsEvent : UInt64) : SessionRecorder Order :=
  match r.pending clientOrderId with
  | none => r
  | some intent =>
    { r with
      comparisons := r.comparisons ++ [compareFill intent
        { filledPrice := 0, filledQuantity := 0, filledAt := nsToDatetime tsEvent, rejected := true
          rejectReason := reason }]
      pending := Function.update r.pending clientOrderId none
      filledQuantity := Function.update r.filledQuantity clientOrderId none }

def on (r : SessionRecorder Order) : RecorderEvent Order Trade → SessionRecorder Order
  | .intent clientOrderId intent => r.recordIntent clientOrderId intent
  | .filled event => r.onOrderFilled event
  | .rejected clientOrderId reason tsEvent => r.onOrderRejected clientOrderId reason tsEvent

/-- The comparisons of fills. -/
def fills (r : SessionRecorder Order) : List FillComparison :=
  r.comparisons.filter fun c => !c.rejected

end SessionRecorder

/-! ## What really happened -/

/-- The orders, their executions in the order in which they were first delivered, and the orders
that were rejected. -/
structure Session (Order Trade : Type) where
  intents : Order → Option OrderIntent := fun _ => none
  executions : List (FilledEvent Order Trade) := []
  rejected : List Order := []

namespace Session

def on (s : Session Order Trade) : RecorderEvent Order Trade → Session Order Trade
  | .intent clientOrderId intent =>
    { s with intents := Function.update s.intents clientOrderId (some intent) }
  | .filled event =>
    if event ∈ s.executions then s else { s with executions := s.executions ++ [event] }
  | .rejected clientOrderId _ _ => { s with rejected := clientOrderId :: s.rejected }

/-- The quantity of an order that was executed. -/
def executed (s : Session Order Trade) (clientOrderId : Order) : ℚ :=
  ((s.executions.filter fun event => decide (event.clientOrderId = clientOrderId)).map
    fun event => event.lastQty.value).sum

/-- An order has one intent, of a positive quantity, and no event before it. What is executed is
positive and not more than the quantity of the order. -/
def Genuine (s : Session Order Trade) : RecorderEvent Order Trade → Prop
  | .intent clientOrderId intent => s.intents clientOrderId = none ∧ 0 < intent.quantity
  | .filled event => ∃ intent, s.intents event.clientOrderId = some intent ∧
      0 < event.lastQty.value ∧ (s.on (.filled event)).executed event.clientOrderId ≤ intent.quantity
  | .rejected clientOrderId _ _ => (s.intents clientOrderId).isSome

/-- An execution that is delivered first can be told from the ones before it, its order was not
rejected, and it does not bring the order close to its quantity without reaching it. -/
def Clear (s : Session Order Trade) : RecorderEvent Order Trade → Prop
  | .filled event => event ∉ s.executions →
      (∀ other ∈ s.executions, other.identity ≠ event.identity) ∧
      event.clientOrderId ∉ s.rejected ∧
      ∀ intent ∈ s.intents event.clientOrderId,
        intent.quantity - quantityTolerance ≤ s.executed event.clientOrderId + event.lastQty.value →
          intent.quantity ≤ s.executed event.clientOrderId + event.lastQty.value
  | _ => True

end Session

/-- The recorder has the fills of the executions, each once, and the orders that wait for some. -/
structure Exact (r : SessionRecorder Order) (s : Session Order Trade) : Prop where
  fills : r.fills.map some = s.executions.map fun event =>
    (s.intents event.clientOrderId).map fun intent => compareFill intent event.fill
  pending : ∀ clientOrderId intent, s.intents clientOrderId = some intent →
    ((r.pending clientOrderId).isSome = true ↔
      s.executed clientOrderId < intent.quantity ∧ clientOrderId ∉ s.rejected)

/-- The recorder and the session, at an event. -/
def recordStep (w : SessionRecorder Order × Session Order Trade) (e : RecorderEvent Order Trade) :
    SessionRecorder Order × Session Order Trade :=
  (w.1.on e, w.2.on e)

end

/-! ## The recorder follows the session -/

section Follows

variable {Order Trade : Type} {r : SessionRecorder Order} {s : Session Order Trade}
  {event : FilledEvent Order Trade} {intent : OrderIntent} {clientOrderId : Order}

@[simp] theorem compareFill_fill (intent : OrderIntent) (event : FilledEvent Order Trade) :
    (compareFill intent event.fill).rejected = false := rfl

variable [DecidableEq Order]

/-- What ties the recorder to the session while every event is clear. -/
structure Follows (r : SessionRecorder Order) (s : Session Order Trade) : Prop where
  fills : r.fills.map some = s.executions.map fun event =>
    (s.intents event.clientOrderId).map fun intent => compareFill intent event.fill
  pending : ∀ clientOrderId intent, r.pending clientOrderId = some intent ↔
    s.intents clientOrderId = some intent ∧ s.executed clientOrderId < intent.quantity ∧
      clientOrderId ∉ s.rejected
  quantity : ∀ clientOrderId, (r.pending clientOrderId).isSome = true →
    r.filledQuantity clientOrderId = some (s.executed clientOrderId)
  seen : ∀ identity, identity ∈ r.seenFills ↔ ∃ event ∈ s.executions, event.identity = identity
  known : ∀ event ∈ s.executions, (s.intents event.clientOrderId).isSome = true
  knownRejected : ∀ clientOrderId ∈ s.rejected, (s.intents clientOrderId).isSome = true

namespace Follows

theorem exact (h : Follows r s) : Exact r s where
  fills := h.fills
  pending clientOrderId intent hintent := by
    constructor
    · intro hpending
      obtain ⟨other, hother⟩ := Option.isSome_iff_exists.mp hpending
      obtain ⟨hsame, hrest⟩ := (h.pending clientOrderId other).mp hother
      obtain rfl : other = intent := Option.some.inj (hsame.symm.trans hintent)
      exact hrest
    · intro hwaits
      rw [(h.pending clientOrderId intent).mpr ⟨hintent, hwaits⟩]
      rfl

theorem init : Follows ({} : SessionRecorder Order) ({} : Session Order Trade) := by
  constructor <;> simp [SessionRecorder.fills]

/-- Nothing was executed of an order without an intent. -/
theorem executed_unknown (h : Follows r s) (hnone : s.intents clientOrderId = none) :
    s.executed clientOrderId = 0 := by
  have hfilter : (s.executions.filter fun event => decide (event.clientOrderId = clientOrderId)) = [] := by
    refine List.filter_eq_nil_iff.mpr fun event hevent hid => ?_
    have hknown := h.known event hevent
    rw [of_decide_eq_true hid, hnone] at hknown
    cases hknown
  rw [Session.executed, hfilter]
  rfl

end Follows

variable [DecidableEq Trade]

theorem Session.on_first (h : event ∉ s.executions) :
    s.on (.filled event) = { s with executions := s.executions ++ [event] } := if_neg h

theorem Session.on_repeated (h : event ∈ s.executions) : s.on (.filled event) = s := if_pos h

/-- An execution counts for its order only. -/
theorem Session.executed_first (h : event ∉ s.executions) (clientOrderId : Order) :
    (s.on (.filled event)).executed clientOrderId = s.executed clientOrderId +
      if event.clientOrderId = clientOrderId then event.lastQty.value else 0 := by
  rw [Session.on_first h, Session.executed, Session.executed, List.filter_append, List.map_append,
    List.sum_append]
  by_cases hid : event.clientOrderId = clientOrderId <;> simp [hid]

namespace Follows

theorem recordIntent (h : Follows r s) (hnone : s.intents clientOrderId = none)
    (hpos : 0 < intent.quantity) :
    Follows (r.recordIntent clientOrderId intent)
      (s.on (.intent clientOrderId intent : RecorderEvent Order Trade)) where
  fills := by
    refine Eq.trans h.fills (List.map_congr_left fun event hevent => ?_)
    have hother : event.clientOrderId ≠ clientOrderId := by
      rintro rfl
      have hknown := h.known event hevent
      rw [hnone] at hknown
      cases hknown
    simp [Session.on, hother]
  pending other intent' := by
    by_cases hid : other = clientOrderId
    · subst hid
      have hexecuted : (s.on (.intent other intent)).executed other = 0 := h.executed_unknown hnone
      have hrejected : other ∉ s.rejected := by
        intro hmem
        have hknown := h.knownRejected other hmem
        rw [hnone] at hknown
        cases hknown
      rw [hexecuted]
      simp only [SessionRecorder.recordIntent, Session.on, Function.update_self, Option.some.injEq]
      constructor
      · rintro rfl
        exact ⟨rfl, hpos, hrejected⟩
      · exact And.left
    · simpa [SessionRecorder.recordIntent, Session.on, Session.executed, hid] using
        h.pending other intent'
  quantity other hpending := by
    by_cases hid : other = clientOrderId
    · subst hid
      have hexecuted : (s.on (.intent other intent)).executed other = 0 := h.executed_unknown hnone
      rw [hexecuted]
      simp [SessionRecorder.recordIntent]
    · simp only [SessionRecorder.recordIntent, ne_eq, hid, not_false_eq_true,
        Function.update_of_ne] at hpending ⊢
      exact h.quantity other hpending
  seen := h.seen
  known event hevent := by
    by_cases hid : event.clientOrderId = clientOrderId
    · simp [Session.on, hid]
    · simpa [Session.on, hid] using h.known event hevent
  knownRejected other hother := by
    by_cases hid : other = clientOrderId
    · simp [Session.on, hid]
    · simpa [Session.on, hid] using h.knownRejected other hother

theorem onOrderRejected (h : Follows r s) (hknown : (s.intents clientOrderId).isSome = true)
    (reason : String) (tsEvent : UInt64) :
    Follows (r.onOrderRejected clientOrderId reason tsEvent)
      (s.on (.rejected clientOrderId reason tsEvent : RecorderEvent Order Trade)) := by
  have hrejected : ∀ other ∈ (s.on (.rejected clientOrderId reason tsEvent)).rejected,
      (s.intents other).isSome = true := by
    intro other hother
    rcases List.mem_cons.mp hother with rfl | hother
    · exact hknown
    · exact h.knownRejected other hother
  cases hpending : r.pending clientOrderId with
  | none =>
    have hsame : r.onOrderRejected clientOrderId reason tsEvent = r := by
      simp [SessionRecorder.onOrderRejected, hpending]
    rw [hsame]
    refine { h with pending := fun other intent => ?_, knownRejected := hrejected }
    refine (h.pending other intent).trans ?_
    by_cases hid : other = clientOrderId
    · subst hid
      have hnot := mt (h.pending other intent).mpr
      rw [hpending] at hnot
      simp only [Session.on, List.mem_cons, true_or, not_true_eq_false, and_false, iff_false]
      exact hnot nofun
    · simp [Session.on, Session.executed, hid]
  | some intent =>
    have hnext : r.onOrderRejected clientOrderId reason tsEvent =
        { r with
          comparisons := r.comparisons ++ [compareFill intent
            { filledPrice := 0, filledQuantity := 0, filledAt := nsToDatetime tsEvent
              rejected := true, rejectReason := reason }]
          pending := Function.update r.pending clientOrderId none
          filledQuantity := Function.update r.filledQuantity clientOrderId none } := by
      simp [SessionRecorder.onOrderRejected, hpending]
    rw [hnext]
    refine ⟨?_, fun other intent' => ?_, fun other hother => ?_, h.seen, h.known, hrejected⟩
    · refine Eq.trans ?_ h.fills
      simp [SessionRecorder.fills, List.filter_append, compareFill]
    · by_cases hid : other = clientOrderId
      · simp [Session.on, hid]
      · simpa [Session.on, Session.executed, hid] using h.pending other intent'
    · by_cases hid : other = clientOrderId
      · simp [hid] at hother
      · simp only [ne_eq, hid, not_false_eq_true, Function.update_of_ne] at hother ⊢
        exact h.quantity other hother

omit [DecidableEq Trade] in
theorem onOrderFilled_skips (h : r.pending event.clientOrderId = none ∨ event.identity ∈ r.seenFills) :
    r.onOrderFilled event = r := by
  unfold SessionRecorder.onOrderFilled
  cases hpending : r.pending event.clientOrderId with
  | none => rfl
  | some intent => simp [h.resolve_left (by simp [hpending])]

/-- An execution that waits for is recorded, once. -/
theorem onOrderFilled (h : Follows r s) (hnew : event ∉ s.executions)
    (hpending : r.pending event.clientOrderId = some intent) (hfresh : event.identity ∉ r.seenFills)
    (hclose : intent.quantity - quantityTolerance ≤
        s.executed event.clientOrderId + event.lastQty.value →
      intent.quantity ≤ s.executed event.clientOrderId + event.lastQty.value) :
    Follows (r.onOrderFilled event) (s.on (.filled event)) := by
  obtain ⟨hintent, hwaits, hrejected⟩ := (h.pending _ _).mp hpending
  have hexecuted := Session.executed_first hnew event.clientOrderId
  rw [if_pos rfl] at hexecuted
  have hother : ∀ other, other ≠ event.clientOrderId →
      (s.on (.filled event)).executed other = s.executed other := by
    intro other hother
    rw [Session.executed_first hnew, if_neg (Ne.symm hother), add_zero]
  have hcumulative := h.quantity event.clientOrderId (by rw [hpending]; rfl)
  have hdone : intent.quantity - quantityTolerance ≤
      s.executed event.clientOrderId + event.lastQty.value ↔
      ¬(s.on (.filled event)).executed event.clientOrderId < intent.quantity := by
    rw [hexecuted, not_lt]
    refine ⟨hclose, fun hle => le_trans ?_ hle⟩
    simp [quantityTolerance]
  have hnext : (s.on (.filled event)).intents = s.intents ∧
      (s.on (.filled event)).rejected = s.rejected := by
    rw [Session.on_first hnew]
    exact ⟨rfl, rfl⟩
  unfold SessionRecorder.onOrderFilled
  simp only [hpending, hfresh, if_false, hcumulative, Option.getD_some, decide_eq_true_eq]
  refine ⟨?_, fun other intent' => ?_, fun other hsome => ?_, fun identity => ?_, ?_, ?_⟩
  · rw [Session.on_first hnew]
    have hfills := h.fills
    simp only [SessionRecorder.fills] at hfills
    simp [SessionRecorder.fills, List.filter_append, hfills, hintent]
  · rw [hnext.1, hnext.2]
    by_cases hid : other = event.clientOrderId
    · subst hid
      split
      · next hfull =>
        simp only [Function.update_self, reduceCtorEq, false_iff]
        rintro ⟨hsame, hlt, -⟩
        obtain rfl : intent = intent' := Option.some.inj (hintent.symm.trans hsame)
        exact hdone.mp hfull hlt
      · next hopen =>
        rw [hpending, hintent]
        constructor
        · intro hsame
          obtain rfl := Option.some.inj hsame
          exact ⟨rfl, not_not.mp (mt hdone.mpr hopen), hrejected⟩
        · exact And.left
    · rw [hother other hid]
      split
      · simpa [hid] using h.pending other intent'
      · exact h.pending other intent'
  · by_cases hid : other = event.clientOrderId
    · subst hid
      split at hsome
      · simp at hsome
      · next hopen => simp [hopen, hexecuted]
    · rw [hother other hid]
      have hsame : (r.pending other).isSome = true := by
        split at hsome
        · simpa [hid] using hsome
        · exact hsome
      simpa [hid] using h.quantity other hsame
  · rw [Session.on_first hnew]
    simp [h.seen, or_comm, eq_comm]
  · rw [Session.on_first hnew]
    intro other hmem
    rcases List.mem_append.mp hmem with hmem | hmem
    · exact h.known other hmem
    · rw [List.mem_singleton.mp hmem, hintent]
      rfl
  · rw [hnext.1, hnext.2]
    exact h.knownRejected

variable {e : RecorderEvent Order Trade}

/-- A clear event keeps the recorder with the session. -/
theorem on (h : Follows r s) (hg : s.Genuine e) (hclear : s.Clear e) :
    Follows (r.on e) (s.on e) := by
  cases e with
  | intent clientOrderId intent => exact h.recordIntent hg.1 hg.2
  | rejected clientOrderId reason tsEvent => exact h.onOrderRejected hg reason tsEvent
  | filled event =>
    by_cases hmem : event ∈ s.executions
    · have hskip : r.onOrderFilled event = r :=
        onOrderFilled_skips (.inr ((h.seen _).mpr ⟨event, hmem, rfl⟩))
      rw [SessionRecorder.on, hskip, Session.on_repeated hmem]
      exact h
    · obtain ⟨hfresh, hrejected, hclose⟩ := hclear hmem
      obtain ⟨intent, hintent, hpos, hle⟩ := hg
      rw [Session.executed_first hmem, if_pos rfl] at hle
      refine h.onOrderFilled hmem ((h.pending _ _).mpr ⟨hintent, (lt_add_of_pos_right _ hpos).trans_le hle, hrejected⟩) ?_
        (hclose intent hintent)
      intro hseen
      obtain ⟨other, hother, hsame⟩ := (h.seen _).mp hseen
      exact hfresh other hother hsame

/-- An event that is not clear parts them. -/
theorem clear_of_exact (h : Follows r s) (hg : s.Genuine e)
    (hexact : Exact (r.on e) (s.on e)) : s.Clear e := by
  cases e with
  | intent clientOrderId intent => trivial
  | rejected clientOrderId reason tsEvent => trivial
  | filled event =>
    intro hnew
    obtain ⟨intent, hintent, hpos, hle⟩ := hg
    have hlength := congrArg List.length hexact.fills
    rw [Session.on_first hnew] at hlength
    have hlength' := congrArg List.length h.fills
    simp only [List.length_map, List.length_append, List.length_singleton] at hlength hlength'
    -- one more execution needs one more fill
    have hrecorded : ¬(r.pending event.clientOrderId = none ∨ event.identity ∈ r.seenFills) := by
      intro hskips
      rw [SessionRecorder.on, onOrderFilled_skips hskips] at hlength
      omega
    obtain ⟨hsome, hfresh⟩ := not_or.mp hrecorded
    obtain ⟨intent', hpending⟩ := Option.ne_none_iff_exists'.mp hsome
    obtain ⟨hsame, hwaits, hrejected⟩ := (h.pending _ _).mp hpending
    obtain rfl : intent' = intent := Option.some.inj (hsame.symm.trans hintent)
    refine ⟨fun other hother hid => hfresh ((h.seen _).mpr ⟨other, hother, hid⟩), hrejected,
      fun intent hmem hclose => ?_⟩
    obtain rfl : intent' = intent := Option.some.inj (hsame.symm.trans hmem)
    by_contra hlt
    have hstill := (hexact.pending event.clientOrderId intent' (by
      rw [Session.on_first hnew]
      exact hintent)).mpr ⟨by
        rw [Session.executed_first hnew, if_pos rfl]
        exact not_le.mp hlt, by
        rw [Session.on_first hnew]
        exact hrejected⟩
    have hcumulative := h.quantity event.clientOrderId (by rw [hpending]; rfl)
    simp [SessionRecorder.on, SessionRecorder.onOrderFilled, hpending, hfresh, hcumulative, hclose]
      at hstill

end Follows

end Follows

/-! ## Two executions that look the same -/

def halfFill (trade : ℕ) : FilledEvent String ℕ where
  trade
  clientOrderId := "O-1"
  lastPx := ⟨"100", 100⟩
  lastQty := ⟨"1", 1⟩
  tsEvent := 1

def twoLots : OrderIntent where
  symbol := "BTCUSDT"
  side := .buy
  quantity := 2
  referencePrice := 100
  createdAt := 0

/-- An order, an execution of the half of it, and its repetition. -/
def repeatedFill : List (RecorderEvent String ℕ) :=
  [.intent "O-1" twoLots, .filled (halfFill 1), .filled (halfFill 1)]

/-- Two executions of a half each. -/
def equalFills : List (RecorderEvent String ℕ) :=
  [.intent "O-1" twoLots, .filled (halfFill 1), .filled (halfFill 2)]

end Greenfield.Execution
