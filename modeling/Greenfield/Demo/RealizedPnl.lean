import Greenfield.Demo.Keeping
import Greenfield.Demo.Daily
import Greenfield.Demo.Lifecycle
import Mathlib.Algebra.Order.BigOperators.Group.List
import Mathlib.Tactic.Ring

/-!
# The PnL of a closed trade

`_close` takes the fees and the slippage of the trade's orders from what the fills earned.
The reconciler has the slippage of a fill as what its price is worse than the reference price
of its order (`Mapped`), and the fill's price is the one the fill was made at. So what is
recorded is the economic result less the slippage (`realizedPnl_eq`), and the two agree
exactly when no fill was worse than its order's reference price.
-/

namespace Greenfield.Demo

open Keyed Py Paper Effects PaperOrderStore

/-! ## Slippage -/

/-- What a price is worse than the reference price of an order. -/
def adverse (o : OrderRow) (price : ℚ) : ℚ :=
  if o.side = .buy then max 0 (price - o.referencePrice) else max 0 (o.referencePrice - price)

/-- The price is the reference price of the order, or better. -/
def AtOrBetter (o : OrderRow) (price : ℚ) : Prop :=
  if o.side = .buy then price ≤ o.referencePrice else o.referencePrice ≤ price

theorem adverse_nonneg (o : OrderRow) (price : ℚ) : 0 ≤ adverse o price := by
  unfold adverse
  split
  · exact le_max_left _ _
  · exact le_max_left _ _

variable {o : OrderRow}

theorem adverse_eq_zero {price : ℚ} : adverse o price = 0 ↔ AtOrBetter o price := by
  unfold adverse AtOrBetter
  split
  · rw [max_eq_left_iff, sub_nonpos]
  · rw [max_eq_left_iff, sub_nonpos]

/-- The fill is of an order with these terms, and its slippage is what it was worse. -/
structure MappedFill (s : PaperOrderStore) (x : FillRow) (o : OrderRow) : Prop where
  order : s.orders.find x.clientOrderId = some o
  quantity : 0 < x.filledQuantity
  slippage : x.slippageCostQuote = adverse o x.filledPrice * x.filledQuantity

/-- The books balance, and the reconciler made every fill. -/
structure Mapped (s : PaperOrderStore) : Prop where
  ledgers : Ledgers s
  fills : ∀ x ∈ s.fills.rows, ∃ o, MappedFill s x o

theorem mapped_empty : Mapped .empty where
  ledgers := ledgers_empty
  fills := fun _ h => absurd h List.not_mem_nil

/-- The side and the reference price of an order. -/
def SameTerms (o o' : OrderRow) : Prop := o'.side = o.side ∧ o'.referencePrice = o.referencePrice

theorem SameTerms.adverse {o o' : OrderRow} (h : SameTerms o o') (price : ℚ) :
    adverse o' price = adverse o price := by
  unfold Demo.adverse
  rw [h.1, h.2]

variable {D : Digests} {s s' : PaperOrderStore} {c : String}

/-- No change alters the terms of an order. -/
theorem sameTerms_change (hc : Change s s') {k : String}
    (ho : s.orders.find k = some o) : ∃ o', s'.orders.find k = some o' ∧ SameTerms o o' := by
  have hupdate {c : String} {f : OrderRow → OrderRow}
      {hf : ∀ r, (f r).clientOrderId = r.clientOrderId} (hterms : ∀ r, SameTerms r (f r)) :
      ∃ o', (s.updateOrder c f hf).orders.find k = some o' ∧ SameTerms o o' := by
    rw [find_updateOrder]
    split
    · next hk =>
      rw [← hk, ho]
      exact ⟨_, rfl, hterms o⟩
    · exact ⟨o, ho, rfl, rfl⟩
  cases hc with
  | begin hq hn hi =>
    refine ⟨o, ?_, rfl, rfl⟩
    rw [Table.find_insert hi, if_neg]
    · exact ho
    · rintro rfl
      rw [hn] at ho
      cases ho
  | submit _ _ => exact hupdate fun _ => ⟨rfl, rfl⟩
  | cancel _ _ => exact hupdate fun _ => ⟨rfl, rfl⟩
  | reject _ _ => exact hupdate fun _ => ⟨rfl, rfl⟩
  | fill hv hf hi => exact @hupdate _ _ (fillOrder_key _ _ _) fun _ => ⟨rfl, rfl⟩

variable {x : FillRow}

theorem MappedFill.change (h : MappedFill s x o) (hc : Change s s') :
    ∃ o', MappedFill s' x o' := by
  obtain ⟨o', ho', hterms⟩ := sameTerms_change hc h.order
  exact ⟨o', ho', h.quantity, by rw [h.slippage, hterms.adverse]⟩

/-- A change that applies no fill. -/
theorem Mapped.change (h : Mapped s) (hc : s' = s ∨ Change s s' ∧ s'.fills = s.fills) :
    Mapped s' := by
  rcases hc with rfl | ⟨hc, hfills⟩
  · exact h
  · refine ⟨ledgers_change hc h.ledgers, fun x hx => ?_⟩
    rw [hfills] at hx
    obtain ⟨o, hx⟩ := h.fills x hx
    exact hx.change hc

/-- The record is of an order with these terms. -/
def RecordOf (c : String) (record : PaperOrderRecord) (s : PaperOrderStore) : Prop :=
  ∃ o, s.orders.find c = some o ∧ o.side = record.side ∧ o.referencePrice = record.referencePrice

variable {record : PaperOrderRecord}

theorem RecordOf.change (h : RecordOf c record s) (hc : Change s s') :
    RecordOf c record s' := by
  obtain ⟨o, ho, hside, hprice⟩ := h
  obtain ⟨o', ho', hside', hprice'⟩ := sameTerms_change hc ho
  exact ⟨o', ho', hside'.trans hside, hprice'.trans hprice⟩

/-- **A fill of the reconciler.** -/
theorem Mapped.applyFillResult {r record : PaperOrderRecord} {x : DemoExecution} (h : Mapped s)
    (hrecord : RecordOf c record s)
    (hr : s.applyFillResult c (fillFromExecution record x) = .ok (r, s')) :
    Mapped s' ∧ RecordOf c record s' := by
  have hfill : s.recordFill c (fillFromExecution record x) = .ok (r, s') := hr
  obtain ⟨now, hv, ⟨_, -, -, -, rfl⟩ | ⟨o, fills, hf, hi, -, rfl⟩⟩ := recordFill_eq_ok.mp hfill
  · exact ⟨h, hrecord⟩
  · have hc : Change s (s.fillStore c (fillFromExecution record x) now o fills) := .fill hv hf hi
    refine ⟨⟨ledgers_change hc h.ledgers, fun y hy => ?_⟩, hrecord.change hc⟩
    obtain ⟨-, hrows⟩ := Table.insert_eq_some.mp hi
    change y ∈ fills.rows at hy
    rw [hrows, List.mem_append, List.mem_singleton] at hy
    rcases hy with hy | rfl
    · obtain ⟨o', hy⟩ := h.fills y hy
      exact hy.change hc
    · obtain ⟨o', ho', hside, hprice⟩ := hrecord.change hc
      refine ⟨o', ho', hv.2.1, ?_⟩
      unfold adverse
      rw [hside, hprice]
      rfl

/-! ## Calls -/

variable {obs : Answers} {w w' : World}

/-- The store of the world has only fills of the reconciler. -/
abbrev MappedIn (w : World) : Prop := Mapped w.orders

theorem mapped_orders {o : OrderOp} {a : o.Res} (ho : (Op.orders o).isFill = false) (h : Mapped s)
    (hr : o.txn D s = .ok (a, s')) : Mapped s' := by
  cases o with
  | get c =>
    cases hr
    exact h
  | listByLegGroup g =>
    rw [(listByLegGroup_txn hr).2]
    exact h
  | beginOrder req now =>
    obtain ⟨c, i, hv, ⟨-, -, rfl⟩ | ⟨hn, -, -, orders, hi, rfl⟩⟩ := beginOrder_eq_ok.mp hr
    · exact h
    · exact h.change (.inr ⟨.begin hv.2.1 hn hi, rfl⟩)
  | markSubmitted c now =>
    obtain ⟨i, o, -, ho, hst, -, rfl⟩ := markSubmitted_eq_ok.mp hr
    exact h.change (.inr ⟨.submit ho hst, rfl⟩)
  | applyFillResult c fill => cases ho
  | markCanceled c now =>
    obtain ⟨i, o, -, ho, ⟨-, -, rfl⟩ | ⟨hst, -, rfl⟩⟩ := markCanceled_eq_ok.mp hr
    · exact h
    · exact h.change (.inr ⟨.cancel ho hst, rfl⟩)

theorem mapped_others (o : Op) (w : World) (r : Except PyError o.Res) (w' : World)
    (ho : o.isFill = false) (hx : exec D obs o w r w') (h : MappedIn w) : MappedIn w' := by
  cases o with
  | orders o =>
    obtain ⟨s', hr, rfl⟩ := hx
    rcases outcome_cases hr with ⟨a, rfl, ht⟩ | ⟨e, rfl, ht, rfl⟩
    · exact mapped_orders ho h ht
    · exact h
  | state o =>
    obtain ⟨s', -, rfl⟩ := hx
    exact h
  | place now c request =>
    obtain ⟨received, rfl, -⟩ := hx
    exact h
  | query q =>
    obtain ⟨rfl, -⟩ := hx
    exact h

/-- The executions of an order are applied to it. -/
theorem mapped_applyExecutions (xs : List DemoExecution) :
    Keeps (exec D obs) (fun w => MappedIn w ∧ RecordOf c record w.orders)
      (applyExecutions c record xs) := by
  induction xs with
  | nil => exact keeps_ret _
  | cons x xs ih =>
    unfold applyExecutions
    refine Keeps.bind (fun w h => ?_) fun _ => ih
    rw [wp_askOrders]
    exact ⟨h, fun a s' hr => h.1.applyFillResult h.2 hr, fun _ _ => h⟩

theorem mapped_followStatus {snapshot : DemoOrderSnapshot} :
    Keeps (exec D obs) MappedIn (followStatus c record snapshot) := by
  have hcancel : Keeps (exec D obs) MappedIn (askOrders (.markCanceled c snapshot.updatedAtUtc)) :=
    keeps_perform fun _ _ _ => mapped_others _ _ _ _ rfl
  have hreject : Keeps (exec D obs) MappedIn
      (askOrders (.applyFillResult c (rejectionOf snapshot))) := by
    intro w h
    rw [wp_askOrders]
    refine ⟨h, fun a s' hr => ?_, fun _ _ => h⟩
    have hrejection : ∃ reason now, w.orders.recordRejection c reason now = .ok (a, s') := ⟨_, _, hr⟩
    obtain ⟨reason, now, hrejection⟩ := hrejection
    obtain ⟨i, o, -, ho, hst, -, rfl⟩ := recordRejection_eq_ok.mp hrejection
    exact h.change (.inr ⟨.reject ho hst, rfl⟩)
  unfold followStatus
  split
  · exact (keeps_check _ _).bind fun _ => keeps_ret _
  · exact hcancel
  · split
    · exact hcancel
    · split
      · exact hreject
      · exact keeps_ret _
  · split
    · exact hcancel
    · split
      · exact hreject
      · exact keeps_ret _
  · exact keeps_ret _
  · exact keeps_ret _

theorem mapped_reconcile (c : String) : Keeps (exec D obs) MappedIn (reconcile D c) := by
  have hget : Keeps (exec D obs) MappedIn (askOrders (.get c)) :=
    keeps_perform fun _ _ _ => mapped_others _ _ _ _ rfl
  have hquery (q : Query) : Keeps (exec D obs) MappedIn (ask q) :=
    keeps_perform fun _ _ _ => mapped_others _ _ _ _ rfl
  intro w h
  unfold reconcile
  rw [wp_bind, wp_askOrders]
  refine ⟨h, fun found s' hfound => ?_, fun _ _ => h⟩
  cases hfound
  rw [wp_bind, wp_lift]
  refine ⟨fun record hrecord => ?_, fun _ _ => h⟩
  rw [wp_bind, wp_lift]
  refine ⟨fun link _ => ?_, fun _ _ => h⟩
  rw [wp_bind, wp_ask]
  refine ⟨h, fun executions _ => ?_, fun _ _ => h⟩
  have hof : RecordOf c record w.orders := by
    obtain ⟨o, ho, rfl⟩ := fetch_eq_some.mp (existingOrder_eq_ok hrecord)
    exact ⟨o, ho, rfl, rfl⟩
  rw [wp_bind]
  refine wp_mono (fun _ h => h.1) (fun _ w h => ?_) (fun _ _ h => h.1)
    (mapped_applyExecutions _ w ⟨h, hof⟩)
  refine (?_ : Keeps (exec D obs) MappedIn _) w h.1
  refine hget.bind fun found => (keeps_lift _).bind fun record => (hquery _).bind fun order => ?_
  split
  · exact keeps_ret _
  · exact (keeps_lift _).bind fun _ => mapped_followStatus.bind fun _ => keeps_ret _

/-- **Every call.** -/
theorem mapped_calls (h : Calls D obs .empty w) : MappedIn w :=
  Calls.invariant (KeptBySteps.parts ⟨mapped_others, mapped_reconcile⟩) h mapped_empty

/-! ## The economic result -/

/-- The exit orders of a trade with this entry order. -/
def exitOrdersIn (s : PaperOrderStore) (tradeId entryId : String) : List OrderRow :=
  s.orders.rows.filter fun o => o.legGroupId = some tradeId ∧ o.clientOrderId ≠ entryId

/-- The sum of `f` over the fills of a trade's exit orders. -/
def exitTotal (s : PaperOrderStore) (tradeId entryId : String) (f : FillRow → ℚ) : ℚ :=
  ((exitOrdersIn s tradeId entryId).map fun o => total s.fills.rows o.clientOrderId f).sum

/-- What the fills of a trade earned at their prices, less their fees. -/
def economicPnl (action : SetupAction) (s : PaperOrderStore) (tradeId entryId : String) : ℚ :=
  let direction : ℚ := if action = .long then 1 else -1
  let notional := fun x : FillRow => x.filledPrice * x.filledQuantity
  direction * (exitTotal s tradeId entryId notional - total s.fills.rows entryId notional) -
    (total s.fills.rows entryId (·.feeCostQuote) + exitTotal s tradeId entryId (·.feeCostQuote))

/-- The slippage of a trade's fills. -/
def slippageTotal (s : PaperOrderStore) (tradeId entryId : String) : ℚ :=
  total s.fills.rows entryId (·.slippageCostQuote) + exitTotal s tradeId entryId (·.slippageCostQuote)

variable {tradeId entryId : String} {orders : List PaperOrderRecord}

theorem listByLegGroup_eq_ok {s : PaperOrderStore} {g : String} {rows : List PaperOrderRecord}
    (h : s.listByLegGroup g = .ok rows) : rows = ((sorted createdBefore
      (s.orders.rows.filter fun r => r.legGroupId = some g)).map OrderRow.toRecord) := by
  unfold listByLegGroup at h
  split at h
  · cases h
  · cases h; rfl

/-- `_close` sums over the exit orders. -/
theorem exitOrders_sum (h : s.listByLegGroup tradeId = .ok orders) (g : PaperOrderRecord → ℚ) :
    ((orders.filter fun o => o.clientOrderId ≠ entryId).map g).sum =
      ((exitOrdersIn s tradeId entryId).map fun o => g o.toRecord).sum := by
  have hperm : (sorted createdBefore (s.orders.rows.filter fun r => r.legGroupId = some tradeId)).Perm
      (s.orders.rows.filter fun r => r.legGroupId = some tradeId) := List.perm_insertionSort _ _
  rw [listByLegGroup_eq_ok h, List.filter_map, List.map_map, ((hperm.filter _).map _).sum_eq,
    List.filter_filter]
  unfold exitOrdersIn
  refine congrArg (fun l => (List.map (g ∘ OrderRow.toRecord) l).sum) (List.filter_congr ?_)
  intro o _
  simp [OrderRow.toRecord, and_comm]

/-- The columns of the exit orders are sums over their fills. -/
theorem exitOrders_total (h : Ledgers s) {g : OrderRow → ℚ} {f : FillRow → ℚ}
    (hg : ∀ o, Accounted s.fills.rows o → g o = total s.fills.rows o.clientOrderId f) :
    ((exitOrdersIn s tradeId entryId).map g).sum = exitTotal s tradeId entryId f := by
  unfold exitTotal
  refine congrArg List.sum (List.map_congr_left fun o ho => hg o ?_)
  exact h.accounted (Table.find_of_mem (List.mem_of_mem_filter ho))

/-- **What is recorded.** The economic result, less the slippage. -/
theorem realizedPnl_eq {action : SetupAction} {e : OrderRow} (h : Ledgers s)
    (he : s.orders.find entryId = some e) (horders : s.listByLegGroup tradeId = .ok orders) :
    DemoStrategyExecutor.realizedPnl action e.toRecord
        (orders.filter fun o => o.clientOrderId ≠ entryId) =
      economicPnl action s tradeId entryId - slippageTotal s tradeId entryId := by
  have ha := h.accounted he
  have hid : e.clientOrderId = entryId := Table.find_key he
  have hnotional : e.toRecord.averageFillPrice.getD 0 * e.toRecord.filledQuantity =
      total s.fills.rows entryId fun x => x.filledPrice * x.filledQuantity := by
    rw [ha.average_mul, ha.notional, hid]
  have hexits : ((exitOrdersIn s tradeId entryId).map fun o =>
      o.toRecord.averageFillPrice.getD 0 * o.toRecord.filledQuantity).sum =
      exitTotal s tradeId entryId fun x => x.filledPrice * x.filledQuantity :=
    exitOrders_total h fun o ho => ho.average_mul.trans ho.notional
  have hcosts : ((exitOrdersIn s tradeId entryId).map fun o =>
      o.toRecord.feeCostQuote + o.toRecord.slippageCostQuote).sum =
      exitTotal s tradeId entryId (·.feeCostQuote) +
        exitTotal s tradeId entryId (·.slippageCostQuote) := by
    rw [List.sum_map_add]
    exact congrArg₂ (· + ·) (exitOrders_total h fun o ho => ho.fee)
      (exitOrders_total h fun o ho => ho.slippage)
  have hfee : e.toRecord.feeCostQuote = total s.fills.rows entryId (·.feeCostQuote) :=
    hid ▸ ha.fee
  have hslippage : e.toRecord.slippageCostQuote = total s.fills.rows entryId (·.slippageCostQuote) :=
    hid ▸ ha.slippage
  unfold DemoStrategyExecutor.realizedPnl economicPnl slippageTotal
  simp only [exitOrders_sum horders, hnotional, hexits, hcosts, hfee, hslippage]
  ring

/-- The orders of a trade with this entry order. -/
def tradeOrders (s : PaperOrderStore) (tradeId entryId : String) : List OrderRow :=
  s.orders.rows.filter fun o => o.clientOrderId = entryId ∨ o.legGroupId = some tradeId

/-- No fill of the trade was worse than the reference price of its order. -/
def NoFillWorse (s : PaperOrderStore) (tradeId entryId : String) : Prop :=
  ∀ o ∈ tradeOrders s tradeId entryId, ∀ x ∈ s.fills.rows, x.clientOrderId = o.clientOrderId →
    AtOrBetter o x.filledPrice

theorem MappedFill.nonneg (h : MappedFill s x o) :
    0 ≤ x.slippageCostQuote := by
  rw [h.slippage]
  exact mul_nonneg (adverse_nonneg o x.filledPrice) h.quantity.le

theorem MappedFill.eq_zero (h : MappedFill s x o) :
    x.slippageCostQuote = 0 ↔ AtOrBetter o x.filledPrice := by
  rw [h.slippage, mul_eq_zero, or_iff_left (ne_of_gt h.quantity), adverse_eq_zero]

theorem Mapped.total_nonneg (h : Mapped s) (c : String) :
    0 ≤ total s.fills.rows c (·.slippageCostQuote) := by
  refine List.sum_nonneg fun v hv => ?_
  obtain ⟨x, hx, rfl⟩ := List.mem_map.mp hv
  obtain ⟨o, hx⟩ := h.fills x (List.mem_of_mem_filter hx)
  exact hx.nonneg

/-- An order has no slippage when no fill of it was worse than its reference price. -/
theorem Mapped.total_eq_zero (h : Mapped s) (ho : s.orders.find c = some o) :
    total s.fills.rows c (·.slippageCostQuote) = 0 ↔
      ∀ x ∈ s.fills.rows, x.clientOrderId = c → AtOrBetter o x.filledPrice := by
  have hiff : ∀ x ∈ s.fills.rows, x.clientOrderId = c →
      (x.slippageCostQuote = 0 ↔ AtOrBetter o x.filledPrice) := by
    intro x hx hc
    obtain ⟨o', hx⟩ := h.fills x hx
    have horder := hx.order
    rw [hc, ho] at horder
    cases horder
    exact hx.eq_zero
  constructor
  · intro hzero x hx hc
    refine (hiff x hx hc).mp (List.all_zero_of_le_zero_le_of_sum_eq_zero (fun v hv => ?_) hzero ?_)
    · obtain ⟨y, hy, rfl⟩ := List.mem_map.mp hv
      obtain ⟨o', hy⟩ := h.fills y (List.mem_of_mem_filter hy)
      exact hy.nonneg
    · exact List.mem_map.mpr ⟨x, List.mem_filter.mpr ⟨hx, decide_eq_true hc⟩, rfl⟩
  · intro hall
    refine List.sum_eq_zero fun v hv => ?_
    obtain ⟨x, hx, rfl⟩ := List.mem_map.mp hv
    obtain ⟨hx, hc⟩ := List.mem_filter.mp hx
    exact (hiff x hx (of_decide_eq_true hc)).mpr (hall x hx (of_decide_eq_true hc))

/-- **Slippage.** -/
theorem Mapped.slippageTotal_eq_zero (h : Mapped s) {e : OrderRow}
    (he : s.orders.find entryId = some e) :
    slippageTotal s tradeId entryId = 0 ↔ NoFillWorse s tradeId entryId := by
  have hexits : ∀ v ∈ (exitOrdersIn s tradeId entryId).map fun o =>
      total s.fills.rows o.clientOrderId (·.slippageCostQuote), 0 ≤ v := by
    intro v hv
    obtain ⟨o, -, rfl⟩ := List.mem_map.mp hv
    exact h.total_nonneg _
  have hentry : 0 ≤ total s.fills.rows entryId (·.slippageCostQuote) := h.total_nonneg entryId
  unfold slippageTotal exitTotal
  rw [add_eq_zero_iff_of_nonneg hentry (List.sum_nonneg hexits), h.total_eq_zero he]
  constructor
  · rintro ⟨hfirst, hzero⟩ o ho
    obtain ⟨ho, hleg⟩ := List.mem_filter.mp ho
    by_cases hid : o.clientOrderId = entryId
    · rw [← hid, Table.find_of_mem ho] at he
      cases he
      exact hid ▸ hfirst
    · have hexit : o ∈ exitOrdersIn s tradeId entryId := by
        refine List.mem_filter.mpr ⟨ho, decide_eq_true ⟨?_, hid⟩⟩
        exact (of_decide_eq_true hleg).resolve_left hid
      exact (h.total_eq_zero (Table.find_of_mem ho)).mp
        (List.all_zero_of_le_zero_le_of_sum_eq_zero hexits hzero (List.mem_map.mpr ⟨o, hexit, rfl⟩))
  · intro hall
    have hmem : e ∈ tradeOrders s tradeId entryId :=
      List.mem_filter.mpr ⟨Table.find_mem he, decide_eq_true (.inl (Table.find_key he))⟩
    refine ⟨fun x hx hc => hall e hmem x hx (hc.trans (Table.find_key he).symm), ?_⟩
    refine List.sum_eq_zero fun v hv => ?_
    obtain ⟨o, ho, rfl⟩ := List.mem_map.mp hv
    obtain ⟨ho, hleg⟩ := List.mem_filter.mp ho
    refine (h.total_eq_zero (Table.find_of_mem ho)).mpr (hall o ?_)
    exact List.mem_filter.mpr ⟨ho, decide_eq_true (.inr (of_decide_eq_true hleg).1)⟩

/-! ## Closing -/

open AutonomousDemoStateStore

variable {trade : AutonomousTradeRecord} {now : Instant} {pnl : ℚ} {self : DemoStrategyExecutor}

/-- The PnL of the day. -/
def AutonomousDemoStateStore.pnlOf (s : AutonomousDemoStateStore) (day : Int) : ℚ :=
  ((s.fetchDay day).map (·.realizedPnlUsd)).getD 0

/-- From `w` to `w'` the trade and the daily ledger got this PnL. -/
structure RecordsPnl (w w' : World) (trade : AutonomousTradeRecord) (now : Instant) (pnl : ℚ) :
    Prop where
  trade : (w'.state.fetch trade.tradeId).bind (·.realizedPnlUsd) = some pnl
  ledger : w'.state.pnlOf (utcDate now) = w.state.pnlOf (utcDate now) + pnl

variable {st st' : AutonomousDemoStateStore} {r : AutonomousTradeRecord}

/-- The row that a transition leaves. -/
theorem transition_fetch {k : String}
    {allowed : List AutonomousTradePhase} {target : AutonomousTradePhase}
    {updates : List FieldUpdate} {at_ : Datetime} {replaceable : List TradeField}
    (h : st.transition k allowed target updates at_ replaceable = .ok (r, st')) :
    st'.daily = st.daily ∧ ∃ t i, st'.fetch k = some (transitionRow target updates i t) := by
  obtain ⟨t, i, ht, -, -, -, -, rfl⟩ := transition_eq_ok h
  refine ⟨rfl, t, i, ?_⟩
  rw [AutonomousDemoStateStore.fetch, Table.find_modify, if_pos rfl,
    show st.trades.find k = some t from ht]
  rfl

theorem markClosed_records
    (h : st.markClosed tradeId pnl (.ofInstant now) = .ok (r, st')) :
    (st'.fetch tradeId).bind (·.realizedPnlUsd) = some pnl ∧ st'.daily = st.daily := by
  simp only [markClosed, bind_eq_ok] at h
  obtain ⟨closed, -, h⟩ := h
  obtain ⟨hdaily, t, i, hfetch⟩ := transition_fetch h
  rw [hfetch]
  exact ⟨rfl, hdaily⟩

theorem recordClose_records {capital : ℚ}
    {config : AutonomousDemoRiskConfig} {r : AutonomousDailyRiskRecord}
    (h : st.recordClose (.ofInstant now) capital pnl config = .ok (r, st')) :
    st'.pnlOf (utcDate now) = st.pnlOf (utcDate now) + pnl ∧ st'.trades = st.trades := by
  refine ⟨?_, recordClose_trades h⟩
  simp only [recordClose, bind_eq_ok, iso_ofInstant, Prod.exists] at h
  obtain ⟨i, hi, x, s₁, hday, limit, -, h⟩ := h
  cases hi
  obtain ⟨hbefore, hafter⟩ := ensure_update_eq_ok hday h
  have hpnl : st.pnlOf (utcDate now) = x.realizedPnlUsd := by
    unfold AutonomousDemoStateStore.pnlOf
    rcases hbefore with hx | ⟨hnone, hfresh⟩
    · rw [hx]
      rfl
    · rw [hnone, hfresh.pnl]
      rfl
  rw [hpnl, AutonomousDemoStateStore.pnlOf, hafter, if_pos rfl]
  rfl

/-- The last part of `_close`. -/
theorem wp_book : wp (exec D obs) (fun _ => True) (self.book trade pnl now)
    (fun _ w' => RecordsPnl w w' trade now pnl) (fun _ _ => True) w := by
  unfold DemoStrategyExecutor.book
  rw [wp_bind, wp_askState]
  refine ⟨trivial, fun closed st hclosed => ?_, fun _ _ => trivial⟩
  obtain ⟨htrade, hdaily⟩ := markClosed_records hclosed
  rw [wp_bind, wp_ask]
  refine ⟨trivial, fun balance _ => ?_, fun _ _ => trivial⟩
  rw [wp_bind, wp_askState]
  refine ⟨trivial, fun day st' hday => ?_, fun _ _ => trivial⟩
  obtain ⟨hledger, htrades⟩ := recordClose_records hday
  have hpnl : st.pnlOf (utcDate now) = w.state.pnlOf (utcDate now) := by
    unfold AutonomousDemoStateStore.pnlOf fetchDay
    rw [hdaily]
  refine ⟨?_, hpnl ▸ hledger⟩
  show (st'.trades.find trade.tradeId).bind _ = _
  rw [htrades]
  exact htrade

/-- **`_close`** records what it computes of the orders that it reads. -/
theorem wp_close : wp (exec D obs) (fun _ => True) (self.close trade now)
    (fun result w' => result.status = "CLOSED" → ∃ entryId e orders,
      trade.entryClientOrderId = some entryId ∧ w.orders.orders.find entryId = some e ∧
      w.orders.listByLegGroup trade.tradeId = .ok orders ∧
      RecordsPnl w w' trade now (DemoStrategyExecutor.realizedPnl trade.action e.toRecord
        (orders.filter fun o => o.clientOrderId ≠ entryId))) (fun _ _ => True) w := by
  unfold DemoStrategyExecutor.close
  rw [wp_bind, wp_lift]
  refine ⟨fun entryId hentry => ?_, fun _ _ => trivial⟩
  have hid := asserted_eq_ok hentry
  rw [wp_bind, wp_lift]
  refine ⟨fun _ _ => ?_, fun _ _ => trivial⟩
  rw [wp_bind, wp_askOrders]
  refine ⟨trivial, fun found s' hget => ?_, fun _ _ => trivial⟩
  cases hget
  rw [wp_bind, wp_askOrders]
  refine ⟨trivial, fun orders s' hlist => ?_, fun _ _ => trivial⟩
  obtain ⟨horders, rfl⟩ := listByLegGroup_txn hlist
  rw [wp_bind, wp_lift]
  refine ⟨fun entry hfound => ?_, fun _ _ => trivial⟩
  obtain ⟨e, he, rfl⟩ := fetch_eq_some.mp (existingOrder_eq_ok hfound)
  rw [wp_bind, wp_check]
  refine ⟨fun _ => ?_, fun _ => trivial⟩
  dsimp only
  split
  · unfold DemoStrategyExecutor.hold
    rw [wp_bind, wp_askState]
    refine ⟨trivial, fun _ _ _ hstatus => ?_, fun _ _ => trivial⟩
    exact absurd hstatus (show "SAFETY_HOLD" ≠ "CLOSED" by decide)
  · rw [wp_bind, wp_check]
    refine ⟨fun _ => ?_, fun _ => trivial⟩
    refine wp_mono (fun _ _ => trivial) (fun result w' hrecords _ => ?_) (fun _ _ _ => trivial)
      wp_book
    exact ⟨entryId, e, orders, hid, he, horders, hrecords⟩

/-- **Realized PnL.** After any calls, when `_close` closes a trade, the PnL that the trade and
the daily ledger get is the economic result of its fills exactly when no fill was worse than the
reference price of its order. -/
theorem realized_pnl (D : Digests) (obs : Answers) {w w' : World} (hcalls : Calls D obs .empty w)
    (self : DemoStrategyExecutor) (trade : AutonomousTradeRecord) (now : Instant)
    {result : DemoStrategyCycleResult}
    (hclose : Steps (exec D obs) (self.close trade now) w (.ret result) w')
    (hclosed : result.status = "CLOSED") : ∃ entryId, trade.entryClientOrderId = some entryId ∧
      (RecordsPnl w w' trade now (economicPnl trade.action w.orders trade.tradeId entryId) ↔
        NoFillWorse w.orders trade.tradeId entryId) := by
  have hmapped := mapped_calls hcalls
  obtain ⟨entryId, e, orders, hid, he, horders, hrecords⟩ := wp_steps hclose wp_close hclosed
  rw [realizedPnl_eq hmapped.ledgers he horders] at hrecords
  refine ⟨entryId, hid, ?_⟩
  rw [← hmapped.slippageTotal_eq_zero he]
  constructor
  · intro heconomic
    have hsame := heconomic.trade.symm.trans hrecords.trade
    have hpnl := Option.some.inj hsame
    linarith
  · intro hzero
    rw [hzero, sub_zero] at hrecords
    exact hrecords

/-! ### A long trade of one unit -/

instance (o : OrderRow) (price : ℚ) : Decidable (AtOrBetter o price) := by
  unfold AtOrBetter
  infer_instance

instance (s : PaperOrderStore) (tradeId entryId : String) :
    Decidable (NoFillWorse s tradeId entryId) :=
  inferInstanceAs (Decidable (∀ o ∈ _, ∀ x ∈ _, _ → _))

def strategyEnv : Env := fun name =>
  if name = "TRADING_MODE" then some "PAPER"
  else if name = "BYBIT_DEMO_API_KEY" then some "key"
  else if name = "BYBIT_DEMO_API_SECRET" then some "secret"
  else if name = "GREENFIELD_DEMO_ORDER_CONFIRMATION" then some "BYBIT_DEMO_ONLY"
  else if name = "GREENFIELD_DEMO_STRATEGY_CONFIRMATION" then
    some "CONTINUOUS_BYBIT_DEMO_STRATEGY_ONLY"
  else none

def strategyLink : String := "gfd-0123456789abcdef0123456789abcdef"

def strategyExecution (id : String) (price : ℚ) (hid : isBlank id = false) (hprice : 0 < price) :
    DemoExecution :=
  ⟨id, strategyLink, 1, price, 0, .ofInstant 1, hid, by decide, by norm_num, hprice, le_refl 0,
    by decide⟩

/-- The market is at 150, and at 160 once the entry was sent. The entry is filled at `entry`, and
the exit at `exit`. -/
def strategyAnswer (entry exit : ℚ) (hentry : 0 < entry) (hexit : 0 < exit) (w : World) (q : Query) :
    Except PyError q.Res :=
  match q with
  | .preflight => .ok ()
  | .accountBalance => .ok ⟨150, 150, 150, by norm_num⟩
  | .accountExposure => .ok ⟨[], []⟩
  | .instrumentSnapshot _ => .ok (if w.calls.isEmpty then
      ⟨"SOLUSDT", 150, 1, 1, by decide, by norm_num⟩
      else ⟨"SOLUSDT", 160, 1, 1, by decide, by norm_num⟩)
  | .setLeverage _ _ => .ok ()
  | .fetchPositions _ => .ok (if w.calls.length = 1 then
      [⟨"SOLUSDT", 0, some "Buy", 1, 100, by decide, by decide, by decide, by norm_num,
        by norm_num⟩] else [])
  | .fetchOrder _ _ => .ok (some ⟨"1", strategyLink, "SOLUSDT", .filled, 1, .ofInstant 1, none,
      by decide, by decide, by decide, by norm_num, by decide⟩)
  | .fetchExecutions _ _ => .ok [if w.calls.length = 1 then
      strategyExecution "entry" entry (by decide) hentry
      else strategyExecution "exit" exit (by decide) hexit]

def strategyExecutor : DemoStrategyExecutor where
  config := defaultRiskConfig

def strategyCall (now : Instant) : DemoProg DemoStrategyCycleResult :=
  strategyExecutor.advance sampleDigests
    { env := strategyEnv, symbol := "SOLUSDT", action := .long, observationId := "o1"
      candidateId := "c1", now }

/-- What one call opened, and the next comes to before it closes it. -/
def closingWorld (answer : World → (q : Query) → Except PyError q.Res) : World :=
  (runOps (handle sampleDigests answer) 16 (strategyCall 1000000)
    (runOps (handle sampleDigests answer) 20 (strategyCall 0) .empty).2).2

theorem calls_closingWorld (answer : World → (q : Query) → Except PyError q.Res) :
    Calls sampleDigests (fun _ _ _ => True) .empty (closingWorld answer) := by
  have hx (o : Op) (w : World) : exec sampleDigests (fun _ _ _ => True) o w
      (handle sampleDigests answer o w).1 (handle sampleDigests answer o w).2 :=
    exec_handle (fun _ _ => trivial) o w
  refine .tail (.single (.advance strategyExecutor _ _ (steps_runOps hx 20 (strategyCall 0) _))) ?_
  exact .advance strategyExecutor _ _ (steps_runOps hx 16 (strategyCall 1000000) _)

/-- The trade that is to be closed. -/
def closingTrade (answer : World → (q : Query) → Except PyError q.Res)
    (h : (closingWorld answer).state.trades.rows ≠ []) : AutonomousTradeRecord :=
  (closingWorld answer).state.trades.rows.head h

/-- What `_close` makes of it. -/
def closing (answer : World → (q : Query) → Except PyError q.Res)
    (h : (closingWorld answer).state.trades.rows ≠ []) :
    Except PyError DemoStrategyCycleResult × World :=
  (strategyExecutor.close (closingTrade answer h) 1000000).run (handle sampleDigests answer)
    (closingWorld answer)

theorem closing_steps {answer : World → (q : Query) → Except PyError q.Res}
    {h : (closingWorld answer).state.trades.rows ≠ []}
    (hclosed : (closing answer h).1.toOption.map (·.status) = some "CLOSED") :
    ∃ result, Steps (exec sampleDigests fun _ _ _ => True)
        (strategyExecutor.close (closingTrade answer h) 1000000) (closingWorld answer) (.ret result)
        (closing answer h).2 ∧ result.status = "CLOSED" := by
  obtain ⟨result, hresult, hstatus⟩ := Option.map_eq_some_iff.mp hclosed
  have hx (o : Op) (w : World) : exec sampleDigests (fun _ _ _ => True) o w
      (handle sampleDigests answer o w).1 (handle sampleDigests answer o w).2 :=
    exec_handle (fun _ _ => trivial) o w
  refine ⟨result, steps_run hx (Prod.ext ?_ rfl), hstatus⟩
  show (closing answer h).1 = _
  cases hrun : (closing answer h).1 with
  | error e =>
    rw [hrun] at hresult
    cases hresult
  | ok a =>
    rw [hrun] at hresult
    cases hresult
    rfl

def strategyEntryId : String := "paper-demo-strategy:demo-o1:entry-v1"

/-- The entry is filled at 150 and the exit at 160. -/
def fairAnswer : World → (q : Query) → Except PyError q.Res :=
  strategyAnswer 150 160 (by norm_num) (by norm_num)

/-- The entry is filled at 151 and the exit at 159. -/
def slippedAnswer : World → (q : Query) → Except PyError q.Res :=
  strategyAnswer 151 159 (by norm_num) (by norm_num)

theorem fair_trades : (closingWorld fairAnswer).state.trades.rows ≠ [] := by decide +kernel

theorem realized_pnl_fair : RecordsPnl (closingWorld fairAnswer) (closing fairAnswer fair_trades).2
    (closingTrade fairAnswer fair_trades) 1000000
    (economicPnl (closingTrade fairAnswer fair_trades).action (closingWorld fairAnswer).orders
      (closingTrade fairAnswer fair_trades).tradeId strategyEntryId) := by
  have hrun : (closing fairAnswer fair_trades).1.toOption.map (·.status) = some "CLOSED" ∧
      (closingTrade fairAnswer fair_trades).entryClientOrderId = some strategyEntryId ∧
      NoFillWorse (closingWorld fairAnswer).orders (closingTrade fairAnswer fair_trades).tradeId
        strategyEntryId := by decide +kernel
  obtain ⟨result, hsteps, hstatus⟩ := closing_steps hrun.1
  obtain ⟨entryId, hid, hiff⟩ := realized_pnl _ _ (calls_closingWorld fairAnswer) strategyExecutor
    (closingTrade fairAnswer fair_trades) 1000000 hsteps hstatus
  cases hrun.2.1.symm.trans hid
  exact hiff.mpr hrun.2.2

theorem slipped_trades : (closingWorld slippedAnswer).state.trades.rows ≠ [] := by decide +kernel

/-- A trade of one unit that earned 8, for which 6 is recorded. -/
theorem slippage_twice : ∃ (w w' : World) (trade : AutonomousTradeRecord)
    (result : DemoStrategyCycleResult) (entryId : String),
    Calls sampleDigests (fun _ _ _ => True) .empty w ∧
    Steps (exec sampleDigests fun _ _ _ => True) (strategyExecutor.close trade 1000000) w
      (.ret result) w' ∧ result.status = "CLOSED" ∧ trade.entryClientOrderId = some entryId ∧
    exitTotal w.orders trade.tradeId entryId (·.filledQuantity) =
      total w.orders.fills.rows entryId (·.filledQuantity) ∧
    economicPnl trade.action w.orders trade.tradeId entryId = 8 ∧
    RecordsPnl w w' trade 1000000 6 := by
  let w := closingWorld slippedAnswer
  let trade := closingTrade slippedAnswer slipped_trades
  let after := closing slippedAnswer slipped_trades
  have hrun : after.1.toOption.map (·.status) = some "CLOSED" ∧
      trade.entryClientOrderId = some strategyEntryId ∧
      exitTotal w.orders trade.tradeId strategyEntryId (·.filledQuantity) =
        total w.orders.fills.rows strategyEntryId (·.filledQuantity) ∧
      economicPnl trade.action w.orders trade.tradeId strategyEntryId = 8 ∧
      (after.2.state.fetch trade.tradeId).bind (·.realizedPnlUsd) = some 6 ∧
      after.2.state.pnlOf (utcDate 1000000) = w.state.pnlOf (utcDate 1000000) + 6 := by
    decide +kernel
  obtain ⟨hclosed, hentry, hquantity, heconomic, htrade, hledger⟩ := hrun
  obtain ⟨result, hsteps, hstatus⟩ := closing_steps hclosed
  exact ⟨w, _, trade, result, strategyEntryId, calls_closingWorld _, hsteps, hstatus, hentry,
    hquantity, heconomic, htrade, hledger⟩

end Greenfield.Demo
