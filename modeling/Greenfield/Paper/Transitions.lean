import Greenfield.Paper.Store

/-!
# What the store's transactions can do

One specification per operation, and `Change`: the six ways a committed transaction
can change the contents, guards included. The invariants of the store are proved per
case of `Change`.
-/

namespace Greenfield.Paper

open Keyed Py

namespace PaperOrderStore

variable {D : Digests} {s s' : PaperOrderStore} {c : String} {r : PaperOrderRecord}

/-! ## Specifications -/

theorem fetch_eq_some : s.fetch c = some r ↔ ∃ o, s.orders.find c = some o ∧ o.toRecord = r := by
  simp [fetch]

theorem existing_eq_ok :
    s.existing c = .ok r ↔ ∃ o, s.orders.find c = some o ∧ o.toRecord = r := by
  rw [← fetch_eq_some]
  unfold existing
  cases s.fetch c <;> simp

theorem committed_eq_ok : s.committed c = .ok (r, s') ↔ s' = s ∧ s.fetch c = some r := by
  unfold committed
  cases s.fetch c <;> simp [and_comm, eq_comm]

variable {f : OrderRow → OrderRow} {hf : ∀ r, (f r).clientOrderId = r.clientOrderId} {k : String}

theorem find_updateOrder
    :
    (s.updateOrder c f hf).orders.find k =
      if k = c then (s.orders.find c).map f else s.orders.find k :=
  @Table.find_modify _ _ _ _ s.orders c k f hf

variable {o : OrderRow}

/-- After an update of a row that exists, the closing read succeeds. -/
theorem committed_updateOrder
    (ho : s.orders.find c = some o) :
    (s.updateOrder c f hf).committed c = .ok ((f o).toRecord, s.updateOrder c f hf) := by
  simp [committed_eq_ok, fetch_eq_some, find_updateOrder, ho]

@[simp] theorem toRecord_state (o : OrderRow) : o.toRecord.state = o.state := rfl

variable {nowUtc : Datetime}

theorem markSubmitted_eq_ok :
    s.markSubmitted c nowUtc = .ok (r, s') ↔ ∃ now o,
      utc nowUtc "paper order submitted_at" = .ok now ∧ s.orders.find c = some o ∧
      (o.state = .pendingSubmit ∨ o.state = .submitted) ∧
      r = (submitRow now o).toRecord ∧ s' = s.updateOrder c (submitRow now) (submitRow_key now) := by
  simp only [markSubmitted, bind_eq_ok, existing_eq_ok, require_eq_ok]
  constructor
  · rintro ⟨now, hnow, _, ⟨o, ho, rfl⟩, _, hst, hc⟩
    rw [committed_updateOrder ho] at hc
    cases hc
    exact ⟨now, o, hnow, ho, of_decide_eq_true hst, rfl, rfl⟩
  · rintro ⟨now, o, hnow, ho, hst, rfl, rfl⟩
    exact ⟨now, hnow, _, ⟨o, ho, rfl⟩, (), decide_eq_true hst, committed_updateOrder ho⟩

theorem markCanceled_eq_ok :
    s.markCanceled c nowUtc = .ok (r, s') ↔ ∃ now o,
      utc nowUtc "paper order canceled_at" = .ok now ∧ s.orders.find c = some o ∧
      (o.state = .canceled ∧ r = o.toRecord ∧ s' = s ∨
        (o.state = .submitted ∨ o.state = .partiallyFilled) ∧ r = (cancelRow now o).toRecord ∧
          s' = s.updateOrder c (cancelRow now) (cancelRow_key now)) := by
  simp only [markCanceled, bind_eq_ok, existing_eq_ok]
  constructor
  · rintro ⟨now, hnow, _, ⟨o, ho, rfl⟩, hc⟩
    refine ⟨now, o, hnow, ho, ?_⟩
    rw [toRecord_state] at hc
    split at hc
    · next hst => cases hc; exact .inl ⟨hst, rfl, rfl⟩
    · simp only [bind_eq_ok, require_eq_ok] at hc
      obtain ⟨_, hst, hc⟩ := hc
      rw [committed_updateOrder ho] at hc
      cases hc
      exact .inr ⟨of_decide_eq_true hst, rfl, rfl⟩
  · rintro ⟨now, o, hnow, ho, hor⟩
    refine ⟨now, hnow, _, ⟨o, ho, rfl⟩, ?_⟩
    rw [toRecord_state]
    rcases hor with ⟨hst, rfl, rfl⟩ | ⟨hst, rfl, rfl⟩
    · rw [if_pos hst]
    · rw [if_neg (by rcases hst with h | h <;> simp [h])]
      simp only [bind_eq_ok, require_eq_ok]
      exact ⟨(), decide_eq_true hst, committed_updateOrder ho⟩

theorem recordRejection_eq_ok {reason : String} :
    s.recordRejection c reason nowUtc = .ok (r, s') ↔ ∃ now o,
      utc nowUtc "paper order rejected_at" = .ok now ∧ s.orders.find c = some o ∧
      (o.state = .pendingSubmit ∨ o.state = .submitted) ∧
      r = (rejectRow reason now o).toRecord ∧
      s' = s.updateOrder c (rejectRow reason now) (rejectRow_key reason now) := by
  simp only [recordRejection, bind_eq_ok, existing_eq_ok, require_eq_ok]
  constructor
  · rintro ⟨now, hnow, _, ⟨o, ho, rfl⟩, _, hst, hc⟩
    rw [committed_updateOrder ho] at hc
    cases hc
    exact ⟨now, o, hnow, ho, of_decide_eq_true hst, rfl, rfl⟩
  · rintro ⟨now, o, hnow, ho, hst, rfl, rfl⟩
    exact ⟨now, hnow, _, ⟨o, ho, rfl⟩, (), decide_eq_true hst, committed_updateOrder ho⟩

/-! ### Fills -/

/-- A filled order is filled in part or in whole. -/
theorem fillOrder_state (e : PaperOrderRecord) (fill : Fill) (now : Instant) (o : OrderRow) :
    (fillOrder e fill now o).state = .filled ∨
      (fillOrder e fill now o).state = .partiallyFilled := by
  simp only [fillOrder]
  split
  · exact .inl rfl
  · exact .inr rfl

/-- The argument tests of `_record_fill`, with the time it stores. -/
def ValidFill (fill : Fill) (now : Instant) : Prop :=
  isBlank fill.fillId = false ∧ 0 < fill.filledQuantity ∧ 0 < fill.filledPrice ∧
    utc fill.filledAt "paper fill filled_at" = .ok now

/-- The tests under which an unseen fill is applied to the order row `o`. -/
def Fillable (s : PaperOrderStore) (c : String) (fill : Fill) (o : OrderRow) : Prop :=
  s.fills.find fill.fillId = none ∧ s.orders.find c = some o ∧
    (o.state = .submitted ∨ o.state = .partiallyFilled) ∧
    o.filledQuantity + fill.filledQuantity ≤ o.quantity + quantityTol

/-- The contents after an unseen fill is applied. -/
def fillStore (s : PaperOrderStore) (c : String) (fill : Fill) (now : Instant) (o : OrderRow)
    (fills : Table FillRow.fillId) : PaperOrderStore :=
  { s.updateOrder c (fillOrder o.toRecord fill now) (fillOrder_key _ fill now) with
    fills
    positions := applyFillToPosition s.positions o.symbol o.side fill.filledQuantity
      fill.filledPrice now }

variable {fill : Fill} {now : Instant} {fills : Table FillRow.fillId}

theorem find_fillStore
    : (s.fillStore c fill now o fills).orders.find k =
      if k = c then (s.orders.find c).map (fillOrder o.toRecord fill now)
      else s.orders.find k :=
  @find_updateOrder s c _ (fillOrder_key _ fill now) k

theorem committed_fillStore
    (ho : s.orders.find c = some o) :
    (s.fillStore c fill now o fills).committed c =
      .ok ((fillOrder o.toRecord fill now o).toRecord, s.fillStore c fill now o fills) := by
  rw [committed_eq_ok, fetch_eq_some]
  exact ⟨rfl, _, by rw [find_fillStore, if_pos rfl, ho]; rfl, rfl⟩

theorem recordFill_eq_ok :
    s.recordFill c fill = .ok (r, s') ↔ ∃ now, ValidFill fill now ∧
      ((∃ row, s.fills.find fill.fillId = some row ∧ fillRowConflicts row c fill now = false ∧
          s.fetch c = some r ∧ s' = s) ∨
        ∃ o fills, Fillable s c fill o ∧ s.fills.insert (newFill c fill now) = some fills ∧
          r = (fillOrder o.toRecord fill now o).toRecord ∧ s' = s.fillStore c fill now o fills) := by
  simp only [recordFill, bind_eq_ok, require_eq_ok, Bool.not_eq_true', decide_eq_true_eq]
  constructor
  · rintro ⟨_, h1, _, h2, _, h3, now, h4, h⟩
    refine ⟨now, ⟨h1, h2, h3, h4⟩, ?_⟩
    cases hrow : s.fills.find fill.fillId with
    | some row =>
      simp only [hrow, bind_eq_ok, require_eq_ok, Bool.not_eq_true', committed_eq_ok] at h
      obtain ⟨_, hc, rfl, hf⟩ := h
      exact .inl ⟨row, rfl, hc, hf, rfl⟩
    | none =>
      simp only [hrow, bind_eq_ok, require_eq_ok, existing_eq_ok, decide_eq_true_eq] at h
      obtain ⟨_, ⟨o, ho, rfl⟩, _, hst, _, hover, h⟩ := h
      cases hi : s.fills.insert (newFill c fill now) with
      | none => simp only [hi] at h; cases h
      | some fills =>
        simp only [hi] at h
        change (s.fillStore c fill now o fills).committed c = _ at h
        rw [committed_fillStore ho] at h
        cases h
        exact .inr ⟨o, fills, ⟨hrow, ho, hst, hover⟩, rfl, rfl, rfl⟩
  · rintro ⟨now, ⟨h1, h2, h3, h4⟩, hor⟩
    refine ⟨(), h1, (), h2, (), h3, now, h4, ?_⟩
    rcases hor with ⟨row, hrow, hc, hf, rfl⟩ | ⟨o, fills, ⟨hrow, ho, hst, hover⟩, hi, rfl, rfl⟩
    · simp only [hrow, bind_eq_ok, require_eq_ok, Bool.not_eq_true', committed_eq_ok, hf, and_self,
        and_true]
      exact ⟨(), hc⟩
    · simp only [hrow, bind_eq_ok, require_eq_ok, existing_eq_ok, decide_eq_true_eq]
      refine ⟨_, ⟨o, ho, rfl⟩, (), hst, (), hover, ?_⟩
      simp only [hi]
      exact committed_fillStore ho

theorem clientOrderIdFor_eq_ok {key : String} :
    clientOrderIdFor D key = .ok c ↔
      isBlank key = false ∧ c = "paper-" ++ D.uuid5Hex clientOrderIdNamespace key := by
  unfold clientOrderIdFor
  cases isBlank key <;> simp [eq_comm]

/-- The argument tests of `begin_order`, with the id and the time it stores. -/
def ValidRequest (D : Digests) (req : OrderRequest) (nowUtc : Datetime) (c : String)
    (now : Instant) : Prop :=
  isBlank req.symbol = false ∧ 0 < req.quantity ∧ 0 < req.referencePrice ∧
    clientOrderIdFor D req.idempotencyKey = .ok c ∧ utc nowUtc "paper order created_at" = .ok now

theorem newOrder_key (req : OrderRequest) (c : String) (now : Instant) :
    (newOrder req c now).clientOrderId = c := rfl

variable {req : OrderRequest}

theorem beginOrder_eq_ok :
    s.beginOrder D req nowUtc = .ok (r, s') ↔ ∃ c now, ValidRequest D req nowUtc c now ∧
      (s.fetch c = some r ∧ orderConflicts r req = false ∧ s' = s ∨
        s.orders.find c = none ∧ (∀ x ∈ s.orders.rows, x.idempotencyKey ≠ req.idempotencyKey) ∧
          r = (newOrder req c now).toRecord ∧
          ∃ orders, s.orders.insert (newOrder req c now) = some orders ∧ s' = { s with orders }) := by
  simp only [beginOrder, bind_eq_ok, require_eq_ok, Bool.not_eq_true', decide_eq_true_eq]
  constructor
  · rintro ⟨_, h1, _, h2, _, h3, c, h4, now, h5, h⟩
    refine ⟨c, now, ⟨h1, h2, h3, h4, h5⟩, ?_⟩
    cases hf : s.fetch c with
    | some e =>
      simp only [hf, bind_eq_ok, require_eq_ok, Bool.not_eq_true'] at h
      obtain ⟨_, hc, h⟩ := h
      cases h
      exact .inl ⟨rfl, hc, rfl⟩
    | none =>
      simp only [hf, bind_eq_ok, require_eq_ok] at h
      obtain ⟨_, huniq, h⟩ := h
      have hn : s.orders.find c = none := by simpa [fetch] using hf
      cases hi : s.orders.insert (newOrder req c now) with
      | none => simp only [hi] at h; cases h
      | some orders =>
        simp only [hi, committed_eq_ok, fetch_eq_some] at h
        obtain ⟨rfl, o, ho, rfl⟩ := h
        rw [Table.find_insert hi, newOrder_key, if_pos rfl] at ho
        cases ho
        exact .inr ⟨hn, by simpa using huniq, rfl, orders, rfl, rfl⟩
  · rintro ⟨c, now, ⟨h1, h2, h3, h4, h5⟩, hor⟩
    refine ⟨(), h1, (), h2, (), h3, c, h4, now, h5, ?_⟩
    rcases hor with ⟨hf, hc, rfl⟩ | ⟨hn, huniq, rfl, orders, hi, rfl⟩
    · simp only [hf, bind_eq_ok, require_eq_ok, Bool.not_eq_true', and_true]
      exact ⟨(), hc⟩
    · have hf : s.fetch c = none := by simpa [fetch] using hn
      simp only [hf, bind_eq_ok, require_eq_ok]
      refine ⟨(), by simpa using huniq, ?_⟩
      simp only [hi, committed_eq_ok, fetch_eq_some, true_and]
      exact ⟨_, by rw [Table.find_insert hi, newOrder_key, if_pos rfl], rfl⟩

/-- What a successful `begin_order` returned: the order of its key, as it was or new. -/
theorem begun_of_beginOrder
    (h : s.beginOrder D req nowUtc = .ok (r, s')) : ∃ o, r = o.toRecord ∧
      s'.orders.find o.clientOrderId = some o ∧ o.idempotencyKey = req.idempotencyKey ∧
      o.legGroupId = req.legGroupId ∧ (s' = s ∨ o.state = .pendingSubmit ∧
        o.clientOrderId = "paper-" ++ D.uuid5Hex clientOrderIdNamespace req.idempotencyKey ∧
        ∃ orders, s.orders.insert o = some orders ∧ s' = { s with orders }) := by
  obtain ⟨c, now, hv, ⟨hf, hconf, rfl⟩ | ⟨-, -, rfl, orders, hi, rfl⟩⟩ := beginOrder_eq_ok.mp h
  · obtain ⟨o, ho, rfl⟩ := fetch_eq_some.mp hf
    simp only [orderConflicts, decide_eq_false_iff_not, not_or, not_not] at hconf
    obtain ⟨hkey, -, -, -, -, hleg⟩ := hconf
    exact ⟨o, rfl, by rw [Table.find_key ho]; exact ho, hkey, hleg, .inl rfl⟩
  · have hfind : orders.find (newOrder req c now).clientOrderId = some (newOrder req c now) := by
      rw [Table.find_insert hi, if_pos rfl]
    exact ⟨newOrder req c now, rfl, hfind, rfl, rfl,
      .inr ⟨rfl, (clientOrderIdFor_eq_ok.mp hv.2.2.2.1).2, orders, hi, rfl⟩⟩

/-! ## Changes -/

/-- What a committed transaction can do to the contents. -/
inductive Change : PaperOrderStore → PaperOrderStore → Prop where
  | begin {s : PaperOrderStore} {req : OrderRequest} {c : String} {now : Instant}
      {orders : Table OrderRow.clientOrderId} (hq : 0 < req.quantity)
      (hn : s.orders.find c = none) (hi : s.orders.insert (newOrder req c now) = some orders) :
      Change s { s with orders }
  | submit {s : PaperOrderStore} {c : String} {now : Instant} {o : OrderRow}
      (ho : s.orders.find c = some o) (hst : o.state = .pendingSubmit ∨ o.state = .submitted) :
      Change s (s.updateOrder c (submitRow now) (submitRow_key now))
  | cancel {s : PaperOrderStore} {c : String} {now : Instant} {o : OrderRow}
      (ho : s.orders.find c = some o) (hst : o.state = .submitted ∨ o.state = .partiallyFilled) :
      Change s (s.updateOrder c (cancelRow now) (cancelRow_key now))
  | reject {s : PaperOrderStore} {c reason : String} {now : Instant} {o : OrderRow}
      (ho : s.orders.find c = some o) (hst : o.state = .pendingSubmit ∨ o.state = .submitted) :
      Change s (s.updateOrder c (rejectRow reason now) (rejectRow_key reason now))
  | fill {s : PaperOrderStore} {c : String} {fill : Fill} {now : Instant} {o : OrderRow}
      {fills : Table FillRow.fillId} (hv : ValidFill fill now) (hf : Fillable s c fill o)
      (hi : s.fills.insert (newFill c fill now) = some fills) :
      Change s (s.fillStore c fill now o fills)

/-- Every transaction leaves the contents or makes one `Change`. -/
theorem change_of_applyFillResult (h : s.applyFillResult c fill = .ok (r, s')) :
    s' = s ∨ Change s s' := by
  unfold applyFillResult at h
  split at h
  · obtain ⟨now, o, -, ho, hst, -, rfl⟩ := recordRejection_eq_ok.mp h
    exact .inr (.reject ho hst)
  · obtain ⟨now, hv, ⟨_, -, -, -, rfl⟩ | ⟨o, fills, hf, hi, -, rfl⟩⟩ := recordFill_eq_ok.mp h
    · exact .inl rfl
    · exact .inr (.fill hv hf hi)

theorem change_of_beginOrder
    (h : s.beginOrder D req nowUtc = .ok (r, s')) : s' = s ∨ Change s s' := by
  obtain ⟨c, now, hv, ⟨-, -, rfl⟩ | ⟨hn, -, -, orders, hi, rfl⟩⟩ := beginOrder_eq_ok.mp h
  · exact .inl rfl
  · exact .inr (.begin hv.2.1 hn hi)

theorem change_of_markSubmitted (h : s.markSubmitted c nowUtc = .ok (r, s')) :
    Change s s' := by
  obtain ⟨now, o, -, ho, hst, -, rfl⟩ := markSubmitted_eq_ok.mp h
  exact .submit ho hst

theorem change_of_markCanceled (h : s.markCanceled c nowUtc = .ok (r, s')) :
    s' = s ∨ Change s s' := by
  obtain ⟨now, o, -, ho, ⟨-, -, rfl⟩ | ⟨hst, -, rfl⟩⟩ := markCanceled_eq_ok.mp h
  · exact .inl rfl
  · exact .inr (.cancel ho hst)

theorem change_of_reconcileAmbiguousOrder {q : QueryFn}
    (h : s.reconcileAmbiguousOrder c q = .ok (r, s')) : s' = s ∨ Change s s' := by
  simp only [reconcileAmbiguousOrder, bind_eq_ok] at h
  obtain ⟨record, -, h⟩ := h
  split at h
  · cases h; exact .inl rfl
  · obtain ⟨a, -, h⟩ := bind_eq_ok.mp h
    cases a with
    | none => cases h; exact .inl rfl
    | some fill => exact change_of_applyFillResult h

/-! ## One order -/

/-- What becomes of an order in a change that is about it. -/
structure Follows (o o' : OrderRow) : Prop where
  key : o'.idempotencyKey = o.idempotencyKey
  leg : o'.legGroupId = o.legGroupId
  filled : o.filledQuantity ≤ o'.filledQuantity
  marked : o.state ≠ .pendingSubmit → o'.state ≠ .pendingSubmit

theorem Follows.refl (o : OrderRow) : Follows o o := ⟨rfl, rfl, le_refl _, id⟩

theorem follows_submitRow (now : Instant) (o : OrderRow) : Follows o (submitRow now o) :=
  ⟨rfl, rfl, le_refl _, fun _ h => by cases h⟩

theorem follows_cancelRow (now : Instant) (o : OrderRow) : Follows o (cancelRow now o) :=
  ⟨rfl, rfl, le_refl _, fun _ h => by cases h⟩

theorem follows_rejectRow (reason : String) (now : Instant) (o : OrderRow) :
    Follows o (rejectRow reason now o) := ⟨rfl, rfl, le_refl _, fun _ h => by cases h⟩

theorem follows_fillOrder (now : Instant) (o : OrderRow)
    (hq : 0 < fill.filledQuantity) : Follows o (fillOrder o.toRecord fill now o) := by
  refine ⟨rfl, rfl, le_add_of_nonneg_right hq.le, fun _ => ?_⟩
  rcases fillOrder_state o.toRecord fill now o with e | e <;> rw [e] <;> intro h <;> cases h

/-- At most the row of order `c` changes, and no row is added. -/
inductive Touched (c : String) (s s' : PaperOrderStore) : Prop where
  | kept (h : s'.orders = s.orders)
  | moved (o : OrderRow) (f : OrderRow → OrderRow)
      (hf : ∀ r, (f r).clientOrderId = r.clientOrderId) (ho : s.orders.find c = some o)
      (hfollows : Follows o (f o)) (h : s'.orders = s.orders.modify c f hf)

theorem Touched.find (h : Touched c s s')
    (ho : s.orders.find k = some o) : ∃ o', s'.orders.find k = some o' ∧ Follows o o' := by
  cases h with
  | kept h => exact ⟨o, h ▸ ho, .refl o⟩
  | moved x f hf hx hfollows h =>
    rw [h, Table.find_modify]
    split
    · next hk =>
      rw [hk, hx] at ho
      cases ho
      exact ⟨f o, by rw [hx]; rfl, hfollows⟩
    · exact ⟨o, ho, .refl o⟩

theorem Touched.origin (h : Touched c s s') {o' : OrderRow} (ho' : o' ∈ s'.orders.rows) :
    ∃ o ∈ s.orders.rows, o'.clientOrderId = o.clientOrderId ∧ Follows o o' := by
  cases h with
  | kept h => exact ⟨o', h ▸ ho', rfl, .refl o'⟩
  | moved x f hf hx hfollows h =>
    rw [h] at ho'
    rcases Table.mem_modify.mp ho' with ⟨ho', -⟩ | ⟨r, hr, rfl⟩
    · exact ⟨o', ho', rfl, .refl o'⟩
    · cases hx.symm.trans hr
      exact ⟨x, Table.find_mem hx, hf x, hfollows⟩

/-- An order with another id is as it was. -/
theorem Touched.other (h : Touched c s s') (hk : k ≠ c) :
    s'.orders.find k = s.orders.find k := by
  cases h with
  | kept h => rw [h]
  | moved x f hf hx hfollows h => rw [h, Table.find_modify, if_neg hk]

theorem touched_markSubmitted (h : s.markSubmitted c nowUtc = .ok (r, s')) :
    Touched c s s' := by
  obtain ⟨now, o, -, ho, -, -, rfl⟩ := markSubmitted_eq_ok.mp h
  exact .moved o _ (submitRow_key now) ho (follows_submitRow now o) rfl

theorem touched_markCanceled (h : s.markCanceled c nowUtc = .ok (r, s')) :
    Touched c s s' ∧ s'.fetch c = some r := by
  obtain ⟨now, o, -, ho, ⟨-, rfl, rfl⟩ | ⟨-, rfl, rfl⟩⟩ := markCanceled_eq_ok.mp h
  · exact ⟨.kept rfl, fetch_eq_some.mpr ⟨o, ho, rfl⟩⟩
  · exact ⟨.moved o _ (cancelRow_key now) ho (follows_cancelRow now o) rfl,
      (committed_eq_ok.mp (committed_updateOrder ho)).2⟩

theorem touched_applyFillResult (h : s.applyFillResult c fill = .ok (r, s')) :
    Touched c s s' ∧ s'.fetch c = some r := by
  unfold applyFillResult at h
  split at h
  · obtain ⟨now, o, -, ho, -, rfl, rfl⟩ := recordRejection_eq_ok.mp h
    exact ⟨.moved o _ (rejectRow_key _ now) ho (follows_rejectRow _ now o) rfl,
      (committed_eq_ok.mp (committed_updateOrder ho)).2⟩
  · obtain ⟨now, hv, ⟨_, -, -, hfetch, rfl⟩ | ⟨o, fills, hf, -, rfl, rfl⟩⟩ := recordFill_eq_ok.mp h
    · exact ⟨.kept rfl, hfetch⟩
    · exact ⟨.moved o _ (fillOrder_key _ fill now) hf.2.1 (follows_fillOrder now o hv.2.1) rfl,
        (committed_eq_ok.mp (committed_fillStore hf.2.1)).2⟩

/-- Order `c` has left `PENDING_SUBMIT`. -/
def Marked (s : PaperOrderStore) (c : String) : Prop :=
  ∃ o, s.orders.find c = some o ∧ o.state ≠ .pendingSubmit

theorem Touched.marked (h : Touched c s s') (hk : Marked s k) : Marked s' k := by
  obtain ⟨o, ho, hst⟩ := hk
  obtain ⟨o', ho', hfollows⟩ := h.find ho
  exact ⟨o', ho', hfollows.marked hst⟩

theorem marked_insert {orders : Table OrderRow.clientOrderId}
    (hi : s.orders.insert o = some orders) (hk : Marked s k) :
    Marked { s with orders } k := by
  obtain ⟨x, hx, hst⟩ := hk
  refine ⟨x, ?_, hst⟩
  rw [Table.find_insert hi, if_neg]
  · exact hx
  · rintro rfl
    rw [(Table.insert_eq_some.mp hi).1] at hx
    cases hx

/-- No order comes back to `PENDING_SUBMIT`. -/
theorem marked_change (hc : Change s s') (hk : Marked s k) : Marked s' k := by
  cases hc with
  | begin hq hn hi => exact marked_insert hi hk
  | submit ho hst => exact (Touched.moved _ _ (submitRow_key _) ho (follows_submitRow _ _) rfl).marked hk
  | cancel ho hst => exact (Touched.moved _ _ (cancelRow_key _) ho (follows_cancelRow _ _) rfl).marked hk
  | reject ho hst =>
    exact (Touched.moved _ _ (rejectRow_key _ _) ho (follows_rejectRow _ _ _) rfl).marked hk
  | fill hv hf hi =>
    exact (Touched.moved _ _ (fillOrder_key _ _ _) hf.2.1 (follows_fillOrder _ _ hv.2.1) rfl).marked hk

/-- The contents after a sequence of changes. -/
abbrev Changes : PaperOrderStore → PaperOrderStore → Prop := Relation.ReflTransGen Change

theorem changes_of_or (h : s' = s ∨ Change s s') : Changes s s' := by
  rcases h with rfl | h
  · exact .refl
  · exact .single h

theorem changes_commit {t : StoreTxn} (h : ∀ r s', t = .ok (r, s') → s' = s ∨ Change s s') :
    Changes s (commit t s) := by
  cases t with
  | error e => exact .refl
  | ok p => exact changes_of_or (h p.1 p.2 rfl)

theorem changes_reconcileEach (q : QueryFn) :
    ∀ (cs : List String) (s : PaperOrderStore), Changes s (reconcileEach q s cs).2
  | [], s => .refl
  | c :: cs, s => by
    unfold reconcileEach
    cases h : s.reconcileAmbiguousOrder c q with
    | error e => exact .refl
    | ok p =>
      exact (changes_of_or (change_of_reconcileAmbiguousOrder h)).trans
        (changes_reconcileEach q cs p.2)

/-- **Every operation is a sequence of changes.** -/
theorem changes_step (s : PaperOrderStore) (op : PaperOp) : Changes s (s.step D op) := by
  cases op with
  | beginOrder req now => exact changes_commit fun _ _ h => change_of_beginOrder h
  | markSubmitted c now => exact changes_commit fun _ _ h => .inr (change_of_markSubmitted h)
  | applyFillResult c fill => exact changes_commit fun _ _ h => change_of_applyFillResult h
  | markCanceled c now => exact changes_commit fun _ _ h => change_of_markCanceled h
  | reconcileAmbiguousOrder c q =>
    exact changes_commit fun _ _ h => change_of_reconcileAmbiguousOrder h
  | reconcileAmbiguousOrders q => exact changes_reconcileEach q _ s

variable {I : PaperOrderStore → Prop}

/-- A property that every change keeps is kept by a sequence of changes. -/
theorem Changes.invariant (hI : ∀ {s s'}, Change s s' → I s → I s')
    (hs : Changes s s') (h : I s) : I s' := by
  induction hs with
  | refl => exact h
  | tail _ hc ih => exact hI hc ih

theorem Reachable.invariant (h0 : I .empty)
    (hI : ∀ {s s'}, Change s s' → I s → I s') (h : s.Reachable D) : I s :=
  Runs.Reach.invariant h0 (fun s op => (changes_step s op).invariant hI) h

/-- A run from `s` is a sequence of changes. -/
theorem changes_run (ops : List PaperOp) (s : PaperOrderStore) :
    Changes s (Runs.run (step D) s ops) := by
  induction ops generalizing s with
  | nil => exact .refl
  | cons op ops ih => exact (changes_step s op).trans (ih _)

end PaperOrderStore

end Greenfield.Paper
