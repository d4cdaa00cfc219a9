import Greenfield.Demo.StrandedExit

/-!
# Each leg is sent once

A leg is placed only when its order was read as pending, and the order is marked before the call.
So no two `place_*` calls of any run are for one client order id, also where a process stopped
between the mark and the call, for the strategy executor (`sent_once`) and for the BTC round trip
(`sent_once_in_order`).
-/

namespace Greenfield.Demo

open Keyed Py Paper Effects PaperOrderStore

/-- The calls are for orders of their own, and these are marked. -/
structure SentOnce (w : World) : Prop where
  nodup : (w.calls.map PlaceCall.clientOrderId).Nodup
  marked : ∀ call ∈ w.calls, Marked w.orders call.clientOrderId

variable {D : Digests} {obs : Answers} {w w' : World} {c : String}

namespace SentOnce

theorem exec {o : Op} {r : Except PyError o.Res} (ho : o.isPlace = false)
    (hx : exec D obs o w r w') (h : SentOnce w) : SentOnce w' := by
  have hcalls : w'.calls = w.calls := by
    cases o with
    | orders o =>
      obtain ⟨s', -, rfl⟩ := hx
      rfl
    | state o =>
      obtain ⟨s', -, rfl⟩ := hx
      rfl
    | place => cases ho
    | query q =>
      obtain ⟨rfl, -⟩ := hx
      rfl
  exact ⟨hcalls ▸ h.nodup, fun call hcall =>
    DemoBtcRoundTripCoordinator.marked_changes (exec_changes hx) (h.marked call (hcalls ▸ hcall))⟩

/-- A transaction of the order store. -/
theorem txn {o : OrderOp} {a : o.Res} {s' : PaperOrderStore} (h : SentOnce w)
    (ht : o.txn D w.orders = .ok (a, s')) : SentOnce { w with orders := s' } := by
  have hx : Demo.exec D (fun _ _ _ => True) (.orders o) w (.ok a) { w with orders := s' } :=
    ⟨s', by rw [ht]; rfl, rfl⟩
  exact h.exec rfl hx

/-- A call for a marked order that had none. -/
theorem place (h : SentOnce w) (call : PlaceCall) (hmarked : Marked w.orders call.clientOrderId)
    (hnew : call.clientOrderId ∉ w.calls.map PlaceCall.clientOrderId) :
    SentOnce { w with calls := w.calls ++ [call] } := by
  refine ⟨?_, fun x hx => ?_⟩
  · rw [List.map_append, List.map_singleton]
    exact List.nodup_append_comm.mp (List.nodup_cons.mpr ⟨hnew, h.nodup⟩)
  · rcases List.mem_append.mp hx with hx | hx
    · exact h.marked x hx
    · rw [List.mem_singleton.mp hx]
      exact hmarked

end SentOnce

theorem once_reconcile (c : String) : Keeps (exec D obs) SentOnce (reconcile D c) :=
  keeps_all (fun _ _ _ _ ho hx h => h.exec ho hx) (reconcile_all (fun _ _ => rfl) (fun _ => rfl) c)

variable {now : Instant} {quantity : ℚ}

/-- A pending order has no call, and it is marked before its call. -/
theorem once_send {o : OrderRow} {request : String → PaperOrderRecord → PlaceRequest}
    {mismatch : PyError} (h : SentOnce w) (ho : w.orders.orders.find c = some o)
    (hpending : o.state = .pendingSubmit) :
    wp (exec D obs) SentOnce (do
        let order ← askOrders (.markSubmitted c (.ofInstant now))
        let orderLinkId ← Prog.lift (demoOrderLinkIdFor D order.clientOrderId)
        let ack ← place now order.clientOrderId (request orderLinkId order)
        Prog.check (ack.orderLinkId = orderLinkId) mismatch
        return order : DemoProg PaperOrderRecord)
      (fun _ => SentOnce) (fun _ => SentOnce) w := by
  have hnew : c ∉ w.calls.map PlaceCall.clientOrderId := by
    intro hmem
    obtain ⟨call, hcall, rfl⟩ := List.mem_map.mp hmem
    obtain ⟨o', ho', hmarked⟩ := h.marked call hcall
    cases ho.symm.trans ho'
    exact hmarked hpending
  rw [wp_bind, wp_askOrders]
  refine ⟨h, fun a s' ht => ?_, fun _ _ => h⟩
  have honce := h.txn ht
  obtain ⟨i, o', -, ho', -, rfl, hs⟩ := markSubmitted_eq_ok.mp ht
  have hmarked : Marked s' c :=
    ⟨submitRow i o', by rw [hs, find_updateOrder, if_pos rfl, ho']; rfl, nofun⟩
  have hid : o'.clientOrderId = c := Table.find_key ho'
  rw [wp_bind, wp_lift]
  refine ⟨fun link _ => ?_, fun _ _ => honce⟩
  rw [wp_bind, show (submitRow i o').toRecord.clientOrderId = c from hid]
  refine wp_perform.mpr ⟨honce, fun ack v hx => ?_⟩
  obtain ⟨received, rfl, -⟩ := hx
  have hplaced := honce.place ⟨now, c, request link (submitRow i o').toRecord, received⟩
    hmarked hnew
  refine ⟨fun ack _ => ?_, fun _ _ => hplaced⟩
  exact ((keeps_check _ _).bind fun _ => keeps_ret _) _ hplaced

/-! ## The strategy executor -/

theorem once_others : KeptByOthers D obs SentOnce :=
  ⟨fun _ _ _ _ _ ho hx h => h.exec ho hx, once_reconcile⟩

/-- What `_submit` sends is the order that it began or found. -/
theorem once_parts : KeptByParts D obs SentOnce where
  toKeptByOthers := once_others
  submit self trade exitReason quantity referencePrice now := by
    unfold DemoStrategyExecutor.submit
    refine (once_others.legSuffix _).bind fun suffix w h => ?_
    rw [wp_bind, wp_askOrders]
    refine ⟨h, fun order s' ht => ?_, fun _ _ => h⟩
    obtain ⟨o, ho, rfl⟩ := fetch_eq_some.mp (DemoBtcRoundTripCoordinator.beginOrder_fetch ht)
    refine wp_bind_keeps (P := fun v => SentOnce v ∧ v.orders = s')
      (keeps_markLeg (fun op => ?_) _ _) ⟨h.txn ht, rfl⟩ (fun _ h => h.1) (fun _ _ h => h.1) fun _ v hv => ?_
    · refine keeps_perform fun v r v' hx hv => ⟨hv.1.exec rfl hx, ?_⟩
      obtain ⟨s'', -, rfl⟩ := hx
      exact hv.2
    · split
      · next hpending =>
        have hid : o.clientOrderId = _ := Table.find_key ho
        unfold DemoStrategyExecutor.send
        rw [show o.toRecord.clientOrderId = _ from hid]
        exact once_send hv.1 (hv.2 ▸ ho) hpending
      · exact hv.1

/-- **Each leg is sent once** by the executor, in any calls one after another, each stopped
anywhere. -/
theorem sent_once (h : Calls D obs .empty w) : SentOnce w :=
  Calls.invariant once_parts h ⟨List.nodup_nil, nofun⟩

/-- The entry and the exit of two calls. -/
theorem sent_once_exited : halfExited.calls.length = 2 ∧ SentOnce halfExited :=
  ⟨by decide +kernel, sent_once calls_halfExited⟩

/-! ## The round trip -/

namespace DemoBtcRoundTripCoordinator

variable {r : DemoBtcRoundTripRequest} {n : Nat} {market : PublicLinearInstrumentSnapshot}
  {entryOrder : PaperOrderRecord} {price : ℚ} {attempts : List Nat}

theorem once_sendPending {side : IntentSide} {reduceOnly : Bool} {mismatch : String}
    {order : PaperOrderRecord} (h : SentOnce w) (horder : w.orders.fetch c = some order) :
    wp (exec D obs) SentOnce (sendPending D side reduceOnly mismatch now order)
      (fun _ => SentOnce) (fun _ => SentOnce) w := by
  obtain ⟨o, ho, rfl⟩ := fetch_eq_some.mp horder
  unfold sendPending
  split
  · next hpending =>
    have hid : o.clientOrderId = c := Table.find_key ho
    rw [show o.toRecord.clientOrderId = c from hid]
    exact once_send h ho hpending
  · exact h

/-- The order of a leg is the one of its key, found or begun. -/
theorem once_closeAttempt :
    Keeps (exec D obs) SentOnce (closeAttempt D r.requestId n quantity price now) := by
  intro w h
  unfold closeAttempt getByIdempotencyKey
  rw [clientOrderIdFor_leg (isBlank_closeKey _ _), wp_bind, Prog.lift_ok_bind, wp_askOrders]
  refine ⟨h, fun found s' ht => ?_, fun _ _ => h⟩
  cases ht
  rw [wp_bind]
  cases hfound : w.orders.get (legId D (closeKey r.requestId n)) with
  | some order => exact once_sendPending h hfound
  | none =>
    unfold beginClose
    rw [wp_askOrders]
    exact ⟨h, fun order s' ht => once_sendPending (h.txn ht) (beginOrder_fetch ht), fun _ _ => h⟩

theorem once_closeAndReconcile :
    Keeps (exec D obs) SentOnce (closeAndReconcile D r.requestId n quantity price now) := by
  refine once_closeAttempt.bind fun close => (once_parts.reconcileOrder _).bind fun found => ?_
  split
  · exact keeps_ret _
  · exact (keeps_durableOrder _).bind fun _ => keeps_ret _

theorem once_entry :
    Keeps (execRoundTrip D obs) SentOnce (entry D r.requestId market quantity now) := by
  intro w h
  unfold entry getByIdempotencyKey
  rw [clientOrderIdFor_leg (isBlank_entryKey _), Prog.lift_ok_bind, wp_bind, wp_inl, wp_askOrders]
  refine ⟨h, fun found s' ht => ?_, fun _ _ => h⟩
  cases ht
  rw [wp_bind]
  cases hfound : w.orders.get (legId D (entryKey r.requestId)) with
  | some order => exact wp_inl.mpr (once_sendPending h hfound)
  | none =>
    unfold beginEntry
    refine wp_bind_keeps (keeps_openOrderCount _) h (fun _ h => h) (fun _ _ h => h) fun _ w h => ?_
    rw [wp_bind, wp_check]
    refine ⟨fun _ => ?_, fun _ => h⟩
    refine wp_bind_keeps keeps_exchangeSize.inl h (fun _ h => h) (fun _ _ h => h) fun _ w h => ?_
    rw [wp_bind, wp_check]
    refine ⟨fun _ => ?_, fun _ => h⟩
    refine wp_bind_keeps (keeps_ask _).inl h (fun _ h => h) (fun _ _ h => h) fun _ w h => ?_
    rw [wp_inl, wp_askOrders]
    refine ⟨h, fun order s' ht => ?_, fun _ _ => h⟩
    exact wp_inl.mpr (once_sendPending (h.txn ht) (beginOrder_fetch ht))

theorem once_closeEntry :
    ∀ {closes : List PaperOrderRecord}, Keeps (execRoundTrip D obs) SentOnce
      (closeEntry D r.requestId market quantity entryOrder price now attempts closes) := by
  induction attempts with
  | nil =>
    intro closes
    exact keeps_exchangeSize.inl.bind fun _ => (keeps_check _ _).bind fun _ => keeps_complete
  | cons n rest ih =>
    exact fun w => wp_closeEntry_cons (fun _ h => h) (fun _ _ h => h)
      (fun _ => once_closeAndReconcile) (fun _ w _ => ih w)

theorem once_closeDuringLag :
    ∀ {closes : List PaperOrderRecord}, Keeps (execRoundTrip D obs) SentOnce
      (closeDuringEntryExecutionLag D r.requestId market entryOrder now attempts closes) := by
  induction attempts with
  | nil => exact keeps_raise _
  | cons n rest ih =>
    exact fun w => wp_closeDuringLag_cons (fun _ h => h) (fun _ _ h => h)
      (fun _ => once_closeAndReconcile) (fun _ w _ => ih w)

theorem once_advance (env : Env) (now : Instant) :
    Keeps (execRoundTrip D obs) SentOnce (advance D r env now) := by
  refine (keeps_lift _).bind fun _ => (keeps_ask _).inl.bind fun _ => ?_
  refine (keeps_ask _).inl.bind fun market => (keeps_lift _).bind fun quantity => ?_
  refine once_entry.bind fun order => (once_parts.reconcileOrder _).inl.bind fun found => ?_
  split
  · unfold followEntry
    split
    · exact keeps_result
    · split
      · exact keeps_result
      · refine (keeps_check _ _).bind fun _ => ?_
        split
        · exact keeps_raise _
        · exact once_closeEntry
  · exact (keeps_durableOrder _).inl.bind fun _ => once_closeDuringLag

/-- **Each leg is sent once**, and in order. -/
theorem sent_once_in_order (h : RoundTripCalls D obs .empty w) : SentOnce w ∧ InOrder D w := by
  refine ⟨?_, inOrder_calls h⟩
  induction h with
  | refl => exact ⟨List.nodup_nil, nofun⟩
  | tail _ hcall ih =>
    cases hcall with
    | advance r env now p hsteps => exact (once_advance env now).steps hsteps ih
    | reconcile c p hsteps => exact (once_reconcile c).steps hsteps ih

/-- The entry and the close of one call. -/
theorem sent_once_in_order_closed : halfClosed.calls.length = 2 ∧ SentOnce halfClosed ∧
    InOrder sampleDigests halfClosed :=
  ⟨by decide +kernel, sent_once_in_order calls_halfClosed⟩

end DemoBtcRoundTripCoordinator

end Greenfield.Demo
