import Greenfield.Demo.Probe
import Greenfield.Demo.Lifecycle

/-!
# Trades that watch their orders

An order is live while it may rest on the exchange. A world is `Tidy` when, of the orders
of a trade, only the one that its phase awaits is live. One lemma for each transaction of a
probe says when it keeps the world tidy: a trade can be opened or closed only when no order
of it is live.
-/

namespace Greenfield.Demo

open Keyed Py Paper Effects PaperOrderStore AutonomousDemoStateStore

/-- Every order that a closed trade submitted is over, and every order that was sent is of a
trade and was submitted. -/
structure NothingLive (w : World) : Prop where
  closed : ∀ t ∈ w.state.trades.rows, t.phase = .closed → ∀ o ∈ w.orders.orders.rows,
    o.legGroupId = some t.tradeId → o.state ≠ .pendingSubmit → o.state.terminal = true
  sent : ∀ x ∈ w.calls, ∃ o ∈ w.orders.orders.rows, o.clientOrderId = x.clientOrderId ∧
    o.state ≠ .pendingSubmit ∧ ∃ t ∈ w.state.trades.rows, o.legGroupId = some t.tradeId

/-! ## The invariant -/

/-- The order may rest on the exchange. -/
def Live (o : OrderRow) : Prop := o.state = .submitted ∨ o.state = .partiallyFilled

/-- The order that a trade awaits in its phase. -/
def AutonomousTradeRecord.awaited (t : AutonomousTradeRecord) : Option String :=
  match t.phase with
  | .entrySubmitted => t.entryClientOrderId
  | .exitSubmitted => t.exitClientOrderId
  | _ => none

/-- The order that a trade awaits is of its leg, and no other order of the leg is live. -/
structure Watches (s : PaperOrderStore) (t : AutonomousTradeRecord) : Prop where
  awaited : ∀ c, t.awaited = some c → ∃ o, s.orders.find c = some o ∧ o.legGroupId = some t.tradeId
  live : t.phase ≠ .safetyHold → ∀ o ∈ s.orders.rows, o.legGroupId = some t.tradeId → Live o →
    t.awaited = some o.clientOrderId

structure Tidy (w : World) : Prop where
  ledgers : Ledgers w.orders
  legs : ∀ o ∈ w.orders.orders.rows, ∃ t ∈ w.state.trades.rows, o.legGroupId = some t.tradeId
  trades : ∀ t ∈ w.state.trades.rows, Watches w.orders t
  calls : ∀ x ∈ w.calls, w.orders.Marked x.clientOrderId

/-- No order of the trade `k` is live. -/
def NoneLive (s : PaperOrderStore) (k : String) : Prop :=
  ∀ o ∈ s.orders.rows, o.legGroupId = some k → ¬ Live o

variable {D : Digests} {w : World} {s' : PaperOrderStore} {st : AutonomousDemoStateStore}
  {t : AutonomousTradeRecord} {c k : String}

theorem tidy_empty : Tidy .empty where
  ledgers := ledgers_empty
  legs := fun _ h => absurd h List.not_mem_nil
  trades := fun _ h => absurd h List.not_mem_nil
  calls := fun _ h => absurd h List.not_mem_nil

/-- Only the order that the trade awaits can be live. -/
theorem Tidy.noneLive (h : Tidy w) (ht : t ∈ w.state.trades.rows) (hp : t.phase ≠ .safetyHold)
    (hover : ∀ c o, t.awaited = some c → w.orders.orders.find c = some o → ¬ Live o) :
    NoneLive w.orders t.tradeId := by
  intro o ho hleg hlive
  have hawaited := (h.trades t ht).live hp o ho hleg hlive
  exact hover _ o hawaited (Table.find_of_mem ho) hlive

theorem Tidy.nothingLive (h : Tidy w) : NothingLive w where
  closed := by
    intro t ht hp o ho hleg hpending
    have hnone : NoneLive w.orders t.tradeId := by
      refine h.noneLive ht (by rw [hp]; decide) fun c o hc => ?_
      unfold AutonomousTradeRecord.awaited at hc
      rw [hp] at hc
      cases hc
    have hlive := hnone o ho hleg
    unfold Live at hlive
    cases hst : o.state <;> simp_all [PaperOrderState.terminal]
  sent := by
    intro x hx
    obtain ⟨o, ho, hst⟩ := h.calls x hx
    have hmem := Table.find_mem ho
    exact ⟨o, hmem, Table.find_key ho, hst, h.legs o hmem⟩

/-! ### The order store -/

/-- A change of the order that a trade awaits. -/
theorem Tidy.touched (h : Tidy w) (ht : t ∈ w.state.trades.rows) (hc : t.awaited = some c)
    (htouched : Touched c w.orders s') (hchange : s' = w.orders ∨ Change w.orders s') :
    Tidy { w with orders := s' } where
  ledgers := by
    rcases hchange with rfl | hchange
    · exact h.ledgers
    · exact ledgers_change hchange h.ledgers
  legs := by
    intro o' ho'
    obtain ⟨o, ho, -, hfollows⟩ := htouched.origin ho'
    obtain ⟨u, hu, hleg⟩ := h.legs o ho
    exact ⟨u, hu, hfollows.leg.trans hleg⟩
  trades := by
    intro u hu
    refine ⟨fun d hd => ?_, fun hp o' ho' hleg hlive => ?_⟩
    · obtain ⟨o, ho, hleg⟩ := (h.trades u hu).awaited d hd
      obtain ⟨o', ho', hfollows⟩ := htouched.find ho
      exact ⟨o', ho', hfollows.leg.trans hleg⟩
    · obtain ⟨o, ho, hid, hfollows⟩ := htouched.origin ho'
      by_cases hkey : o'.clientOrderId = c
      · obtain ⟨x, hx, hxleg⟩ := (h.trades t ht).awaited c hc
        have hox : o = x := by
          have hfind := Table.find_of_mem ho
          rw [← hid, hkey, hx] at hfind
          exact (Option.some.inj hfind).symm
        have hids : u.tradeId = t.tradeId := by
          rw [hfollows.leg, hox, hxleg] at hleg
          exact (Option.some.inj hleg).symm
        rw [Table.eq_of_key_eq hu ht hids, hc, hkey]
      · have hsame := htouched.other hkey
        rw [Table.find_of_mem ho'] at hsame
        exact (h.trades u hu).live hp o' (Table.find_mem hsame.symm) hleg hlive
  calls := fun x hx => htouched.marked (h.calls x hx)

variable {req : OrderRequest} {now : Datetime} {r : PaperOrderRecord}

/-- An order of a leg is begun. -/
theorem Tidy.begun (h : Tidy w) (ht : w.state.fetch k = some t)
    (hleg : req.legGroupId = some k)
    (hr : w.orders.beginOrder D req now = .ok (r, s')) : Tidy { w with orders := s' } := by
  obtain ⟨o, -, -, -, holeg, rfl | ⟨hst, -, orders, hi, rfl⟩⟩ := begun_of_beginOrder hr
  · exact h
  · obtain ⟨hnone, hrows⟩ := Table.insert_eq_some.mp hi
    have hledgers : Ledgers { w.orders with orders } := by
      rcases change_of_beginOrder hr with heq | hchange
      · rw [heq]
        exact h.ledgers
      · exact ledgers_change hchange h.ledgers
    have hold : ∀ {d x}, w.orders.orders.find d = some x → orders.find d = some x := by
      intro d x hx
      rw [Table.find_insert hi, if_neg]
      · exact hx
      · rintro rfl
        rw [hnone] at hx
        cases hx
    refine ⟨hledgers, fun x hx => ?_, fun u hu => ⟨fun d hd => ?_, fun hp x hx hxleg hlive => ?_⟩,
      fun x hx => marked_insert hi (h.calls x hx)⟩
    · rw [hrows, List.mem_append, List.mem_singleton] at hx
      rcases hx with hx | rfl
      · exact h.legs x hx
      · refine ⟨t, Table.find_mem ht, ?_⟩
        rw [holeg, hleg, Table.find_key ht]
    · obtain ⟨x, hx, hxleg⟩ := (h.trades u hu).awaited d hd
      exact ⟨x, hold hx, hxleg⟩
    · rw [hrows, List.mem_append, List.mem_singleton] at hx
      rcases hx with hx | rfl
      · exact (h.trades u hu).live hp x hx hxleg hlive
      · unfold Live at hlive
        rw [hst] at hlive
        rcases hlive with hlive | hlive <;> cases hlive

/-- A begun order is in its leg; it is new and pending, or was there. -/
theorem NoneLive.begun (h : NoneLive w.orders k)
    (hleg : req.legGroupId = some k)
    (hr : w.orders.beginOrder D req now = .ok (r, s')) : NoneLive s' k ∧
      ∃ o, s'.orders.find r.clientOrderId = some o ∧ o.legGroupId = some k := by
  obtain ⟨o, rfl, hfind, -, holeg, hor⟩ := begun_of_beginOrder hr
  refine ⟨?_, o, hfind, holeg.trans hleg⟩
  rcases hor with rfl | ⟨hst, -, orders, hi, rfl⟩
  · exact h
  · intro x hx hxleg hlive
    rw [(Table.insert_eq_some.mp hi).2, List.mem_append, List.mem_singleton] at hx
    rcases hx with hx | rfl
    · exact h x hx hxleg hlive
    · unfold Live at hlive
      rw [hst] at hlive
      rcases hlive with hlive | hlive <;> cases hlive

/-! ### The state store -/

/-- Whatever becomes of the trades, each trade that is left watches its leg. -/
theorem Tidy.state (h : Tidy w)
    (hold : ∀ t ∈ w.state.trades.rows, ∃ t' ∈ st.trades.rows, t'.tradeId = t.tradeId)
    (hnew : ∀ t ∈ st.trades.rows, Watches w.orders t) : Tidy { w with state := st } where
  ledgers := h.ledgers
  legs := by
    intro o ho
    obtain ⟨t, ht, hleg⟩ := h.legs o ho
    obtain ⟨t', ht', hkey⟩ := hold t ht
    exact ⟨t', ht', hkey ▸ hleg⟩
  trades := hnew
  calls := h.calls

theorem Tidy.sameTrades (h : Tidy w) (hs : st.trades = w.state.trades) :
    Tidy { w with state := st } :=
  h.state (fun t ht => ⟨t, hs ▸ ht, rfl⟩) fun t ht => h.trades t (hs ▸ ht)

variable {at_ : Datetime} {r : AutonomousTradeRecord}

/-- A transition of a trade that watches its leg afterwards. -/
theorem Tidy.transition (h : Tidy w) {allowed : List AutonomousTradePhase}
    {target : AutonomousTradePhase} {updates : List FieldUpdate}
    {replaceable : List TradeField}
    (hr : w.state.transition k allowed target updates at_ replaceable = .ok (r, st))
    (hwatch : r.tradeId = k → Watches w.orders r) :
    Tidy { w with state := st } ∧ st.fetch k = some r ∧ r.tradeId = k := by
  obtain ⟨t, now, ht, -, -, -, rfl, rfl⟩ := transition_eq_ok hr
  have hkey : (transitionRow target updates now t).tradeId = k :=
    (transitionRow_key target updates now t).trans (Table.find_key ht)
  have hfetch : AutonomousDemoStateStore.fetch { w.state with
      trades := w.state.trades.modify k (transitionRow target updates now)
        (transitionRow_key target updates now) } k = some (transitionRow target updates now t) := by
    unfold AutonomousDemoStateStore.fetch
    rw [Table.find_modify, if_pos rfl, show w.state.trades.find k = some t from ht]
    rfl
  have hmem := fun u =>
    @Table.mem_modify _ _ _ _ w.state.trades k _ (transitionRow_key target updates now) u
  refine ⟨h.state (fun u hu => ?_) fun u hu => ?_, hfetch, hkey⟩
  · by_cases huk : u.tradeId = k
    · exact ⟨_, Table.find_mem hfetch, hkey.trans huk.symm⟩
    · exact ⟨u, (hmem u).mpr (.inl ⟨hu, huk⟩), rfl⟩
  · rcases (hmem u).mp hu with ⟨hu, -⟩ | ⟨x, hx, rfl⟩
    · exact h.trades u hu
    · cases (show w.state.trades.find k = some t from ht).symm.trans hx
      exact hwatch hkey

/-- A trade that awaits nothing watches its leg when no order of it is live. -/
theorem NoneLive.watches (h : NoneLive w.orders k) (hk : r.tradeId = k)
    (hawaited : ∀ c, r.awaited = some c →
      ∃ o, w.orders.orders.find c = some o ∧ o.legGroupId = some k) : Watches w.orders r := by
  refine ⟨fun c hc => hk ▸ hawaited c hc, fun _ o ho hleg hlive => ?_⟩
  rw [hk] at hleg
  exact absurd hlive (h o ho hleg)

theorem awaited_eq_none (hentry : r.phase ≠ .entrySubmitted)
    (hexit : r.phase ≠ .exitSubmitted) : r.awaited = none := by
  unfold AutonomousTradeRecord.awaited
  cases hp : r.phase <;> simp_all

variable {reason : String}

/-- A held trade is not watched any more. -/
theorem Tidy.held (h : Tidy w)
    (hr : w.state.markSafetyHold k reason at_ = .ok (r, st)) : Tidy { w with state := st } := by
  simp only [markSafetyHold, bind_eq_ok] at hr
  obtain ⟨-, -, hr⟩ := hr
  obtain ⟨t, now, -, -, -, -, rfl, -⟩ := transition_eq_ok hr
  have hp := transitionRow_phase .safetyHold [.safetyReason reason] now t
  refine (h.transition hr fun _ => ⟨fun c hc => ?_, fun hne => absurd hp hne⟩).1
  rw [awaited_eq_none (by rw [hp]; decide) (by rw [hp]; decide)] at hc
  cases hc

/-- A trade is closed when no order of it is live. -/
theorem Tidy.closed (h : Tidy w) (hnone : NoneLive w.orders k) {pnl : ℚ}
    (hr : w.state.markClosed k pnl at_ = .ok (r, st)) :
    Tidy { w with state := st } := by
  simp only [markClosed, bind_eq_ok] at hr
  obtain ⟨closed, -, hr⟩ := hr
  obtain ⟨t, now, -, -, -, -, rfl, -⟩ := transition_eq_ok hr
  have hp := transitionRow_phase .closed [.realizedPnlUsd pnl, .closedAtUtc closed] now t
  refine (h.transition hr fun hk => hnone.watches hk fun c hc => ?_).1
  rw [awaited_eq_none (by rw [hp]; decide) (by rw [hp]; decide)] at hc
  cases hc

/-- A trade is opened when no order of it is live. -/
theorem Tidy.opened (h : Tidy w) (hnone : NoneLive w.orders k) {price : ℚ}
    (hr : w.state.markOpen k price at_ = .ok (r, st)) :
    Tidy { w with state := st } ∧ st.fetch k = some r ∧ r.tradeId = k ∧ r.phase = .open := by
  simp only [markOpen, bind_eq_ok] at hr
  obtain ⟨-, -, opened, -, hr⟩ := hr
  obtain ⟨t, now, -, -, -, -, rfl, -⟩ := transition_eq_ok hr
  have hp := transitionRow_phase .open [.entryFillPrice price, .openedAtUtc opened] now t
  obtain ⟨htidy, hfetch, hk⟩ := h.transition hr fun hk => hnone.watches hk fun c hc => by
    rw [awaited_eq_none (by rw [hp]; decide) (by rw [hp]; decide)] at hc
    cases hc
  exact ⟨htidy, hfetch, hk, hp⟩

/-- A trade awaits its entry, an order of its leg. -/
theorem Tidy.entrySubmitted (h : Tidy w) (hnone : NoneLive w.orders k)
    (hc : ∃ o, w.orders.orders.find c = some o ∧ o.legGroupId = some k)
    (hr : w.state.markEntrySubmitted k c at_ = .ok (r, st)) :
    Tidy { w with state := st } ∧ st.fetch k = some r ∧ r.phase = .entrySubmitted ∧
      r.entryClientOrderId = some c := by
  obtain ⟨t, now, -, -, -, -, rfl, -⟩ := transition_eq_ok hr
  have hp := transitionRow_phase .entrySubmitted [.entryClientOrderId c] now t
  obtain ⟨htidy, hfetch, -⟩ := h.transition hr fun hk => hnone.watches hk fun d hd => by
    cases hd
    exact hc
  exact ⟨htidy, hfetch, hp, rfl⟩

/-- A trade awaits its exit, an order of its leg. -/
theorem Tidy.exitSubmitted (h : Tidy w) (hnone : NoneLive w.orders k)
    (hc : ∃ o, w.orders.orders.find c = some o ∧ o.legGroupId = some k)
    (hr : w.state.markExitSubmitted k c reason at_ = .ok (r, st)) :
    Tidy { w with state := st } ∧ st.fetch k = some r ∧ r.phase = .exitSubmitted ∧
      r.exitClientOrderId = some c := by
  simp only [markExitSubmitted, bind_eq_ok] at hr
  obtain ⟨-, -, hr⟩ := hr
  obtain ⟨t, now, -, -, -, -, rfl, -⟩ := transition_eq_ok hr
  have hp := transitionRow_phase .exitSubmitted [.exitClientOrderId c, .exitReason reason] now t
  obtain ⟨htidy, hfetch, -⟩ := h.transition hr fun hk => hnone.watches hk fun d hd => by
    cases hd
    exact hc
  exact ⟨htidy, hfetch, hp, rfl⟩

/-- A trade is begun. -/
theorem Tidy.beginTrade (h : Tidy w) {req : TradeRequest}
    (hr : w.state.beginTrade D req at_ = .ok (r, st)) :
    Tidy { w with state := st } ∧ st.fetch r.tradeId = some r := by
  obtain ⟨-, ⟨hfetch, rfl⟩ | ⟨now, trades, -, rfl, hi, rfl⟩⟩ := beginTrade_eq_ok hr
  · exact ⟨h, by rw [Table.find_key hfetch]; exact hfetch⟩
  · obtain ⟨hnone, hrows⟩ := Table.insert_eq_some.mp hi
    refine ⟨h.state (fun t ht => ⟨t, ?_, rfl⟩) fun t ht => ?_, ?_⟩
    · show t ∈ trades.rows
      rw [hrows]
      exact List.mem_append_left _ ht
    · change t ∈ trades.rows at ht
      rw [hrows, List.mem_append, List.mem_singleton] at ht
      rcases ht with ht | rfl
      · exact h.trades t ht
      · refine ⟨fun c hc => (by cases hc), fun _ o ho hleg => ?_⟩
        obtain ⟨u, hu, hu'⟩ := h.legs o ho
        rw [hleg] at hu'
        have hfind := Table.find_of_mem hu
        rw [← Option.some.inj hu', hnone] at hfind
        cases hfind
    · show trades.find _ = some _
      rw [Table.find_insert hi, if_pos rfl]

/-- The active trade is the one that is not closed. -/
theorem activeTrade_eq_ok {active : Option AutonomousTradeRecord}
    (hr : w.state.activeTrade = .ok (active, st)) : st = w.state ∧
      (∀ t, active = some t → w.state.fetch t.tradeId = some t) ∧
      ∀ t ∈ w.state.trades.rows, t.phase ≠ .closed → active = some t := by
  simp only [AutonomousDemoStateStore.activeTrade, fetchActive, bind_eq_ok, require_eq_ok,
    decide_eq_true_eq, Except.ok.injEq, Prod.mk.injEq] at hr
  obtain ⟨-, ⟨-, hlen, rfl⟩, rfl, rfl⟩ := hr
  generalize hrows : sorted (fun a b : AutonomousTradeRecord =>
    decide (a.createdAtUtc ≤ b.createdAtUtc)) w.state.activeRows = rows at hlen
  have hmem : ∀ t, t ∈ rows ↔ t ∈ w.state.trades.rows ∧ t.phase ≠ .closed := by
    intro t
    rw [← hrows, mem_sorted, activeRows, List.mem_filter, decide_eq_true_eq, mem_activePhases]
  refine ⟨rfl, fun t ht => ?_, fun t ht hp => ?_⟩
  · exact Table.find_of_mem ((hmem t).mp (List.mem_of_mem_head? ht)).1
  · have htrows := (hmem t).mpr ⟨ht, hp⟩
    have hpos := List.length_pos_of_mem htrows
    obtain ⟨u, rfl⟩ := List.length_eq_one_iff.mp (show rows.length = 1 by omega)
    rw [List.mem_singleton.mp htrows]
    rfl

end Greenfield.Demo
