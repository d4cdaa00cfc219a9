import Greenfield.Paper.Transitions
import Mathlib.Tactic.Linarith
import Mathlib.Tactic.FieldSimp
import Mathlib.Algebra.BigOperators.Group.List.Basic

/-!
# Fill accounting

`Accounted fills o`: every aggregate column of the order row `o` is the sum over the
rows of `paper_fills` that carry its id, the filled quantity stays within the order's
quantity, and the status says how much is filled. It holds of every order in every
reachable state (`ledgers_change`, `ledgers_reachable`). A terminal status is final
(`Outlasts`).
-/

namespace Greenfield.Paper

open Keyed Py PaperOrderStore

/-- The sum of `f` over the fills of order `c`. -/
def total (fills : List FillRow) (c : String) (f : FillRow → ℚ) : ℚ :=
  ((fills.filter fun x => x.clientOrderId = c).map f).sum

theorem total_append (fills : List FillRow) (x : FillRow) (c : String) (f : FillRow → ℚ) :
    total (fills ++ [x]) c f = total fills c f + if x.clientOrderId = c then f x else 0 := by
  unfold total
  rw [List.filter_append, List.map_append, List.sum_append]
  split <;> simp_all

variable {fills : List FillRow} {c : String}

theorem total_eq_zero (h : ∀ x ∈ fills, x.clientOrderId ≠ c)
    (f : FillRow → ℚ) : total fills c f = 0 := by
  have : fills.filter (fun x => x.clientOrderId = c) = [] := by simpa using h
  simp [total, this]

def PaperOrderState.terminal : PaperOrderState → Bool
  | .filled | .canceled | .rejected => true
  | _ => false

structure Accounted (fills : List FillRow) (o : OrderRow) : Prop where
  quantity : o.filledQuantity = total fills o.clientOrderId (·.filledQuantity)
  notional : o.filledNotional = total fills o.clientOrderId fun x => x.filledPrice * x.filledQuantity
  spread : o.spreadCostQuote = total fills o.clientOrderId (·.spreadCostQuote)
  slippage : o.slippageCostQuote = total fills o.clientOrderId (·.slippageCostQuote)
  fee : o.feeCostQuote = total fills o.clientOrderId (·.feeCostQuote)
  funding : o.fundingCostQuote = total fills o.clientOrderId (·.fundingCostQuote)
  nonneg : 0 ≤ o.filledQuantity
  bounded : o.filledQuantity ≤ o.quantity + quantityTol
  filled : o.state = .filled →
    (∃ x ∈ fills, x.clientOrderId = o.clientOrderId) ∧ o.quantity - quantityTol ≤ o.filledQuantity
  partiallyFilled : o.state = .partiallyFilled →
    0 < o.filledQuantity ∧ o.filledQuantity < o.quantity - quantityTol
  unfilled : o.state = .pendingSubmit ∨ o.state = .submitted ∨ o.state = .rejected →
    o.filledQuantity = 0
  flat : o.filledQuantity = 0 → o.filledNotional = 0

/-- The invariant: every order is accounted and every fill belongs to an order. -/
structure Ledgers (s : PaperOrderStore) : Prop where
  accounted : ∀ {c o}, s.orders.find c = some o → Accounted s.fills.rows o
  owned : ∀ x ∈ s.fills.rows, s.orders.find x.clientOrderId ≠ none

theorem quantityTol_pos : 0 < quantityTol := by norm_num [quantityTol]

/-- A new order has no fills. -/
theorem accounted_newOrder {req : OrderRequest} {now : Instant}
    (hq : 0 < req.quantity) (h : ∀ x ∈ fills, x.clientOrderId ≠ c) :
    Accounted fills (newOrder req c now) := by
  have hb : (0 : ℚ) ≤ req.quantity + quantityTol := by linarith [quantityTol_pos]
  exact ⟨(total_eq_zero h _).symm, (total_eq_zero h _).symm, (total_eq_zero h _).symm,
    (total_eq_zero h _).symm, (total_eq_zero h _).symm, (total_eq_zero h _).symm, le_refl _, hb,
    nofun, nofun, fun _ => rfl, fun _ => rfl⟩

variable {fills : List FillRow} {o : OrderRow} {now : Instant}

theorem Accounted.submit (h : Accounted fills o)
    (hst : o.state = .pendingSubmit ∨ o.state = .submitted) : Accounted fills (submitRow now o) :=
  { h with
    filled := nofun
    partiallyFilled := nofun
    unfilled := fun _ => h.unfilled (by rcases hst with e | e <;> simp [e]) }

theorem Accounted.reject {reason : String} (h : Accounted fills o)
    (hst : o.state = .pendingSubmit ∨ o.state = .submitted) :
    Accounted fills (rejectRow reason now o) :=
  { h with
    filled := nofun
    partiallyFilled := nofun
    unfilled := fun _ => h.unfilled (by rcases hst with e | e <;> simp [e]) }

theorem Accounted.cancel (h : Accounted fills o) : Accounted fills (cancelRow now o) :=
  { h with
    filled := nofun
    partiallyFilled := nofun
    unfilled := by rintro (e | e | e) <;> cases e }

/-- The notional that `_record_fill` recovers from the average price is the stored one. -/
theorem Accounted.average_mul (h : Accounted fills o) :
    o.toRecord.averageFillPrice.getD 0 * o.toRecord.filledQuantity = o.filledNotional := by
  simp only [OrderRow.toRecord]
  rcases h.nonneg.lt_or_eq with hpos | hzero
  · rw [if_pos hpos, Option.getD_some]
    exact div_mul_cancel₀ _ (ne_of_gt hpos)
  · rw [h.flat hzero.symm, ← hzero, mul_zero]

/-- Fills of other orders leave an order's sums alone. -/
theorem Accounted.other {x : FillRow} (h : Accounted fills o)
    (hx : x.clientOrderId ≠ o.clientOrderId) : Accounted (fills ++ [x]) o := by
  have e : ∀ f, total (fills ++ [x]) o.clientOrderId f = total fills o.clientOrderId f := fun f => by
    rw [total_append, if_neg hx, add_zero]
  exact { h with
    quantity := (e _).symm ▸ h.quantity
    notional := (e _).symm ▸ h.notional
    spread := (e _).symm ▸ h.spread
    slippage := (e _).symm ▸ h.slippage
    fee := (e _).symm ▸ h.fee
    funding := (e _).symm ▸ h.funding
    filled := fun hs =>
      let ⟨⟨y, hy, hid⟩, hge⟩ := h.filled hs
      ⟨⟨y, List.mem_append_left _ hy, hid⟩, hge⟩ }

/-- An applied fill adds its amounts to the order and its row to the fills. -/
theorem Accounted.fill {fill : Fill} (h : Accounted fills o) (hq : 0 < fill.filledQuantity)
    (hover : o.filledQuantity + fill.filledQuantity ≤ o.quantity + quantityTol) :
    Accounted (fills ++ [newFill o.clientOrderId fill now]) (fillOrder o.toRecord fill now o) := by
  have hnn := h.nonneg
  have e : ∀ f, total (fills ++ [newFill o.clientOrderId fill now]) o.clientOrderId f =
      total fills o.clientOrderId f + f (newFill o.clientOrderId fill now) := fun f => by
    rw [total_append]; exact congrArg _ (if_pos rfl)
  have hpos : 0 < o.filledQuantity + fill.filledQuantity := by linarith
  exact {
    quantity := (e _).trans (congrArg (· + _) h.quantity.symm) |>.symm
    notional := by
      change o.toRecord.averageFillPrice.getD 0 * o.toRecord.filledQuantity + _ = _
      rw [h.average_mul, h.notional]
      exact (e _).symm
    spread := (e _).trans (congrArg (· + _) h.spread.symm) |>.symm
    slippage := (e _).trans (congrArg (· + _) h.slippage.symm) |>.symm
    fee := (e _).trans (congrArg (· + _) h.fee.symm) |>.symm
    funding := (e _).trans (congrArg (· + _) h.funding.symm) |>.symm
    nonneg := hpos.le
    bounded := hover
    filled := fun hs => by
      refine ⟨⟨_, List.mem_append_right _ (List.mem_singleton_self _), rfl⟩, ?_⟩
      by_contra hlt
      rw [show (fillOrder o.toRecord fill now o).state = .partiallyFilled from if_neg hlt] at hs
      cases hs
    partiallyFilled := fun hs => by
      refine ⟨hpos, lt_of_not_ge fun hge => ?_⟩
      rw [show (fillOrder o.toRecord fill now o).state = .filled from if_pos hge] at hs
      cases hs
    unfilled := by
      rcases fillOrder_state o.toRecord fill now o with e | e <;> rw [e] <;>
        rintro (h | h | h) <;> cases h
    flat := fun hz => absurd hz (ne_of_gt hpos) }

/-! ## The invariant -/

variable {s s' : PaperOrderStore} {c : String}

theorem ledgers_empty : Ledgers .empty :=
  ⟨(nomatch ·), nofun⟩

variable {f : OrderRow → OrderRow} {hf : ∀ r, (f r).clientOrderId = r.clientOrderId}

/-- Rewriting one row keeps the ledgers when the new row is accounted. -/
theorem Ledgers.update
    (h : Ledgers s) (ho : s.orders.find c = some o) (ha : Accounted s.fills.rows (f o)) :
    Ledgers (s.updateOrder c f hf) where
  accounted {k x} hx := by
    rw [find_updateOrder] at hx
    split at hx
    · rw [ho] at hx; cases hx; exact ha
    · exact h.accounted hx
  owned x hx := by
    rw [find_updateOrder]
    split
    · rw [ho]; intro h; cases h
    · exact h.owned x hx

/-- **Every change keeps the ledgers.** -/
theorem ledgers_change (hc : Change s s') (h : Ledgers s) : Ledgers s' := by
  cases hc with
  | submit ho hst => exact h.update ho ((h.accounted ho).submit hst)
  | cancel ho _ => exact h.update ho (h.accounted ho).cancel
  | reject ho hst => exact h.update ho ((h.accounted ho).reject hst)
  | @begin req c now orders hq hn hi =>
    constructor
    · intro k x hx
      rw [Table.find_insert hi, newOrder_key] at hx
      split at hx
      · cases hx
        exact accounted_newOrder hq fun y hy e => h.owned y hy (e ▸ hn)
      · exact h.accounted hx
    · intro x hx
      rw [Table.find_insert hi]
      split
      · intro h; cases h
      · exact h.owned x hx
  | @fill c fill now o fills hv hf hi =>
    obtain ⟨-, ho, -, hover⟩ := hf
    obtain ⟨-, hrows⟩ := Table.insert_eq_some.mp hi
    have hid : o.clientOrderId = c := Table.find_key ho
    constructor
    · intro k x hx
      change Accounted fills.rows x
      rw [hrows]
      rw [find_fillStore] at hx
      split at hx
      · rw [ho] at hx; cases hx
        rw [← hid]
        exact (h.accounted ho).fill hv.2.1 hover
      · next hk =>
        have hxk : x.clientOrderId = k := Table.find_key hx
        exact (h.accounted hx).other fun e => hk (hxk ▸ e.symm)
    · intro x hx
      change x ∈ fills.rows at hx
      rw [find_fillStore]
      split
      · rw [ho]; intro h; cases h
      · next hne =>
        rw [hrows, List.mem_append, List.mem_singleton] at hx
        rcases hx with hx | rfl
        · exact h.owned x hx
        · exact absurd rfl hne

theorem ledgers_reachable {D : Digests} (h : s.Reachable D) : Ledgers s :=
  Reachable.invariant ledgers_empty ledgers_change h

/-! ## Terminal states -/

/-- A terminal order keeps its status and filled quantity from `s` to `s'`. -/
def Outlasts (s s' : PaperOrderStore) : Prop :=
  ∀ c o, s.orders.find c = some o → o.state.terminal = true →
    ∃ o', s'.orders.find c = some o' ∧ o'.state = o.state ∧ o'.filledQuantity = o.filledQuantity

theorem Outlasts.update
    (ho : s.orders.find c = some o) (hst : o.state.terminal = false) :
    Outlasts s (s.updateOrder c f hf) := by
  intro k x hx ht
  rw [find_updateOrder]
  split
  · next e => rw [e, ho] at hx; cases hx; rw [hst] at ht; cases ht
  · exact ⟨x, hx, rfl, rfl⟩

theorem outlasts_change (hc : Change s s') : Outlasts s s' := by
  cases hc with
  | submit ho hst => exact .update ho (by rcases hst with e | e <;> rw [e] <;> rfl)
  | cancel ho hst => exact .update ho (by rcases hst with e | e <;> rw [e] <;> rfl)
  | reject ho hst => exact .update ho (by rcases hst with e | e <;> rw [e] <;> rfl)
  | fill hv hf hi =>
    exact @Outlasts.update _ _ _ _ (fillOrder_key _ _ _) hf.2.1
      (by rcases hf.2.2.1 with e | e <;> rw [e] <;> rfl)
  | begin hq hn hi =>
    intro k x hx ht
    refine ⟨x, ?_, rfl, rfl⟩
    rw [Table.find_insert hi, newOrder_key, if_neg fun e => ?_]
    · exact hx
    · rw [e, hn] at hx; cases hx

theorem outlasts_changes (hc : Changes s s') : Outlasts s s' := by
  induction hc with
  | refl => exact fun _ o ho _ => ⟨o, ho, rfl, rfl⟩
  | tail _ h ih =>
    intro c o ho ht
    obtain ⟨o₁, h₁, hs₁, hq₁⟩ := ih c o ho ht
    obtain ⟨o₂, h₂, hs₂, hq₂⟩ := outlasts_change h c o₁ h₁ (hs₁ ▸ ht)
    exact ⟨o₂, h₂, hs₂.trans hs₁, hq₂.trans hq₁⟩

/-! ## Every run -/

/-- The contents after the calls `ops` on the empty database. -/
def after (D : Digests) (ops : List PaperOp) : PaperOrderStore :=
  Runs.run (PaperOrderStore.step D) .empty ops

/-- **Fill accounting.** After any calls every order is accounted, and later calls leave
the status and the filled quantity of a terminal order as they are. -/
theorem fill_accounting (D : Digests) (ops : List PaperOp) :
    (∀ o ∈ (after D ops).orders.rows, Accounted (after D ops).fills.rows o) ∧
      ∀ o ∈ (after D ops).orders.rows, o.state.terminal = true → ∀ more : List PaperOp,
        ∃ o' ∈ (after D (ops ++ more)).orders.rows, o'.clientOrderId = o.clientOrderId ∧
          o'.state = o.state ∧ o'.filledQuantity = o.filledQuantity := by
  have hl : Ledgers (after D ops) := ledgers_reachable ⟨ops, rfl⟩
  refine ⟨fun o ho => hl.accounted (Table.find_of_mem ho), fun o ho ht more => ?_⟩
  have hrun := outlasts_changes (changes_run (D := D) more (after D ops))
  rw [after, ← Runs.run_append] at hrun
  obtain ⟨o', h', hs, hq⟩ := hrun _ o (Table.find_of_mem ho) ht
  exact ⟨o', Table.find_mem h', Table.find_key h', hs, hq⟩

end Greenfield.Paper
