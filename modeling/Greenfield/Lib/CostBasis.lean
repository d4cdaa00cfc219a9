import Mathlib.Algebra.Order.Field.Basic
import Mathlib.Algebra.BigOperators.Group.List.Basic
import Mathlib.Tactic.Ring
import Mathlib.Tactic.Linarith
import Mathlib.Tactic.LinearCombination

/-!
# Average cost ledgers

A book holds a signed net quantity at an average price and the profit realised so
far. A trade on the held side averages its price in; an opposite trade realises the
difference of its price and the average on what it closes, and a trade larger than the
holding reopens at its own price. Whatever the moves, the realised profit is the
holding at its average price less the money paid for it (`Balances`), so a flat book's
profit is the money received.
-/

namespace CostBasis

variable {K : Type} [Field K]

/-- A signed quantity at a price. -/
structure Trade (K : Type) where
  quantity : K
  price : K
  deriving DecidableEq

structure Book (K : Type) where
  net : K
  average : K
  realized : K

/-- The net quantity of `ts`. -/
def volume (ts : List (Trade K)) : K := (ts.map (·.quantity)).sum

/-- The money paid for `ts`. -/
def paid (ts : List (Trade K)) : K := (ts.map fun t => t.quantity * t.price).sum

theorem volume_append (ts us : List (Trade K)) : volume (ts ++ us) = volume ts + volume us := by
  simp [volume]

theorem paid_append (ts us : List (Trade K)) : paid (ts ++ us) = paid ts + paid us := by
  simp [paid]

variable {ts us : List (Trade K)}

theorem volume_perm (h : ts.Perm us) : volume ts = volume us :=
  (h.map _).sum_eq

theorem paid_perm (h : ts.Perm us) : paid ts = paid us :=
  (h.map _).sum_eq

namespace Book

variable {b : Book K} {t : Trade K} {ts : List (Trade K)}

def flat : Book K := ⟨0, 0, 0⟩

/-- The book holds the volume of `ts`, and its profit is the holding at its average price
less what was paid. -/
structure Balances (b : Book K) (ts : List (Trade K)) : Prop where
  net : b.net = volume ts
  realized : b.realized = b.net * b.average - paid ts

theorem balances_flat : Balances (flat : Book K) [] := by
  constructor <;> simp [flat, volume, paid]

/-- A move keeps the balance when the value of the holding changes by what the move
realises and pays. -/
theorem Balances.move {b' : Book K} (h : b.Balances ts) (hn : b'.net = b.net + t.quantity)
    (hv : b'.realized - b.realized = b'.net * b'.average - b.net * b.average -
      t.quantity * t.price) : b'.Balances (ts ++ [t]) := by
  have hvol : volume [t] = t.quantity := by simp [volume]
  have hpaid : paid [t] = t.quantity * t.price := by simp [paid]
  constructor
  · rw [hn, volume_append, hvol, h.net]
  · rw [paid_append, hpaid]
    linear_combination hv + h.realized

/-! ## Moves -/

variable [LinearOrder K]

/-- `t` is on the held side, or nothing is held. -/
def Joins (b : Book K) (t : Trade K) : Prop := b.net = 0 ∨ (0 < b.net ↔ 0 < t.quantity)

instance : Decidable (b.Joins t) := by unfold Joins; infer_instance

def increase (b : Book K) (t : Trade K) : Book K where
  net := b.net + t.quantity
  average := (b.average * |b.net| + t.price * |t.quantity|) / |b.net + t.quantity|
  realized := b.realized

def reduce (b : Book K) (t : Trade K) : Book K where
  net := b.net + t.quantity
  average := b.average
  realized := b.realized - t.quantity * (t.price - b.average)

def reverse (b : Book K) (t : Trade K) : Book K where
  net := b.net + t.quantity
  average := t.price
  realized := b.realized + b.net * (t.price - b.average)

def trade (b : Book K) (t : Trade K) : Book K :=
  if b.Joins t then b.increase t
  else if |t.quantity| ≤ |b.net| then b.reduce t
  else b.reverse t

@[simp] theorem trade_net : (b.trade t).net = b.net + t.quantity := by
  unfold trade
  split
  · rfl
  · split <;> rfl

/-- The book of `ts` after `b`. -/
def trades (b : Book K) (ts : List (Trade K)) : Book K := ts.foldl trade b

theorem trades_append (us : List (Trade K)) : b.trades (ts ++ us) = (b.trades ts).trades us :=
  List.foldl_append

variable [IsStrictOrderedRing K]

/-- Averaging in values the new holding at what was held and what is paid. -/
theorem increase_value (h : b.Joins t) (ht : t.quantity ≠ 0) :
    (b.net + t.quantity) * (b.increase t).average = b.net * b.average + t.quantity * t.price := by
  have key : ∀ {x y : K}, 0 ≤ x → 0 < y → ∀ a p : K,
      (x + y) * ((a * x + p * y) / (x + y)) = x * a + y * p := by
    intro x y hx hy a p
    have hxy : x + y ≠ 0 := by linarith
    rw [mul_div_cancel₀ _ hxy]
    ring
  rcases lt_or_gt_of_ne ht with hneg | hpos
  · have hn : b.net ≤ 0 := by
      rcases h with h | h
      · exact h.le
      · exact not_lt.mp fun hb => absurd (h.mp hb) hneg.not_gt
    have hk := key (neg_nonneg.mpr hn) (neg_pos.mpr hneg) b.average t.price
    simp only [increase]
    rw [abs_of_nonpos hn, abs_of_neg hneg, abs_of_neg (by linarith), neg_add]
    linarith
  · have hn : 0 ≤ b.net := by
      rcases h with h | h
      · exact h.ge
      · exact (h.mpr hpos).le
    simp only [increase]
    rw [abs_of_nonneg hn, abs_of_pos hpos, abs_of_pos (by linarith)]
    exact key hn hpos b.average t.price

/-- **Every trade keeps the balance.** -/
theorem Balances.trade (h : b.Balances ts) (ht : t.quantity ≠ 0) :
    (b.trade t).Balances (ts ++ [t]) := by
  refine h.move trade_net ?_
  rw [trade_net]
  unfold Book.trade
  split
  · next hj =>
    rw [increase_value hj ht]
    simp only [increase]
    ring
  · split
    · simp only [reduce]
      ring
    · simp only [reverse]
      ring

theorem Balances.trades : ∀ {b : Book K} {ts : List (Trade K)} (us : List (Trade K)),
    b.Balances ts → (∀ u ∈ us, u.quantity ≠ 0) → (b.trades us).Balances (ts ++ us)
  | _, ts, [], h, _ => by rw [List.append_nil]; exact h
  | b, ts, u :: us, h, hu => by
    rw [List.append_cons]
    exact Balances.trades us (h.trade (hu u List.mem_cons_self))
      fun v hv => hu v (List.mem_cons_of_mem _ hv)

end Book

end CostBasis
