import Greenfield.Data.BybitNormalizer
import Greenfield.Data.PriceLevels
import Greenfield.Lib.Batches
import Mathlib.Data.Prod.Lex
import Mathlib.Data.String.Basic

/-!
# Book-level rows

What `L2ImbalanceAccumulator` and `BookLiquidityAccumulator` have in common: both hold the rows
of one raw event until a row of another comes. What the writes of such rows leave on the two
sides is said once (`foldl_onSide`), for every way to write a level.
-/

namespace Greenfield.Features

open Py Data Depth Keyed Batches

-- the order of the integers that computes, whatever is imported
local instance bookIntLinearOrder : LinearOrder ℤ := Int.instLinearOrder

-- one instance for the checks of both accumulators
instance lawfulText : LawfulBEq (Option String) := inferInstance

instance fiveLevels : NeZero (5 : ℕ) := ⟨by decide⟩

abbrev BookKey := ℤ ×ₗ ℤ ×ₗ ℤ ×ₗ String

/-- The key in which book rows rise. -/
def bookKey (row : NormalizedMarketEvent) : BookKey :=
  toLex (row.receiveTsNs, toLex (row.receiveSequence, toLex (row.rowIndex, row.normalizedId)))

/-- `_pending`, `_pending_raw_id`, `_last_receive_key` and the book. -/
abbrev BookAccumulator (β : Type) := Held NormalizedMarketEvent String BookKey β

abbrev BookFeeder (β ω : Type) := Feeder NormalizedMarketEvent String BookKey β ω MarketError

/-- The element of a set of values that has one. -/
def theOne {α : Type} [DecidableEq α] : List α → Option α
  | [] => none
  | v :: vs => if ∀ w ∈ vs, w = v then some v else none

/-- `max(... for row in rows)`. -/
def maxOf (f : NormalizedMarketEvent → ℤ) (rows : List NormalizedMarketEvent) : ℤ :=
  (rows.map f).max?.getD 0

/-- The body of a loop, and what it leaves when it raises. -/
def applyEach {σ α ε : Type} (f : σ → α → Except ε σ) (s : σ) : List α → Except ε Unit × σ
  | [] => (.ok (), s)
  | x :: xs =>
    match f s x with
    | .error e => (.error e, s)
    | .ok next => applyEach f next xs

/-- `Decimal(row.price or "")` and `Decimal(row.size or "")`. -/
def rowLevel (row : NormalizedMarketEvent) : Except MarketError (ℚ × ℚ) :=
  match row.price, row.size with
  | some price, some size => .ok (price, size)
  | _, _ => .error .invalidOperation

/-- `row.book_side == "bid"`. -/
def isBid (row : NormalizedMarketEvent) : Bool := row.bookSide = some "bid"

/-! ## Levels -/

/-- A row of an order-book message, as the normalizer writes it. -/
structure IsLevel (row : NormalizedMarketEvent) : Prop where
  recordType : row.recordType = "book_level"
  channel : row.channel = "orderbook"
  side : row.bookSide = some "bid" ∨ row.bookSide = some "ask"
  level : ∃ price size, row.price = some price ∧ row.size = some size ∧ 0 ≤ size ∧
    row.bookAction = some (if size = 0 then "delete" else "upsert")

/-- The price and the size of a row. -/
def levelOf (row : NormalizedMarketEvent) : ℚ × ℚ := (row.price.getD 0, row.size.getD 0)

def bidLevels (rows : List NormalizedMarketEvent) : List (ℚ × ℚ) := (rows.filter isBid).map levelOf

def askLevels (rows : List NormalizedMarketEvent) : List (ℚ × ℚ) :=
  (rows.filter fun row => !isBid row).map levelOf

variable {row : NormalizedMarketEvent}

theorem IsLevel.rowLevel (h : IsLevel row) :
    rowLevel row = .ok (levelOf row) := by
  obtain ⟨price, size, hprice, hsize, -, -⟩ := h.level
  unfold Features.rowLevel levelOf
  rw [hprice, hsize]
  rfl

theorem IsLevel.nonneg (h : IsLevel row) : 0 ≤ (levelOf row).2 := by
  obtain ⟨price, size, -, hsize, hnonneg, -⟩ := h.level
  unfold levelOf
  rw [hsize]
  exact hnonneg

theorem IsLevel.deletes (h : IsLevel row) :
    row.bookAction = some "delete" ↔ (levelOf row).2 = 0 := by
  obtain ⟨price, size, -, hsize, -, haction⟩ := h.level
  unfold levelOf
  rw [hsize, haction, Option.getD_some]
  by_cases hzero : size = 0
  · simp [hzero]
  · simp [hzero]

variable {rows : List NormalizedMarketEvent}

theorem nonneg_bidLevels (h : ∀ row ∈ rows, IsLevel row) :
    ∀ level ∈ bidLevels rows, 0 ≤ level.2 := by
  intro level hlevel
  obtain ⟨row, hrow, rfl⟩ := List.mem_map.mp hlevel
  exact (h row (List.mem_of_mem_filter hrow)).nonneg

theorem nonneg_askLevels (h : ∀ row ∈ rows, IsLevel row) :
    ∀ level ∈ askLevels rows, 0 ≤ level.2 := by
  intro level hlevel
  obtain ⟨row, hrow, rfl⟩ := List.mem_map.mp hlevel
  exact (h row (List.mem_of_mem_filter hrow)).nonneg

/-- `bids if row.book_side == "bid" else asks`, changed. -/
def onSide (s : Sides) (bid : Bool) (f : PriceSide → PriceSide) : Sides :=
  if bid then { s with bids := f s.bids } else { s with asks := f s.asks }

/-- **Writes** of rows go to their sides, in the order of the rows. -/
theorem foldl_onSide (w : PriceSide → ℚ × ℚ → PriceSide) (rows : List NormalizedMarketEvent) :
    ∀ s : Sides, rows.foldl (fun s row => onSide s (isBid row) (w · (levelOf row))) s =
      ⟨(bidLevels rows).foldl w s.bids, (askLevels rows).foldl w s.asks⟩ := by
  induction rows with
  | nil => exact fun s => rfl
  | cons row rows ih =>
    intro s
    rw [List.foldl_cons, ih]
    by_cases h : isBid row = true
    · simp [onSide, bidLevels, askLevels, h]
    · simp [onSide, bidLevels, askLevels, h]

/-- What writing the rows leaves. -/
def writtenTo (s : Sides) (rows : List NormalizedMarketEvent) : Sides :=
  ⟨writeAll s.bids (bidLevels rows), writeAll s.asks (askLevels rows)⟩

theorem sized_empty : Sides.empty.Sized :=
  ⟨fun _ h => absurd h List.not_mem_nil, fun _ h => absurd h List.not_mem_nil⟩

/-- Sides with sizes have sizes after it. -/
theorem sized_writtenTo {s : Sides} (h : s.Sized)
    (hrows : ∀ row ∈ rows, IsLevel row) : (writtenTo s rows).Sized := by
  have hpos {levels : List (ℚ × ℚ)} (hlevels : ∀ level ∈ levels, 0 ≤ level.2) :
      ∀ level ∈ levels, level.2 ≠ 0 → 0 < level.2 :=
    fun level hlevel hzero => lt_of_le_of_ne (hlevels level hlevel) (Ne.symm hzero)
  exact ⟨forall_writeAll h.1 (hpos (nonneg_bidLevels hrows)),
    forall_writeAll h.2 (hpos (nonneg_askLevels hrows))⟩

theorem applyEach_ok {σ α ε : Type} {f : σ → α → Except ε σ} {g : σ → α → σ} :
    ∀ {xs : List α} {s : σ}, (∀ x ∈ xs, ∀ s, f s x = .ok (g s x)) →
      applyEach f s xs = (.ok (), xs.foldl g s)
  | [], _, _ => rfl
  | x :: xs, s, h => by
    unfold applyEach
    simp only [h x List.mem_cons_self s, List.foldl_cons]
    exact applyEach_ok fun y hy => h y (List.mem_cons_of_mem x hy)

end Greenfield.Features
