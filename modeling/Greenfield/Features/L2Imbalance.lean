import Greenfield.Features.BookRows
import Mathlib.Algebra.Order.BigOperators.Group.List

/-!
# The L2 imbalance accumulator

`L2ImbalanceAccumulator` of `src/features/order_flow.py`. It writes the rows of a raw event in
their order, also those of a snapshot (`l2Sides_eq`).
-/

namespace Greenfield.Features

open Py Data Depth Keyed Batches

/-- `_bids`, `_asks`, `_ready`, `_update_id` and `_connection_id`. -/
structure L2Book where
  sides : Sides := .empty
  ready : Bool := false
  updateId : Option ℤ := none
  connectionId : Option String := none

/-- A result of `_features`; timestamps are in nanoseconds. -/
structure L2Features where
  timestamp : ℤ
  maxSourceTimestamp : ℤ
  bestBid : ℚ
  bestAsk : ℚ
  spread : ℚ
  midPrice : ℚ
  microprice : ℚ
  bidDepth : ℚ
  askDepth : ℚ
  bookImbalance : ℚ
  bookUpdateId : ℤ
  deriving DecidableEq

abbrev L2ImbalanceAccumulator := BookAccumulator L2Book

namespace L2ImbalanceAccumulator

/-- `_validate_row`. -/
def validateRow (symbol : String) (row : NormalizedMarketEvent) : Except MarketError Unit :=
  if row.recordType ≠ "book_level" ∨ row.channel ≠ "orderbook" then
    .error (.orderFlow "L2 accumulator accepts only book-level rows")
  else if row.symbol ≠ symbol then .error (.orderFlow "L2 row crossed symbol streams")
  else if row.bookSide ∉ [some "bid", some "ask"] ∨
      row.bookAction ∉ [some "upsert", some "delete"] then
    .error (.orderFlow "L2 row is incomplete")
  else .ok ()

/-- `_invalidate`. -/
def invalidate (a : L2ImbalanceAccumulator) : L2ImbalanceAccumulator :=
  { a.clear with state := {} }

/-- `self._connection_id = connection_id`. -/
def connect (a : L2ImbalanceAccumulator) (connectionId : String) : L2ImbalanceAccumulator :=
  { a with state := { a.state with connectionId := some connectionId } }

/-- The body of the loop of `_apply_pending`. -/
def writeRow (s : Sides) (row : NormalizedMarketEvent) : Except MarketError Sides :=
  match rowLevel row with
  | .error e => .error e
  | .ok level => .ok (onSide s (isBid row) fun side =>
      if row.bookAction = some "delete" then side.erase level.1 else side.upsert level)

/-- `_features`. -/
def features (depthLevels : ℕ) (s : Sides) (updateId : ℤ) (rows : List NormalizedMarketEvent) :
    Except MarketError L2Features :=
  let bids := (sorted (fun a b => b.1 ≤ a.1) s.bids.rows).take depthLevels
  let asks := (sorted (fun a b => a.1 ≤ b.1) s.asks.rows).take depthLevels
  let bidDepth := (bids.map Prod.snd).sum
  let askDepth := (asks.map Prod.snd).sum
  let total := bidDepth + askDepth
  match bids, asks with
  | (bestBid, _) :: _, (bestAsk, _) :: _ =>
    if total = 0 then .error .invalidOperation
    else
      let maxReceive := maxOf (·.receiveTsNs) rows
      let eventNs := maxOf (·.eventTsMs) rows * 1000000
      .ok
        { timestamp := max maxReceive eventNs
          maxSourceTimestamp := maxReceive
          bestBid
          bestAsk
          spread := bestAsk - bestBid
          midPrice := (bestBid + bestAsk) / 2
          microprice := (bestAsk * bidDepth + bestBid * askDepth) / total
          bidDepth
          askDepth
          bookImbalance := (bidDepth - askDepth) / total
          bookUpdateId := updateId }
  | _, _ => .error .indexError

/-- `_apply_pending`, once the sides are found that the rows are written to. -/
def applyTo (depthLevels : ℕ) (a : L2ImbalanceAccumulator) (sides : Sides) (updateId : ℤ) :
    Except MarketError L2Features × L2ImbalanceAccumulator :=
  match applyEach writeRow sides a.pending with
  | (.error e, _) => (.error e, a)
  | (.ok (), next) =>
    if next.isEmptyOrCrossed then
      (.error (.orderFlow "L2 book is empty or crossed"), invalidate a)
    else
      let stored := { a with state :=
        { a.state with sides := next, ready := true, updateId := some updateId } }
      match features depthLevels next updateId a.pending with
      | .error e => (.error e, stored)
      | .ok result => (.ok result, stored.clear)

/-- A delta in `_apply_pending`. -/
def applyDelta (depthLevels : ℕ) (a : L2ImbalanceAccumulator) (updateId : ℤ)
    (connectionId : String) : Except MarketError L2Features × L2ImbalanceAccumulator :=
  match a.state.ready, a.state.updateId with
  | true, some previous =>
    if some connectionId ≠ a.state.connectionId then
      (.error (.orderFlow "L2 delta arrived before snapshot"), invalidate a)
    else if updateId ≠ previous + 1 then
      (.error (.orderFlow "L2 update gap or regression"), invalidate a)
    else applyTo depthLevels a a.state.sides updateId
  | _, _ => (.error (.orderFlow "L2 delta arrived before snapshot"), invalidate a)

/-- `_apply_pending`. -/
def applyPending (T : Texts) (depthLevels : ℕ) (a : L2ImbalanceAccumulator) :
    Except MarketError L2Features × L2ImbalanceAccumulator :=
  match theOne (a.pending.map (·.messageType)), theOne (a.pending.map (·.updateId)),
    theOne (a.pending.map (·.connectionId)) with
  | some messageType, some (some updateId), some connectionId =>
    if messageType = "snapshot" then
      applyTo depthLevels (connect a connectionId) .empty updateId
    else if messageType = "delta" then applyDelta depthLevels a updateId connectionId
    else (.error (.orderFlow ("invalid L2 message type: " ++ T.repr (.str messageType))), a)
  | some _, some none, some _ => (.error (.orderFlow "L2 update_id is required"), a)
  | _, _, _ => (.error (.orderFlow "one raw L2 event has inconsistent metadata"), a)

/-- `L2ImbalanceAccumulator(symbol, depth_levels=depth_levels)`, whose `update` is `feedAll` and
whose `finalize` is `flush`. -/
def feeder (T : Texts) (symbol : String) (depthLevels : ℕ) : BookFeeder L2Book L2Features where
  check := validateRow symbol
  rank := bookKey
  unordered := .orderFlow "L2 stream is not strictly ordered"
  batchOf row := row.rawEventId
  close := applyPending T depthLevels

end L2ImbalanceAccumulator

/-! ## What the rows of the normalizer leave -/

open L2ImbalanceAccumulator

theorem l2Sides_eq {rows : List NormalizedMarketEvent} (h : ∀ row ∈ rows, IsLevel row)
    (s : Sides) : applyEach writeRow s rows =
      (.ok (), writtenTo s rows) := by
  have hrow : ∀ row ∈ rows, ∀ s, writeRow s row =
      .ok (onSide s (isBid row) (write · (levelOf row))) := by
    intro row hmem s
    unfold writeRow
    rw [(h row hmem).rowLevel]
    simp only [(h row hmem).deletes]
    rfl
  rw [applyEach_ok hrow, foldl_onSide write]
  rfl

variable {depthLevels : ℕ}

/-- What is done with rows of one message. -/
theorem applyPending_of {T : Texts} {a : L2ImbalanceAccumulator}
    {messageType connectionId : String} {updateId : ℤ}
    (htype : theOne (a.pending.map (·.messageType)) = some messageType)
    (hupdate : theOne (a.pending.map (·.updateId)) = some (some updateId))
    (hconn : theOne (a.pending.map (·.connectionId)) = some connectionId) :
    applyPending T depthLevels a =
      if messageType = "snapshot" then
        applyTo depthLevels (connect a connectionId) .empty updateId
      else if messageType = "delta" then applyDelta depthLevels a updateId connectionId
      else (.error (.orderFlow ("invalid L2 message type: " ++ T.repr (.str messageType))), a) := by
  unfold applyPending
  simp only [htype, hupdate, hconn]

/-- Sides whose levels have sizes have features. -/
theorem features_ok (hdepth : 0 < depthLevels) {s : Sides} (hvalid : s.Valid)
    (hsized : s.Sized) (updateId : ℤ) (rows : List NormalizedMarketEvent) :
    ∃ r, features depthLevels s updateId rows = .ok r ∧ r.bookUpdateId = updateId ∧
      r.maxSourceTimestamp = maxOf (·.receiveTsNs) rows ∧
      r.timestamp = max (maxOf (·.receiveTsNs) rows) (maxOf (·.eventTsMs) rows * 1000000) := by
  obtain ⟨depth, rfl⟩ := Nat.exists_eq_succ_of_ne_zero hdepth.ne'
  have hnil {side : PriceSide} (le : ℚ × ℚ → ℚ × ℚ → Bool) (h : side.rows ≠ []) :
      ∃ level rest, sorted le side.rows = level :: rest ∧ ∀ l ∈ level :: rest, l ∈ side.rows := by
    cases hsort : sorted le side.rows with
    | nil =>
      obtain ⟨level, hlevel⟩ := List.exists_mem_of_ne_nil _ h
      have hmem : level ∈ sorted le side.rows := mem_sorted.mpr hlevel
      rw [hsort] at hmem
      exact absurd hmem List.not_mem_nil
    | cons level rest => exact ⟨level, rest, rfl, fun l hl => mem_sorted.mp (hsort ▸ hl)⟩
  obtain ⟨bid, bids, hbids, hbidMem⟩ := hnil (fun a b => b.1 ≤ a.1) hvalid.bids
  obtain ⟨ask, asks, hasks, haskMem⟩ := hnil (fun a b => a.1 ≤ b.1) hvalid.asks
  have hpos {side : PriceSide} (hside : ∀ level ∈ side.rows, 0 < level.2) {level : ℚ × ℚ}
      {rest : List (ℚ × ℚ)} (hmem : ∀ l ∈ level :: rest, l ∈ side.rows) :
      0 < (((level :: rest).take (depth + 1)).map Prod.snd).sum := by
    rw [List.take_succ_cons, List.map_cons, List.sum_cons]
    have hfirst := hside level (hmem level List.mem_cons_self)
    have hrest : 0 ≤ ((rest.take depth).map Prod.snd).sum := by
      apply List.sum_nonneg
      intro size hsize
      obtain ⟨l, hl, rfl⟩ := List.mem_map.mp hsize
      exact (hside l (hmem l (List.mem_cons_of_mem _ (List.mem_of_mem_take hl)))).le
    exact add_pos_of_pos_of_nonneg hfirst hrest
  have hbidPos := hpos hsized.1 hbidMem
  have haskPos := hpos hsized.2 haskMem
  have htotal : (((bid :: bids).take (depth + 1)).map Prod.snd).sum +
      (((ask :: asks).take (depth + 1)).map Prod.snd).sum ≠ 0 := (add_pos hbidPos haskPos).ne'
  unfold features
  simp only [Nat.succ_eq_add_one, hbids, hasks]
  simp only [List.take_succ_cons] at htotal ⊢
  refine ⟨_, if_neg htotal, ?_, ?_, ?_⟩
  · rfl
  · rfl
  · rfl

section ApplyTo

variable {depthLevels : ℕ} {a : L2ImbalanceAccumulator} {s : Sides} {updateId : ℤ}

theorem applyTo_crossed (h : ∀ row ∈ a.pending, IsLevel row)
    (hcrossed : ¬ (writtenTo s a.pending).Valid) :
    applyTo depthLevels a s updateId =
      (.error (.orderFlow "L2 book is empty or crossed"), invalidate a) := by
  rw [← Sides.isEmptyOrCrossed_eq_false, Bool.not_eq_false] at hcrossed
  unfold applyTo
  simp only [l2Sides_eq h s, hcrossed, if_true]

variable (depthLevels updateId) in
theorem applyTo_valid (h : ∀ row ∈ a.pending, IsLevel row) (hdepth : 0 < depthLevels)
    (hvalid : (writtenTo s a.pending).Valid) (hsized : s.Sized) :
    ∃ r, applyTo depthLevels a s updateId = (.ok r, { a.clear with state :=
        { a.state with
          sides := writtenTo s a.pending, ready := true, updateId := some updateId } }) ∧
      r.bookUpdateId = updateId ∧ r.maxSourceTimestamp = maxOf (·.receiveTsNs) a.pending ∧
      r.timestamp =
        max (maxOf (·.receiveTsNs) a.pending) (maxOf (·.eventTsMs) a.pending * 1000000) := by
  obtain ⟨r, hfeatures, hr⟩ := features_ok hdepth hvalid (sized_writtenTo hsized h) updateId
    a.pending
  refine ⟨r, ?_, hr⟩
  unfold applyTo
  simp only [l2Sides_eq h s, Sides.isEmptyOrCrossed_eq_false.mpr hvalid, hfeatures,
    Bool.false_eq_true, if_false]
  rfl

variable {connectionId : String}

variable (depthLevels) in
theorem l2Delta_gap (hready : a.state.ready = a.state.updateId.isSome)
    (h : ∀ previous, a.state.updateId = some previous →
      some connectionId ≠ a.state.connectionId ∨ updateId ≠ previous + 1) :
    ∃ e, applyDelta depthLevels a updateId connectionId = (.error e, invalidate a) := by
  unfold applyDelta
  cases hprevious : a.state.updateId with
  | none =>
    rw [hready, hprevious]
    exact ⟨_, rfl⟩
  | some previous =>
    rw [hready, hprevious]
    dsimp only [Option.isSome_some]
    by_cases hconn : some connectionId ≠ a.state.connectionId
    · rw [if_pos hconn]
      exact ⟨_, rfl⟩
    · rw [if_neg hconn, if_pos ((h previous hprevious).resolve_left hconn)]
      exact ⟨_, rfl⟩

theorem l2Delta_next {previous : ℤ}
    (hready : a.state.ready = a.state.updateId.isSome)
    (hprevious : a.state.updateId = some previous)
    (hconn : some connectionId = a.state.connectionId) (hnext : updateId = previous + 1) :
    applyDelta depthLevels a updateId connectionId =
      applyTo depthLevels a a.state.sides updateId := by
  unfold applyDelta
  rw [hready, hprevious]
  dsimp only [Option.isSome_some]
  rw [if_neg (not_not.mpr hconn), if_neg (not_not.mpr hnext)]

end ApplyTo

end Greenfield.Features
