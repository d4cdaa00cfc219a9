import Greenfield.Features.BookRows
import Mathlib.Logic.Function.Basic

/-!
# The book liquidity accumulator

`BookLiquidityAccumulator` of `src/features/interaction.py`. Of the rows of a snapshot it keeps
those with a size (`snapshotRows_eq`); the rows of a delta it writes in their order
(`deltaRows_eq`).
-/

namespace Greenfield.Features

open Py Data Depth Keyed Batches

structure LiquidityBook where
  sides : Sides := .empty
  /-- By side and price, the update that last took size away. -/
  lastReduction : Option String × ℚ → Option ℕ := fun _ => none
  previousUpdateId : Option ℤ := none
  connectionId : Option String := none
  updateCounter : ℕ := 0

/-- The metrics of one side in `_LIQUIDITY_METRICS`. -/
structure SideMetrics where
  added : ℚ := 0
  cancelled : ℚ := 0
  replenished : ℚ := 0
  deriving DecidableEq

/-- A result of `_apply_pending`; timestamps are in nanoseconds. -/
structure LiquidityRow where
  timestamp : ℤ
  maxSourceTimestamp : ℤ
  bid : SideMetrics
  ask : SideMetrics
  bookUpdateId : ℤ
  deriving DecidableEq

abbrev BookLiquidityAccumulator := BookAccumulator LiquidityBook

namespace BookLiquidityAccumulator

/-- `_validate`. -/
def validate (symbol : String) (row : NormalizedMarketEvent) : Except MarketError Unit :=
  if row.recordType ≠ "book_level" ∨ row.channel ≠ "orderbook" then
    .error (.orderFlow "BookLiquidityAccumulator accepts only L2 rows")
  else if row.symbol ≠ symbol ∨ row.bookSide ∉ [some "bid", some "ask"] then
    .error (.orderFlow "liquidity features crossed normalized streams")
  else if row.bookAction ∉ [some "upsert", some "delete"] ∨ row.price = none ∨ row.size = none then
    .error (.orderFlow "liquidity L2 row is incomplete")
  else .ok ()

/-- `_invalidate`. -/
def invalidate (a : BookLiquidityAccumulator) : BookLiquidityAccumulator :=
  { a.clear with state := { updateCounter := a.state.updateCounter } }

/-- The body of the loop over the rows of a snapshot. -/
def snapshotRow (s : Sides) (row : NormalizedMarketEvent) : Except MarketError Sides :=
  match row.size with
  | none => .error .invalidOperation
  | some size =>
    if 0 < size then
      match row.price with
      | none => .error .invalidOperation
      | some price => .ok (onSide s (isBid row) (·.upsert (price, size)))
    else .ok s

/-- What the loop over the rows of a delta changes. -/
structure DeltaState where
  sides : Sides
  lastReduction : Option String × ℚ → Option ℕ
  bid : SideMetrics := {}
  ask : SideMetrics := {}

/-- A metric of the row's side, changed. -/
def DeltaState.onMetrics (s : DeltaState) (bid : Bool) (f : SideMetrics → SideMetrics) :
    DeltaState :=
  if bid then { s with bid := f s.bid } else { s with ask := f s.ask }

/-- The metrics and the reductions that a change of `size` at `price` leaves. -/
def DeltaState.record (window counter : ℕ) (s : DeltaState) (row : NormalizedMarketEvent)
    (price change : ℚ) : DeltaState :=
  if 0 < change then
    let refilled : Bool := match s.lastReduction (row.bookSide, price) with
      | some reducedAt => counter - reducedAt ≤ window
      | none => false
    s.onMetrics (isBid row) fun m => { m with
      added := m.added + change
      replenished := if refilled then m.replenished + change else m.replenished }
  else if change < 0 then
    let cancelled := s.onMetrics (isBid row) fun m => { m with cancelled := m.cancelled + -change }
    { cancelled with
      lastReduction := Function.update s.lastReduction (row.bookSide, price) (some counter) }
  else s

/-- The body of the loop over the rows of a delta. -/
def deltaRow (window counter : ℕ) (s : DeltaState) (row : NormalizedMarketEvent) :
    Except MarketError DeltaState :=
  match rowLevel row with
  | .error e => .error e
  | .ok (price, new) =>
    let side := if isBid row then s.sides.bids else s.sides.asks
    let old := ((side.find price).map Prod.snd).getD 0
    let recorded := s.record window counter row price (new - old)
    .ok { recorded with sides := onSide s.sides (isBid row) fun side =>
      if new = 0 then side.erase price else side.upsert (price, new) }

/-- The end of `_apply_pending`, after the loops. -/
def finish (a : BookLiquidityAccumulator) (bid ask : SideMetrics) (updateId : ℤ) :
    Except MarketError LiquidityRow × BookLiquidityAccumulator :=
  if a.state.sides.isEmptyOrCrossed then
    (.error (.orderFlow "L2 book is empty or crossed"), invalidate a)
  else
    let maxReceive := maxOf (·.receiveTsNs) a.pending
    let eventNs := maxOf (·.eventTsMs) a.pending * 1000000
    (.ok
      { timestamp := max maxReceive eventNs, maxSourceTimestamp := maxReceive, bid, ask
        bookUpdateId := updateId }, a.clear)

/-- `self._update_counter += 1`. -/
def count (a : BookLiquidityAccumulator) : BookLiquidityAccumulator :=
  { a with state := { a.state with updateCounter := a.state.updateCounter + 1 } }

/-- The assignments of a snapshot. -/
def replace (a : BookLiquidityAccumulator) (sides : Sides) (updateId : ℤ) (connectionId : String) :
    BookLiquidityAccumulator :=
  { a with state :=
    { sides, previousUpdateId := some updateId, connectionId := some connectionId
      updateCounter := a.state.updateCounter } }

/-- A snapshot in `_apply_pending`. -/
def applySnapshot (a : BookLiquidityAccumulator) (updateId : ℤ) (connectionId : String) :
    Except MarketError LiquidityRow × BookLiquidityAccumulator :=
  let (answer, sides) := applyEach snapshotRow .empty a.pending
  let next := replace a sides updateId connectionId
  match answer with
  | .error e => (.error e, next)
  | .ok () => finish next {} {} updateId

/-- A delta in `_apply_pending`. -/
def applyDelta (window : ℕ) (a : BookLiquidityAccumulator) (updateId : ℤ) (connectionId : String) :
    Except MarketError LiquidityRow × BookLiquidityAccumulator :=
  let gap := MarketError.orderFlow "L2 update gap, regression, or delta before snapshot"
  match a.state.previousUpdateId with
  | none => (.error gap, invalidate a)
  | some previous =>
    if some connectionId ≠ a.state.connectionId ∨ updateId ≠ previous + 1 then
      (.error gap, invalidate a)
    else
      let (answer, s) := applyEach (deltaRow window a.state.updateCounter)
        { sides := a.state.sides, lastReduction := a.state.lastReduction } a.pending
      let next := { a with state :=
        { a.state with sides := s.sides, lastReduction := s.lastReduction
                       previousUpdateId := some updateId } }
      match answer with
      | .error e => (.error e, next)
      | .ok () => finish next s.bid s.ask updateId

/-- `_one`. -/
def one {α : Type} [DecidableEq α] (values : List α) (name : String) : Except MarketError α :=
  match theOne values with
  | some value => .ok value
  | none => .error (.orderFlow ("inconsistent " ++ name ++ " in raw event"))

/-- What `_apply_pending` reads of the rows. -/
def header (rows : List NormalizedMarketEvent) : Except MarketError (String × ℤ × String) := do
  let messageType ← one (rows.map (·.messageType)) "message type"
  let updateId ← one (rows.map (·.updateId)) "update_id"
  let connectionId ← one (rows.map (·.connectionId)) "connection_id"
  match updateId with
  | none => .error (.orderFlow "L2 update_id is required")
  | some updateId => pure (messageType, updateId, connectionId)

/-- `_apply_pending`. -/
def applyPending (T : Texts) (window : ℕ) (a : BookLiquidityAccumulator) :
    Except MarketError LiquidityRow × BookLiquidityAccumulator :=
  match header a.pending with
  | .error e => (.error e, a)
  | .ok (messageType, updateId, connectionId) =>
    let counted := count a
    if messageType = "snapshot" then applySnapshot counted updateId connectionId
    else if messageType = "delta" then applyDelta window counted updateId connectionId
    else
      (.error (.orderFlow ("invalid L2 message type: " ++ T.repr (.str messageType))), counted)

/-- `BookLiquidityAccumulator(symbol, replenishment_window_updates=window)`, whose `update` is
`feedAll` and whose `finalize` is `flush`. -/
def feeder (T : Texts) (symbol : String) (window : ℕ) : BookFeeder LiquidityBook LiquidityRow where
  check := validate symbol
  rank := bookKey
  unordered := .orderFlow "liquidity L2 stream is not strictly ordered"
  batchOf row := row.rawEventId
  close := applyPending T window

end BookLiquidityAccumulator

/-! ## What the rows of the normalizer leave -/

open BookLiquidityAccumulator

/-- What collecting the rows of a snapshot leaves. -/
def collectedSides (rows : List NormalizedMarketEvent) : Sides :=
  ⟨collect (bidLevels rows), collect (askLevels rows)⟩

variable {rows : List NormalizedMarketEvent}

theorem snapshotRows_eq (h : ∀ row ∈ rows, IsLevel row) :
    applyEach snapshotRow .empty rows =
      (.ok (), collectedSides rows) := by
  have hrow : ∀ row ∈ rows, ∀ s, snapshotRow s row = .ok (onSide s (isBid row) fun side =>
      if (levelOf row).2 = 0 then side else side.upsert (levelOf row)) := by
    intro row hmem s
    obtain ⟨price, size, hprice, hsize, hnonneg, -⟩ := (h row hmem).level
    unfold snapshotRow levelOf
    rw [hprice, hsize]
    simp only [Option.getD_some]
    by_cases hzero : size = 0
    · subst hzero
      simp [onSide]
    · rw [if_pos (lt_of_le_of_ne hnonneg (Ne.symm hzero))]
      simp only [hzero, if_false]
  rw [applyEach_ok hrow]
  have hfold := foldl_onSide (fun side level => if level.2 = 0 then side else side.upsert level)
    rows .empty
  rw [hfold]
  rfl

/-- The sides after a delta, whatever the metrics are. -/
theorem deltaRows_eq (h : ∀ row ∈ rows, IsLevel row)
    (window counter : ℕ) (s : DeltaState) :
    ∃ next, applyEach (deltaRow window counter) s rows = (.ok (), next) ∧ next.sides =
      writtenTo s.sides rows := by
  induction rows generalizing s with
  | nil => exact ⟨s, rfl, rfl⟩
  | cons row rows ih =>
    have hlevel := (h row List.mem_cons_self).rowLevel
    have hrow : ∃ next, deltaRow window counter s row = .ok next ∧
        next.sides = onSide s.sides (isBid row) (write · (levelOf row)) := by
      unfold deltaRow
      rw [hlevel]
      exact ⟨_, rfl, rfl⟩
    obtain ⟨middle, hdelta, hmiddle⟩ := hrow
    obtain ⟨next, hrest, hnext⟩ := ih (fun r hr => h r (List.mem_cons_of_mem _ hr)) middle
    refine ⟨next, ?_, ?_⟩
    · unfold applyEach
      simp only [hdelta, hrest]
    · rw [hnext, hmiddle]
      by_cases hbid : isBid row = true
      · simp [writtenTo, onSide, bidLevels, askLevels, hbid, writeAll]
      · simp [writtenTo, onSide, bidLevels, askLevels, hbid, writeAll]

section Finish

variable {a : BookLiquidityAccumulator} {bid ask : SideMetrics} {updateId : ℤ}

theorem finish_crossed (h : ¬ a.state.sides.Valid) : finish a bid ask updateId =
    (.error (.orderFlow "L2 book is empty or crossed"), invalidate a) := by
  rw [← Sides.isEmptyOrCrossed_eq_false, Bool.not_eq_false] at h
  unfold finish
  simp only [h, if_true]

variable (bid ask updateId) in
theorem finish_valid (h : a.state.sides.Valid) :
    ∃ r, finish a bid ask updateId = (.ok r, a.clear) ∧ r.bookUpdateId = updateId ∧
      r.maxSourceTimestamp = maxOf (·.receiveTsNs) a.pending ∧
      r.timestamp =
        max (maxOf (·.receiveTsNs) a.pending) (maxOf (·.eventTsMs) a.pending * 1000000) := by
  unfold finish
  simp only [Sides.isEmptyOrCrossed_eq_false.mpr h, Bool.false_eq_true, if_false]
  exact ⟨_, rfl, rfl, rfl, rfl⟩

theorem applySnapshot_eq (h : ∀ row ∈ a.pending, IsLevel row) (updateId : ℤ)
    (connectionId : String) : applySnapshot a updateId connectionId =
      finish (replace a (collectedSides a.pending) updateId connectionId) {} {} updateId := by
  unfold applySnapshot
  simp only [snapshotRows_eq h]

variable {connectionId : String}

variable (updateId) in
theorem applyDelta_gap (window : ℕ)
    (h : ∀ previous, a.state.previousUpdateId = some previous →
      some connectionId ≠ a.state.connectionId ∨ updateId ≠ previous + 1) :
    ∃ e, applyDelta window a updateId connectionId = (.error e, invalidate a) := by
  unfold applyDelta
  cases hprevious : a.state.previousUpdateId with
  | none => exact ⟨_, rfl⟩
  | some previous =>
    simp only [if_pos (h previous hprevious)]
    exact ⟨_, rfl⟩

theorem applyDelta_next (window : ℕ) {previous : ℤ}
    (h : ∀ row ∈ a.pending, IsLevel row) (hprevious : a.state.previousUpdateId = some previous)
    (hconn : some connectionId = a.state.connectionId) (hnext : updateId = previous + 1) :
    ∃ reductions bid ask, applyDelta window a updateId connectionId =
      finish { a with state :=
        { a.state with sides := writtenTo a.state.sides a.pending, lastReduction := reductions
                       previousUpdateId := some updateId } } bid ask updateId := by
  obtain ⟨next, hrows, hsides⟩ := deltaRows_eq h window a.state.updateCounter
    { sides := a.state.sides, lastReduction := a.state.lastReduction }
  refine ⟨next.lastReduction, next.bid, next.ask, ?_⟩
  unfold applyDelta
  have hgap : ¬ (some connectionId ≠ a.state.connectionId ∨ updateId ≠ previous + 1) := by
    rintro (h | h)
    · exact h hconn
    · exact h hnext
  simp only [hprevious, if_neg hgap, hrows, hsides]

end Finish

theorem header_eq_ok {messageType connectionId : String}
    {updateId : ℤ} : header rows = .ok (messageType, updateId, connectionId) ↔
      theOne (rows.map (·.messageType)) = some messageType ∧
      theOne (rows.map (·.updateId)) = some (some updateId) ∧
      theOne (rows.map (·.connectionId)) = some connectionId := by
  have hone {α : Type} [DecidableEq α] {values : List α} {name : String} {v : α} :
      one values name = .ok v ↔ theOne values = some v := by
    unfold one
    cases theOne values with
    | none => simp
    | some w => simp
  unfold header
  simp only [bind_eq_ok, hone]
  constructor
  · rintro ⟨t, ht, u, hu, c, hc, h⟩
    cases u with
    | none => cases h
    | some u =>
      cases h
      exact ⟨ht, hu, hc⟩
  · rintro ⟨ht, hu, hc⟩
    exact ⟨messageType, ht, some updateId, hu, connectionId, hc, rfl⟩

end Greenfield.Features
