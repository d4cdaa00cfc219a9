import Greenfield.Features.Auction
import Mathlib.Algebra.Order.BigOperators.Group.List
import Mathlib.Data.List.GetD
import Mathlib.Tactic.Ring

/-!
# Trade streams

What the features are for a stream of trades in its order. Each function returns, with a row for
each bucket that is computed from the trades of the stream (`tradeFlowRows_eq`,
`interactionRows_eq`, `anchoredVwapFrame_eq`, `footprintFrame_eq`,
`rollingVolumeProfileFrame_eq`).
-/

namespace Greenfield.Features

open Buckets Data Py

/-- A row of a trade, as the normalizer makes them. -/
structure IsTrade (symbol : String) (row : Trade) : Prop where
  record : row.recordType = "trade"
  channel : row.channel = "trades"
  stream : row.symbol = symbol
  sided : row.side = some "buy" ∨ row.side = some "sell"
  priced : ∃ price, row.price = some price ∧ 0 < price
  sized : ∃ size, row.size = some size ∧ 0 < size

/-- A strictly ordered stream of trades. -/
structure TradeStream (symbol : String) where
  rows : List Trade
  trades : ∀ row ∈ rows, IsTrade symbol row
  ordered : rows.Pairwise fun a b => tradeKey a < tradeKey b

variable {symbol : String} {bucketMs : ℤ} {row : Trade} {rows group : List Trade}

/-! ## Trades -/

theorem IsTrade.amount_pos (h : IsTrade symbol row) : 0 < row.amount := by
  obtain ⟨size, hsize, hpos⟩ := h.sized
  unfold Trade.amount
  rw [hsize]
  exact hpos

theorem IsTrade.complete (h : IsTrade symbol row) : isComplete row = true := by
  obtain ⟨price, hprice, -⟩ := h.priced
  obtain ⟨size, hsize, -⟩ := h.sized
  simp [isComplete, h.sided, hprice, hsize]

theorem IsTrade.flow (h : IsTrade symbol row) : validateFlow symbol row = .ok () := by
  simp [validateFlow, check, h.record, h.channel, h.stream, h.complete, bind, Except.bind]

theorem IsTrade.interaction (h : IsTrade symbol row) : validateInteraction symbol row = .ok () := by
  simp [validateInteraction, check, h.record, h.channel, h.stream, h.complete, bind, Except.bind]

theorem IsTrade.auction (h : IsTrade symbol row) : validateTrade symbol row = .ok () := by
  simp [validateTrade, check, h.record, h.stream]

theorem IsTrade.amounts (h : IsTrade symbol row) : requireAmounts row = .ok () := by
  obtain ⟨price, hprice, -⟩ := h.priced
  obtain ⟨size, hsize, -⟩ := h.sized
  simp [requireAmounts, check, hprice, hsize]

/-- The volume of a side, trade by trade. -/
theorem volumeOf_eq_sum (side : String) (rows : List Trade) : volumeOf side rows =
    (rows.map fun row => if row.side = some side then row.amount else 0).sum := by
  unfold volumeOf
  induction rows with
  | nil => rfl
  | cons row rows ih =>
    by_cases h : row.side = some side
    · simp [h, ih]
    · simp [h, ih]

/-- Every trade is of a side. -/
theorem volumes_sum (h : ∀ row ∈ rows, IsTrade symbol row) :
    volumeOf "buy" rows + volumeOf "sell" rows = (rows.map Trade.amount).sum := by
  rw [volumeOf_eq_sum, volumeOf_eq_sum]
  induction rows with
  | nil => simp
  | cons row rows ih =>
    obtain ⟨hrow, hrows⟩ := List.forall_mem_cons.mp h
    have hrest := ih hrows
    simp only [List.map_cons, List.sum_cons] at hrest ⊢
    rcases hrow.sided with hside | hside
    · rw [hside, ← hrest]
      simp [add_assoc]
    · rw [hside, ← hrest]
      simp [add_left_comm]

theorem amounts_pos (h : ∀ row ∈ rows, IsTrade symbol row) (hne : rows ≠ []) :
    0 < (rows.map Trade.amount).sum := by
  cases rows with
  | nil => exact absurd rfl hne
  | cons row rows =>
    obtain ⟨hrow, hrows⟩ := List.forall_mem_cons.mp h
    rw [List.map_cons, List.sum_cons]
    refine add_pos_of_pos_of_nonneg hrow.amount_pos (List.sum_nonneg fun x hx => ?_)
    obtain ⟨row, hrow, rfl⟩ := List.mem_map.mp hx
    exact (hrows row hrow).amount_pos.le

theorem volume_ne_zero (h : ∀ row ∈ rows, IsTrade symbol row) (hne : rows ≠ []) :
    volumeOf "buy" rows + volumeOf "sell" rows ≠ 0 := by
  rw [volumes_sum h]
  exact (amounts_pos h hne).ne'

/-! ## The latest receive time -/

variable {n : ℤ}

theorem maxReceive_lt :
    maxReceive rows < n ↔ 0 < n ∧ ∀ row ∈ rows, row.receiveTsNs < n := by
  have hfold : ∀ m : ℤ, rows.foldl (fun m row => max m row.receiveTsNs) m < n ↔
      m < n ∧ ∀ row ∈ rows, row.receiveTsNs < n := by
    induction rows with
    | nil => simp
    | cons row rows ih =>
      intro m
      rw [List.foldl_cons, ih, List.forall_mem_cons, max_lt_iff, and_assoc]
  exact hfold 0

/-- The time of a row that comes after `finish` and all its trades. -/
theorem le_stamp {finish : ℤ} (row : Trade) : row.receiveTsNs ≤ max finish (maxReceive rows) ↔
    ¬ (finish < row.receiveTsNs ∧ ∀ u ∈ rows, u.receiveTsNs < row.receiveTsNs) := by
  rw [← not_lt, max_lt_iff, maxReceive_lt]
  simp [row.timestamps.2]

/-! ## The order of the stream -/

variable {a b : Trade}

theorem bucketOf_le (hms : 0 < bucketMs) (h : a.eventTsMs ≤ b.eventTsMs) :
    bucketOf bucketMs a ≤ bucketOf bucketMs b :=
  Int.mul_le_mul_of_nonneg_right (Int.ediv_le_ediv hms h) hms.le

namespace TradeStream

variable (stream : TradeStream symbol)

theorem events_ascending : stream.rows.Pairwise fun a b => a.eventTsMs ≤ b.eventTsMs :=
  stream.ordered.imp fun h => eventTsMs_le h.le

theorem buckets_ascending (hms : 0 < bucketMs) :
    stream.rows.Pairwise fun a b => bucketOf bucketMs a ≤ bucketOf bucketMs b :=
  stream.events_ascending.imp (bucketOf_le hms)

/-- The trades of a key. -/
theorem group_ne_nil {key : Trade → ℤ} {k : ℤ} (hk : k ∈ keysOf key rows) :
    (rows.filter fun row => decide (key row = k)) ≠ [] := by
  obtain ⟨row, hrow, heq⟩ := mem_keysOf.mp hk
  exact List.ne_nil_of_mem (List.mem_filter.mpr ⟨hrow, decide_eq_true heq⟩)

theorem trades_filter (p : Trade → Bool) : ∀ row ∈ stream.rows.filter p, IsTrade symbol row :=
  fun row hrow => stream.trades row (List.mem_filter.mp hrow).1

end TradeStream

/-! ## Trade flow -/

def notionalOf (rows : List Trade) : ℚ := (rows.map fun row => row.level * row.amount).sum

def deltaOf (rows : List Trade) : ℚ := volumeOf "buy" rows - volumeOf "sell" rows

/-- The delta, trade by trade. -/
theorem deltaOf_eq_sum (rows : List Trade) : deltaOf rows = (rows.map fun row =>
    (if row.side = some "buy" then row.amount else 0) -
      if row.side = some "sell" then row.amount else 0).sum := by
  unfold deltaOf
  rw [volumeOf_eq_sum, volumeOf_eq_sum]
  induction rows with
  | nil => simp
  | cons row rows ih =>
    simp only [List.map_cons, List.sum_cons] at ih ⊢
    rw [← ih]
    ring

/-- A sum of volumes up to a bucket. -/
theorem deltaOf_le (key : Trade → ℤ) (rows : List Trade) (k : ℤ) :
    deltaOf (rows.filter fun row => decide (key row ≤ k)) =
      deltaOf (rows.filter fun row => decide (key row < k)) +
        deltaOf (rows.filter fun row => decide (key row = k)) := by
  rw [deltaOf_eq_sum, deltaOf_eq_sum, deltaOf_eq_sum]
  exact sum_filter_le key _ rows k

theorem foldl_tradeSums (h : ∀ row ∈ group, row.side = some "buy" ∨ row.side = some "sell")
    (sums : TradeSums) :
    group.foldl TradeSums.add sums =
      { buy := sums.buy + volumeOf "buy" group
        sell := sums.sell + volumeOf "sell" group
        notional := sums.notional + notionalOf group
        count := sums.count + group.length
        maxReceiveNs := group.foldl (fun m row => max m row.receiveTsNs) sums.maxReceiveNs } := by
  induction group generalizing sums with
  | nil => simp [volumeOf, notionalOf]
  | cons row rows ih =>
    obtain ⟨hrow, hrows⟩ := List.forall_mem_cons.mp h
    rw [List.foldl_cons, ih hrows]
    simp only [TradeSums.add, volumeOf_eq_sum, notionalOf, List.map_cons, List.sum_cons,
      List.length_cons, List.foldl_cons, TradeSums.mk.injEq, and_true]
    rcases hrow with hside | hside
    · simp [hside, add_assoc, add_comm 1]
    · simp [hside, add_assoc, add_comm 1]

/-- The row of a bucket, from the trades up to its end. -/
def flowRow (bucketMs : ℤ) (rows : List Trade) (bucket : ℤ) : TradeFlowRow :=
  let group := rows.filter fun row => decide (bucketOf bucketMs row = bucket)
  { timestamp := max (bucketEnd bucketMs bucket) (maxReceive group)
    maxSourceTimestamp := maxReceive group
    buyVolume := volumeOf "buy" group
    sellVolume := volumeOf "sell" group
    tradeVolume := volumeOf "buy" group + volumeOf "sell" group
    tradeDelta := deltaOf group
    cvd := deltaOf (rows.filter fun row => decide (bucketOf bucketMs row ≤ bucket))
    tradeCount := group.length
    tradeVwap := notionalOf group / (volumeOf "buy" group + volumeOf "sell" group) }

theorem sided_of_flow (h : validateFlow symbol row = .ok ()) :
    row.side = some "buy" ∨ row.side = some "sell" := by
  by_contra hside
  have hincomplete : isComplete row = false := by simp [isComplete, hside]
  revert h
  simp only [validateFlow, hincomplete, check, bind, Except.bind]
  split
  · simp
  · split <;> simp

/-- What the stream emits for rows in order, if no bucket has a volume of zero. -/
theorem tradeFlow_results (hvalid : ∀ row ∈ rows, validateFlow symbol row = .ok ())
    (hordered : rows.Pairwise fun a b => tradeKey a < tradeKey b)
    (hkeys : rows.Pairwise fun a b => bucketOf bucketMs a ≤ bucketOf bucketMs b)
    (hvolume : ∀ k ∈ keysOf (bucketOf bucketMs) rows,
      volumeOf "buy" (rows.filter fun row => decide (bucketOf bucketMs row = k)) +
        volumeOf "sell" (rows.filter fun row => decide (bucketOf bucketMs row = k)) ≠ 0) :
    (tradeFlow symbol bucketMs).results ((tradeFlow symbol bucketMs).start 0) rows =
      .ok ((keysOf (bucketOf bucketMs) rows).map (flowRow bucketMs rows)) := by
  have hresults : (tradeFlow symbol bucketMs).results ((tradeFlow symbol bucketMs).start 0) rows =
      emitEach (fun cvd k group => emitFlow bucketMs cvd k (group.foldl TradeSums.add {})) 0
        (groups (bucketOf bucketMs) rows) := Stream.results_eq hvalid hordered hkeys 0
  refine hresults.trans (emitEach_keys
    (fun k => deltaOf (rows.filter fun row => decide (bucketOf bucketMs row < k)))
    (fun k => deltaOf (rows.filter fun row => decide (bucketOf bucketMs row ≤ k)))
    (fun k hk => ?_) ?_ fun k hk => ?_)
  · have hnone : (rows.filter fun row => decide (bucketOf bucketMs row < k)) = [] := by
      refine List.filter_eq_nil_iff.mpr fun row hrow => ?_
      simpa using le_of_head_keysOf hk row hrow
    rw [hnone]
    simp [deltaOf, volumeOf]
  · refine (keysOf_consecutive _ rows).imp fun k k' h => ?_
    exact congrArg deltaOf (List.filter_congr fun row hrow => decide_eq_decide.mpr (h row hrow))
  · have hsided : ∀ row ∈ rows.filter fun row => decide (bucketOf bucketMs row = k),
        row.side = some "buy" ∨ row.side = some "sell" :=
      fun row hrow => sided_of_flow (hvalid row (List.mem_filter.mp hrow).1)
    rw [foldl_tradeSums hsided]
    unfold emitFlow flowRow maxReceive
    simp only [zero_add, if_neg (hvolume k hk), deltaOf_le (bucketOf bucketMs) rows k]
    rfl

/-- **Trade flow**: a row for each bucket. -/
theorem tradeFlowRows_eq (stream : TradeStream symbol) (hms : 0 < bucketMs) :
    tradeFlowRows symbol bucketMs stream.rows =
      .ok ((keysOf (bucketOf bucketMs) stream.rows).map (flowRow bucketMs stream.rows)) := by
  unfold tradeFlowRows
  simp only [hms, decide_true, check, if_true]
  refine tradeFlow_results (fun row hrow => (stream.trades row hrow).flow) stream.ordered
    (stream.buckets_ascending hms) fun k hk => ?_
  exact volume_ne_zero (stream.trades_filter _) (TradeStream.group_ne_nil hk)

/-! ## Interaction -/

/-- The trades of a bucket. -/
def tradesIn (bucketMs : ℤ) (rows : List Trade) (bucket : ℤ) : List Trade :=
  rows.filter fun row => decide (bucketOf bucketMs row = bucket)

/-- The volumes up to a bucket are those of the buckets up to it. -/
theorem deltaOf_running (bucketMs : ℤ) (trades : List Trade) :
    ∀ i (h : i < (keysOf (bucketOf bucketMs) trades).length),
      deltaOf (trades.filter fun trade =>
          decide (bucketOf bucketMs trade ≤ (keysOf (bucketOf bucketMs) trades)[i])) =
        (((keysOf (bucketOf bucketMs) trades).take (i + 1)).map fun bucket =>
          deltaOf (tradesIn bucketMs trades bucket)).sum := by
  intro i h
  have hchain := List.isChain_iff_getElem.mp (keysOf_consecutive (bucketOf bucketMs) trades)
  induction i with
  | zero =>
    have hhead : (keysOf (bucketOf bucketMs) trades)[0] ∈
        (keysOf (bucketOf bucketMs) trades).head? := by
      rw [List.head?_eq_getElem?, List.getElem?_eq_getElem h]
      rfl
    have hnone : (trades.filter fun trade =>
        decide (bucketOf bucketMs trade < (keysOf (bucketOf bucketMs) trades)[0])) = [] := by
      refine List.filter_eq_nil_iff.mpr fun trade htrade => ?_
      simpa using le_of_head_keysOf hhead trade htrade
    rw [deltaOf_le, hnone, List.take_add_one, List.getElem?_eq_getElem h]
    simp [deltaOf, volumeOf, tradesIn]
  | succ i ih =>
    have hi : i < (keysOf (bucketOf bucketMs) trades).length := Nat.lt_of_succ_lt h
    have hsame : (trades.filter fun trade =>
        decide (bucketOf bucketMs trade < (keysOf (bucketOf bucketMs) trades)[i + 1])) =
        trades.filter fun trade =>
          decide (bucketOf bucketMs trade ≤ (keysOf (bucketOf bucketMs) trades)[i]) :=
      List.filter_congr fun trade htrade => decide_eq_decide.mpr (hchain i h trade htrade)
    rw [deltaOf_le, hsame, ih hi, List.take_add_one (i := i + 1), List.getElem?_eq_getElem h,
      List.map_append, List.sum_append]
    simp [tradesIn]

theorem foldl_append (group kept : List Trade) :
    group.foldl (fun rows row => rows ++ [row]) kept = kept ++ group := by
  induction group generalizing kept with
  | nil => simp
  | cons row rows ih => rw [List.foldl_cons, ih, List.append_assoc, List.singleton_append]

/-- **Interaction**: a row for each bucket, from its trades and those of the bucket before it. -/
theorem interactionRows_eq (stream : TradeStream symbol) {tick : ℚ} {minSweepLevels : ℕ}
    (hms : 0 < bucketMs) (htick : 0 < tick) (hlevels : 2 ≤ minSweepLevels) :
    interactionRows symbol bucketMs tick minSweepLevels stream.rows =
      .ok ((keysOf (bucketOf bucketMs) stream.rows).map fun bucket =>
        interactionRow bucketMs tick minSweepLevels
          ((keyBefore (bucketOf bucketMs) stream.rows bucket).map fun before =>
            previousBucket (tradesIn bucketMs stream.rows before))
          bucket (tradesIn bucketMs stream.rows bucket)) := by
  have hresults : (tradeInteraction symbol bucketMs tick minSweepLevels).results
      ((tradeInteraction symbol bucketMs tick minSweepLevels).start none) stream.rows =
        emitEach (fun previous k group => emitInteraction bucketMs tick minSweepLevels previous k
          (group.foldl (fun rows row => rows ++ [row]) [])) none
          (groups (bucketOf bucketMs) stream.rows) :=
    Stream.results_eq (fun row hrow => (stream.trades row hrow).interaction) stream.ordered
      (stream.buckets_ascending hms) none
  unfold interactionRows
  simp only [hms, htick, hlevels, and_self, decide_true, check, if_true]
  refine hresults.trans (emitEach_keys
    (fun k => (keyBefore (bucketOf bucketMs) stream.rows k).map fun before =>
      previousBucket (tradesIn bucketMs stream.rows before))
    (fun k => some (previousBucket (tradesIn bucketMs stream.rows k)))
    (fun k hk => ?_) ?_ fun k hk => ?_)
  · rw [keyBefore_eq_none (le_of_head_keysOf hk)]
    rfl
  · have hchain := keysOf_consecutive (bucketOf bucketMs) stream.rows
    refine List.isChain_iff_getElem.mpr fun i hi => ?_
    rw [keyBefore_consecutive (List.getElem_mem _) (List.isChain_iff_getElem.mp hchain i hi)]
    rfl
  · have hgroup := stream.trades_filter fun row => decide (bucketOf bucketMs row = k)
    have hvolume := volume_ne_zero hgroup (TradeStream.group_ne_nil hk)
    rw [foldl_append, List.nil_append, emitInteraction, if_neg hvolume]
    rfl

/-! ## The anchored VWAP -/

/-- The trades from the anchor on. -/
def anchored (anchorTsMs : Option ℤ) (rows : List Trade) : List Trade :=
  rows.filter fun row => anchorTsMs.all (· ≤ row.eventTsMs)

/-- The row of a time of the exchange, from the trades up to it. -/
def vwapRow (rows : List Trade) (eventTsMs : ℤ) : VwapRow :=
  let group := rows.filter fun row => decide (row.eventTsMs = eventTsMs)
  let past := rows.filter fun row => decide (row.eventTsMs ≤ eventTsMs)
  { timestamp := max (eventTsMs * 1000000) (maxReceive group)
    maxSourceTimestamp := maxReceive group
    vwap := (past.map fun row => row.amount * row.level).sum / (past.map Trade.amount).sum
    cumulativeVolume := (past.map Trade.amount).sum }

theorem vwapLe_of_lt (h : tradeKey a < tradeKey b) : vwapLe a b = true := by
  simp only [tradeKey, goldKeys, Prod.Lex.toLex_lt_toLex] at h
  simp only [vwapLe, decide_eq_true_eq]
  omega

theorem forM_ok {ε α : Type} {f : α → Except ε PUnit} : ∀ {l : List α}, (∀ x ∈ l, f x = .ok ()) →
    l.forM f = .ok ()
  | [], _ => rfl
  | x :: xs, h => by
    obtain ⟨hx, hxs⟩ := List.forall_mem_cons.mp h
    show (f x >>= fun _ => xs.forM f) = _
    rw [hx]
    exact forM_ok hxs

/-- **The anchored VWAP**: a row for each time of the exchange, from the trades up to it. -/
theorem anchoredVwapFrame_eq (stream : TradeStream symbol) (anchorTsMs : Option ℤ) :
    anchoredVwapFrame symbol anchorTsMs stream.rows =
      .ok ((keysOf (fun row : Trade => row.eventTsMs) (anchored anchorTsMs stream.rows)).map
        (vwapRow (anchored anchorTsMs stream.rows))) := by
  have htrades : ∀ row ∈ anchored anchorTsMs stream.rows, IsTrade symbol row :=
    stream.trades_filter _
  have hsorted : sorted vwapLe (anchored anchorTsMs stream.rows) = anchored anchorTsMs stream.rows :=
    sorted_eq_self ((stream.ordered.filter _).imp vwapLe_of_lt)
  have hevents : (anchored anchorTsMs stream.rows).Pairwise fun a b => a.eventTsMs ≤ b.eventTsMs :=
    stream.events_ascending.filter _
  unfold anchoredVwapFrame
  rw [forM_ok fun row hrow => (stream.trades row hrow).auction]
  show ((anchored anchorTsMs stream.rows).forM requireAmounts >>= fun _ => _) = _
  rw [forM_ok fun row hrow => (htrades row hrow).amounts]
  show emitEach emitVwap (0, 0) (runs _ (sorted vwapLe (anchored anchorTsMs stream.rows))) = _
  rw [hsorted, ← groups_eq_runs hevents]
  generalize hrows : anchored anchorTsMs stream.rows = rows at htrades
  refine emitEach_keys
    (fun k => (((rows.filter fun row => decide (row.eventTsMs < k)).map Trade.amount).sum,
      ((rows.filter fun row => decide (row.eventTsMs < k)).map fun row =>
        row.amount * row.level).sum))
    (fun k => (((rows.filter fun row => decide (row.eventTsMs ≤ k)).map Trade.amount).sum,
      ((rows.filter fun row => decide (row.eventTsMs ≤ k)).map fun row =>
        row.amount * row.level).sum)) (fun k hk => ?_) ?_ fun k hk => ?_
  · have hnone : (rows.filter fun row => decide (row.eventTsMs < k)) = [] := by
      refine List.filter_eq_nil_iff.mpr fun row hrow => ?_
      simpa using le_of_head_keysOf hk row hrow
    simp [hnone]
  · refine (keysOf_consecutive _ rows).imp fun k k' h => ?_
    have hsame : (rows.filter fun row => decide (row.eventTsMs < k')) =
        rows.filter fun row => decide (row.eventTsMs ≤ k) :=
      List.filter_congr fun row hrow => decide_eq_decide.mpr (h row hrow)
    rw [hsame]
  · have hpast : ∀ row ∈ rows.filter fun row => decide (row.eventTsMs ≤ k), IsTrade symbol row :=
      fun row hrow => htrades row (List.mem_filter.mp hrow).1
    have hne : (rows.filter fun row => decide (row.eventTsMs ≤ k)) ≠ [] := by
      obtain ⟨row, hrow, heq⟩ := mem_keysOf.mp hk
      exact List.ne_nil_of_mem (List.mem_filter.mpr ⟨hrow, decide_eq_true heq.le⟩)
    have hvolume := (amounts_pos hpast hne).ne'
    have hamounts := sum_filter_le (fun row : Trade => row.eventTsMs) Trade.amount rows k
    have hnotionals := sum_filter_le (fun row : Trade => row.eventTsMs)
      (fun row => row.amount * row.level) rows k
    unfold emitVwap vwapRow
    simp only [← hamounts, ← hnotionals, if_neg hvolume]

/-! ## Footprints and volume profiles -/

/-- All rows of a footprint. -/
def footprintRows (bucketMs : ℤ) (tick imbalanceRatio : ℚ) (rows : List Trade) :
    List FootprintRow :=
  (groups (bucketOf bucketMs) rows).flatMap fun (bucket, group) =>
    bucketFootprint bucketMs tick imbalanceRatio bucket group

variable {tick imbalanceRatio : ℚ}

/-- Trades in any order have a footprint. -/
theorem footprintFrame_trades (htrades : ∀ row ∈ rows, IsTrade symbol row)
    (hms : 0 < bucketMs) (htick : 0 < tick) (hratio : 0 < imbalanceRatio) :
    footprintFrame symbol bucketMs tick imbalanceRatio rows =
      .ok (footprintRows bucketMs tick imbalanceRatio rows) := by
  have hvalid : (rows.forM fun row => do
      validateTrade symbol row
      requireAmounts row) = .ok () := by
    refine forM_ok fun row hrow => ?_
    rw [(htrades row hrow).auction, (htrades row hrow).amounts]
    rfl
  have hsided : (rows.forM fun row =>
      check (row.side = some "buy" ∨ row.side = some "sell") .indexError) = .ok () :=
    forM_ok fun row hrow => by simp [check, (htrades row hrow).sided]
  unfold footprintFrame
  simp only [hms, htick, hratio, and_self, decide_true, check, if_true] at hsided ⊢
  rw [hvalid, hsided]
  rfl

/-- **Footprints**: the levels of each bucket. -/
theorem footprintFrame_eq (stream : TradeStream symbol)
    (hms : 0 < bucketMs) (htick : 0 < tick) (hratio : 0 < imbalanceRatio) :
    footprintFrame symbol bucketMs tick imbalanceRatio stream.rows =
      .ok (footprintRows bucketMs tick imbalanceRatio stream.rows) :=
  footprintFrame_trades stream.trades hms htick hratio

/-- Lists that are put together correspond where the parts do. -/
theorem forall₂_flatMap {α β γ : Type} {R : β → γ → Prop} {f : α → List β} {g : α → List γ} :
    ∀ {l : List α}, (∀ x ∈ l, List.Forall₂ R (f x) (g x)) →
      List.Forall₂ R (l.flatMap f) (l.flatMap g)
  | [], _ => .nil
  | x :: xs, h => by
    obtain ⟨hx, hxs⟩ := List.forall_mem_cons.mp h
    exact List.rel_append hx (forall₂_flatMap hxs)

/-- A flag is in a run exactly where it is set. -/
theorem stackRuns_pos (flags : List Bool) :
    List.Forall₂ (fun n flag => 0 < n ↔ flag = true) (stackRuns flags) flags := by
  have hflags : List.Forall₂ (fun n flag => 0 < n ↔ flag = true) (stackRuns flags)
      ((runs id flags).flatMap Prod.snd) := by
    refine forall₂_flatMap fun p hp => ?_
    rw [List.forall₂_map_left_iff, List.forall₂_same]
    intro flag hflag
    have hpos : 0 < p.2.length := List.length_pos_of_mem hflag
    have hkey : flag = p.1 := mem_runs hp flag hflag
    rw [hkey]
    split
    · next h => simp [h, hpos]
    · next h => simp [h]
  rwa [runs_flatten] at hflags

/-- The trades of a level. -/
def tradesAt (tick : ℚ) (group : List Trade) (level : ℚ) : List Trade :=
  group.filter fun row => decide (priceLevelOf tick row = level)

/-- The row of a level of a bucket. -/
structure IsLevelRow (bucketMs : ℤ) (tick imbalanceRatio : ℚ) (bucket : ℤ) (group : List Trade)
    (row : FootprintRow) (level : ℚ) : Prop where
  start : row.bucketStartMs = bucket
  price : row.priceLevel = level
  timestamp : row.timestamp = max (bucketEnd bucketMs bucket) (maxReceive (tradesAt tick group level))
  buy : row.buyVolume = volumeOf "buy" (tradesAt tick group level)
  sell : row.sellVolume = volumeOf "sell" (tradesAt tick group level)
  total : row.totalVolume = row.buyVolume + row.sellVolume
  delta : row.delta = row.buyVolume - row.sellVolume
  buyRatio : row.diagonalBuyRatio =
    diagonalRatio row.buyVolume (volumeOf "sell" (tradesAt tick group (level - tick)))
  sellRatio : row.diagonalSellRatio =
    diagonalRatio row.sellVolume (volumeOf "buy" (tradesAt tick group (level + tick)))
  buyStack : 0 < row.stackedBuyLevels ↔ imbalanceRatio ≤ row.diagonalBuyRatio
  sellStack : 0 < row.stackedSellLevels ↔ imbalanceRatio ≤ row.diagonalSellRatio

theorem levelVolume_groups (side : String) (tick level : ℚ) (group : List Trade) :
    levelVolume side (groups (priceLevelOf tick) group) level =
      volumeOf side (tradesAt tick group level) := by
  unfold levelVolume tradesAt
  by_cases hlevel : level ∈ keysOf (priceLevelOf tick) group
  · rw [lookup_groups hlevel]
    rfl
  · have hnil : (group.filter fun row => decide (priceLevelOf tick row = level)) = [] := by
      refine List.filter_eq_nil_iff.mpr fun row hrow heq => hlevel ?_
      exact mem_keysOf.mpr ⟨row, hrow, of_decide_eq_true heq⟩
    rw [lookup_groups_none hlevel, hnil]
    rfl

variable (bucketMs) in
/-- The rows of a bucket, one for each of its levels. -/
theorem bucketFootprint_rows (tick imbalanceRatio : ℚ) (bucket : ℤ) (group : List Trade) :
    List.Forall₂ (IsLevelRow bucketMs tick imbalanceRatio bucket group)
      (bucketFootprint bucketMs tick imbalanceRatio bucket group)
      (keysOf (priceLevelOf tick) group) := by
  have hbuys := stackRuns_pos ((groups (priceLevelOf tick) group).map fun p =>
    decide (imbalanceRatio ≤ buyRatio tick (groups (priceLevelOf tick) group) p.1))
  have hsells := stackRuns_pos ((groups (priceLevelOf tick) group).map fun p =>
    decide (imbalanceRatio ≤ sellRatio tick (groups (priceLevelOf tick) group) p.1))
  have hlength : (groups (priceLevelOf tick) group).length =
      (keysOf (priceLevelOf tick) group).length := List.length_map _
  refine List.forall₂_iff_get.mpr ⟨by simp [bucketFootprint, hlength], fun i h h' => ?_⟩
  have hi : i < (groups (priceLevelOf tick) group).length := hlength.symm ▸ h'
  have hlevel : (groups (priceLevelOf tick) group)[i] =
      ((keysOf (priceLevelOf tick) group)[i],
        tradesAt tick group (keysOf (priceLevelOf tick) group)[i]) := List.getElem_map _
  have hbuyRun : i < (stackRuns ((groups (priceLevelOf tick) group).map fun p =>
      decide (imbalanceRatio ≤ buyRatio tick (groups (priceLevelOf tick) group) p.1))).length := by
    rw [hbuys.length_eq]
    simpa using hi
  have hsellRun : i < (stackRuns ((groups (priceLevelOf tick) group).map fun p =>
      decide (imbalanceRatio ≤ sellRatio tick (groups (priceLevelOf tick) group) p.1))).length := by
    rw [hsells.length_eq]
    simpa using hi
  have hbuy := hbuys.get hbuyRun (by simpa using hi)
  have hsell := hsells.get hsellRun (by simpa using hi)
  simp only [List.get_eq_getElem, List.getElem_map, hlevel, decide_eq_true_eq] at hbuy hsell
  simp only [List.get_eq_getElem, bucketFootprint, List.getElem_map, List.getElem_zipIdx, zero_add,
    hlevel]
  refine ⟨rfl, rfl, rfl, rfl, rfl, rfl, rfl, ?_, ?_, ?_, ?_⟩
  · dsimp only [buyRatio]
    rw [levelVolume_groups, levelVolume_groups]
  · dsimp only [sellRatio]
    rw [levelVolume_groups, levelVolume_groups]
  · rw [← hbuy]
    exact iff_of_eq (congrArg _ (List.getD_eq_getElem _ _ hbuyRun))
  · rw [← hsell]
    exact iff_of_eq (congrArg _ (List.getD_eq_getElem _ _ hsellRun))

variable {r : FootprintRow}

theorem mem_footprintRows :
    r ∈ footprintRows bucketMs tick imbalanceRatio rows ↔
      ∃ bucket ∈ keysOf (bucketOf bucketMs) rows,
        r ∈ bucketFootprint bucketMs tick imbalanceRatio bucket (tradesIn bucketMs rows bucket) := by
  unfold footprintRows groups
  rw [List.flatMap_map, List.mem_flatMap]
  rfl

theorem forall₂_mem_left {α β : Type} {R : α → β → Prop} {l : List α} {l' : List β}
    (h : List.Forall₂ R l l') : ∀ x ∈ l, ∃ y ∈ l', R x y := by
  induction h with
  | nil => exact fun x hx => absurd hx List.not_mem_nil
  | cons hxy _ ih =>
    refine List.forall_mem_cons.mpr ⟨⟨_, List.mem_cons_self, hxy⟩, fun x hx => ?_⟩
    obtain ⟨y, hy, h⟩ := ih x hx
    exact ⟨y, List.mem_cons_of_mem _ hy, h⟩

/-- A row of a footprint is of a level with trades, in a bucket. -/
theorem level_of_mem
    (h : r ∈ footprintRows bucketMs tick imbalanceRatio rows) :
    ∃ bucket ∈ keysOf (bucketOf bucketMs) rows,
      ∃ level ∈ keysOf (priceLevelOf tick) (tradesIn bucketMs rows bucket),
        IsLevelRow bucketMs tick imbalanceRatio bucket (tradesIn bucketMs rows bucket) r level := by
  obtain ⟨bucket, hbucket, hr⟩ := mem_footprintRows.mp h
  obtain ⟨level, hlevel, hrow⟩ :=
    forall₂_mem_left (bucketFootprint_rows bucketMs tick imbalanceRatio bucket _) r hr
  exact ⟨bucket, hbucket, level, hlevel, hrow⟩

variable (bucketMs) in
/-- Every level with trades has its row. -/
theorem exists_level (tick imbalanceRatio : ℚ) {row : Trade} (hrow : row ∈ rows) :
    ∃ r ∈ footprintRows bucketMs tick imbalanceRatio rows,
      IsLevelRow bucketMs tick imbalanceRatio (bucketOf bucketMs row)
        (tradesIn bucketMs rows (bucketOf bucketMs row)) r (priceLevelOf tick row) := by
  have hin : row ∈ tradesIn bucketMs rows (bucketOf bucketMs row) :=
    List.mem_filter.mpr ⟨hrow, decide_eq_true rfl⟩
  have hrows := (bucketFootprint_rows bucketMs tick imbalanceRatio
    (bucketOf bucketMs row) (tradesIn bucketMs rows (bucketOf bucketMs row))).flip
  obtain ⟨r, hr, hlevel⟩ := forall₂_mem_left hrows _ (mem_keysOf.mpr ⟨row, hin, rfl⟩)
  exact ⟨r, mem_footprintRows.mpr ⟨_, mem_keysOf.mpr ⟨row, hrow, rfl⟩, hr⟩, hlevel⟩

/-- When the values of a bucket are known. -/
def stampOf (bucketMs : ℤ) (rows : List Trade) (bucket : ℤ) : ℤ :=
  max (bucketEnd bucketMs bucket) (maxReceive (tradesIn bucketMs rows bucket))

theorem max_lt {l : List ℤ} (hne : l ≠ []) : l.max?.getD 0 < n ↔ ∀ x ∈ l, x < n := by
  cases hmax : l.max? with
  | none => exact absurd (List.max?_eq_none_iff.mp hmax) hne
  | some m =>
    obtain ⟨hm, hle⟩ := List.max?_eq_some_iff.mp hmax
    exact ⟨fun h x hx => (hle x hx).trans_lt h, fun h => h m hm⟩

variable {bucket : ℤ}

/-- The latest time of the rows of a bucket. -/
theorem max_timestamp (tick imbalanceRatio : ℚ)
    (hbucket : bucket ∈ keysOf (bucketOf bucketMs) rows) :
    (((footprintRows bucketMs tick imbalanceRatio rows).filter fun r =>
      decide (r.bucketStartMs = bucket)).map FootprintRow.timestamp).max?.getD 0 =
        stampOf bucketMs rows bucket := by
  have hlevel : ∀ row ∈ rows, bucketOf bucketMs row = bucket →
      ∃ r ∈ (footprintRows bucketMs tick imbalanceRatio rows).filter fun r =>
        decide (r.bucketStartMs = bucket),
        IsLevelRow bucketMs tick imbalanceRatio bucket (tradesIn bucketMs rows bucket) r
          (priceLevelOf tick row) := by
    rintro row hrow rfl
    obtain ⟨r, hr, hlevel⟩ := exists_level bucketMs tick imbalanceRatio hrow
    exact ⟨r, List.mem_filter.mpr ⟨hr, decide_eq_true hlevel.start⟩, hlevel⟩
  obtain ⟨first, hfirst, heq⟩ := mem_keysOf.mp hbucket
  obtain ⟨r₀, hr₀, hlevel₀⟩ := hlevel first hfirst heq
  -- both are the least time that is not before any of the trades
  refine eq_of_forall_gt_iff fun n => ?_
  rw [max_lt (List.ne_nil_of_mem (List.mem_map_of_mem hr₀)), List.forall_mem_map, stampOf, max_lt_iff,
    maxReceive_lt]
  constructor
  · intro h
    have hr := h r₀ hr₀
    rw [hlevel₀.timestamp, max_lt_iff, maxReceive_lt] at hr
    refine ⟨hr.1, hr.2.1, fun row hrow => ?_⟩
    obtain ⟨hrow', hin⟩ := List.mem_filter.mp hrow
    obtain ⟨r, hr, hlevel⟩ := hlevel row hrow' (of_decide_eq_true hin)
    have hr := h r hr
    rw [hlevel.timestamp, max_lt_iff, maxReceive_lt] at hr
    exact hr.2.2 row (List.mem_filter.mpr ⟨hrow, decide_eq_true rfl⟩)
  · rintro ⟨hend, hzero, hrows⟩ r hr
    obtain ⟨hr, hin⟩ := List.mem_filter.mp hr
    obtain ⟨bucket', -, level, -, hrow⟩ := level_of_mem hr
    obtain rfl : bucket' = bucket := hrow.start.symm.trans (of_decide_eq_true hin)
    rw [hrow.timestamp, max_lt_iff, maxReceive_lt]
    exact ⟨hend, hzero, fun u hu => hrows u (List.mem_filter.mp hu).1⟩

variable {windowBuckets : ℕ}

/-- The last bucket of a window is in it. -/
theorem mem_trailingWindows {buckets window : List ℤ}
    (hwindow : 0 < windowBuckets) (h : (window, bucket) ∈ trailingWindows windowBuckets buckets) :
    bucket ∈ window ∧ ∀ b ∈ window, b ∈ buckets := by
  obtain ⟨i, hi, heq⟩ := List.mem_map.mp h
  have hi : i < buckets.length := List.mem_range.mp (List.mem_of_mem_drop hi)
  cases heq
  refine ⟨?_, fun b hb => List.mem_of_mem_drop (List.mem_of_mem_take hb)⟩
  rw [List.getD_eq_getElem _ _ hi]
  refine List.mem_iff_getElem.mpr ⟨i - (i + 1 - windowBuckets), ?_, ?_⟩
  · simp
    omega
  · rw [List.getElem_take, List.getElem_drop]
    congr 1
    omega

theorem bucketStartMs_keys (tick imbalanceRatio : ℚ) (rows : List Trade) :
    keysOf FootprintRow.bucketStartMs (footprintRows bucketMs tick imbalanceRatio rows) =
      keysOf (bucketOf bucketMs) rows := by
  refine eq_of_ascending (pairwise_keysOf _ _) (pairwise_keysOf _ _) fun bucket => ?_
  rw [mem_keysOf, mem_keysOf]
  constructor
  · rintro ⟨r, hr, rfl⟩
    obtain ⟨bucket, hbucket, level, -, hrow⟩ := level_of_mem hr
    rw [hrow.start]
    exact mem_keysOf.mp hbucket
  · rintro ⟨row, hrow, rfl⟩
    obtain ⟨r, hr, hlevel⟩ := exists_level bucketMs tick imbalanceRatio hrow
    exact ⟨r, hr, hlevel.start⟩

theorem IsLevelRow.total_pos {tick imbalanceRatio level : ℚ}
    (h : IsLevelRow bucketMs tick imbalanceRatio bucket group r level)
    (htrades : ∀ row ∈ group, IsTrade symbol row) (hlevel : level ∈ keysOf (priceLevelOf tick) group) :
    0 < r.totalVolume := by
  obtain ⟨row, hrow, heq⟩ := mem_keysOf.mp hlevel
  have hin : row ∈ tradesAt tick group level := List.mem_filter.mpr ⟨hrow, decide_eq_true heq⟩
  have hall : ∀ row ∈ tradesAt tick group level, IsTrade symbol row :=
    fun row hrow => htrades row (List.mem_filter.mp hrow).1
  rw [h.total, h.buy, h.sell, volumes_sum hall]
  exact amounts_pos hall (List.ne_nil_of_mem hin)

variable {volumes : List ℚ}

variable {i : ℤ}

theorem volumeAt_neg (hi : i < 0) : volumeAt volumes i = -1 := if_pos hi

theorem lt_volumeAt (hvolumes : ∀ v ∈ volumes, 0 ≤ v)
    (hi : 0 ≤ i) (hlength : i < volumes.length) : -1 < volumeAt volumes i := by
  unfold volumeAt
  rw [if_neg hi.not_gt, List.getD_eq_getElem _ _ (by omega)]
  exact neg_one_lt_zero.trans_le (hvolumes _ (List.getElem_mem _))

theorem volumeAt_beyond (hi : (volumes.length : ℤ) ≤ i) :
    volumeAt volumes i = -1 := by
  unfold volumeAt
  rw [if_neg (by omega), List.getD_eq_default _ _ (by omega)]

variable {lower upper : ℤ}

/-- Only a side with a level left can have the greater volume. -/
theorem room_upper (hvolumes : ∀ v ∈ volumes, 0 ≤ v)
    (hlower : lower < volumes.length) (hless : volumeAt volumes lower < volumeAt volumes upper) :
    upper < volumes.length := by
  by_contra hno
  rw [volumeAt_beyond (i := upper) (not_lt.mp hno)] at hless
  rcases lt_or_ge lower 0 with hneg | hpos
  · rw [volumeAt_neg hneg] at hless
    exact lt_irrefl _ hless
  · exact lt_asymm hless (lt_volumeAt hvolumes hpos hlower)

theorem room_lower (hvolumes : ∀ v ∈ volumes, 0 ≤ v)
    (hupper : 0 ≤ upper) (hroom : 0 ≤ lower ∨ upper < volumes.length)
    (hless : ¬ volumeAt volumes lower < volumeAt volumes upper) : 0 ≤ lower := by
  by_contra hno
  apply hless
  rw [volumeAt_neg (not_le.mp hno)]
  exact lt_volumeAt hvolumes hupper (hroom.resolve_left hno)

/-- The value area is widened until it has the target or there is no more volume. -/
theorem widen_stops (hvolumes : ∀ v ∈ volumes, 0 ≤ v) (target : ℚ) :
    ∀ (fuel : ℕ) (lower upper : ℤ) (accumulated : ℚ), -1 ≤ lower → lower < volumes.length →
      0 ≤ upper → upper ≤ volumes.length → lower + 1 + (volumes.length - upper) ≤ fuel →
      ¬ ((widen volumes target fuel lower upper accumulated).2.2 < target ∧
        (0 ≤ (widen volumes target fuel lower upper accumulated).1 ∨
          (widen volumes target fuel lower upper accumulated).2.1 < volumes.length)) := by
  intro fuel
  induction fuel with
  | zero =>
    intro lower upper accumulated hlower hlower' hupper hupper' hfuel
    simp only [widen]
    omega
  | succ fuel ih =>
    intro lower upper accumulated hlower hlower' hupper hupper' hfuel
    rw [widen]
    by_cases h : accumulated < target ∧ (0 ≤ lower ∨ upper < volumes.length)
    · rw [if_pos h]
      by_cases hless : volumeAt volumes lower < volumeAt volumes upper
      · have hroom := room_upper hvolumes hlower' hless
        rw [if_pos hless]
        exact ih _ _ _ hlower hlower' (by omega) (by omega) (by omega)
      · have hroom := room_lower hvolumes hupper h.2 hless
        rw [if_neg hless]
        exact ih _ _ _ (by omega) (by omega) hupper hupper' (by omega)
    · rw [if_neg h]
      exact h

variable {footprint : List FootprintRow}

/-- A level has the volume of its rows. -/
theorem levelTotals_pos (hpos : ∀ r ∈ footprint, 0 < r.totalVolume) :
    ∀ level ∈ levelTotals footprint, 0 < level.2 := by
  intro level hlevel
  unfold levelTotals at hlevel
  obtain ⟨⟨price, rows⟩, hgroup, rfl⟩ := List.mem_map.mp hlevel
  obtain ⟨⟨r, hr, hprice⟩, rfl⟩ := mem_groups.mp hgroup
  have hmem : r ∈ footprint.filter fun r => decide (r.priceLevel = price) :=
    List.mem_filter.mpr ⟨hr, decide_eq_true hprice⟩
  refine List.sum_pos _ (fun v hv => ?_) (List.ne_nil_of_mem (List.mem_map_of_mem hmem))
  obtain ⟨r, hr, rfl⟩ := List.mem_map.mp hv
  exact hpos r (List.mem_filter.mp hr).1

theorem levelTotals_ne_nil (hne : footprint ≠ []) :
    levelTotals footprint ≠ [] := by
  obtain ⟨r, hr⟩ := List.exists_mem_of_ne_nil _ hne
  have hkey : r.priceLevel ∈ keysOf FootprintRow.priceLevel footprint := mem_keysOf.mpr ⟨r, hr, rfl⟩
  simp only [levelTotals, groups, ne_eq, List.map_eq_nil_iff]
  exact List.ne_nil_of_mem hkey

variable {valueAreaFraction : ℚ}

/-- A profile of rows with volumes. -/
theorem volumeProfile_ok
    (hfraction : 0 < valueAreaFraction ∧ valueAreaFraction ≤ 1) (hne : footprint ≠ [])
    (hpos : ∀ r ∈ footprint, 0 < r.totalVolume) :
    volumeProfile footprint valueAreaFraction =
      .ok (valueArea (levelTotals footprint) valueAreaFraction) := by
  have hvolumes : ∀ v ∈ (levelTotals footprint).map Prod.snd, 0 < v := by
    intro v hv
    obtain ⟨level, hlevel, rfl⟩ := List.mem_map.mp hv
    exact levelTotals_pos hpos level hlevel
  have hsum : 0 < ((levelTotals footprint).map Prod.snd).sum := by
    refine List.sum_pos _ hvolumes ?_
    simpa using levelTotals_ne_nil hne
  have hall : ((levelTotals footprint).map Prod.snd).all (0 ≤ ·) = true := by
    rw [List.all_eq_true]
    exact fun v hv => decide_eq_true (hvolumes v hv).le
  unfold volumeProfile
  simp [check, hfraction, hne, hall, hsum, bind, Except.bind, pure, Except.pure]

variable (bucketMs) in
/-- **Rolling profiles**: a row for each full window, at the time of its last bucket. -/
theorem rollingVolumeProfileFrame_eq (stream : TradeStream symbol) (tick imbalanceRatio : ℚ)
    (hwindow : 0 < windowBuckets)
    (hfraction : 0 < valueAreaFraction ∧ valueAreaFraction ≤ 1) :
    ∃ out, rollingVolumeProfileFrame (footprintRows bucketMs tick imbalanceRatio stream.rows)
        windowBuckets valueAreaFraction = .ok out ∧
      out.map ProfileRow.timestamp =
        (trailingWindows windowBuckets (keysOf (bucketOf bucketMs) stream.rows)).map fun p =>
          stampOf bucketMs stream.rows p.2 := by
  unfold rollingVolumeProfileFrame
  rw [bucketStartMs_keys]
  simp only [hwindow, decide_true, check, if_true]
  refine mapM_ok fun (window, bucket) hp => ?_
  obtain ⟨hin, hbuckets⟩ := mem_trailingWindows hwindow hp
  have hbucket := hbuckets bucket hin
  obtain ⟨row, hrow, rfl⟩ := mem_keysOf.mp hbucket
  obtain ⟨r, hr, hlevel⟩ := exists_level bucketMs tick imbalanceRatio hrow
  have hne : ((footprintRows bucketMs tick imbalanceRatio stream.rows).filter fun r =>
      r.bucketStartMs ∈ window) ≠ [] := by
    refine List.ne_nil_of_mem (List.mem_filter.mpr ⟨hr, decide_eq_true ?_⟩)
    rw [hlevel.start]
    exact hin
  have hpos : ∀ r ∈ (footprintRows bucketMs tick imbalanceRatio stream.rows).filter fun r =>
      r.bucketStartMs ∈ window, 0 < r.totalVolume := by
    intro r hr
    obtain ⟨bucket, -, level, hlevel, hrow⟩ := level_of_mem (List.mem_filter.mp hr).1
    exact hrow.total_pos (stream.trades_filter _) hlevel
  dsimp only
  rw [profileRow, volumeProfile_ok hfraction hne hpos, ← max_timestamp tick imbalanceRatio hbucket]
  exact ⟨_, rfl, rfl⟩

end Greenfield.Features
