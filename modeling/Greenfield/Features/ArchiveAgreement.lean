import Greenfield.Features.ArchiveFlow
import Greenfield.Features.TradeStreams
import Mathlib.Tactic.Linarith
import Mathlib.Tactic.NormNum

/-!
# The archive and the live stream agree

The features of the archive and those of the live stream are the same sums over the same groups
of trades (`archive_live_agree`). Only an empty archive is refused, where an empty stream has no
rows (`empty_archive_refused`).
-/

namespace Greenfield.Features

open Buckets Data Py

/-- A trade as the live stream and as the archive have it. -/
structure SameTrade (symbol : String) (tick : ℚ) (t : Trade) (a : ArchiveTrade) : Prop where
  trade : IsTrade symbol t
  timestamp : a.timestamp = t.eventTsMs * 1000000
  price : t.price = some a.price
  size : t.size = some a.quantity
  quote : a.quoteQuantity = a.price * a.quantity
  buys : t.side = some "buy" → a.signedQuantity = a.quantity
  sells : t.side = some "sell" → a.signedQuantity = -a.quantity
  grid : ∃ n : ℤ, a.price = n * tick
  dataset : a.dataset ∈ ["trades", "aggTrades"]

/-- The trades of one stream, as the live stream and as the archive have them. -/
structure RecordedTrades (symbol : String) (tick : ℚ) where
  pairs : List (Trade × ArchiveTrade)
  same : ∀ p ∈ pairs, SameTrade symbol tick p.1 p.2
  identity : Identity
  one : ∀ p ∈ pairs, p.2.identity = identity
  ordered : (pairs.map Prod.fst).Pairwise fun a b => tradeKey a < tradeKey b

namespace RecordedTrades

variable {symbol : String} {tick : ℚ}

/-- The live stream. -/
def live (recorded : RecordedTrades symbol tick) : TradeStream symbol where
  rows := recorded.pairs.map Prod.fst
  trades row hrow := by
    obtain ⟨p, hp, rfl⟩ := List.mem_map.mp hrow
    exact (recorded.same p hp).trade
  ordered := recorded.ordered

def archive (recorded : RecordedTrades symbol tick) : List ArchiveTrade :=
  recorded.pairs.map Prod.snd

end RecordedTrades

variable {symbol : String} {tick : ℚ} {t : Trade} {a : ArchiveTrade}

/-! ## One trade -/

namespace SameTrade

theorem amount (h : SameTrade symbol tick t a) : t.amount = a.quantity := by
  unfold Trade.amount
  rw [h.size]
  rfl

theorem level (h : SameTrade symbol tick t a) : t.level = a.price := by
  unfold Trade.level
  rw [h.price]
  rfl

theorem quantity_pos (h : SameTrade symbol tick t a) : 0 < a.quantity := by
  rw [← h.amount]
  exact h.trade.amount_pos

theorem price_pos (h : SameTrade symbol tick t a) : 0 < a.price := by
  obtain ⟨price, hprice, hpos⟩ := h.trade.priced
  rw [h.price] at hprice
  exact (Option.some.inj hprice) ▸ hpos

theorem buyVolume (h : SameTrade symbol tick t a) :
    a.buyVolume = if t.side = some "buy" then t.amount else 0 := by
  unfold ArchiveTrade.buyVolume
  rcases h.trade.sided with hside | hside
  · rw [h.buys hside, if_pos hside, h.amount]
    exact max_eq_left h.quantity_pos.le
  · rw [h.sells hside, if_neg (by rw [hside]; decide)]
    exact max_eq_right (neg_nonpos.mpr h.quantity_pos.le)

theorem sellVolume (h : SameTrade symbol tick t a) :
    a.sellVolume = if t.side = some "sell" then t.amount else 0 := by
  unfold ArchiveTrade.sellVolume
  rcases h.trade.sided with hside | hside
  · rw [h.buys hside, if_neg (by rw [hside]; decide)]
    rw [min_eq_right h.quantity_pos.le, neg_zero]
  · rw [h.sells hside, if_pos hside, h.amount, min_eq_left (neg_nonpos.mpr h.quantity_pos.le),
      neg_neg]

theorem signed (h : SameTrade symbol tick t a) : a.signedQuantity =
    (if t.side = some "buy" then t.amount else 0) -
      if t.side = some "sell" then t.amount else 0 := by
  rcases h.trade.sided with hside | hside
  · rw [h.buys hside, if_pos hside, if_neg (by rw [hside]; decide), h.amount, sub_zero]
  · rw [h.sells hside, if_neg (by rw [hside]; decide), if_pos hside, h.amount, zero_sub]

/-- The bucket of the archive is the one of the live stream. -/
theorem floor (h : SameTrade symbol tick t a) (bucketMs : ℤ) :
    a.floor (bucketMs * 1000000) = bucketOf bucketMs t * 1000000 := by
  unfold ArchiveTrade.floor bucketOf
  rw [h.timestamp, Int.mul_ediv_mul_of_pos_left _ _ (by decide), mul_assoc]

end SameTrade

theorem roundHalfEven_int (n : ℤ) : roundHalfEven (n : ℚ) = n := by
  have hfloor : (n : ℚ).floor = n := Rat.floor_intCast n
  unfold roundHalfEven
  rw [hfloor, sub_self, if_pos (.inl (by norm_num))]

theorem roundHalfUp_int {n : ℤ} (hn : 0 ≤ n) : roundHalfUp (n : ℚ) = n := by
  unfold roundHalfUp
  rw [if_pos (by exact_mod_cast hn)]
  apply le_antisymm
  · rw [← Int.lt_add_one_iff, Rat.floor_lt_iff]
    push_cast
    linarith
  · rw [Rat.le_floor_iff]
    linarith

/-- A price on the grid is on the same level for both. -/
theorem SameTrade.ticks (h : SameTrade symbol tick t a) (htick : 0 < tick) :
    a.price = a.ticks tick * tick ∧ priceLevelOf tick t = a.ticks tick * tick := by
  obtain ⟨n, hn⟩ := h.grid
  have hdiv : a.price / tick = n := by rw [hn, mul_div_cancel_right₀ _ htick.ne']
  have hnonneg : 0 ≤ n := by
    have hpos : 0 < (n : ℚ) := by
      rw [← hdiv]
      exact div_pos h.price_pos htick
    exact (Int.cast_pos.mp hpos).le
  unfold ArchiveTrade.ticks priceLevelOf
  rw [h.level, hdiv, roundHalfEven_int, roundHalfUp_int hnonneg]
  exact ⟨hn, rfl⟩

/-! ## All trades -/

namespace RecordedTrades

variable (recorded : RecordedTrades symbol tick) {value : List ArchiveTrade}
  (hvalue : value.Perm recorded.archive) {P : ArchiveTrade → Bool} {Q : Trade → Bool}

include hvalue

/-- Groups that correspond. -/
theorem filter_perm (hgroups : ∀ p ∈ recorded.pairs, P p.2 = Q p.1) :
    ∃ q : List (Trade × ArchiveTrade), (∀ p ∈ q, p ∈ recorded.pairs) ∧
      (value.filter P).Perm (q.map Prod.snd) ∧ recorded.live.rows.filter Q = q.map Prod.fst := by
  refine ⟨recorded.pairs.filter fun p => Q p.1, fun p hp => (List.mem_filter.mp hp).1, ?_, ?_⟩
  · refine (hvalue.filter P).trans (List.Perm.of_eq ?_)
    unfold archive
    rw [List.filter_map]
    exact congrArg (List.map Prod.snd) (List.filter_congr hgroups)
  · show (recorded.pairs.map Prod.fst).filter Q = _
    rw [List.filter_map]
    rfl

/-- The sums over groups that correspond. -/
theorem sum_filter (hgroups : ∀ p ∈ recorded.pairs, P p.2 = Q p.1) {f : ArchiveTrade → ℚ}
    {g : Trade → ℚ} (hfg : ∀ p ∈ recorded.pairs, f p.2 = g p.1) :
    ((value.filter P).map f).sum = ((recorded.live.rows.filter Q).map g).sum := by
  obtain ⟨q, hq, hperm, hrows⟩ := recorded.filter_perm hvalue hgroups
  rw [hrows, (hperm.map f).sum_eq, List.map_map, List.map_map]
  exact congrArg List.sum (List.map_congr_left fun p hp => hfg p (hq p hp))

theorem length_filter (hgroups : ∀ p ∈ recorded.pairs, P p.2 = Q p.1) :
    (value.filter P).length = (recorded.live.rows.filter Q).length := by
  obtain ⟨q, -, hperm, hrows⟩ := recorded.filter_perm hvalue hgroups
  rw [hrows, hperm.length_eq, List.length_map, List.length_map]

theorem buyVolume_filter (hgroups : ∀ p ∈ recorded.pairs, P p.2 = Q p.1) :
    ((value.filter P).map ArchiveTrade.buyVolume).sum =
      volumeOf "buy" (recorded.live.rows.filter Q) := by
  rw [volumeOf_eq_sum]
  exact recorded.sum_filter hvalue hgroups fun p hp => (recorded.same p hp).buyVolume

theorem sellVolume_filter (hgroups : ∀ p ∈ recorded.pairs, P p.2 = Q p.1) :
    ((value.filter P).map ArchiveTrade.sellVolume).sum =
      volumeOf "sell" (recorded.live.rows.filter Q) := by
  rw [volumeOf_eq_sum]
  exact recorded.sum_filter hvalue hgroups fun p hp => (recorded.same p hp).sellVolume

theorem quantity_filter (hgroups : ∀ p ∈ recorded.pairs, P p.2 = Q p.1) :
    ((value.filter P).map ArchiveTrade.quantity).sum =
      volumeOf "buy" (recorded.live.rows.filter Q) +
        volumeOf "sell" (recorded.live.rows.filter Q) := by
  rw [volumes_sum (recorded.live.trades_filter Q)]
  exact recorded.sum_filter hvalue hgroups fun p hp => (recorded.same p hp).amount.symm

theorem delta_filter (hgroups : ∀ p ∈ recorded.pairs, P p.2 = Q p.1) :
    ((value.filter P).map ArchiveTrade.signedQuantity).sum =
      deltaOf (recorded.live.rows.filter Q) := by
  rw [deltaOf_eq_sum]
  exact recorded.sum_filter hvalue hgroups fun p hp => (recorded.same p hp).signed

theorem quote_filter (hgroups : ∀ p ∈ recorded.pairs, P p.2 = Q p.1) :
    ((value.filter P).map ArchiveTrade.quoteQuantity).sum =
      notionalOf (recorded.live.rows.filter Q) := by
  refine recorded.sum_filter hvalue hgroups fun p hp => ?_
  rw [(recorded.same p hp).quote, (recorded.same p hp).level, (recorded.same p hp).amount]

/-- Keys that correspond. -/
theorem keysOf_eq {κ κ' : Type} [LinearOrder κ] [LinearOrder κ'] {key : Trade → κ}
    {key' : ArchiveTrade → κ'} {f : κ → κ'} (hf : StrictMono f)
    (hkeys : ∀ p ∈ recorded.pairs, key' p.2 = f (key p.1)) :
    keysOf key' value = (keysOf key recorded.live.rows).map f := by
  refine keysOf_map hf fun k' => ?_
  simp only [hvalue.mem_iff, archive, live, List.mem_map, exists_exists_and_eq_and]
  constructor
  · rintro ⟨p, hp, rfl⟩
    exact ⟨p, hp, (hkeys p hp).symm⟩
  · rintro ⟨p, hp, rfl⟩
    exact ⟨p, hp, hkeys p hp⟩

end RecordedTrades

/-! ## Bars and cells -/

variable {bucketMs : ℤ} {imbalanceRatio : ℚ}

/-- A bar and a live row of one bucket. -/
structure SameBar (bucketMs : ℤ) (trades : List Trade) (bar : ArchiveBar) (row : TradeFlowRow) :
    Prop where
  bucket : ∃ bucket ∈ keysOf (bucketOf bucketMs) trades,
    bar.timestamp = bucketEnd bucketMs bucket ∧ row.timestamp = stampOf bucketMs trades bucket
  notLater : bar.timestamp ≤ row.timestamp
  buy : bar.buyVolume = row.buyVolume
  sell : bar.sellVolume = row.sellVolume
  volume : bar.volume = row.tradeVolume
  delta : bar.tradeDelta = row.tradeDelta
  cvd : bar.cvd = row.cvd
  count : bar.tradeCount = row.tradeCount
  vwap : bar.tradeVwap = row.tradeVwap

/-- A cell and a live row of one level of one bucket. -/
structure SameCell (bucketMs : ℤ) (cell : ArchiveCell) (row : FootprintRow) : Prop where
  bucket : cell.timestamp = bucketEnd bucketMs row.bucketStartMs
  notLater : cell.timestamp ≤ row.timestamp
  level : cell.priceLevel = row.priceLevel
  buy : cell.buyVolume = row.buyVolume
  sell : cell.sellVolume = row.sellVolume
  total : cell.totalVolume = row.totalVolume
  delta : cell.delta = row.delta
  buyRatio : cell.diagonalBuyRatio = row.diagonalBuyRatio
  sellRatio : cell.diagonalSellRatio = row.diagonalSellRatio
  buyImbalance : cell.buyImbalance = true ↔ 0 < row.stackedBuyLevels
  sellImbalance : cell.sellImbalance = true ↔ 0 < row.stackedSellLevels

namespace RecordedTrades

variable (recorded : RecordedTrades symbol tick) {value frame : List ArchiveTrade}

/-- A valid frame is sorted. -/
theorem validatedTrades_eq (hms : 0 < bucketMs) (hframe : frame.Perm recorded.archive)
    (hne : recorded.pairs ≠ []) : ∃ value, value.Perm recorded.archive ∧
      validatedTrades (bucketMs * 1000000) frame = .ok value := by
  have hmem : ∀ row ∈ frame, ∃ p ∈ recorded.pairs, p.2 = row := by
    intro row hrow
    exact List.mem_map.mp (hframe.mem_iff.mp hrow)
  have hfrequency : 0 < bucketMs * 1000000 := by omega
  have hvalid : frame ≠ [] ∧ ∀ row ∈ frame, 0 < row.price ∧ 0 < row.quantity := by
    refine ⟨fun hnil => ?_, fun row hrow => ?_⟩
    · rw [hnil] at hframe
      exact hne (List.map_eq_nil_iff.mp (List.nil_perm.mp hframe))
    · obtain ⟨p, hp, rfl⟩ := hmem row hrow
      exact ⟨(recorded.same p hp).price_pos, (recorded.same p hp).quantity_pos⟩
  have hdataset : ∀ row ∈ frame, row.dataset ∈ ["trades", "aggTrades"] := by
    intro row hrow
    obtain ⟨p, hp, rfl⟩ := hmem row hrow
    exact (recorded.same p hp).dataset
  refine ⟨sorted archiveLe frame, (List.perm_insertionSort _ _).trans hframe, ?_⟩
  unfold validatedTrades
  rw [decide_eq_true hfrequency, decide_eq_true hvalid, decide_eq_true hdataset]
  rfl

theorem bar_keys (hvalue : value.Perm recorded.archive) (bucketMs : ℤ) :
    keysOf (fun row : ArchiveTrade => toLex (row.identity, row.floor (bucketMs * 1000000))) value =
      (keysOf (bucketOf bucketMs) recorded.live.rows).map fun bucket =>
        toLex (recorded.identity, bucket * 1000000) := by
  refine recorded.keysOf_eq hvalue (fun a b h => ?_) fun p hp => ?_
  · exact Prod.Lex.toLex_lt_toLex.mpr (.inr ⟨rfl, Int.mul_lt_mul_of_pos_right h (by decide)⟩)
  · rw [recorded.one p hp, (recorded.same p hp).floor]

theorem bar_group (bucketMs bucket : ℤ) : ∀ p ∈ recorded.pairs,
    decide (toLex (p.2.identity, p.2.floor (bucketMs * 1000000)) =
      toLex (recorded.identity, bucket * 1000000)) = decide (bucketOf bucketMs p.1 = bucket) := by
  intro p hp
  rw [decide_eq_decide, toLex_inj, Prod.mk.injEq, recorded.one p hp, (recorded.same p hp).floor]
  simp

/-- The bar of a bucket. -/
def barOf (bucketMs : ℤ) (value : List ArchiveTrade) (bucket : ℤ) : ArchiveBar :=
  archiveBar (bucketMs * 1000000) (toLex (recorded.identity, bucket * 1000000))
    (value.filter fun row => decide (toLex (row.identity, row.floor (bucketMs * 1000000)) =
      toLex (recorded.identity, bucket * 1000000)))

/-- The bars of the archive, bucket by bucket. -/
theorem archiveTradeBars_eq (hvalue : value.Perm recorded.archive)
    (hvalidated : validatedTrades (bucketMs * 1000000) frame = .ok value) :
    archiveTradeBars (bucketMs * 1000000) frame = .ok (cumulate
      ((keysOf (bucketOf bucketMs) recorded.live.rows).map (recorded.barOf bucketMs value))) := by
  unfold archiveTradeBars
  rw [hvalidated]
  show Except.ok _ = _
  unfold groups
  rw [recorded.bar_keys hvalue, List.map_map, List.map_map]
  rfl

omit recorded in
/-- The running delta of bars of one stream. -/
theorem get_cumulate {bars : List ArchiveBar} {identity : Identity}
    (hone : ∀ bar ∈ bars, bar.identity = identity) (i : ℕ) (h : i < (cumulate bars).length)
    (h' : i < bars.length) : (cumulate bars).get ⟨i, h⟩ =
      { bars[i] with cvd := ((bars.take (i + 1)).map ArchiveBar.tradeDelta).sum } := by
  have hall : (bars.take (i + 1)).filter (fun b => b.identity = bars[i].identity) =
      bars.take (i + 1) := by
    refine List.filter_eq_self.mpr fun bar hbar => decide_eq_true ?_
    rw [hone bar (List.mem_of_mem_take hbar), hone _ (List.getElem_mem h')]
  simp only [cumulate, List.get_eq_getElem, List.getElem_map, List.getElem_zipIdx, zero_add, hall]

theorem barOf_agrees (hvalue : value.Perm recorded.archive) (bucketMs bucket : ℤ) :
    (recorded.barOf bucketMs value bucket).buyVolume =
        (flowRow bucketMs recorded.live.rows bucket).buyVolume ∧
      (recorded.barOf bucketMs value bucket).sellVolume =
        (flowRow bucketMs recorded.live.rows bucket).sellVolume ∧
      (recorded.barOf bucketMs value bucket).volume =
        (flowRow bucketMs recorded.live.rows bucket).tradeVolume ∧
      (recorded.barOf bucketMs value bucket).tradeDelta =
        deltaOf (tradesIn bucketMs recorded.live.rows bucket) ∧
      (recorded.barOf bucketMs value bucket).tradeCount =
        (flowRow bucketMs recorded.live.rows bucket).tradeCount ∧
      (recorded.barOf bucketMs value bucket).quoteVolume =
        notionalOf (tradesIn bucketMs recorded.live.rows bucket) := by
  have hgroup := recorded.bar_group bucketMs bucket
  exact ⟨recorded.buyVolume_filter hvalue hgroup, recorded.sellVolume_filter hvalue hgroup,
    recorded.quantity_filter hvalue hgroup, recorded.delta_filter hvalue hgroup,
    recorded.length_filter hvalue hgroup, recorded.quote_filter hvalue hgroup⟩

/-- **The bars agree**, bucket by bucket. -/
theorem bars_agree (hms : 0 < bucketMs) (hframe : frame.Perm recorded.archive)
    (hne : recorded.pairs ≠ []) :
    ∃ bars rows, archiveTradeBars (bucketMs * 1000000) frame = .ok bars ∧
      tradeFlowRows symbol bucketMs recorded.live.rows = .ok rows ∧
      List.Forall₂ (SameBar bucketMs recorded.live.rows) bars rows := by
  obtain ⟨value, hvalue, hvalidated⟩ := recorded.validatedTrades_eq hms hframe hne
  have hagree := fun bucket => recorded.barOf_agrees hvalue bucketMs bucket
  refine ⟨_, _, recorded.archiveTradeBars_eq hvalue hvalidated, tradeFlowRows_eq recorded.live hms,
    List.forall₂_iff_get.mpr ⟨by simp [cumulate], fun i h h' => ?_⟩⟩
  have hi : i < (keysOf (bucketOf bucketMs) recorded.live.rows).length := by simpa using h'
  have hbars : ∀ bar ∈ (keysOf (bucketOf bucketMs) recorded.live.rows).map
      (recorded.barOf bucketMs value), bar.identity = recorded.identity := by
    intro bar hbar
    obtain ⟨bucket, -, rfl⟩ := List.mem_map.mp hbar
    rfl
  rw [get_cumulate hbars i h (by simpa using hi), List.get_eq_getElem, List.getElem_map,
    List.getElem_map]
  generalize hbucket : (keysOf (bucketOf bucketMs) recorded.live.rows)[i] = bucket
  have hmem : bucket ∈ keysOf (bucketOf bucketMs) recorded.live.rows :=
    hbucket ▸ List.getElem_mem hi
  obtain ⟨hbuy, hsell, hvolume, hdelta, hcount, hquote⟩ := hagree bucket
  have hend : (recorded.barOf bucketMs value bucket).timestamp = bucketEnd bucketMs bucket := by
    show bucket * 1000000 + bucketMs * 1000000 = (bucket + bucketMs) * 1000000
    ring
  refine ⟨⟨bucket, hmem, hend, rfl⟩, ?_, hbuy, hsell, hvolume, hdelta, ?_, hcount, ?_⟩
  · exact hend.trans_le (le_max_left _ _)
  · have hdeltas := deltaOf_running bucketMs recorded.live.rows i hi
    rw [hbucket] at hdeltas
    show _ = deltaOf _
    rw [hdeltas, ← List.map_take, List.map_map]
    exact congrArg List.sum (List.map_congr_left fun b _ => (hagree b).2.2.2.1)
  · exact congrArg₂ (· / ·) hquote hvolume

/-! ### Cells -/

omit recorded in
def inCell (tick : ℚ) (bucketMs bucket ticks : ℤ) (row : ArchiveTrade) : Bool :=
  decide (toLex (row.floor (bucketMs * 1000000), row.ticks tick) = toLex (bucket * 1000000, ticks))

omit recorded in
def onLevel (tick : ℚ) (bucketMs bucket ticks : ℤ) (row : Trade) : Bool :=
  decide (priceLevelOf tick row = ticks * tick) && decide (bucketOf bucketMs row = bucket)

/-- The groups of a level, in the archive and live. -/
theorem cell_group (htick : 0 < tick) (bucketMs bucket ticks : ℤ) : ∀ p ∈ recorded.pairs,
    inCell tick bucketMs bucket ticks p.2 = onLevel tick bucketMs bucket ticks p.1 := by
  intro p hp
  unfold inCell onLevel
  rw [Bool.eq_iff_iff, decide_eq_true_eq, Bool.and_eq_true, decide_eq_true_eq, decide_eq_true_eq,
    toLex_inj, Prod.mk.injEq, (recorded.same p hp).floor, ((recorded.same p hp).ticks htick).2,
    mul_left_inj' htick.ne', Int.cast_inj]
  rw [and_comm]
  simp

omit recorded in
theorem tradesAt_tradesIn (tick : ℚ) (bucketMs bucket ticks : ℤ) (rows : List Trade) :
    tradesAt tick (tradesIn bucketMs rows bucket) (ticks * tick) =
      rows.filter (onLevel tick bucketMs bucket ticks) := List.filter_filter

/-- The volume of a level is that of its trades, also where there are none. -/
theorem volumeIn_eq {f : ArchiveTrade → ℚ} {side : String} (hvalue : value.Perm recorded.archive)
    (htick : 0 < tick) (bucketMs bucket ticks : ℤ)
    (hf : ∀ p ∈ recorded.pairs, f p.2 = if p.1.side = some side then p.1.amount else 0) :
    volumeIn f (groups (fun row => toLex (row.floor (bucketMs * 1000000), row.ticks tick)) value)
        (toLex (bucket * 1000000, ticks)) =
      volumeOf side (tradesAt tick (tradesIn bucketMs recorded.live.rows bucket) (ticks * tick)) := by
  have hsum := recorded.sum_filter (P := inCell tick bucketMs bucket ticks)
    (Q := onLevel tick bucketMs bucket ticks) hvalue
    (recorded.cell_group htick bucketMs bucket ticks) (f := f)
    (g := fun t => if t.side = some side then t.amount else 0) hf
  unfold volumeIn
  rw [tradesAt_tradesIn, volumeOf_eq_sum, ← hsum]
  by_cases hkey : toLex (bucket * 1000000, ticks) ∈ keysOf
      (fun row : ArchiveTrade => toLex (row.floor (bucketMs * 1000000), row.ticks tick)) value
  · rw [lookup_groups hkey]
    rfl
  · have hnil : value.filter (inCell tick bucketMs bucket ticks) = [] := by
      refine List.filter_eq_nil_iff.mpr fun row hrow heq => hkey ?_
      exact mem_keysOf.mpr ⟨row, hrow, of_decide_eq_true heq⟩
    rw [lookup_groups_none hkey, hnil]
    rfl

/-- The levels of a bucket. -/
theorem level_keys (hvalue : value.Perm recorded.archive) (htick : 0 < tick) (bucketMs bucket : ℤ) :
    keysOf (priceLevelOf tick) (tradesIn bucketMs recorded.live.rows bucket) =
      (keysOf (fun row : ArchiveTrade => row.ticks tick) (value.filter fun row =>
        decide (row.floor (bucketMs * 1000000) = bucket * 1000000))).map fun n : ℤ => n * tick := by
  have hfloor : ∀ p ∈ recorded.pairs, p.2.floor (bucketMs * 1000000) = bucket * 1000000 ↔
      bucketOf bucketMs p.1 = bucket := by
    intro p hp
    rw [(recorded.same p hp).floor]
    simp
  refine keysOf_map (fun a b h => ?_) fun level => ?_
  · exact mul_lt_mul_of_pos_right (Int.cast_lt.mpr h) htick
  · simp only [tradesIn, live, List.mem_filter, List.mem_map, decide_eq_true_eq, hvalue.mem_iff,
      archive]
    constructor
    · rintro ⟨row, ⟨⟨p, hp, rfl⟩, hbucket⟩, rfl⟩
      exact ⟨p.2, ⟨⟨p, hp, rfl⟩, (hfloor p hp).mpr hbucket⟩, ((recorded.same p hp).ticks htick).2.symm⟩
    · rintro ⟨row, ⟨⟨p, hp, rfl⟩, hbucket⟩, rfl⟩
      exact ⟨p.1, ⟨⟨p, hp, rfl⟩, (hfloor p hp).mp hbucket⟩, ((recorded.same p hp).ticks htick).2⟩

theorem floor_keys (hvalue : value.Perm recorded.archive) (bucketMs : ℤ) :
    keysOf (fun row : ArchiveTrade => row.floor (bucketMs * 1000000)) value =
      (keysOf (bucketOf bucketMs) recorded.live.rows).map (· * 1000000) :=
  recorded.keysOf_eq hvalue (fun a b h => Int.mul_lt_mul_of_pos_right h (by decide))
    fun p hp => (recorded.same p hp).floor bucketMs

/-- A cell and the live row of its level. -/
theorem cell_agrees (hvalue : value.Perm recorded.archive) (htick : 0 < tick) {bucket ticks : ℤ}
    {row : FootprintRow} (hrow : IsLevelRow bucketMs tick imbalanceRatio bucket
      (tradesIn bucketMs recorded.live.rows bucket) row (ticks * tick)) :
    SameCell bucketMs (archiveCell (bucketMs * 1000000) tick imbalanceRatio recorded.identity
      (groups (fun row => toLex (row.floor (bucketMs * 1000000), row.ticks tick)) value)
      (toLex (bucket * 1000000, ticks)) (value.filter (inCell tick bucketMs bucket ticks))) row := by
  have hgroup := recorded.cell_group htick bucketMs bucket ticks
  have hbuys := fun p hp => (recorded.same p hp).buyVolume
  have hsells := fun p hp => (recorded.same p hp).sellVolume
  have hlevel := tradesAt_tradesIn tick bucketMs bucket ticks recorded.live.rows
  have hbuy := recorded.buyVolume_filter (P := inCell tick bucketMs bucket ticks)
    (Q := onLevel tick bucketMs bucket ticks) hvalue hgroup
  have hsell := recorded.sellVolume_filter (P := inCell tick bucketMs bucket ticks)
    (Q := onLevel tick bucketMs bucket ticks) hvalue hgroup
  have hlower := recorded.volumeIn_eq hvalue htick bucketMs bucket (ticks - 1) hsells
  have hupper := recorded.volumeIn_eq hvalue htick bucketMs bucket (ticks + 1) hbuys
  rw [← hlevel, ← hrow.buy] at hbuy
  rw [← hlevel, ← hrow.sell] at hsell
  push_cast at hlower hupper
  rw [sub_mul, one_mul] at hlower
  rw [add_mul, one_mul] at hupper
  have hend : bucket * 1000000 + bucketMs * 1000000 = bucketEnd bucketMs bucket := by
    unfold bucketEnd
    ring
  have hbuyRatio : archiveRatio row.buyVolume _ = row.diagonalBuyRatio := hrow.buyRatio.symm
  have hsellRatio : archiveRatio row.sellVolume _ = row.diagonalSellRatio := hrow.sellRatio.symm
  unfold archiveCell
  simp only [ofLex_toLex, hbuy, hsell, hlower, hupper, hbuyRatio, hsellRatio]
  exact {
    bucket := by rw [hend, hrow.start]
    notLater := by
      rw [hend, hrow.timestamp]
      exact le_max_left _ _
    level := hrow.price.symm
    buy := rfl
    sell := rfl
    total := hrow.total.symm
    delta := hrow.delta.symm
    buyRatio := rfl
    sellRatio := rfl
    buyImbalance := by rw [decide_eq_true_eq, hrow.buyStack]
    sellImbalance := by rw [decide_eq_true_eq, hrow.sellStack] }

theorem identities_eq (hvalue : value.Perm recorded.archive) (hne : recorded.pairs ≠ []) :
    (value.map ArchiveTrade.identity).dedup = [recorded.identity] := by
  have hall : ∀ i ∈ value.map ArchiveTrade.identity, i = recorded.identity := by
    intro i hi
    obtain ⟨row, hrow, rfl⟩ := List.mem_map.mp hi
    obtain ⟨p, hp, rfl⟩ := List.mem_map.mp (hvalue.mem_iff.mp hrow)
    exact recorded.one p hp
  have hlength : (value.map ArchiveTrade.identity).length ≠ 0 := by
    rw [List.length_map, hvalue.length_eq, archive, List.length_map, ne_eq, List.length_eq_zero_iff]
    exact hne
  rw [List.eq_replicate_of_mem hall, List.replicate_dedup hlength]

/-- **The cells agree**, level by level of each bucket. -/
theorem cells_agree (hms : 0 < bucketMs) (htick : 0 < tick) (hratio : 0 < imbalanceRatio)
    (hframe : frame.Perm recorded.archive) (hne : recorded.pairs ≠ []) :
    ∃ cells rows,
      archiveFootprint tick (bucketMs * 1000000) imbalanceRatio frame = .ok cells ∧
      footprintFrame symbol bucketMs tick imbalanceRatio recorded.live.rows = .ok rows ∧
      List.Forall₂ (SameCell bucketMs) cells rows := by
  obtain ⟨value, hvalue, hvalidated⟩ := recorded.validatedTrades_eq hms hframe hne
  have haligned : ∀ row ∈ value, |row.price - row.ticks tick * tick| ≤ tick / 1000000 := by
    intro row hrow
    obtain ⟨p, hp, rfl⟩ := List.mem_map.mp (hvalue.mem_iff.mp hrow)
    rw [← ((recorded.same p hp).ticks htick).1, sub_self, abs_zero]
    exact div_nonneg htick.le (by norm_num)
  refine ⟨(groups (fun row : ArchiveTrade =>
      toLex (row.floor (bucketMs * 1000000), row.ticks tick)) value).map fun p =>
    archiveCell (bucketMs * 1000000) tick imbalanceRatio recorded.identity
      (groups (fun row => toLex (row.floor (bucketMs * 1000000), row.ticks tick)) value) p.1 p.2,
    _, ?_, footprintFrame_eq recorded.live hms htick hratio, ?_⟩
  · unfold archiveFootprint
    rw [hvalidated]
    simp [check, htick, hratio, recorded.identities_eq hvalue hne, bind, Except.bind, pure,
      Except.pure]
    rw [if_pos haligned]
  generalize hgrouped : groups (fun row : ArchiveTrade =>
    toLex (row.floor (bucketMs * 1000000), row.ticks tick)) value = grouped
  have hcells : grouped.map (fun p => archiveCell (bucketMs * 1000000) tick imbalanceRatio
      recorded.identity grouped p.1 p.2) =
      (keysOf (bucketOf bucketMs) recorded.live.rows).flatMap fun bucket =>
        (keysOf (fun row : ArchiveTrade => row.ticks tick) (value.filter fun row =>
          decide (row.floor (bucketMs * 1000000) = bucket * 1000000))).map fun ticks =>
            archiveCell (bucketMs * 1000000) tick imbalanceRatio recorded.identity grouped
              (toLex (bucket * 1000000, ticks)) (value.filter (inCell tick bucketMs bucket ticks)) := by
    generalize hcell : archiveCell (bucketMs * 1000000) tick imbalanceRatio recorded.identity
      grouped = cell
    rw [← hgrouped]
    unfold groups
    rw [keysOf_lex, recorded.floor_keys hvalue, List.flatMap_map, List.map_map, List.map_flatMap]
    refine List.flatMap_congr fun bucket _ => ?_
    rw [List.map_map]
    rfl
  have hrows : footprintRows bucketMs tick imbalanceRatio recorded.live.rows =
      (keysOf (bucketOf bucketMs) recorded.live.rows).flatMap fun bucket =>
        bucketFootprint bucketMs tick imbalanceRatio bucket
          (tradesIn bucketMs recorded.live.rows bucket) := List.flatMap_map _ _ _
  rw [hcells, hrows]
  refine forall₂_flatMap fun bucket _ => ?_
  have hlevels := bucketFootprint_rows bucketMs tick imbalanceRatio bucket
    (tradesIn bucketMs recorded.live.rows bucket)
  rw [recorded.level_keys hvalue htick, List.forall₂_map_right_iff] at hlevels
  rw [List.forall₂_map_left_iff, ← hgrouped]
  exact hlevels.flip.imp fun ticks row hrow => recorded.cell_agrees hvalue htick hrow

end RecordedTrades

/-- **The archive and the live stream agree**, on the bars and on the footprints. -/
theorem archive_live_agree (recorded : RecordedTrades symbol tick) {frame : List ArchiveTrade}
    (hms : 0 < bucketMs) (htick : 0 < tick) (hratio : 0 < imbalanceRatio)
    (hframe : frame.Perm recorded.archive) (hne : frame ≠ []) :
    (∃ bars rows, archiveTradeBars (bucketMs * 1000000) frame = .ok bars ∧
      tradeFlowRows symbol bucketMs recorded.live.rows = .ok rows ∧
      List.Forall₂ (SameBar bucketMs recorded.live.rows) bars rows) ∧
    ∃ cells rows, archiveFootprint tick (bucketMs * 1000000) imbalanceRatio frame = .ok cells ∧
      footprintFrame symbol bucketMs tick imbalanceRatio recorded.live.rows = .ok rows ∧
      List.Forall₂ (SameCell bucketMs) cells rows := by
  have hpairs : recorded.pairs ≠ [] := by
    intro hnil
    unfold RecordedTrades.archive at hframe
    rw [hnil] at hframe
    exact hne (List.perm_nil.mp hframe)
  exact ⟨recorded.bars_agree hms hframe hpairs,
    recorded.cells_agree hms htick hratio hframe hpairs⟩

/-! ## One trade, and none -/

def sampleArchiveTrade : ArchiveTrade where
  timestamp := 20000000
  exchange := "binance"
  market := "spot"
  dataset := "aggTrades"
  symbol := "BTCUSDT"
  tradeId := 1
  price := 100
  quantity := 1
  quoteQuantity := 100
  signedQuantity := 1

theorem recorded_at : (0 : ℤ) < 20 ∧ (0 : ℤ) < 1 := by decide

def sampleRecorded : RecordedTrades "BTCUSDT" 1 where
  pairs := [(sampleTrade "a" 20 1 1 sampleId_a recorded_at, sampleArchiveTrade)]
  same p hp := by
    rw [List.mem_singleton.mp hp]
    exact {
      trade := ⟨rfl, rfl, rfl, .inl rfl, ⟨100, rfl, by norm_num⟩, ⟨1, rfl, by norm_num⟩⟩
      timestamp := rfl
      price := rfl
      size := rfl
      quote := by decide +kernel
      buys := fun _ => rfl
      sells := fun h => absurd h (by decide)
      grid := ⟨100, by decide +kernel⟩
      dataset := by decide }
  identity := sampleArchiveTrade.identity
  one p hp := by rw [List.mem_singleton.mp hp]
  ordered := List.pairwise_singleton _ _

theorem archive_live_agree_sample :
    (∃ bars rows, archiveTradeBars (1000 * 1000000) sampleRecorded.archive = .ok bars ∧
      tradeFlowRows "BTCUSDT" 1000 sampleRecorded.live.rows = .ok rows ∧
      List.Forall₂ (SameBar 1000 sampleRecorded.live.rows) bars rows) ∧
    ∃ cells rows, archiveFootprint 1 (1000 * 1000000) 3 sampleRecorded.archive = .ok cells ∧
      footprintFrame "BTCUSDT" 1000 1 3 sampleRecorded.live.rows = .ok rows ∧
      List.Forall₂ (SameCell 1000) cells rows :=
  archive_live_agree sampleRecorded (by decide) (by norm_num) (by norm_num) (List.Perm.refl _)
    (List.cons_ne_nil _ _)

/-- No trades. -/
def noTrades : RecordedTrades "BTCUSDT" 1 where
  pairs := []
  same _ hp := absurd hp List.not_mem_nil
  identity := sampleArchiveTrade.identity
  one _ hp := absurd hp List.not_mem_nil
  ordered := List.Pairwise.nil

/-- The archive refuses an empty frame. -/
theorem empty_archive_refused :
    ¬ ∀ (symbol : String) (tick : ℚ) (bucketMs : ℤ) (recorded : RecordedTrades symbol tick)
      (frame : List ArchiveTrade), 0 < bucketMs → 0 < tick → frame.Perm recorded.archive →
      ∃ bars rows, archiveTradeBars (bucketMs * 1000000) frame = .ok bars ∧
        tradeFlowRows symbol bucketMs recorded.live.rows = .ok rows ∧
        List.Forall₂ (SameBar bucketMs recorded.live.rows) bars rows := by
  intro hclaim
  obtain ⟨bars, rows, hbars, -⟩ := hclaim "BTCUSDT" 1 1000 noTrades [] (by decide) (by norm_num)
    (List.Perm.refl _)
  cases hbars

end Greenfield.Features
