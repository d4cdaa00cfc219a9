import Greenfield.Features.TradeFlow

/-!
# Footprints, volume profiles and the anchored VWAP

`footprint_frame`, `volume_profile`, `rolling_volume_profile_frame` and `anchored_vwap_frame` of
`src/features/auction.py`. Decimals and floats are rationals; timestamps are in nanoseconds. A
`KeyError` is modelled as an `IndexError`.
-/

namespace Greenfield.Features

open Buckets Data Py

/-- `quantize(Decimal("1"), rounding=ROUND_HALF_UP)`. -/
def roundHalfUp (x : ℚ) : ℤ := if 0 ≤ x then (x + 1 / 2).floor else -((-x + 1 / 2).floor)

/-- `_validate_trade`. -/
def validateTrade (symbol : String) (row : Trade) : Except MarketError Unit :=
  check (row.recordType = "trade" ∧ row.symbol = symbol)
    (.orderFlow "auction features accept one normalized trade stream")

/-- `Decimal("")` where there is no price or size. -/
def requireAmounts (row : Trade) : Except MarketError Unit :=
  check (row.price ≠ none ∧ row.size ≠ none) .invalidOperation

/-! ## Footprints -/

structure FootprintRow where
  bucketStartMs : ℤ
  priceLevel : ℚ
  timestamp : ℤ
  maxSourceTimestamp : ℤ
  buyVolume : ℚ
  sellVolume : ℚ
  totalVolume : ℚ
  delta : ℚ
  diagonalBuyRatio : ℚ
  diagonalSellRatio : ℚ
  stackedBuyLevels : ℕ
  stackedSellLevels : ℕ
  deriving DecidableEq

/-- The price level of a trade. -/
def priceLevelOf (tick : ℚ) (row : Trade) : ℚ := roundHalfUp (row.level / tick) * tick

/-- `levels.get(level, {}).get(side, 0)`. -/
def levelVolume (side : String) (levels : List (ℚ × List Trade)) (level : ℚ) : ℚ :=
  ((levels.lookup level).map (volumeOf side)).getD 0

def diagonalRatio (volume opposite : ℚ) : ℚ := if 0 < opposite then volume / opposite else 0

def buyRatio (tick : ℚ) (levels : List (ℚ × List Trade)) (level : ℚ) : ℚ :=
  diagonalRatio (levelVolume "buy" levels level) (levelVolume "sell" levels (level - tick))

def sellRatio (tick : ℚ) (levels : List (ℚ × List Trade)) (level : ℚ) : ℚ :=
  diagonalRatio (levelVolume "sell" levels level) (levelVolume "buy" levels (level + tick))

/-- `_stack_runs`: the length of the run of flags that each flag is in. -/
def stackRuns (flags : List Bool) : List ℕ :=
  (runs id flags).flatMap fun (flag, run) => run.map fun _ => if flag then run.length else 0

/-- The rows of a bucket, in the order of their levels. -/
def bucketFootprint (bucketMs : ℤ) (tick imbalanceRatio : ℚ) (bucket : ℤ) (group : List Trade) :
    List FootprintRow :=
  let levels := groups (priceLevelOf tick) group
  let buyRuns := stackRuns (levels.map fun (level, _) => imbalanceRatio ≤ buyRatio tick levels level)
  let sellRuns :=
    stackRuns (levels.map fun (level, _) => imbalanceRatio ≤ sellRatio tick levels level)
  levels.zipIdx.map fun ((level, rows), i) =>
    { bucketStartMs := bucket
      priceLevel := level
      timestamp := max (bucketEnd bucketMs bucket) (maxReceive rows)
      maxSourceTimestamp := maxReceive rows
      buyVolume := volumeOf "buy" rows
      sellVolume := volumeOf "sell" rows
      totalVolume := volumeOf "buy" rows + volumeOf "sell" rows
      delta := volumeOf "buy" rows - volumeOf "sell" rows
      diagonalBuyRatio := buyRatio tick levels level
      diagonalSellRatio := sellRatio tick levels level
      stackedBuyLevels := buyRuns.getD i 0
      stackedSellLevels := sellRuns.getD i 0 }

/-- `footprint_frame`. -/
def footprintFrame (symbol : String) (bucketMs : ℤ) (tick imbalanceRatio : ℚ) (rows : List Trade) :
    Except MarketError (List FootprintRow) := do
  check (0 < bucketMs ∧ 0 < imbalanceRatio)
    (.valueError "bucket_ms and imbalance_ratio must be positive")
  check (0 < tick) (.valueError "price_tick must be positive and finite")
  rows.forM fun row => do
    validateTrade symbol row
    requireAmounts row
  -- `values[str(record["side"])]` of another side
  rows.forM fun row => check (row.side = some "buy" ∨ row.side = some "sell") .indexError
  return (groups (bucketOf bucketMs) rows).flatMap fun (bucket, group) =>
    bucketFootprint bucketMs tick imbalanceRatio bucket group

/-! ## Volume profiles -/

structure VolumeProfile where
  poc : ℚ
  vah : ℚ
  val : ℚ
  totalVolume : ℚ
  valueAreaVolume : ℚ
  valueAreaFraction : ℚ
  deriving DecidableEq

/-- The volume at an index, `-1` outside. -/
def volumeAt (volumes : List ℚ) (i : ℤ) : ℚ :=
  if i < 0 then -1 else volumes.getD i.toNat (-1)

/-- The index of the greatest volume, the first of them. -/
def pocIndex (volumes : List ℚ) : ℕ :=
  (List.range volumes.length).foldl
    (fun best i => if volumes.getD best 0 < volumes.getD i 0 then i else best) 0

/-- The loop that widens the value area, to the side with the greater volume. What is selected
lies between `lower` and `upper`. -/
def widen (volumes : List ℚ) (target : ℚ) : ℕ → ℤ → ℤ → ℚ → ℤ × ℤ × ℚ
  | 0, lower, upper, accumulated => (lower, upper, accumulated)
  | fuel + 1, lower, upper, accumulated =>
    if accumulated < target ∧ (0 ≤ lower ∨ upper < volumes.length) then
      if volumeAt volumes lower < volumeAt volumes upper then
        widen volumes target fuel lower (upper + 1) (accumulated + volumeAt volumes upper)
      else widen volumes target fuel (lower - 1) upper (accumulated + volumeAt volumes lower)
    else (lower, upper, accumulated)

/-- The profile of levels with their volumes. -/
def valueArea (grouped : List (ℚ × ℚ)) (valueAreaFraction : ℚ) : VolumeProfile :=
  let volumes := grouped.map Prod.snd
  let poc := pocIndex volumes
  let (lower, upper, accumulated) := widen volumes (volumes.sum * valueAreaFraction) volumes.length
    (poc - 1) (poc + 1) (volumes.getD poc 0)
  let price := fun i : ℤ => (grouped.map Prod.fst).getD i.toNat 0
  { poc := price poc, vah := price (upper - 1), val := price (lower + 1)
    totalVolume := volumes.sum, valueAreaVolume := accumulated, valueAreaFraction }

/-- `footprint.groupby("price_level")["total_volume"].sum()`. -/
def levelTotals (footprint : List FootprintRow) : List (ℚ × ℚ) :=
  (groups FootprintRow.priceLevel footprint).map fun (level, rows) =>
    (level, (rows.map FootprintRow.totalVolume).sum)

/-- `volume_profile`. -/
def volumeProfile (footprint : List FootprintRow) (valueAreaFraction : ℚ) :
    Except MarketError VolumeProfile := do
  check (0 < valueAreaFraction ∧ valueAreaFraction ≤ 1)
    (.valueError "value_area_fraction must be in (0, 1]")
  check (footprint ≠ []) (.valueError "footprint requires price_level and total_volume")
  let volumes := (levelTotals footprint).map Prod.snd
  check (volumes.all (0 ≤ ·) ∧ 0 < volumes.sum) (.valueError "profile volume must be positive")
  return valueArea (levelTotals footprint) valueAreaFraction

structure ProfileRow where
  timestamp : ℤ
  poc : ℚ
  vah : ℚ
  val : ℚ
  totalVolume : ℚ
  deriving DecidableEq

/-- The row of a bucket, with the buckets of its window. -/
def profileRow (footprint : List FootprintRow) (valueAreaFraction : ℚ) (window : List ℤ)
    (bucket : ℤ) : Except MarketError ProfileRow := do
  let profile ← volumeProfile (footprint.filter fun row => row.bucketStartMs ∈ window)
    valueAreaFraction
  let timestamps := (footprint.filter fun row => row.bucketStartMs = bucket).map
    FootprintRow.timestamp
  return { timestamp := timestamps.max?.getD 0, poc := profile.poc, vah := profile.vah
           val := profile.val, totalVolume := profile.totalVolume }

/-- The trailing windows that are full, each with its last bucket. -/
def trailingWindows (windowBuckets : ℕ) (buckets : List ℤ) : List (List ℤ × ℤ) :=
  ((List.range buckets.length).drop (windowBuckets - 1)).map fun index =>
    ((buckets.drop (index + 1 - windowBuckets)).take windowBuckets, buckets.getD index 0)

/-- `rolling_volume_profile_frame`. -/
def rollingVolumeProfileFrame (footprint : List FootprintRow) (windowBuckets : ℕ)
    (valueAreaFraction : ℚ) : Except MarketError (List ProfileRow) := do
  check (0 < windowBuckets) (.valueError "window_buckets must be positive")
  (trailingWindows windowBuckets (keysOf FootprintRow.bucketStartMs footprint)).mapM
    fun (window, bucket) => profileRow footprint valueAreaFraction window bucket

/-! ## The anchored VWAP -/

structure VwapRow where
  timestamp : ℤ
  maxSourceTimestamp : ℤ
  vwap : ℚ
  cumulativeVolume : ℚ
  deriving DecidableEq

/-- The row of the trades of one time of the exchange, after the volume and the notional of those
before them. -/
def emitVwap (before : ℚ × ℚ) (eventTsMs : ℤ) (group : List Trade) :
    Except MarketError (VwapRow × ℚ × ℚ) :=
  let volume := before.1 + (group.map Trade.amount).sum
  let notional := before.2 + (group.map fun row => row.amount * row.level).sum
  if volume = 0 then .error .invalidOperation
  else .ok
    ({ timestamp := max (eventTsMs * 1000000) (maxReceive group)
       maxSourceTimestamp := maxReceive group
       vwap := notional / volume
       cumulativeVolume := volume }, volume, notional)

/-- The order of `(event_ts_ms, receive_ts_ns, receive_sequence, row_index)`. -/
def vwapLe (a b : Trade) : Bool :=
  a.eventTsMs < b.eventTsMs ∨ a.eventTsMs = b.eventTsMs ∧
    (a.receiveTsNs < b.receiveTsNs ∨ a.receiveTsNs = b.receiveTsNs ∧
      (a.receiveSequence < b.receiveSequence ∨ a.receiveSequence = b.receiveSequence ∧
        a.rowIndex ≤ b.rowIndex))

/-- `anchored_vwap_frame`. -/
def anchoredVwapFrame (symbol : String) (anchorTsMs : Option ℤ) (rows : List Trade) :
    Except MarketError (List VwapRow) := do
  rows.forM (validateTrade symbol)
  let filtered := rows.filter fun row => anchorTsMs.all (· ≤ row.eventTsMs)
  filtered.forM requireAmounts
  emitEach emitVwap (0, 0) (runs (fun row : Trade => row.eventTsMs) (sorted vwapLe filtered))

end Greenfield.Features
