import Greenfield.Data.GoldMerge
import Greenfield.Lib.Buckets

/-!
# Trades in buckets

`TradeFlowAccumulator` of `src/features/order_flow.py` and `TradeInteractionAccumulator` of
`src/features/interaction.py`, both streams over the buckets of the exchange's time. Decimals and
floats are rationals; timestamps are in nanoseconds.
-/

namespace Greenfield.Features

open Buckets Data

abbrev Trade := NormalizedMarketEvent

/-- `(event_ts_ms, receive_ts_ns, receive_sequence, row_index, normalized_id)`. -/
abbrev tradeKey (row : Trade) := goldKeys.orderKey row

/-- `row.event_ts_ms // bucket_ms * bucket_ms`. -/
def bucketOf (bucketMs : ℤ) (row : Trade) : ℤ := row.eventTsMs / bucketMs * bucketMs

/-- `(bucket + bucket_ms) * 1_000_000`. -/
def bucketEnd (bucketMs bucket : ℤ) : ℤ := (bucket + bucketMs) * 1000000

/-- `Decimal(row.size or "")` and `Decimal(row.price or "")` of rows that have them. -/
def Trade.amount (row : Trade) : ℚ := row.size.getD 0

def Trade.level (row : Trade) : ℚ := row.price.getD 0

/-- The latest receive time, which starts at zero. -/
def maxReceive (rows : List Trade) : ℤ := rows.foldl (fun m row => max m row.receiveTsNs) 0

/-- The sizes of the trades of a side. -/
def volumeOf (side : String) (rows : List Trade) : ℚ :=
  ((rows.filter fun row => row.side = some side).map Trade.amount).sum

/-- The checks of a trade that has a side, a price and a size. -/
def isComplete (row : Trade) : Bool :=
  (row.side = some "buy" ∨ row.side = some "sell") ∧ row.price ≠ none ∧ row.size ≠ none

/-! ## Trade flow -/

structure TradeSums where
  buy : ℚ := 0
  sell : ℚ := 0
  notional : ℚ := 0
  count : ℕ := 0
  maxReceiveNs : ℤ := 0

structure TradeFlowRow where
  timestamp : ℤ
  maxSourceTimestamp : ℤ
  buyVolume : ℚ
  sellVolume : ℚ
  tradeVolume : ℚ
  tradeDelta : ℚ
  cvd : ℚ
  tradeCount : ℕ
  tradeVwap : ℚ
  deriving DecidableEq

/-- `TradeFlowAccumulator._validate`. -/
def validateFlow (symbol : String) (row : Trade) : Except MarketError Unit := do
  check (row.recordType = "trade" ∧ row.channel = "trades")
    (.orderFlow "TradeFlowAccumulator accepts only trade rows")
  check (row.symbol = symbol) (.orderFlow "trade row crossed symbol streams")
  check (isComplete row) (.orderFlow "trade row is incomplete")

def TradeSums.add (sums : TradeSums) (row : Trade) : TradeSums :=
  { buy := if row.side = some "buy" then sums.buy + row.amount else sums.buy
    sell := if row.side = some "buy" then sums.sell else sums.sell + row.amount
    notional := sums.notional + row.level * row.amount
    count := sums.count + 1
    maxReceiveNs := max sums.maxReceiveNs row.receiveTsNs }

/-- `TradeFlowAccumulator._emit`; `cvd` is carried on. -/
def emitFlow (bucketMs : ℤ) (cvd : ℚ) (bucket : ℤ) (sums : TradeSums) :
    Except MarketError (TradeFlowRow × ℚ) :=
  let delta := sums.buy - sums.sell
  let volume := sums.buy + sums.sell
  if volume = 0 then .error .invalidOperation
  else .ok
    ({ timestamp := max (bucketEnd bucketMs bucket) sums.maxReceiveNs
       maxSourceTimestamp := sums.maxReceiveNs
       buyVolume := sums.buy
       sellVolume := sums.sell
       tradeVolume := volume
       tradeDelta := delta
       cvd := cvd + delta
       tradeCount := sums.count
       tradeVwap := sums.notional / volume }, cvd + delta)

def tradeFlow (symbol : String) (bucketMs : ℤ) :
    Stream Trade ℤ (ℤ ×ₗ ℤ ×ₗ ℤ ×ₗ ℤ ×ₗ String) TradeSums ℚ TradeFlowRow MarketError where
  check := validateFlow symbol
  rank := tradeKey
  unordered := .orderFlow "trade stream is not strictly ordered"
  key := bucketOf bucketMs
  regressed := .orderFlow "trade bucket regressed"
  zero := {}
  add := TradeSums.add
  emit := emitFlow bucketMs

/-- What a `TradeFlowAccumulator` emits for rows, in `update` and `finalize`. -/
def tradeFlowRows (symbol : String) (bucketMs : ℤ) (rows : List Trade) :
    Except MarketError (List TradeFlowRow) := do
  check (0 < bucketMs) (.valueError "bucket_ms must be positive")
  (tradeFlow symbol bucketMs).results ((tradeFlow symbol bucketMs).start 0) rows

/-- The same, with `update` called on chunks of the rows. -/
def tradeFlowChunks (symbol : String) (bucketMs : ℤ) (chunks : List (List Trade)) :
    Except MarketError (List TradeFlowRow) := do
  check (0 < bucketMs) (.valueError "bucket_ms must be positive")
  (tradeFlow symbol bucketMs).feed ((tradeFlow symbol bucketMs).start 0) chunks

/-! ## Interaction -/

/-- `self._previous`. -/
structure PreviousBucket where
  high : ℚ
  low : ℚ
  buy : ℚ
  sell : ℚ

structure InteractionRow where
  timestamp : ℤ
  maxSourceTimestamp : ℤ
  buySweep : Bool
  sellSweep : Bool
  buySweepLevels : ℕ
  sellSweepLevels : ℕ
  buyAbsorption : Bool
  sellAbsorption : Bool
  buyAbsorptionScore : ℚ
  sellAbsorptionScore : ℚ
  buyExhaustion : Bool
  sellExhaustion : Bool
  priceProgressTicks : ℚ
  deriving DecidableEq

/-- `TradeInteractionAccumulator._validate`. -/
def validateInteraction (symbol : String) (row : Trade) : Except MarketError Unit := do
  check (row.recordType = "trade" ∧ row.channel = "trades" ∧ row.symbol = symbol)
    (.orderFlow "interaction features crossed normalized trade streams")
  check (isComplete row) (.orderFlow "interaction trade row is incomplete")

/-- `_monotonic_sweep`. -/
def monotonicSweep (prices : List ℚ) (increasing : Bool) (minimum : ℕ) : Bool :=
  if prices.dedup.length < minimum then false
  else (prices.zip prices.tail).all fun (left, right) =>
    if increasing then left ≤ right else right ≤ left

/-- The prices of the trades of a side. -/
def pricesOf (side : String) (rows : List Trade) : List ℚ :=
  (rows.filter fun row => row.side = some side).map Trade.level

/-- What is kept of a bucket for the next one. -/
def previousBucket (group : List Trade) : PreviousBucket where
  high := (group.map Trade.level).max?.getD 0
  low := (group.map Trade.level).min?.getD 0
  buy := volumeOf "buy" group
  sell := volumeOf "sell" group

/-- The result of `TradeInteractionAccumulator._emit`; the bucket is compared with the one
before it. -/
def interactionRow (bucketMs : ℤ) (tick : ℚ) (minSweepLevels : ℕ) (previous : Option PreviousBucket)
    (bucket : ℤ) (group : List Trade) : InteractionRow :=
  let prices := group.map Trade.level
  let buy := volumeOf "buy" group
  let sell := volumeOf "sell" group
  let buySweep := monotonicSweep (pricesOf "buy" group) true minSweepLevels
  let sellSweep := monotonicSweep (pricesOf "sell" group) false minSweepLevels
  let high := prices.max?.getD 0
  let low := prices.min?.getD 0
  let progress := (prices.getLast?.getD 0 - prices.head?.getD 0) / tick
  { timestamp := max (bucketEnd bucketMs bucket) (maxReceive group)
    maxSourceTimestamp := maxReceive group
    buySweep
    sellSweep
    buySweepLevels := if buySweep then (pricesOf "buy" group).dedup.length else 0
    sellSweepLevels := if sellSweep then (pricesOf "sell" group).dedup.length else 0
    buyAbsorption := sell < buy ∧ progress ≤ 0
    sellAbsorption := buy < sell ∧ 0 ≤ progress
    buyAbsorptionScore := buy / (buy + sell) / (1 + max progress 0)
    sellAbsorptionScore := sell / (buy + sell) / (1 + max (-progress) 0)
    buyExhaustion := previous.any fun p => p.high < high ∧ buy < p.buy
    sellExhaustion := previous.any fun p => low < p.low ∧ sell < p.sell
    priceProgressTicks := progress }

/-- `TradeInteractionAccumulator._emit`. -/
def emitInteraction (bucketMs : ℤ) (tick : ℚ) (minSweepLevels : ℕ) (previous : Option PreviousBucket)
    (bucket : ℤ) (group : List Trade) :
    Except MarketError (InteractionRow × Option PreviousBucket) :=
  if volumeOf "buy" group + volumeOf "sell" group = 0 then .error .invalidOperation
  else .ok (interactionRow bucketMs tick minSweepLevels previous bucket group,
    some (previousBucket group))

def tradeInteraction (symbol : String) (bucketMs : ℤ) (tick : ℚ) (minSweepLevels : ℕ) :
    Stream Trade ℤ (ℤ ×ₗ ℤ ×ₗ ℤ ×ₗ ℤ ×ₗ String) (List Trade) (Option PreviousBucket)
      InteractionRow MarketError where
  check := validateInteraction symbol
  rank := tradeKey
  unordered := .orderFlow "interaction trade stream is not strictly ordered"
  key := bucketOf bucketMs
  regressed := .orderFlow "interaction trade bucket regressed"
  zero := []
  add rows row := rows ++ [row]
  emit := emitInteraction bucketMs tick minSweepLevels

/-- What a `TradeInteractionAccumulator` emits for rows, in `update` and `finalize`. -/
def interactionRows (symbol : String) (bucketMs : ℤ) (tick : ℚ) (minSweepLevels : ℕ)
    (rows : List Trade) : Except MarketError (List InteractionRow) := do
  check (0 < bucketMs ∧ 0 < tick ∧ 2 ≤ minSweepLevels)
    (.valueError "invalid interaction configuration")
  (tradeInteraction symbol bucketMs tick minSweepLevels).results
    ((tradeInteraction symbol bucketMs tick minSweepLevels).start none) rows

end Greenfield.Features
