import Greenfield.Data.RawEvent
import Greenfield.Lib.Buckets
import Mathlib.Data.String.Basic

/-!
# Trades of the archive

`archive_trade_bars` and `archive_footprint` of `src/features/binance_archive_flow.py`. Floats are
rationals; timestamps are in nanoseconds. A frequency is its length in nanoseconds.
-/

namespace Greenfield.Features

open Buckets Data Py

structure ArchiveTrade where
  timestamp : ℤ
  exchange : String
  market : String
  dataset : String
  symbol : String
  tradeId : ℤ
  price : ℚ
  quantity : ℚ
  quoteQuantity : ℚ
  signedQuantity : ℚ

/-- `["exchange", "market", "dataset", "symbol"]`. -/
abbrev Identity := String ×ₗ String ×ₗ String ×ₗ String

namespace ArchiveTrade

def identity (row : ArchiveTrade) : Identity :=
  toLex (row.exchange, toLex (row.market, toLex (row.dataset, row.symbol)))

/-- `dt.floor(frequency)`. -/
def floor (frequency : ℤ) (row : ArchiveTrade) : ℤ := row.timestamp / frequency * frequency

/-- `signed_quantity.clip(lower=0)`. -/
def buyVolume (row : ArchiveTrade) : ℚ := max row.signedQuantity 0

/-- `-signed_quantity.clip(upper=0)`. -/
def sellVolume (row : ArchiveTrade) : ℚ := -min row.signedQuantity 0

end ArchiveTrade

/-- The order of `["timestamp", "trade_id"]`. -/
def archiveLe (a b : ArchiveTrade) : Bool :=
  a.timestamp < b.timestamp ∨ a.timestamp = b.timestamp ∧ a.tradeId ≤ b.tradeId

/-- `_validated_trades`. -/
def validatedTrades (frequency : ℤ) (frame : List ArchiveTrade) :
    Except MarketError (List ArchiveTrade) := do
  check (0 < frequency) (.valueError "frequency must be positive")
  check (frame ≠ [] ∧ ∀ row ∈ frame, 0 < row.price ∧ 0 < row.quantity)
    (.valueError "trade frame must contain positive price and quantity")
  check (∀ row ∈ frame, row.dataset ∈ ["trades", "aggTrades"])
    (.valueError "unsupported historical trade dataset")
  return sorted archiveLe frame

/-! ## Bars -/

structure ArchiveBar where
  timestamp : ℤ
  maxSourceTimestamp : ℤ
  identity : Identity
  openPrice : ℚ
  high : ℚ
  low : ℚ
  closePrice : ℚ
  volume : ℚ
  quoteVolume : ℚ
  buyVolume : ℚ
  sellVolume : ℚ
  tradeDelta : ℚ
  cvd : ℚ := 0
  tradeCount : ℕ
  tradeVwap : ℚ

/-- The bar of a group, without its `cvd`. -/
def archiveBar (interval : ℤ) (key : Identity ×ₗ ℤ) (group : List ArchiveTrade) : ArchiveBar :=
  let prices := group.map ArchiveTrade.price
  let volume := (group.map ArchiveTrade.quantity).sum
  let quoteVolume := (group.map ArchiveTrade.quoteQuantity).sum
  { timestamp := (ofLex key).2 + interval
    maxSourceTimestamp := (group.map ArchiveTrade.timestamp).max?.getD 0
    identity := (ofLex key).1
    openPrice := prices.head?.getD 0
    high := prices.max?.getD 0
    low := prices.min?.getD 0
    closePrice := prices.getLast?.getD 0
    volume
    quoteVolume
    buyVolume := (group.map ArchiveTrade.buyVolume).sum
    sellVolume := (group.map ArchiveTrade.sellVolume).sum
    tradeDelta := (group.map ArchiveTrade.signedQuantity).sum
    tradeCount := group.length
    tradeVwap := quoteVolume / volume }

/-- `groupby(stream_keys)["trade_delta"].cumsum()`. -/
def cumulate (bars : List ArchiveBar) : List ArchiveBar :=
  bars.zipIdx.map fun (bar, i) =>
    { bar with cvd := (((bars.take (i + 1)).filter fun b => b.identity = bar.identity).map
        ArchiveBar.tradeDelta).sum }

/-- `archive_trade_bars`. -/
def archiveTradeBars (frequency : ℤ) (frame : List ArchiveTrade) :
    Except MarketError (List ArchiveBar) := do
  let value ← validatedTrades frequency frame
  return cumulate <| (groups (fun row => toLex (row.identity, row.floor frequency)) value).map
    fun (key, group) => archiveBar frequency key group

/-! ## Footprints -/

structure ArchiveCell where
  timestamp : ℤ
  maxSourceTimestamp : ℤ
  identity : Identity
  priceLevel : ℚ
  buyVolume : ℚ
  sellVolume : ℚ
  totalVolume : ℚ
  delta : ℚ
  diagonalBuyRatio : ℚ
  diagonalSellRatio : ℚ
  buyImbalance : Bool
  sellImbalance : Bool

/-- `np.rint(price / price_tick)`. -/
def ArchiveTrade.ticks (priceTick : ℚ) (row : ArchiveTrade) : ℤ :=
  roundHalfEven (row.price / priceTick)

/-- The volume of a group, or zero where there is none. -/
def volumeIn (volume : ArchiveTrade → ℚ) (grouped : List ((ℤ ×ₗ ℤ) × List ArchiveTrade))
    (key : ℤ ×ₗ ℤ) : ℚ := ((grouped.lookup key).map fun group => (group.map volume).sum).getD 0

/-- `np.divide(volume, opposite, where=opposite > 0)`. -/
def archiveRatio (volume opposite : ℚ) : ℚ := if 0 < opposite then volume / opposite else 0

/-- The cell of a bucket and a number of ticks. -/
def archiveCell (interval : ℤ) (priceTick imbalanceRatio : ℚ) (identity : Identity)
    (grouped : List ((ℤ ×ₗ ℤ) × List ArchiveTrade)) (key : ℤ ×ₗ ℤ) (group : List ArchiveTrade) :
    ArchiveCell :=
  let (bucket, ticks) := ofLex key
  let buy := (group.map ArchiveTrade.buyVolume).sum
  let sell := (group.map ArchiveTrade.sellVolume).sum
  let lowerSell := volumeIn ArchiveTrade.sellVolume grouped (toLex (bucket, ticks - 1))
  let upperBuy := volumeIn ArchiveTrade.buyVolume grouped (toLex (bucket, ticks + 1))
  { timestamp := bucket + interval
    maxSourceTimestamp := (group.map ArchiveTrade.timestamp).max?.getD 0
    identity
    priceLevel := ticks * priceTick
    buyVolume := buy
    sellVolume := sell
    totalVolume := buy + sell
    delta := buy - sell
    diagonalBuyRatio := archiveRatio buy lowerSell
    diagonalSellRatio := archiveRatio sell upperBuy
    buyImbalance := imbalanceRatio ≤ archiveRatio buy lowerSell
    sellImbalance := imbalanceRatio ≤ archiveRatio sell upperBuy }

/-- `archive_footprint`. -/
def archiveFootprint (priceTick : ℚ) (frequency : ℤ) (imbalanceRatio : ℚ)
    (frame : List ArchiveTrade) : Except MarketError (List ArchiveCell) := do
  let value ← validatedTrades frequency frame
  check (0 < priceTick) (.valueError "price_tick must be positive and finite")
  check (0 < imbalanceRatio) (.valueError "imbalance_ratio must be positive and finite")
  match (value.map ArchiveTrade.identity).dedup with
  | [identity] =>
    check (∀ row ∈ value, |row.price - row.ticks priceTick * priceTick| ≤ priceTick / 1000000)
      (.valueError "trade price is not aligned to price_tick")
    let grouped :=
      groups (fun row => toLex (row.floor frequency, row.ticks priceTick)) value
    return grouped.map fun (key, group) =>
      archiveCell frequency priceTick imbalanceRatio identity grouped key group
  | _ => .error (.valueError
      "footprint accepts exactly one exchange/market/dataset/symbol stream")

end Greenfield.Features
