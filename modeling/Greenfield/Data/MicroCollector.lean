import Greenfield.Data.CompactionRuns
import Greenfield.Lib.Depth
import Mathlib.Algebra.Order.Ring.Rat

/-!
# The microstructure collector

`src/data/microstructure_collector.py`, with the parser and the order book that it uses. A flush
takes the rows of a stream out of their buffer before `write_batch` writes them.
-/

namespace Greenfield.Data.Micro

open Effects Files Py Keyed Depth

/-! ## The order book -/

/-- `OrderBookState`. -/
structure OrderBookState where
  bids : Side ℚ ℚ := Table.empty
  asks : Side ℚ ℚ := Table.empty

/-- `float(text)`, of a text that may not be a number. -/
def float (text : Option ℚ) : Except PyError ℚ :=
  match text with
  | some x => .ok x
  | none => .error (.valueError "could not convert string to float")

abbrev LevelTexts := List (Option ℚ × Option ℚ)

/-- A side of `apply_snapshot`. -/
def snapshotSide (levels : LevelTexts) : Except PyError (Side ℚ ℚ) :=
  levels.foldlM (fun side level => do
    let qty ← float level.2
    if 0 < qty then
      let price ← float level.1
      return side.upsert (price, qty)
    else return side) Table.empty

/-- `_upsert`. -/
def upsertLevel (side : Side ℚ ℚ) (price qty : ℚ) : Side ℚ ℚ :=
  if qty = 0 then side.erase price else side.upsert (price, qty)

/-- A side of `apply_delta`, up to the level that is no number. -/
def deltaSide : Side ℚ ℚ → LevelTexts → Except PyError Unit × Side ℚ ℚ
  | side, [] => (.ok (), side)
  | side, level :: levels =>
    match float level.1, float level.2 with
    | .ok price, .ok qty => deltaSide (upsertLevel side price qty) levels
    | .error e, _ => (.error e, side)
    | _, .error e => (.error e, side)

namespace OrderBookState

def applySnapshot (s : OrderBookState) (bids asks : LevelTexts) : Except PyError Unit × OrderBookState :=
  match snapshotSide bids with
  | .error e => (.error e, s)
  | .ok bids =>
    match snapshotSide asks with
    | .error e => (.error e, { s with bids })
    | .ok asks => (.ok (), { bids, asks })

def applyDelta (s : OrderBookState) (bids asks : LevelTexts) : Except PyError Unit × OrderBookState :=
  match deltaSide s.bids bids with
  | (.error e, bids) => (.error e, { s with bids })
  | (.ok (), bids) => ((deltaSide s.asks asks).1, { bids, asks := (deltaSide s.asks asks).2 })

end OrderBookState

/-! ## Rows -/

structure OrderBookFields where
  symbol : Option String
  bestBid : ℚ
  bestAsk : ℚ
  midPrice : ℚ
  spread : ℚ
  bidQtyTop : ℚ
  askQtyTop : ℚ
  imbalance : ℚ
  deriving DecidableEq

structure TradeFields where
  symbol : String
  price : ℚ
  size : ℚ
  side : String
  tradeId : String
  deriving DecidableEq

structure LiquidationFields where
  symbol : String
  side : String
  price : ℚ
  size : ℚ
  deriving DecidableEq

inductive Fields where
  | orderbook (fields : OrderBookFields)
  | trade (fields : TradeFields)
  | liquidation (fields : LiquidationFields)
  deriving DecidableEq

/-- A row of a buffer; a timestamp that is missing is `NaT`. -/
structure BufferRow where
  timestamp : Option ℤ
  fields : Fields
  deriving DecidableEq

/-- The row of a file. `groupby` leaves out a row without a date. -/
def BufferRow.dated (row : BufferRow) : Option (Row Fields) :=
  row.timestamp.map fun timestamp => ⟨timestamp, row.fields⟩

/-- The sum of the quantities of the best levels. -/
def topQty (topN : ℕ) (best : ℚ → ℚ → Bool) (side : Side ℚ ℚ) : ℚ :=
  (((sorted (fun a b => best a.1 b.1) side.rows).take topN).map Prod.snd).sum

/-- `summary`. -/
def OrderBookState.summary (s : OrderBookState) (topN : ℕ) (symbol : Option String) :
    Option OrderBookFields :=
  match (s.bids.rows.map Prod.fst).max?, (s.asks.rows.map Prod.fst).min? with
  | some bestBid, some bestAsk =>
    let bidQtyTop := topQty topN (fun a b => decide (b ≤ a)) s.bids
    let askQtyTop := topQty topN (fun a b => decide (a ≤ b)) s.asks
    let total := bidQtyTop + askQtyTop
    some { symbol, bestBid, bestAsk, midPrice := (bestBid + bestAsk) / 2, spread := bestAsk - bestBid,
           bidQtyTop, askQtyTop
           imbalance := if 0 < total then (bidQtyTop - askQtyTop) / total else 0 }
  | _, _ => none

/-- A message of `orderbook.{depth}.{symbol}`, with its time in milliseconds. -/
structure OrderBookMessage where
  type : Option String
  bids : LevelTexts
  asks : LevelTexts
  symbol : Option String
  ts : Option ℤ

def nsOfMs (ms : ℤ) : ℤ := ms * 1000000

/-- `apply_orderbook_message`. -/
def applyOrderbookMessage (topN : ℕ) (state : OrderBookState) (message : OrderBookMessage) :
    Except PyError (Option BufferRow) × OrderBookState :=
  let applied :=
    if message.type = some "snapshot" then state.applySnapshot message.bids message.asks
    else if message.type = some "delta" then state.applyDelta message.bids message.asks
    else (.error (.valueError ("unrecognized orderbook message type: " ++
      (message.type.map quoted).getD "None")), state)
  match applied with
  | (.error e, state) => (.error e, state)
  | (.ok (), state) => (.ok ((state.summary topN message.symbol).map fun fields =>
      { timestamp := message.ts.map nsOfMs, fields := .orderbook fields }), state)

/-- An entry of a trade message or of a liquidation message, with what cannot be read of it. -/
structure TapeEntry where
  ms : Option ℤ
  symbol : Option String
  price : Option ℚ
  size : Option ℚ
  side : Option String
  tradeId : Option String

/-- A key of an entry, which may be missing or unreadable. -/
def field {α : Type} (value : Option α) (name : String) : Except PyError α :=
  match value with
  | some x => .ok x
  | none => .error (.keyError name)

/-- `parse_trade_message`. -/
def parseTradeMessage (data : List TapeEntry) : Except PyError (List BufferRow) :=
  data.mapM fun entry => do
    let ms ← field entry.ms "T"
    let symbol ← field entry.symbol "s"
    let price ← field entry.price "p"
    let size ← field entry.size "v"
    let side ← field entry.side "S"
    let tradeId ← field entry.tradeId "i"
    return { timestamp := some (nsOfMs ms), fields := .trade { symbol, price, size, side, tradeId } }

/-- `parse_liquidation_messages`. -/
def parseLiquidationMessages (data : List TapeEntry) : Except PyError (List BufferRow) :=
  data.mapM fun entry => do
    let ms ← field entry.ms "T"
    let symbol ← field entry.symbol "s"
    let side ← field entry.side "S"
    let price ← field entry.price "p"
    let size ← field entry.size "v"
    return { timestamp := some (nsOfMs ms), fields := .liquidation { symbol, side, price, size } }

/-! ## The collector -/

/-- `_STREAMS`. -/
inductive Stream where
  | orderbook
  | trades
  | liquidations
  deriving DecidableEq, Repr

def Stream.name : Stream → String
  | .orderbook => "orderbook"
  | .trades => "trades"
  | .liquidations => "liquidations"

def allStreams : List Stream := [.orderbook, .trades, .liquidations]

structure CollectorConfig where
  symbol : String
  flushIntervalSecs : ℚ := 30
  topN : ℕ := 10

structure Collector where
  book : OrderBookState
  buffers : Stream → List BufferRow
  lastFlush : Stream → ℚ
  lake : Lake Fields
  /-- The next `uuid4`. -/
  nextId : ℕ

/-- What a write meets: the clock of its flush, the answers to its operations, and those of them
that fail. -/
structure WriteRun where
  clock : ℚ
  answers : ℕ → (o : Query) → Answer o
  faults : ℕ → Option ℕ

/-- The rows that `write_batch` puts into files. -/
def datedRows (rows : List BufferRow) : List (Row Fields) := rows.filterMap BufferRow.dated

namespace Collector

variable (config : CollectorConfig)

/-- `flush` of one stream. -/
def flushStream (c : Collector) (stream : Stream) (run : WriteRun) : Except PyError Unit × Collector :=
  let rows := c.buffers stream
  let taken := { c with
    buffers := Function.update c.buffers stream []
    lastFlush := Function.update c.lastFlush stream run.clock }
  if rows = [] then (.ok (), taken)
  else
    let written := (writeBatch stream.name config.symbol (datedRows rows) c.nextId).run
      (faulty PyError.osError run.answers run.faults) (0, c.lake)
    (written.1.map fun _ => (), { taken with
      lake := written.2.2
      nextId := c.nextId + 2 * (daysOf (datedRows rows)).length })

/-- `flush`, of the streams one after the other. -/
def flush (c : Collector) (runs : Stream → WriteRun) : List Stream → Except PyError Unit × Collector
  | [] => (.ok (), c)
  | stream :: rest =>
    match c.flushStream config stream (runs stream) with
    | (.ok (), c) => flush c runs rest
    | (.error e, c) => (.error e, c)

end Collector

/-- A callback, with the clock that `_maybe_flush` reads, or a flush. -/
inductive CollectorEvent where
  | onOrderbookMessage (message : OrderBookMessage) (now : ℚ)
  | onTradeMessage (data : List TapeEntry) (now : ℚ)
  | onLiquidationMessage (data : List TapeEntry) (now : ℚ)
  /-- `flush(stream)`. -/
  | flush (stream : Stream)
  /-- `flush()`, which `run_forever` ends with. -/
  | flushAll

namespace CollectorEvent

variable (config : CollectorConfig)

/-- The rows that a callback appends to a buffer, and the order book that it leaves. -/
def received (c : Collector) : CollectorEvent → Except PyError (List BufferRow) × OrderBookState
  | .onOrderbookMessage message _ =>
    let applied := applyOrderbookMessage config.topN c.book message
    (applied.1.map Option.toList, applied.2)
  | .onTradeMessage data _ => (parseTradeMessage data, c.book)
  | .onLiquidationMessage data _ => (parseLiquidationMessages data, c.book)
  | .flush _ | .flushAll => (.ok [], c.book)

/-- The stream of a callback. -/
def stream : CollectorEvent → Stream
  | .onTradeMessage .. => .trades
  | .onLiquidationMessage .. => .liquidations
  | .flush stream => stream
  | _ => .orderbook

/-- The rows that are appended to the buffer of a stream. -/
def appended (c : Collector) (e : CollectorEvent) (stream : Stream) : List BufferRow :=
  match (e.received config c).1 with
  | .ok rows => if stream = e.stream then rows else []
  | .error _ => []

/-- The collector with what was received. -/
def receive (c : Collector) (e : CollectorEvent) : Collector :=
  { c with
    book := (e.received config c).2
    buffers := fun stream => c.buffers stream ++ e.appended config c stream }

/-- The streams that are flushed. A callback that raises does not come to its `_maybe_flush`. -/
def flushes (c : Collector) (e : CollectorEvent) : List Stream :=
  match e with
  | .flush stream => [stream]
  | .flushAll => allStreams
  | .onOrderbookMessage _ now | .onTradeMessage _ now | .onLiquidationMessage _ now =>
    match (e.received config c).1 with
    | .error _ => []
    | .ok _ =>
      if config.flushIntervalSecs ≤ now - c.lastFlush e.stream then [e.stream] else []

end CollectorEvent

/-- An event, and what its writes meet. -/
abbrev Input := CollectorEvent × (Stream → WriteRun)

def Collector.step (config : CollectorConfig) (c : Collector) (input : Input) : Collector :=
  ((input.1.receive config c).flush config input.2 (input.1.flushes config c)).2

end Greenfield.Data.Micro
