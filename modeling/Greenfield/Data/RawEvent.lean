import Greenfield.Py.Json

/-!
# Raw market events

`src/data/raw_event.py`: the envelope of a venue's message, whose text it keeps. A string is
identified with its UTF-8 bytes. `MarketError` has the exceptions of all modules that read such
events; each venue has the replay errors under names of its own.
-/

namespace Greenfield.Data

open Py

/-- Exceptions, with their message. -/
inductive MarketError where
  | typeError (msg : String)
  | valueError (msg : String)
  | overflowError
  | indexError
  /-- `decimal.InvalidOperation`. -/
  | invalidOperation
  | jsonDecodeError
  | rawEvent (msg : String)
  | rawStore (msg : String)
  | normalization (msg : String)
  | orderFlow (msg : String)
  /-- `GoldMaterializationError` and `L2GoldMaterializationError`. -/
  | goldMaterialization (msg : String)
  /-- `ReplayError`, `BinanceReplayError` and so on; the next six are kinds of it. -/
  | replay (msg : String)
  | snapshotRequired (msg : String)
  | sequenceGap (msg : String)
  | sequenceRegression (msg : String)
  | sequenceDuplicate (msg : String)
  | sequenceRollback (msg : String)
  | invalidOrderBook (msg : String)
  deriving DecidableEq, Repr

/-- A guard that passes. -/
def check (c : Bool) (e : MarketError) : Except MarketError Unit := if c then .ok () else .error e

@[simp] theorem check_eq_ok {c : Bool} {e : MarketError} {u : Unit} :
    check c e = .ok u ↔ c = true := by
  unfold check
  split
  · next h => simp [h]
  · next h => simp [h]

/-- `int(value)`. -/
def pyInt (T : Texts) : PyJson → Except MarketError ℤ
  | .int n => .ok n
  | .bool b => .ok (if b then 1 else 0)
  | .float (.finite q) => .ok (roundDown q)
  | .float (.infinite _) => .error .overflowError
  | .float .nan => .error (.valueError "cannot convert float NaN to integer")
  | .str s =>
    match T.int s with
    | some n => .ok n
    | none => .error (.valueError "invalid literal for int() with base 10")
  | _ => .error (.typeError "int() argument must be a string or a real number")

/-- `except (TypeError, ValueError) as exc: raise e from exc`. -/
def orRaise {α : Type} (x : Except MarketError α) (e : MarketError) : Except MarketError α :=
  match x with
  | .error (.typeError _) => .error e
  | .error (.valueError _) => .error e
  | x => x

theorem orRaise_eq_error {α : Type} {x : Except MarketError α} {e err : MarketError}
    (h : orRaise x e = .error err) : err = e ∨ x = .error err := by
  unfold orRaise at h
  split at h
  · cases h
    exact .inl rfl
  · cases h
    exact .inl rfl
  · exact .inr h

variable {err : MarketError}

theorem pyInt_ne_gap {T : Texts} {value : PyJson}
    (h : pyInt T value = .error err) (msg : String) : err ≠ .sequenceGap msg := by
  rintro rfl
  unfold pyInt at h
  split at h
  case h_6 =>
    split at h
    · cases h
    · cases h
  all_goals cases h

/-- `RAW_EVENT_SCHEMA_VERSION`. -/
def rawEventSchemaVersion : ℤ := 1

/-- `RAW_INGESTION_VERSION`. -/
def rawIngestionVersion : String := "greenfield-bybit-raw-v1"

structure RawFields where
  schemaVersion : ℤ
  ingestionVersion : String
  eventId : String
  exchange : String
  marketType : String
  channel : String
  topic : String
  symbol : String
  messageType : String
  exchangeTsMs : Option ℤ
  receiveTsNs : ℤ
  receiveSequence : ℤ
  matchingTsMs : Option ℤ
  sequence : Option ℤ
  updateId : Option ℤ
  connectionId : String
  payloadSha256 : String
  payloadText : String
  deriving DecidableEq

structure RawMarketEvent (D : Digests) extends RawFields where
  version : schemaVersion = rawEventSchemaVersion
  received : 0 < receiveTsNs
  numbered : 0 < receiveSequence
  connected : connectionId ≠ ""
  hashed : D.sha256Hex payloadText = payloadSha256
  deriving DecidableEq

/-- `RawMarketEvent(...)`. -/
def RawFields.checked (D : Digests) (r : RawFields) : Except MarketError (RawMarketEvent D) :=
  if version : r.schemaVersion = rawEventSchemaVersion then
    if received : 0 < r.receiveTsNs then
      if numbered : 0 < r.receiveSequence then
        if connected : r.connectionId ≠ "" then
          if hashed : D.sha256Hex r.payloadText = r.payloadSha256 then
            .ok { r with version, received, numbered, connected, hashed }
          else .error (.rawEvent "payload_sha256 does not match payload_text")
        else .error (.rawEvent "connection_id is required")
      else .error (.rawEvent "receive_sequence must be positive")
    else .error (.rawEvent "receive_ts_ns must be positive")
  else .error (.rawEvent ("unsupported raw schema version: " ++ toString r.schemaVersion))

/-- The connection of sample events. -/
theorem sampleConnection_ne : "c" ≠ "" := by decide

/-- `payload`. -/
def RawMarketEvent.payload {D : Digests} (F : Floats) (e : RawMarketEvent D) :
    Except MarketError (List (String × PyJson)) :=
  match Json.loads F e.payloadText with
  | none => .error .jsonDecodeError
  | some (.obj items) => .ok items
  | some _ => .error (.rawEvent "raw market payload must be a JSON object")

/-- A payload that cannot be read is no gap. -/
theorem payload_ne_gap {D : Digests} {F : Floats} {e : RawMarketEvent D}
    (h : e.payload F = .error err) (msg : String) : err ≠ .sequenceGap msg := by
  rintro rfl
  unfold RawMarketEvent.payload at h
  split at h
  · cases h
  · cases h
  · cases h

/-! ## Bybit messages -/

/-- `_first_mapping`. -/
def firstMapping : PyJson → List (String × PyJson)
  | .obj items => items
  | .arr (.obj items :: _) => items
  | _ => []

/-- `_optional_int`. -/
def optionalInt (T : Texts) (value : PyJson) : Except MarketError (Option ℤ) :=
  match value with
  | .null => .ok none
  | .str "" => .ok none
  | value => some <$> orRaise (pyInt T value)
      (.rawEvent ("expected integer metadata, received " ++ T.repr value))

/-- `_bybit_channel`. -/
def bybitChannel (topic : String) : String :=
  if startsWith topic "orderbook." then "orderbook"
  else if startsWith topic "publicTrade." then "trades"
  else if startsWith topic "allLiquidation." then "liquidations"
  else if startsWith topic "tickers." then "ticker"
  else if topic ≠ "" then String.ofList (topic.toList.takeWhile (· ≠ '.'))
  else "control"

/-- `_bybit_symbol`. -/
def bybitSymbol (T : Texts) (topic : String) (data : List (String × PyJson)) : String :=
  let candidate := orElse (item data "s") (item data "symbol")
  if truth candidate then T.str candidate
  else if topic ≠ "" then String.ofList (topic.toList.reverse.takeWhile (· ≠ '.')).reverse
  else "ALL"

/-- The text whose SHA-256 is the id of an event. -/
def identityText (r : RawFields) : String :=
  "|".intercalate ["bybit", r.marketType, r.connectionId, toString r.receiveTsNs,
    toString r.receiveSequence, r.topic, r.payloadSha256]

end Greenfield.Data
