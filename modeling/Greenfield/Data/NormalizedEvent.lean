import Greenfield.Data.RawEvent

/-!
# Normalized market events

The rows of `src/data/normalized_event.py`. The text of a price or a size is identified with
its value.
-/

namespace Greenfield.Data

open Py

/-- `NORMALIZED_EVENT_SCHEMA_VERSION`. -/
def normalizedEventSchemaVersion : ℤ := 2

/-- `NORMALIZER_VERSION`. -/
def normalizerVersion : String := "greenfield-bybit-normalizer-v2"

/-- `SUPPORTED_NORMALIZER_VERSIONS`. -/
def supportedNormalizerVersions : List String :=
  [normalizerVersion, "greenfield-binance-normalizer-v1", "greenfield-okx-normalizer-v1",
    "greenfield-coinbase-normalizer-v1", "greenfield-deribit-normalizer-v1"]

theorem normalizerVersion_supported : normalizerVersion ∈ supportedNormalizerVersions :=
  List.mem_cons_self

/-- `_CHANNELS`. -/
def normalizedChannels : List String := ["orderbook", "trades", "liquidations", "ticker"]

structure NormalizedFields where
  schemaVersion : ℤ
  normalizerVersion : String
  normalizedId : String
  rawEventId : String
  rawPayloadSha256 : String
  exchange : String
  marketType : String
  channel : String
  recordType : String
  symbol : String
  eventTsMs : ℤ
  receiveTsNs : ℤ
  receiveSequence : ℤ
  connectionId : String
  messageType : String
  sequence : Option ℤ
  updateId : Option ℤ
  rowIndex : ℤ
  firstUpdateId : Option ℤ := none
  previousUpdateId : Option ℤ := none
  side : Option String := none
  price : Option ℚ := none
  size : Option ℚ := none
  tradeId : Option String := none
  tickDirection : Option String := none
  isBlockTrade : Option Bool := none
  isRpiTrade : Option Bool := none
  bookSide : Option String := none
  bookAction : Option String := none
  metricName : Option String := none
  metricValue : Option String := none
  deriving DecidableEq

structure NormalizedMarketEvent extends NormalizedFields where
  version : schemaVersion = normalizedEventSchemaVersion
  normalizer : normalizerVersion ∈ supportedNormalizerVersions
  known : channel ∈ normalizedChannels
  timestamps : 0 < eventTsMs ∧ 0 < receiveTsNs
  indexed : 0 ≤ rowIndex
  lineage : normalizedId ≠ "" ∧ rawEventId ≠ "" ∧ rawPayloadSha256 ≠ ""
  deriving DecidableEq

/-- `NormalizedMarketEvent(...)`. -/
def NormalizedFields.checked (r : NormalizedFields) : Except MarketError NormalizedMarketEvent :=
  if version : r.schemaVersion = normalizedEventSchemaVersion then
    if normalizer : r.normalizerVersion ∈ supportedNormalizerVersions then
      if known : r.channel ∈ normalizedChannels then
        if timestamps : 0 < r.eventTsMs ∧ 0 < r.receiveTsNs then
          if indexed : 0 ≤ r.rowIndex then
            if lineage : r.normalizedId ≠ "" ∧ r.rawEventId ≠ "" ∧ r.rawPayloadSha256 ≠ "" then
              .ok { r with version, normalizer, known, timestamps, indexed, lineage }
            else .error (.normalization "normalized lineage is required")
          else .error (.normalization "row_index must be non-negative")
        else .error (.normalization "timestamps must be positive")
      else .error (.normalization ("unsupported normalized channel: " ++ r.channel))
    else .error (.normalization "unsupported normalizer version")
  else .error (.normalization "unsupported normalized schema version")

end Greenfield.Data
