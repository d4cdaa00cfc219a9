import Greenfield.Data.NormalizedEvent
import Greenfield.Lib.Parts
import Greenfield.Py.Time

/-!
# The stores of the lake

The parts of `src/data/raw_store.py`, `src/data/normalized_store.py` and `src/features/store.py`,
which are written by one protocol. A path is identified with the parts of its name; Parquet, the
JSON of manifests and the checksums of file contents are a `Codec`.
-/

namespace Greenfield.Data

open Parts Py

inductive LakeError where
  | market (e : MarketError)
  /-- `NormalizedStoreError`. -/
  | normalizedStore (msg : String)
  /-- `FeatureStoreError`. -/
  | featureStore (msg : String)
  | runtimeError (msg : String)
  | osError
  deriving DecidableEq

def LakeError.rawStore (msg : String) : LakeError := .market (.rawStore msg)

def lakeCheck (c : Bool) (e : LakeError) : Except LakeError Unit := if c then .ok () else .error e

/-! ## Names and manifests -/

/-- The first characters of a digest. -/
def short (n : ℕ) (digest : String) : String := String.ofList (digest.toList.take n)

structure RawPartName where
  exchange : String
  marketType : String
  channel : String
  symbol : String
  utcDate : String
  minReceiveTsNs : ℤ
  maxReceiveTsNs : ℤ
  events : String
  deriving DecidableEq

namespace RawPartName

/-- The components of the path below `raw/v1`. -/
def components (n : RawPartName) : List String :=
  ["exchange=" ++ n.exchange, "market=" ++ n.marketType, "channel=" ++ n.channel,
    "symbol=" ++ n.symbol, "date=" ++ n.utcDate,
    "part-" ++ toString n.minReceiveTsNs ++ "-" ++ toString n.maxReceiveTsNs ++ "-" ++ n.events ++
      ".parquet"]

/-- `part_path.relative_to(data_dir).as_posix()`. -/
def path (n : RawPartName) : String := "/".intercalate ("raw" :: "v1" :: n.components)

end RawPartName

structure SilverPartName where
  normalizer : String
  exchange : String
  marketType : String
  channel : String
  symbol : String
  utcDate : String
  source : String
  ids : String
  deriving DecidableEq

def SilverPartName.path (n : SilverPartName) : String :=
  "/".intercalate ["silver", "v2", "normalizer=" ++ n.normalizer, "exchange=" ++ n.exchange,
    "market=" ++ n.marketType, "channel=" ++ n.channel, "symbol=" ++ n.symbol,
    "date=" ++ n.utcDate, "part-" ++ n.source ++ "-" ++ n.ids ++ ".parquet"]

structure GoldPartName where
  featureSet : String
  symbol : String
  utcDate : String
  dataset : String
  code : String
  rows : String
  deriving DecidableEq

def GoldPartName.path (n : GoldPartName) : String :=
  "/".intercalate ["gold", "v1", "feature_set=" ++ n.featureSet, "symbol=" ++ n.symbol,
    "date=" ++ n.utcDate, "part-" ++ n.dataset ++ "-" ++ n.code ++ "-" ++ n.rows ++ ".parquet"]

inductive LakeName where
  | raw (n : RawPartName)
  | silver (n : SilverPartName)
  | gold (n : GoldPartName)
  deriving DecidableEq

structure RawPartManifest where
  manifestVersion : ℤ
  rawSchemaVersion : ℤ
  partPath : RawPartName
  contentSha256 : String
  eventsSha256 : String
  rowCount : ℕ
  exchange : String
  marketType : String
  channel : String
  symbol : String
  utcDate : String
  minReceiveTsNs : ℤ
  maxReceiveTsNs : ℤ
  minExchangeTsMs : Option ℤ
  maxExchangeTsMs : Option ℤ
  createdAt : String
  deriving DecidableEq

structure NormalizedPartManifest where
  manifestVersion : ℤ
  normalizedSchemaVersion : ℤ
  normalizerVersion : String
  partPath : SilverPartName
  contentSha256 : String
  normalizedIdsSha256 : String
  sourceEventsSha256 : String
  sourcePartPath : String
  rowCount : ℕ
  exchange : String
  marketType : String
  channel : String
  symbol : String
  utcDate : String
  minEventTsMs : ℤ
  maxEventTsMs : ℤ
  minReceiveTsNs : ℤ
  maxReceiveTsNs : ℤ
  createdAt : String
  deriving DecidableEq

structure FeaturePartManifest where
  manifestVersion : ℤ
  featureStoreVersion : ℤ
  partPath : GoldPartName
  contentSha256 : String
  rowsSha256 : String
  schemaSha256 : String
  featureSet : String
  symbol : String
  utcDate : String
  datasetVersion : String
  codeVersion : String
  rowCount : ℕ
  featureColumns : List String
  minFeatureTsNs : ℤ
  maxFeatureTsNs : ℤ
  maxSourceTsNs : ℤ
  createdAt : String
  deriving DecidableEq

inductive LakeManifest where
  | raw (m : RawPartManifest)
  | silver (m : NormalizedPartManifest)
  | gold (m : FeaturePartManifest)
  deriving DecidableEq

structure FeatureColumn where
  name : String
  dtype : String
  /-- `pd.api.types.is_numeric_dtype`. -/
  numeric : Bool
  deriving DecidableEq

structure FeatureRow where
  timestamp : ℤ
  maxSourceTimestamp : ℤ
  values : List PyFloat
  deriving DecidableEq

/-- The rows of a Gold part; each has a value for every column. -/
structure GoldFrame where
  columns : List FeatureColumn
  rows : List FeatureRow
  deriving DecidableEq

/-- Parquet, JSON and SHA-256 of file contents. -/
structure Codec (D : Digests) (β : Type) where
  fileSha256 : List β → String
  rawParquet : List (RawMarketEvent D) → List β
  readRaw : List β → Except LakeError (List (RawMarketEvent D))
  silverParquet : List NormalizedMarketEvent → List β
  readSilver : List β → Except LakeError (List NormalizedMarketEvent)
  goldParquet : GoldFrame → List β
  readGold : List β → Except LakeError GoldFrame
  rawJson : RawPartManifest → List β
  loadsRaw : List β → Except LakeError RawPartManifest
  silverJson : NormalizedPartManifest → List β
  loadsSilver : List β → Except LakeError NormalizedPartManifest
  goldJson : FeaturePartManifest → List β
  loadsGold : List β → Except LakeError FeaturePartManifest
  /-- The records of a frame as JSON. -/
  frameJson : GoldFrame → String
  readRaw_rawParquet : ∀ rows, readRaw (rawParquet rows) = .ok rows
  readSilver_silverParquet : ∀ rows, readSilver (silverParquet rows) = .ok rows
  readGold_goldParquet : ∀ frame, readGold (goldParquet frame) = .ok frame
  loadsRaw_rawJson : ∀ m, loadsRaw (rawJson m) = .ok m
  loadsSilver_silverJson : ∀ m, loadsSilver (silverJson m) = .ok m
  loadsGold_goldJson : ∀ m, loadsGold (goldJson m) = .ok m

variable {D : Digests} {β : Type} (C : Codec D β)

/-! ## Checksums -/

/-- SHA-256 of lines that are encoded as ASCII. -/
def asciiSha256 (D : Digests) (lines : List String) : Except LakeError String := do
  let text := "\n".intercalate lines
  lakeCheck (isAscii text) (.market (.valueError "'ascii' codec can't encode characters"))
  return D.sha256Hex text

def frameChecksum (frame : GoldFrame) : String := D.sha256Hex (C.frameJson frame)

def schemaChecksum (D : Digests) (frame : GoldFrame) : String :=
  D.sha256Hex ("\n".intercalate ("timestamp:datetime64[ns, UTC]" ::
    "max_source_timestamp:datetime64[ns, UTC]" ::
    frame.columns.map fun column => column.name ++ ":" ++ column.dtype))

/-! ## Verification -/

/-- `RawPartManifest.from_json`. -/
def RawPartManifest.fromJson (text : List β) : Except LakeError RawPartManifest := do
  let manifest ← C.loadsRaw text
  lakeCheck (manifest.manifestVersion = 1)
    (.rawStore ("unsupported manifest version: " ++ toString manifest.manifestVersion))
  lakeCheck (manifest.rawSchemaVersion = rawEventSchemaVersion)
    (.rawStore ("unsupported raw schema version: " ++ toString manifest.rawSchemaVersion))
  return manifest

/-- `verify_raw_part`, of the content of the part. -/
def verifyRawPart (manifest : RawPartManifest) (content : List β) : Except LakeError Unit := do
  lakeCheck (C.fileSha256 content = manifest.contentSha256)
    (.rawStore ("raw part checksum mismatch: " ++ manifest.partPath.path))
  let rows ← C.readRaw content
  let eventsSha256 ← asciiSha256 D (rows.map (·.eventId))
  lakeCheck (rows.length = manifest.rowCount)
    (.rawStore ("raw part row-count mismatch: " ++ manifest.partPath.path))
  lakeCheck (eventsSha256 = manifest.eventsSha256)
    (.rawStore ("raw event checksum mismatch: " ++ manifest.partPath.path))

/-- `NormalizedPartManifest.from_json`. -/
def NormalizedPartManifest.fromJson (text : List β) : Except LakeError NormalizedPartManifest := do
  let manifest ← C.loadsSilver text
  lakeCheck (manifest.manifestVersion = 1)
    (.normalizedStore "unsupported normalized manifest version")
  lakeCheck (manifest.normalizedSchemaVersion = normalizedEventSchemaVersion)
    (.normalizedStore "unsupported normalized event schema version")
  lakeCheck (supportedNormalizerVersions.contains manifest.normalizerVersion)
    (.normalizedStore "unsupported normalizer version")
  return manifest

/-- `verify_normalized_part`, of the content of the part. -/
def verifyNormalizedPart (manifest : NormalizedPartManifest) (content : List β) :
    Except LakeError Unit := do
  lakeCheck (C.fileSha256 content = manifest.contentSha256)
    (.normalizedStore ("Silver checksum mismatch: " ++ manifest.partPath.path))
  let rows ← C.readSilver content
  lakeCheck (rows.length = manifest.rowCount)
    (.normalizedStore ("Silver row-count mismatch: " ++ manifest.partPath.path))
  let idsSha256 ← asciiSha256 D (rows.map (·.normalizedId))
  lakeCheck (idsSha256 = manifest.normalizedIdsSha256)
    (.normalizedStore ("Silver ID checksum mismatch: " ++ manifest.partPath.path))

/-- `FeaturePartManifest.from_json`. -/
def FeaturePartManifest.fromJson (text : List β) : Except LakeError FeaturePartManifest := do
  let manifest ← C.loadsGold text
  lakeCheck (manifest.manifestVersion = 1 ∧ manifest.featureStoreVersion = 1)
    (.featureStore "unsupported feature manifest version")
  return manifest

def goldContentMismatch (manifest : FeaturePartManifest) : LakeError :=
  .featureStore ("Gold content checksum mismatch: " ++ manifest.partPath.path)

/-- `verify_feature_part`, of the content of the part. -/
def verifyFeaturePart (manifest : FeaturePartManifest) (content : List β) :
    Except LakeError Unit := do
  lakeCheck (C.fileSha256 content = manifest.contentSha256) (goldContentMismatch manifest)
  let frame ← C.readGold content
  lakeCheck (frame.rows.length = manifest.rowCount ∧ frameChecksum C frame = manifest.rowsSha256)
    (.featureStore ("Gold row checksum mismatch: " ++ manifest.partPath.path))
  lakeCheck (schemaChecksum D frame = manifest.schemaSha256)
    (.featureStore ("Gold schema checksum mismatch: " ++ manifest.partPath.path))

/-- The formats of the three stores, below `data_dir`. -/
def lakeFormat (dataDir : String) : Format LakeName β LakeManifest LakeError where
  checksum := C.fileSha256
  toJson
    | .raw m => C.rawJson m
    | .silver m => C.silverJson m
    | .gold m => C.goldJson m
  fromJson n text :=
    match n with
    | .raw _ => (RawPartManifest.fromJson C text).map .raw
    | .silver _ => (NormalizedPartManifest.fromJson C text).map .silver
    | .gold _ => (FeaturePartManifest.fromJson C text).map .gold
  partOf
    | .raw m => .raw m.partPath
    | .silver m => .silver m.partPath
    | .gold m => .gold m.partPath
  undated
    | .raw m => .raw { m with createdAt := "" }
    | .silver m => .silver { m with createdAt := "" }
    | .gold m => .gold { m with createdAt := "" }
  verify
    | .raw m => verifyRawPart C m
    | .silver m => verifyNormalizedPart C m
    | .gold m => verifyFeaturePart C m
  missing
    | .raw m => .rawStore ("raw part is missing: " ++ m.partPath.path)
    | .silver m => .normalizedStore ("Silver part is missing: " ++ m.partPath.path)
    | .gold m => goldContentMismatch m
  incomplete
    | .raw n => .rawStore ("incomplete immutable raw part collision: " ++ dataDir ++ "/" ++ n.path)
    | .silver n => .normalizedStore ("incomplete Silver part collision: " ++ dataDir ++ "/" ++ n.path)
    | .gold n => .featureStore ("incomplete Gold part collision: " ++ dataDir ++ "/" ++ n.path)
  osError := .osError

/-! ## Parts that are to be written -/

abbrev LakePart (β : Type) := PartWrite LakeName β LakeManifest LakeError

abbrev LakeStep (β : Type) := Except LakeError (Option (LakePart β))

/-- `_SAFE_COMPONENT.fullmatch(value)`. -/
def isSafe (value : String) : Bool :=
  value ≠ "" ∧ value.toList.all fun c => c.isAlphanum || c = '_' || c = '.' || c = '-'

/-- `_validate_component` of the raw and the Silver store. -/
def validateComponent (error : String → LakeError) (store value : String) : Except LakeError Unit :=
  lakeCheck (isSafe value) (error ("unsafe " ++ store ++ " partition component: " ++ quoted value))

def fits (bits : ℕ) (n : ℤ) : Bool := -2 ^ (bits - 1) ≤ n ∧ n < 2 ^ (bits - 1)

/-- `pa.Table.from_pylist` raises where an integer does not fit its column. -/
def tableOf {ρ : Type} (integers : ρ → List (ℕ × ℤ)) (write : List ρ → List β) (rows : List ρ) :
    Except LakeError (List β) :=
  if rows.all fun row => (integers row).all fun column => fits column.1 column.2 then
    .ok (write rows)
  else .error (.market .overflowError)

/-! ### Raw parts -/

/-- The exchange, the market, the channel, the symbol and the date. -/
structure RawKey where
  exchange : String
  marketType : String
  channel : String
  symbol : String
  utcDate : String
  deriving DecidableEq

def RawKey.components (key : RawKey) : List String :=
  [key.exchange, key.marketType, key.channel, key.symbol, key.utcDate]

/-- `datetime.fromtimestamp(...).date().isoformat()`, which has no year after 9999. -/
def receiveDate (receiveTsNs : ℤ) : Except LakeError String :=
  let day := receiveTsNs / 1000000000 / 86400
  if (dateOfDays day).year ≤ 9999 then .ok (dateIsoformat day)
  else .error (.market (.valueError ("year " ++ toString (dateOfDays day).year ++ " is out of range")))

def rawKey (event : RawMarketEvent D) : Except LakeError (RawKey × RawMarketEvent D) := do
  let utcDate ← receiveDate event.receiveTsNs
  return (⟨event.exchange, event.marketType, event.channel, event.symbol, utcDate⟩, event)

/-- The order of `(receive_ts_ns, receive_sequence, event_id)`. -/
def rawLe (a b : RawMarketEvent D) : Bool :=
  a.receiveTsNs < b.receiveTsNs ∨ a.receiveTsNs = b.receiveTsNs ∧
    (a.receiveSequence < b.receiveSequence ∨ a.receiveSequence = b.receiveSequence ∧
      a.eventId ≤ b.eventId)

/-- The integers of `RAW_ARROW_SCHEMA`. -/
def rawIntegers (event : RawMarketEvent D) : List (ℕ × ℤ) :=
  [(16, event.schemaVersion), (64, event.exchangeTsMs.getD 0), (64, event.receiveTsNs),
    (64, event.receiveSequence), (64, event.matchingTsMs.getD 0), (64, event.sequence.getD 0),
    (64, event.updateId.getD 0)]

/-- The part of events that are in order. -/
def rawPart (dataDir : String) (key : RawKey) (ordered : List (RawMarketEvent D))
    (eventsSha256 : String) : LakePart β :=
  let first := (ordered.head?.map (·.receiveTsNs)).getD 0
  let last := (ordered.getLast?.map (·.receiveTsNs)).getD 0
  let name : RawPartName :=
    { exchange := key.exchange, marketType := key.marketType, channel := key.channel
      symbol := key.symbol, utcDate := key.utcDate
      minReceiveTsNs := first, maxReceiveTsNs := last, events := short 16 eventsSha256 }
  let exchangeTimestamps := ordered.filterMap (·.exchangeTsMs)
  { name := .raw name
    content := tableOf rawIntegers C.rawParquet ordered
    manifest := fun contentSha256 createdAt => .raw
      { manifestVersion := 1, rawSchemaVersion := rawEventSchemaVersion, partPath := name
        contentSha256, eventsSha256, rowCount := ordered.length
        exchange := key.exchange, marketType := key.marketType, channel := key.channel
        symbol := key.symbol, utcDate := key.utcDate
        minReceiveTsNs := first, maxReceiveTsNs := last
        minExchangeTsMs := exchangeTimestamps.min?, maxExchangeTsMs := exchangeTimestamps.max?
        createdAt }
    same := fun
      | .raw m => m.eventsSha256 = eventsSha256
      | _ => false
    collision := .rawStore ("immutable raw part collision: " ++ dataDir ++ "/" ++ name.path) }

/-- `AtomicRawWriter._write_partition`. -/
def writePartition (dataDir : String) (key : RawKey) (events : List (RawMarketEvent D)) :
    Except LakeError (Option (LakePart β)) := do
  key.components.forM (validateComponent .rawStore "raw")
  let ordered := sorted rawLe events
  let eventsSha256 ← asciiSha256 D (ordered.map (·.eventId))
  return some (rawPart C dataDir key ordered eventsSha256)

/-- `AtomicRawWriter.write`. -/
def writeRaw (dataDir : String) (events : List (RawMarketEvent D)) : List (LakeStep β) :=
  match events.mapM rawKey with
  | .error e => [.error e]
  | .ok keyed =>
    (sorted (fun a b => decide (a.components ≤ b.components)) (keyed.map Prod.fst).dedup).map
      fun key => writePartition C dataDir key ((keyed.filter fun x => x.1 = key).map Prod.snd)

/-! ### Silver parts -/

/-- The order of `(receive_ts_ns, receive_sequence, row_index, normalized_id)`. -/
def silverLe (a b : NormalizedMarketEvent) : Bool :=
  a.receiveTsNs < b.receiveTsNs ∨ a.receiveTsNs = b.receiveTsNs ∧
    (a.receiveSequence < b.receiveSequence ∨ a.receiveSequence = b.receiveSequence ∧
      (a.rowIndex < b.rowIndex ∨ a.rowIndex = b.rowIndex ∧ a.normalizedId ≤ b.normalizedId))

/-- The integers of `NORMALIZED_ARROW_SCHEMA`. -/
def silverIntegers (row : NormalizedMarketEvent) : List (ℕ × ℤ) :=
  [(16, row.schemaVersion), (64, row.eventTsMs), (64, row.receiveTsNs), (64, row.receiveSequence),
    (64, row.sequence.getD 0), (64, row.updateId.getD 0), (32, row.rowIndex),
    (64, row.firstUpdateId.getD 0), (64, row.previousUpdateId.getD 0)]

/-- The only element of a set of one. -/
def only {α : Type} [DecidableEq α] (values : List α) (e : LakeError) : Except LakeError α :=
  match values.dedup with
  | [value] => .ok value
  | _ => .error e

/-- The row and the market stream that it belongs to. -/
def NormalizedMarketEvent.stream (row : NormalizedMarketEvent) : String × String × String × String :=
  (row.exchange, row.marketType, row.channel, row.symbol)

/-- The part of rows that are in order. -/
def silverPart (dataDir : String) (ordered : List NormalizedMarketEvent)
    (stream : String × String × String × String)
    (normalizerVersion sourceEventsSha256 sourcePartPath utcDate idsSha256 : String) :
    LakePart β :=
  let (exchange, marketType, channel, symbol) := stream
  let name : SilverPartName :=
    { normalizer := normalizerVersion, exchange, marketType, channel, symbol, utcDate
      source := short 16 sourceEventsSha256, ids := short 16 idsSha256 }
  { name := .silver name
    content := tableOf silverIntegers C.silverParquet ordered
    manifest := fun contentSha256 createdAt => .silver
      { manifestVersion := 1, normalizedSchemaVersion := normalizedEventSchemaVersion
        normalizerVersion, partPath := name, contentSha256, normalizedIdsSha256 := idsSha256
        sourceEventsSha256, sourcePartPath, rowCount := ordered.length
        exchange, marketType, channel, symbol, utcDate
        minEventTsMs := ((ordered.map (·.eventTsMs)).min?).getD 0
        maxEventTsMs := ((ordered.map (·.eventTsMs)).max?).getD 0
        minReceiveTsNs := (ordered.head?.map (·.receiveTsNs)).getD 0
        maxReceiveTsNs := (ordered.getLast?.map (·.receiveTsNs)).getD 0
        createdAt }
    same := fun
      | .silver m => m.sourceEventsSha256 = sourceEventsSha256 ∧ m.normalizedIdsSha256 = idsSha256
      | _ => false
    collision := .normalizedStore ("immutable Silver part collision: " ++ dataDir ++ "/" ++
      name.path) }

/-- `AtomicNormalizedWriter.write_source_part`, of rows. -/
def writeSilverPart (dataDir : String) (rows : List NormalizedMarketEvent)
    (sourceEventsSha256 sourcePartPath utcDate : String) :
    Except LakeError (Option (LakePart β)) := do
  let ordered := sorted silverLe rows
  let stream ← only (ordered.map NormalizedMarketEvent.stream)
    (.normalizedStore "one Silver part must contain one market stream")
  let ids := ordered.map (·.normalizedId)
  lakeCheck ids.Nodup (.normalizedStore "duplicate normalized IDs in source part")
  let normalizerVersion ← only (ordered.map (·.normalizerVersion))
    (.normalizedStore "one Silver part must use one normalizer version")
  lakeCheck (supportedNormalizerVersions.contains normalizerVersion)
    (.normalizedStore "unsupported normalizer version")
  [stream.1, stream.2.1, stream.2.2.1, stream.2.2.2, utcDate].forM
    (validateComponent .normalizedStore "Silver")
  let idsSha256 ← asciiSha256 D ids
  return some (silverPart C dataDir ordered stream normalizerVersion sourceEventsSha256 sourcePartPath
    utcDate idsSha256)

/-- `AtomicNormalizedWriter.write_source_part`. -/
def writeSourcePart (dataDir : String) (rows : List NormalizedMarketEvent)
    (sourceEventsSha256 sourcePartPath utcDate : String) : LakeStep β :=
  if rows = [] then .ok none
  else writeSilverPart C dataDir rows sourceEventsSha256 sourcePartPath utcDate

/-! ### Gold parts -/

/-- A frame as it is given; the values of a row are in the order of its columns. -/
structure FeatureFrame where
  /-- Whether `timestamp` has a time zone, if the column is there. -/
  timestampAware : Option Bool
  maxSourceAware : Option Bool
  columns : List FeatureColumn
  rows : List FeatureRow

def isSha256 (value : String) : Bool :=
  value.length = 64 ∧ value.toList.all fun c =>
    ('0' ≤ c ∧ c ≤ '9') ∨ ('a' ≤ c ∧ c ≤ 'f')

/-- The value of a column, by its name. -/
def FeatureRow.value (columns : List FeatureColumn) (row : FeatureRow) (name : String) : PyFloat :=
  (((columns.map (·.name)).zip row.values).lookup name).getD .nan

def PyFloat.isFinite : PyFloat → Bool
  | .finite _ => true
  | _ => false

/-- `_prepare_frame`. -/
def prepareFrame (frame : FeatureFrame) (featureSet symbol datasetVersion codeVersion : String) :
    Except LakeError GoldFrame := do
  [featureSet, symbol, codeVersion].forM fun value =>
    lakeCheck (isSafe value) (.featureStore ("unsafe feature identity: " ++ quoted value))
  lakeCheck (isSha256 datasetVersion) (.featureStore "dataset_version must be a SHA-256")
  lakeCheck (frame.timestampAware.isSome ∧ frame.maxSourceAware.isSome)
    (.featureStore "feature frame requires timestamp and max_source_timestamp")
  let columns := sorted (fun a b => decide (a.name ≤ b.name)) frame.columns
  lakeCheck (columns ≠ []) (.featureStore "feature frame contains no feature columns")
  lakeCheck (columns.all fun column => isSafe column.name)
    (.featureStore "unsafe feature column name")
  lakeCheck (frame.timestampAware = some true) (.featureStore "timestamp must be timezone-aware")
  lakeCheck (frame.maxSourceAware = some true)
    (.featureStore "max_source_timestamp must be timezone-aware")
  let rows := sorted (fun a b => decide (a.timestamp ≤ b.timestamp)) (frame.rows.map fun row =>
    { row with values := columns.map fun column => row.value frame.columns column.name })
  lakeCheck (rows.map (·.timestamp)).Nodup (.featureStore "duplicate feature timestamps")
  lakeCheck (rows.all fun row => row.maxSourceTimestamp ≤ row.timestamp)
    (.featureStore "future source timestamp cannot enter Gold")
  columns.forM fun column => do
    lakeCheck column.numeric
      (.featureStore ("feature " ++ quoted column.name ++ " must be numeric"))
    lakeCheck (frame.rows.all fun row => PyFloat.isFinite (row.value frame.columns column.name))
      (.featureStore ("feature " ++ quoted column.name ++ " contains null or non-finite values"))
  return { columns, rows }

/-- `FeatureStore._write_partition`. -/
def writeFeaturePartition (dataDir : String) (frame : GoldFrame)
    (featureSet symbol utcDate datasetVersion codeVersion : String) :
    LakePart β :=
  let rowsSha256 := frameChecksum C frame
  let name : GoldPartName :=
    { featureSet, symbol, utcDate, dataset := short 16 datasetVersion
      code := short 12 codeVersion, rows := short 16 rowsSha256 }
  { name := .gold name
    content := .ok (C.goldParquet frame)
    manifest := fun contentSha256 createdAt => .gold
      { manifestVersion := 1, featureStoreVersion := 1, partPath := name, contentSha256, rowsSha256
        schemaSha256 := schemaChecksum D frame, featureSet, symbol, utcDate, datasetVersion
        codeVersion, rowCount := frame.rows.length
        featureColumns := frame.columns.map (·.name)
        minFeatureTsNs := ((frame.rows.map (·.timestamp)).min?).getD 0
        maxFeatureTsNs := ((frame.rows.map (·.timestamp)).max?).getD 0
        maxSourceTsNs := ((frame.rows.map (·.maxSourceTimestamp)).max?).getD 0
        createdAt }
    same := fun
      | .gold m => m.rowsSha256 = rowsSha256
      | _ => false
    collision := .featureStore ("immutable Gold part collision: " ++ dataDir ++ "/" ++ name.path) }

/-- The UTC day of a timestamp in nanoseconds. -/
def dayOfNs (ts : ℤ) : ℤ := ts / 86400000000000

/-- `FeatureStore.write`. -/
def writeFeatures (dataDir : String) (frame : FeatureFrame)
    (featureSet symbol datasetVersion codeVersion : String) : List (LakeStep β) :=
  match prepareFrame frame featureSet symbol datasetVersion codeVersion with
  | .error e => [.error e]
  | .ok prepared =>
    let dates := (prepared.rows.map fun row => dateIsoformat (dayOfNs row.timestamp)).dedup
    (sorted (fun a b => decide (a ≤ b)) dates).map fun utcDate =>
      .ok (some (writeFeaturePartition C dataDir
        { prepared with rows := prepared.rows.filter fun row =>
            dateIsoformat (dayOfNs row.timestamp) = utcDate }
        featureSet symbol utcDate datasetVersion codeVersion))

/-! ## From Bronze to Silver -/

structure Selection where
  exchange : Option String
  marketType : Option String
  channel : Option String
  symbol : Option String
  utcDate : Option String

/-- A value that a filter lets through. -/
def Selection.has (filter : Option String) (value : String) : Bool :=
  match filter with
  | none => true
  | some wanted => wanted = value

/-- The path matches the pattern, and so does the manifest. -/
def Selection.matches (s : Selection) (exchange marketType channel symbol utcDate : String) : Bool :=
  has s.exchange exchange && has s.marketType marketType && has s.channel channel &&
    has s.symbol symbol && has s.utcDate utcDate

/-- `discover_manifests`. -/
def discoverManifests (source : Lake LakeName β) (s : Selection) :
    Except LakeError (List RawPartManifest) := do
  ([s.exchange, s.marketType, s.channel, s.symbol, s.utcDate].filterMap id).forM
    (validateComponent .rawStore "raw")
  let names := source.paths.filterMap fun
    | .manifest (.raw n) =>
      if s.matches n.exchange n.marketType n.channel n.symbol n.utcDate then some n else none
    | _ => none
  let manifests ← (sorted (fun a b => decide (a.components ≤ b.components)) names).mapM fun n =>
    RawPartManifest.fromJson C ((source.read (.manifest (.raw n))).getD [])
  return manifests.filter fun m => s.matches m.exchange m.marketType m.channel m.symbol m.utcDate

/-- `verify_raw_part` and `read_raw_part`. -/
def readVerifiedPart (source : Lake LakeName β) (manifest : RawPartManifest) :
    Except LakeError (List (RawMarketEvent D)) := do
  match source.read (.part (.raw manifest.partPath)) with
  | none => .error (.rawStore ("raw part is missing: " ++ manifest.partPath.path))
  | some content =>
    verifyRawPart C manifest content
    C.readRaw content

/-- A normalizer of a venue; the counts of its report are left out. -/
abbrev Normalizer (D : Digests) :=
  List (RawMarketEvent D) → Except LakeError (List NormalizedMarketEvent)

/-- `_require_free_space`. -/
def requireFreeSpace (minimumFreeBytes free : ℤ) : Except LakeError Unit :=
  lakeCheck (minimumFreeBytes = 0 ∨ minimumFreeBytes < free)
    (.runtimeError "Silver normalization stopped at free-space reserve")

/-- `normalize_raw_lake`; `free i` is the free space at its check `i`. -/
def normalizeRawLake (normalizers : String → Option (Normalizer D)) (source : Lake LakeName β)
    (dataDir exchange marketType : String) (symbol channel utcDate : Option String)
    (minimumFreeBytes : ℤ) (free : ℕ → ℤ) : List (LakeStep β) :=
  let start : Except LakeError (Normalizer D × List RawPartManifest) := do
    lakeCheck (0 ≤ minimumFreeBytes)
      (.market (.valueError "minimum_free_bytes must be non-negative"))
    requireFreeSpace minimumFreeBytes (free 0)
    match normalizers exchange with
    | none => .error (.market (.valueError ("no registered normalizer for exchange: " ++
        quoted exchange)))
    | some normalizeEvents =>
      let manifests ← discoverManifests C source
        { exchange := some exchange, marketType := some marketType, symbol, channel, utcDate }
      return (normalizeEvents, manifests)
  match start with
  | .error e => [.error e]
  | .ok (normalizeEvents, manifests) =>
    manifests.zipIdx.map fun (manifest, i) => show Except LakeError (Option (LakePart β)) from do
      requireFreeSpace minimumFreeBytes (free (2 * i + 1))
      let events ← readVerifiedPart C source manifest
      let rows ← normalizeEvents events
      requireFreeSpace minimumFreeBytes (free (2 * i + 2))
      writeSourcePart C dataDir rows manifest.eventsSha256 manifest.partPath.path manifest.utcDate

end Greenfield.Data
