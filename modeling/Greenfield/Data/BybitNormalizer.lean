import Greenfield.Data.CoinbaseReplay
import Greenfield.Data.NormalizedEvent

/-!
# The Bybit normalizer

`normalize_bybit_event` of `src/data/normalized_event.py`. The rows of an order-book message are
its bids and then its asks (`orderbook_rows`); a message without levels has no rows.
-/

namespace Greenfield.Data

open Py

/-- The values that `_build_event` is given. -/
structure RowValues where
  recordType : String
  eventTsMs : ℤ
  side : Option String := none
  price : Option ℚ := none
  size : Option ℚ := none
  tradeId : Option String := none
  tickDirection : Option String := none
  isBlockTrade : Option Bool := none
  isRpiTrade : Option Bool := none
  bookSide : Option String := none
  bookAction : Option String := none
  metricName : Option String := none
  metricValue : Option String := none

variable {D : Digests} (F : Floats) (T : Texts)

/-- `_mapping`. -/
def mapping (value : PyJson) (name : String) : Except MarketError (List (String × PyJson)) :=
  match value with
  | .obj items => .ok items
  | _ => .error (.normalization (name ++ " must be an object"))

/-- The items of a list, if all are dictionaries. -/
def mappings : List PyJson → Option (List (List (String × PyJson)))
  | [] => some []
  | .obj items :: rest => (mappings rest).map (items :: ·)
  | _ :: _ => none

/-- `_list_of_mappings`. -/
def listOfMappings (value : PyJson) (name : String) :
    Except MarketError (List (List (String × PyJson))) :=
  match value with
  | .arr elems =>
    match mappings elems with
    | some entries => .ok entries
    | none => .error (.normalization (name ++ " must be a list of objects"))
  | _ => .error (.normalization (name ++ " must be a list of objects"))

/-- `_decimal_text`. -/
def decimalText (value : PyJson) (positive : Bool) (name : String) : Except MarketError ℚ :=
  match T.decimal (T.str value) with
  | some (.finite number) =>
    if number < 0 ∨ (positive = true ∧ number ≤ 0) then
      .error (.normalization ("invalid " ++ name ++ ": " ++ T.repr value))
    else .ok number
  | _ => .error (.normalization ("invalid " ++ name ++ ": " ++ T.repr value))

/-- `_positive_int`. -/
def positiveInt (value : PyJson) (name : String) : Except MarketError ℤ :=
  let invalid := MarketError.normalization ("invalid " ++ name ++ ": " ++ T.repr value)
  match value with
  | .bool _ => .error invalid
  | value =>
    match orRaise (pyInt T value) invalid with
    | .error e => .error e
    | .ok result => if result ≤ 0 then .error invalid else .ok result

/-- `_required_text`. -/
def requiredText (value : PyJson) (name : String) : Except MarketError String :=
  let result := T.str (orElse value (.str ""))
  if result = "" then .error (.normalization (name ++ " is required")) else .ok result

/-- `_side`. -/
def sideText (value : PyJson) : Except MarketError String :=
  match requiredText T value "side" with
  | .error e => .error e
  | .ok text =>
    let side := lowerAscii text
    if side = "buy" ∨ side = "sell" then .ok side
    else .error (.normalization ("invalid side: " ++ T.repr value))

/-- `_optional_text`. -/
def optionalText : PyJson → Option String
  | .null => none
  | value => some (T.str value)

/-- `_optional_bool`. -/
def optionalBool : PyJson → Except MarketError (Option Bool)
  | .null => .ok none
  | .bool b => .ok (some b)
  | value => .error (.normalization ("expected boolean, received " ++ T.repr value))

/-! ## The channels -/

/-- The record of a level. -/
def levelRecord (eventTsMs : ℤ) (bookSide : String) (level : ℚ × ℚ) : RowValues :=
  { recordType := "book_level", eventTsMs, bookSide := some bookSide
    bookAction := some (if level.2 = 0 then "delete" else "upsert")
    price := some level.1, size := some level.2 }

/-- A level of `_normalize_orderbook`. -/
def levelValues (eventTsMs : ℤ) (bookSide : String) (level : PyJson) :
    Except MarketError RowValues :=
  match level with
  | .arr [first, second] => do
    let price ← decimalText T first true "price"
    let size ← decimalText T second false "size"
    pure (levelRecord eventTsMs bookSide (price, size))
  | _ => .error (.normalization ("invalid orderbook level: " ++ T.repr level))

/-- The levels of one field. -/
def fieldValues (eventTsMs : ℤ) (bookSide field : String) (levels : PyJson) :
    Except MarketError (List RowValues) :=
  match levels with
  | .arr levels => levels.mapM (levelValues T eventTsMs bookSide)
  | _ => .error (.normalization ("orderbook " ++ field ++ " must be a list"))

/-- `event.matching_ts_ms or event.exchange_ts_ms`. -/
def bookTsMs (e : RawFields) : Option ℤ :=
  if e.matchingTsMs = none ∨ e.matchingTsMs = some 0 then e.exchangeTsMs else e.matchingTsMs

/-- `_normalize_orderbook`. -/
def normalizeOrderbook (e : RawFields) (message : List (String × PyJson)) :
    Except MarketError (List RowValues) :=
  match mapping (item message "data") "orderbook data" with
  | .error err => .error err
  | .ok data =>
    let messageType := T.str ((Json.get message "type").getD (.str ""))
    if messageType ≠ "snapshot" ∧ messageType ≠ "delta" then
      .error (.normalization ("invalid orderbook message type: " ++ T.repr (.str messageType)))
    else
      match bookTsMs e with
      | none => .error (.normalization "orderbook event timestamp is missing")
      | some eventTsMs => do
        let bids ← fieldValues T eventTsMs "bid" "b" (item data "b")
        let asks ← fieldValues T eventTsMs "ask" "a" (item data "a")
        pure (bids ++ asks)

/-- An entry of `_normalize_trades`. -/
def tradeValues (entry : List (String × PyJson)) : Except MarketError RowValues := do
  let side ← sideText T (item entry "S")
  let eventTsMs ← positiveInt T (item entry "T") "trade timestamp"
  let price ← decimalText T (item entry "p") true "price"
  let size ← decimalText T (item entry "v") true "size"
  let tradeId ← requiredText T (item entry "i") "trade id"
  let isBlockTrade ← optionalBool T (item entry "BT")
  let isRpiTrade ← optionalBool T (item entry "RPI")
  pure
    { recordType := "trade", eventTsMs, side := some side, price := some price, size := some size
      tradeId := some tradeId, tickDirection := optionalText T (item entry "L")
      isBlockTrade, isRpiTrade }

/-- `_normalize_trades`. -/
def normalizeTrades (message : List (String × PyJson)) : Except MarketError (List RowValues) :=
  match listOfMappings (item message "data") "trade data" with
  | .error err => .error err
  | .ok entries => entries.mapM (tradeValues T)

/-- An entry of `_normalize_liquidations`. -/
def liquidationValues (entry : List (String × PyJson)) : Except MarketError RowValues := do
  let eventTsMs ← positiveInt T (item entry "T") "liquidation timestamp"
  let side ← sideText T (item entry "S")
  let price ← decimalText T (item entry "p") true "price"
  let size ← decimalText T (item entry "v") true "size"
  pure
    { recordType := "liquidation", eventTsMs, side := some side, price := some price
      size := some size }

/-- `_normalize_liquidations`. -/
def normalizeLiquidations (message : List (String × PyJson)) :
    Except MarketError (List RowValues) :=
  match listOfMappings (item message "data") "liquidation data" with
  | .error err => .error err
  | .ok entries => entries.mapM (liquidationValues T)

/-- `_stable_value`, with the text of a value that is no string. -/
def stableValue (dumps : PyJson → String) : PyJson → String
  | .str text => text
  | value => dumps value

/-- `_normalize_ticker`. -/
def normalizeTicker (dumps : PyJson → String) (e : RawFields)
    (message : List (String × PyJson)) : Except MarketError (List RowValues) :=
  match mapping (item message "data") "ticker data" with
  | .error err => .error err
  | .ok data =>
    match e.exchangeTsMs with
    | none => .error (.normalization "ticker event timestamp is missing")
    | some eventTsMs =>
      .ok ((data.filter fun entry => entry.1 ≠ "s" ∧ entry.1 ≠ "symbol").map fun entry =>
        { recordType := "ticker_metric", eventTsMs, metricName := some entry.1
          metricValue := some (stableValue dumps entry.2) })

/-! ## The rows of an event -/

/-- The text whose SHA-256 is the id of a row. -/
def normalizedIdText (eventId : String) (rowIndex : ℕ) : String :=
  normalizerVersion ++ "|" ++ eventId ++ "|" ++ toString rowIndex

/-- The fields of a row. -/
def rowFields (D : Digests) (raw : RawFields) (rowIndex : ℕ) (values : RowValues) :
    NormalizedFields where
  schemaVersion := normalizedEventSchemaVersion
  normalizerVersion := Data.normalizerVersion
  normalizedId := D.sha256Hex (normalizedIdText raw.eventId rowIndex)
  rawEventId := raw.eventId
  rawPayloadSha256 := raw.payloadSha256
  exchange := raw.exchange
  marketType := raw.marketType
  channel := raw.channel
  recordType := values.recordType
  symbol := raw.symbol
  eventTsMs := values.eventTsMs
  receiveTsNs := raw.receiveTsNs
  receiveSequence := raw.receiveSequence
  connectionId := raw.connectionId
  messageType := raw.messageType
  sequence := raw.sequence
  updateId := raw.updateId
  rowIndex := rowIndex
  side := values.side
  price := values.price
  size := values.size
  tradeId := values.tradeId
  tickDirection := values.tickDirection
  isBlockTrade := values.isBlockTrade
  isRpiTrade := values.isRpiTrade
  bookSide := values.bookSide
  bookAction := values.bookAction
  metricName := values.metricName
  metricValue := values.metricValue

/-- `_build_event`. -/
def buildEvent (raw : RawMarketEvent D) (values : RowValues) (rowIndex : ℕ) :
    Except MarketError NormalizedMarketEvent :=
  if isAscii raw.eventId then (rowFields D raw.toRawFields rowIndex values).checked
  else .error (.valueError "'ascii' codec can't encode the event id")

/-- The records of a message, by its channel. -/
def channelValues (dumps : PyJson → String) (e : RawFields) (message : List (String × PyJson)) :
    Except MarketError (List RowValues) :=
  if e.channel = "orderbook" then normalizeOrderbook T e message
  else if e.channel = "trades" then normalizeTrades T message
  else if e.channel = "liquidations" then normalizeLiquidations T message
  else normalizeTicker dumps e message

/-- `normalize_bybit_event`. -/
def normalizeBybitEvent (dumps : PyJson → String) (e : RawMarketEvent D) :
    Except MarketError (List NormalizedMarketEvent) :=
  if e.exchange ≠ "bybit" then
    .error (.normalization ("expected Bybit event, received " ++ T.repr (.str e.exchange)))
  else if e.channel = "control" then .ok []
  else if e.channel ∉ normalizedChannels then
    .error (.normalization ("unsupported Bybit channel: " ++ T.repr (.str e.channel)))
  else do
    let message ← e.payload F
    let records ← channelValues T dumps e.toRawFields message
    records.zipIdx.mapM fun record => buildEvent e record.1 record.2

/-! ## The rows of an order-book message -/

variable {F T} {dumps : PyJson → String} {e : RawMarketEvent D}

theorem checked_row {r : NormalizedFields} {row : NormalizedMarketEvent}
    (h : r.checked = .ok row) : row.toNormalizedFields = r := by
  unfold NormalizedFields.checked at h
  split_ifs at h
  cases h
  rfl

theorem row_checked (row : NormalizedMarketEvent) : row.toNormalizedFields.checked = .ok row := by
  unfold NormalizedFields.checked
  rw [dif_pos row.version, dif_pos row.normalizer, dif_pos row.known, dif_pos row.timestamps,
    dif_pos row.indexed, dif_pos row.lineage]

variable {values : RowValues} {rowIndex : ℕ}

theorem buildEvent_fields {row : NormalizedMarketEvent}
    (h : buildEvent e values rowIndex = .ok row) :
    row.toNormalizedFields = rowFields D e.toRawFields rowIndex values := by
  unfold buildEvent at h
  split_ifs at h
  exact checked_row h

/-- The fields of all rows of an event. -/
theorem built_fields {records : List RowValues} {rows : List NormalizedMarketEvent}
    (h : (records.zipIdx.mapM fun record => buildEvent e record.1 record.2) = .ok rows) :
    rows.map (·.toNormalizedFields) =
      records.zipIdx.map fun record => rowFields D e.toRawFields record.2 record.1 :=
  map_of_mapM (fun _ _ => buildEvent_fields) h

/-- An event whose rows the constructor accepts. -/
structure Buildable (e : RawMarketEvent D) : Prop where
  hex : D.Hex
  ascii : isAscii e.eventId = true
  identified : e.eventId ≠ ""
  channel : e.channel ∈ normalizedChannels

theorem sha256Hex_ne (h : D.Hex) (text : String) : D.sha256Hex text ≠ "" := by
  intro hempty
  have hlength := h.length text
  simp [hempty] at hlength

theorem payloadSha256_ne (h : D.Hex) : e.payloadSha256 ≠ "" := by
  rw [← e.hashed]
  exact sha256Hex_ne h _

/-- A row of such an event. -/
def Buildable.row (h : Buildable e) (values : RowValues) (rowIndex : ℕ)
    (hts : 0 < values.eventTsMs) : NormalizedMarketEvent where
  toNormalizedFields := rowFields D e.toRawFields rowIndex values
  version := rfl
  normalizer := normalizerVersion_supported
  known := h.channel
  timestamps := ⟨hts, e.received⟩
  indexed := Int.natCast_nonneg rowIndex
  lineage := ⟨sha256Hex_ne h.hex _, h.identified, payloadSha256_ne h.hex⟩

theorem Buildable.build (h : Buildable e)
    (hts : 0 < values.eventTsMs) :
    buildEvent e values rowIndex = .ok (h.row values rowIndex hts) := by
  unfold buildEvent
  rw [if_pos h.ascii]
  exact row_checked (h.row values rowIndex hts)

/-- The rows of the records of an event. -/
def Buildable.rows (h : Buildable e) (eventTsMs : ℤ) (hts : 0 < eventTsMs)
    (records : List (String × ℚ × ℚ)) : List NormalizedMarketEvent :=
  records.zipIdx.map fun record =>
    h.row (levelRecord eventTsMs record.1.1 record.1.2) record.2 hts

variable {eventTsMs : ℤ}

theorem Buildable.build_rows (h : Buildable e) (hts : 0 < eventTsMs)
    (records : List (String × ℚ × ℚ)) :
    ((records.map fun r => levelRecord eventTsMs r.1 r.2).zipIdx.mapM fun record =>
      buildEvent e record.1 record.2) = .ok (h.rows eventTsMs hts records) := by
  rw [List.zipIdx_map, List.mapM_map]
  have hbuild : ((fun record : RowValues × ℕ => buildEvent e record.1 record.2) ∘
      Prod.map (fun r : String × ℚ × ℚ => levelRecord eventTsMs r.1 r.2) id) =
      fun record => .ok (h.row (levelRecord eventTsMs record.1.1 record.1.2) record.2 hts) :=
    funext fun record => h.build hts
  rw [hbuild]
  exact List.mapM_pure

theorem decimalText_eq_ok {value : PyJson} {positive : Bool} {name : String} {number : ℚ}
    (h : decimalText T value positive name = .ok number) : 0 ≤ number := by
  unfold decimalText at h
  split at h
  · split_ifs at h with hbad
    cases h
    exact not_lt.mp fun hlt => hbad (.inl hlt)
  · cases h

theorem levelValues_eq_ok {bookSide : String} {level : PyJson} {v : RowValues}
    (h : levelValues T eventTsMs bookSide level = .ok v) :
    ∃ l : ℚ × ℚ, 0 ≤ l.2 ∧ v = levelRecord eventTsMs bookSide l := by
  unfold levelValues at h
  split at h
  · obtain ⟨price, -, h⟩ := bind_eq_ok.mp h
    obtain ⟨size, hsize, h⟩ := bind_eq_ok.mp h
    cases h
    exact ⟨(price, size), decimalText_eq_ok hsize, rfl⟩
  · cases h

variable {vs : List RowValues}

theorem fieldValues_eq_ok {bookSide field : String} {levels : PyJson}
    (h : fieldValues T eventTsMs bookSide field levels = .ok vs) :
    ∀ v ∈ vs, ∃ l : ℚ × ℚ, 0 ≤ l.2 ∧ v = levelRecord eventTsMs bookSide l := by
  unfold fieldValues at h
  split at h
  · exact forall_of_mapM (fun _ _ => levelValues_eq_ok) h
  · cases h

theorem normalizeOrderbook_eq_ok {r : RawFields} {message : List (String × PyJson)}
    (h : normalizeOrderbook T r message = .ok vs) :
    ∃ eventTsMs, ∀ v ∈ vs, ∃ bookSide, ∃ l : ℚ × ℚ, (bookSide = "bid" ∨ bookSide = "ask") ∧
      0 ≤ l.2 ∧ v = levelRecord eventTsMs bookSide l := by
  unfold normalizeOrderbook at h
  split at h
  · cases h
  · dsimp only at h
    split at h
    · cases h
    · split at h
      · cases h
      · next eventTsMs _ =>
        obtain ⟨bids, hbids, h⟩ := bind_eq_ok.mp h
        obtain ⟨asks, hasks, h⟩ := bind_eq_ok.mp h
        cases h
        refine ⟨eventTsMs, fun v hv => ?_⟩
        rcases List.mem_append.mp hv with hv | hv
        · obtain ⟨l, hl, hv⟩ := fieldValues_eq_ok hbids v hv
          exact ⟨"bid", l, .inl rfl, hl, hv⟩
        · obtain ⟨l, hl, hv⟩ := fieldValues_eq_ok hasks v hv
          exact ⟨"ask", l, .inr rfl, hl, hv⟩

/-- **The rows** of an order-book message have the fields of its levels. -/
theorem orderbook_rows {rows : List NormalizedMarketEvent}
    (h : normalizeBybitEvent F T dumps e = .ok rows) (hchannel : e.channel = "orderbook") :
    ∀ row ∈ rows, ∃ rowIndex eventTsMs bookSide, ∃ l : ℚ × ℚ,
      (bookSide = "bid" ∨ bookSide = "ask") ∧ 0 ≤ l.2 ∧ row.toNormalizedFields =
        rowFields D e.toRawFields rowIndex (levelRecord eventTsMs bookSide l) := by
  unfold normalizeBybitEvent at h
  split_ifs at h with _ hcontrol
  · exact absurd (hchannel.symm.trans hcontrol) (by decide)
  · obtain ⟨message, -, h⟩ := bind_eq_ok.mp h
    obtain ⟨values, hvalues, h⟩ := bind_eq_ok.mp h
    unfold channelValues at hvalues
    rw [if_pos hchannel] at hvalues
    obtain ⟨eventTsMs, hlevels⟩ := normalizeOrderbook_eq_ok hvalues
    intro row hrow
    have hmem := List.mem_map_of_mem (f := NormalizedMarketEvent.toNormalizedFields) hrow
    rw [built_fields h] at hmem
    obtain ⟨⟨v, rowIndex⟩, hv, hfields⟩ := List.mem_map.mp hmem
    have hvalue : v ∈ values := by
      have hfst := List.mem_map_of_mem (f := Prod.fst) hv
      rwa [List.zipIdx_map_fst] at hfst
    obtain ⟨bookSide, l, hside, hl, rfl⟩ := hlevels v hvalue
    exact ⟨rowIndex, eventTsMs, bookSide, l, hside, hl, hfields.symm⟩

end Greenfield.Data
