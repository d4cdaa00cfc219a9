import Greenfield.Data.BybitCollector
import Greenfield.Data.BybitReplay

/-!
# Messages of the Bybit collector

`handle_raw_message` of `src/data/bybit_raw_collector.py`, with the interpreter's `json.loads` and
`encode` as parameters. Every exception class of the envelope and of the live books is caught but
those of three kinds: what `json.loads` raises beyond `JSONDecodeError`, `int` of an infinite number
and `encode` of a lone surrogate. Without them each message is queued, or the collector fails closed
(`handleRawMessage_handled_iff`).
-/

namespace Greenfield.Data

open Py

inductive LoadsError where
  | decode
  /-- `ValueError`: more digits than the interpreter reads. -/
  | tooManyDigits
  | recursion
  deriving DecidableEq

/-- What the interpreter does with texts. -/
structure Interpreter where
  loads : String → Except LoadsError PyJson
  /-- `text.encode("utf-8")` does not raise: there is no lone surrogate. -/
  encodes : String → Bool
  /-- The text of the `UnicodeDecodeError`. -/
  decodeError : ByteArray → String

inductive Raised where
  | market (e : MarketError)
  | loads (e : LoadsError)
  | unicodeEncode
  | keyError (key : String)
  deriving DecidableEq

/-- `str(exc)`. -/
def Raised.text : Raised → String
  | .market (.typeError msg) => msg
  | .market (.valueError msg) => msg
  | .market (.rawEvent msg) => msg
  | .market (.replay msg) => msg
  | .market (.snapshotRequired msg) => msg
  | .market (.sequenceGap msg) => msg
  | .market (.sequenceRegression msg) => msg
  | .market (.invalidOrderBook msg) => msg
  | .keyError key => quoted key
  | _ => ""

/-- `ReplayError`. -/
def MarketError.isReplay : MarketError → Bool
  | .replay _ => true
  | .snapshotRequired _ => true
  | .sequenceGap _ => true
  | .sequenceRegression _ => true
  | .sequenceDuplicate _ => true
  | .sequenceRollback _ => true
  | .invalidOrderBook _ => true
  | _ => false

/-- `(ReplayError, KeyError)`. -/
def Raised.isCaught : Raised → Bool
  | .market e => e.isReplay
  | .keyError _ => true
  | _ => false

variable {D : Digests} (I : Interpreter) (T : Texts)

/-! ## The envelope -/

/-- `topic`. -/
def topicOf (message : List (String × PyJson)) : String :=
  T.str ((Json.get message "topic").getD (.str ""))

structure Metadata where
  sequence : Option ℤ
  updateId : Option ℤ
  exchangeTsMs : Option ℤ
  matchingTsMs : Option ℤ

/-- The integers of a message. -/
def readMetadata (message : List (String × PyJson)) : Except MarketError Metadata := do
  let firstData := firstMapping (item message "data")
  let crossSequence ← optionalInt T (item message "cs")
  let sequence ← (if crossSequence = none then optionalInt T (item firstData "seq")
    else pure crossSequence)
  let updateId ← optionalInt T (item firstData "u")
  let exchangeTsMs ← optionalInt T (item message "ts")
  let matchingTsMs ← optionalInt T (item message "cts")
  return ⟨sequence, updateId, exchangeTsMs, matchingTsMs⟩

/-- The fields of the event; its id is made of them. -/
def envelopeFields (D : Digests) (message : List (String × PyJson)) (integers : Metadata)
    (payloadText : String) (receiveTsNs : ℤ) (connectionId marketType : String)
    (receiveSequence : ℤ) : RawFields :=
  let fields : RawFields :=
    { schemaVersion := rawEventSchemaVersion
      ingestionVersion := rawIngestionVersion
      eventId := ""
      exchange := "bybit"
      marketType
      channel := bybitChannel (topicOf T message)
      topic := topicOf T message
      symbol := bybitSymbol T (topicOf T message) (firstMapping (item message "data"))
      messageType := T.str (orElse (orElse (item message "type") (item message "op"))
        (.str "control"))
      exchangeTsMs := integers.exchangeTsMs
      receiveTsNs
      receiveSequence
      matchingTsMs := integers.matchingTsMs
      sequence := integers.sequence
      updateId := integers.updateId
      connectionId
      payloadSha256 := D.sha256Hex payloadText
      payloadText }
  { fields with eventId := D.sha256Hex (identityText fields) }

/-- `parse_bybit_message` of an object. Of its identity only the topic may have a surrogate. -/
def envelope (message : List (String × PyJson)) (payloadText : String) (receiveTsNs : ℤ)
    (connectionId marketType : String) (receiveSequence : ℤ) : Except Raised (RawMarketEvent D) :=
  match readMetadata T message with
  | .error e => .error (.market e)
  | .ok integers =>
    if !I.encodes payloadText || !I.encodes (topicOf T message) then .error .unicodeEncode
    else
      (RawFields.checked D (envelopeFields T D message integers payloadText receiveTsNs connectionId
        marketType receiveSequence)).mapError .market

/-- `parse_bybit_message`. -/
def parseMessage (payloadText : String) (receiveTsNs : ℤ) (connectionId marketType : String)
    (receiveSequence : ℤ) : Except Raised (RawMarketEvent D) :=
  match I.loads payloadText with
  | .error .decode => .error (.market (.rawEvent "Bybit WebSocket payload is not valid JSON"))
  | .error e => .error (.loads e)
  | .ok (.obj message) =>
    envelope I T message payloadText receiveTsNs connectionId marketType receiveSequence
  | .ok _ => .error (.market (.rawEvent "Bybit WebSocket payload must be a JSON object"))

/-- An interpreter without limits, of texts without lone surrogates. -/
def plainInterpreter (F : Floats) : Interpreter where
  loads text :=
    match Json.loads F text with
    | none => .error .decode
    | some value => .ok value
  encodes _ := true
  decodeError _ := ""

/-! ## The collector -/

/-- The health record, with what is counted of events. -/
structure MessageHealth extends CollectorHealth where
  channelCounts : String → ℕ := fun _ => 0
  eventsReceived : ℕ := 0
  lastEventReceiveTsNs : Option ℤ := none

def MessageHealth.apply (h : MessageHealth) (op : HealthOp) : MessageHealth :=
  { h with toCollectorHealth := op.apply h.toCollectorHealth }

/-- `record_event`. -/
def MessageHealth.recordEvent (h : MessageHealth) (event : RawMarketEvent D) : MessageHealth :=
  let key := event.channel ++ ":" ++ event.symbol
  { h with
    channelCounts := Function.update h.channelCounts key (h.channelCounts key + 1)
    eventsReceived := h.eventsReceived + 1
    lastEventReceiveTsNs := some event.receiveTsNs }

/-- What a message meets. -/
structure RawBybitCollector (D : Digests) where
  marketType : String
  queueCapacity : ℕ
  queue : List (RawMarketEvent D) := []
  connectionId : String := ""
  connectionEventCount : ℕ := 0
  receiveSequence : ℕ := 0
  books : String → Option BybitOrderBook := fun _ => none
  tickers : String → Option BybitTickerState := fun _ => none
  sequenceUncertain : Bool := false
  health : MessageHealth := {}
  /-- The health file. -/
  published : Option MessageHealth := none
  shutdown : Bool := false
  writerFailed : Bool := false
  /-- The active WebSocket is open. -/
  wsOpen : Bool := true

inductive WsPayload where
  | bytes (data : ByteArray)
  | text (text : String)

/-- `payload.decode("utf-8", errors="strict")`. -/
def WsPayload.decode : WsPayload → Option String
  | .bytes data => String.fromUTF8? data
  | .text value => some value

/-- `payload`, of an event. -/
def readPayload (event : RawMarketEvent D) : Except Raised (List (String × PyJson)) :=
  match I.loads event.payloadText with
  | .error .decode => .error (.market .jsonDecodeError)
  | .error e => .error (.loads e)
  | .ok (.obj message) => .ok message
  | .ok _ => .error (.market (.rawEvent "raw market payload must be a JSON object"))

/-- `BybitOrderBook.apply_event`. -/
def BybitOrderBook.applyLive (b : BybitOrderBook) (event : RawMarketEvent D) :
    Except Raised Unit × BybitOrderBook :=
  if event.exchange ≠ "bybit" ∨ event.channel ≠ "orderbook" then
    (.error (.market (.replay "BybitOrderBook accepts only Bybit orderbook events")), b)
  else if event.symbol ≠ b.symbol then
    (.error (.market (.replay ("book " ++ b.symbol ++ " cannot accept event for " ++ event.symbol))), b)
  else
    match readPayload I event with
    | .error e => (.error e, b)
    | .ok message => ((b.applyMessage T message).1.mapError .market, (b.applyMessage T message).2)

/-- `BybitTickerState.apply_event`. -/
def BybitTickerState.applyLive (t : BybitTickerState) (event : RawMarketEvent D) :
    Except Raised Unit × BybitTickerState :=
  if event.exchange ≠ "bybit" ∨ event.channel ≠ "ticker" then
    (.error (.market (.replay "BybitTickerState accepts only Bybit ticker events")), t)
  else if event.symbol ≠ t.symbol then
    (.error (.market (.replay ("ticker " ++ t.symbol ++ " cannot accept event for " ++ event.symbol))), t)
  else
    match readPayload I event with
    | .error e => (.error e, t)
    | .ok message => ((t.applyMessage T message).1.mapError .market, (t.applyMessage T message).2)

namespace RawBybitCollector

/-- `_publish_health`; `written` says that the file can be written. -/
def publishHealth (s : RawBybitCollector D) (written : Bool) : RawBybitCollector D :=
  if written then { s with published := some s.health }
  else { s with writerFailed := true, shutdown := true }

/-- `_fail_closed`. -/
def failClosed (s : RawBybitCollector D) (written : Bool) (reason : String) : RawBybitCollector D :=
  { ({ s with health := s.health.apply (.recordDrop reason) } : RawBybitCollector D).publishHealth
      written with
    shutdown := true
    wsOpen := false }

/-- The event is put on the queue. -/
def enqueue (s : RawBybitCollector D) (event : RawMarketEvent D) : RawBybitCollector D :=
  { s with
    queue := s.queue ++ [event]
    connectionEventCount := s.connectionEventCount + 1
    health := s.health.recordEvent event }

/-- The handler of `ReplayError` and `KeyError`. -/
def recordUncertainty (s : RawBybitCollector D) (written : Bool) (reason : String) :
    RawBybitCollector D :=
  { ({ s with
        sequenceUncertain := true
        health := s.health.apply (.recordSequenceUncertainty reason) } :
      RawBybitCollector D).publishHealth written with
    wsOpen := false }

/-- The live book or ticker of an event. -/
def applyEvent (s : RawBybitCollector D) (event : RawMarketEvent D) :
    Except Raised Unit × RawBybitCollector D :=
  if event.channel = "orderbook" then
    match s.books event.symbol with
    | none => (.error (.keyError event.symbol), s)
    | some book => ((book.applyLive I T event).1,
        { s with books := Function.update s.books event.symbol (some (book.applyLive I T event).2) })
  else if event.channel = "ticker" then
    match s.tickers event.symbol with
    | none => (.error (.keyError event.symbol), s)
    | some ticker => ((ticker.applyLive I T event).1,
        { s with
          tickers := Function.update s.tickers event.symbol (some (ticker.applyLive I T event).2) })
  else (.ok (), s)

/-- `handle_raw_message` of a queued event. -/
def validate (s : RawBybitCollector D) (event : RawMarketEvent D) (written : Bool) :
    Except Raised Unit × RawBybitCollector D :=
  if s.sequenceUncertain then (.ok (), s)
  else
    match s.applyEvent I T event with
    | (.ok (), s) => (.ok (), s)
    | (.error e, s) =>
      if e.isCaught then
        (.ok (), s.recordUncertainty written
          ("sequence uncertainty requires reconnect: " ++ e.text))
      else (.error e, s)

/-- `handle_raw_message` at the time `receiveTsNs`. -/
def handleRawMessage (s : RawBybitCollector D) (payload : WsPayload) (receiveTsNs : ℤ)
    (written : Bool) : Except Raised Unit × RawBybitCollector D :=
  match payload.decode with
  | none =>
    let reason := match payload with
      | .bytes data => I.decodeError data
      | .text _ => ""
    (.ok (), s.failClosed written ("non-UTF-8 WebSocket message: " ++ reason))
  | some payloadText =>
    let s := { s with receiveSequence := s.receiveSequence + 1 }
    match parseMessage I T payloadText receiveTsNs s.connectionId s.marketType s.receiveSequence with
    | .error (.market (.rawEvent msg)) =>
      (.ok (), s.failClosed written ("raw message could not be enveloped: " ++ msg))
    | .error e => (.error e, s)
    | .ok event =>
      if s.queueCapacity ≤ s.queue.length then
        (.ok (), s.failClosed written "raw event queue is full; collector stopped before silent loss")
      else (s.enqueue event).validate I T event written

end RawBybitCollector

/-! ## Integers that are infinite -/

def isInfinite : PyJson → Bool
  | .float (.infinite _) => true
  | _ => false

variable {I T}

theorem pyInt_cases (value : PyJson) : (isInfinite value = true ∧ pyInt T value = .error .overflowError) ∨
    isInfinite value = false ∧ ((∃ n, pyInt T value = .ok n) ∨
      (∃ msg, pyInt T value = .error (.typeError msg)) ∨
        ∃ msg, pyInt T value = .error (.valueError msg)) := by
  unfold pyInt isInfinite
  cases value with
  | float x =>
    cases x with
    | finite q => exact .inr ⟨rfl, .inl ⟨_, rfl⟩⟩
    | infinite neg => exact .inl ⟨rfl, rfl⟩
    | nan => exact .inr ⟨rfl, .inr (.inr ⟨_, rfl⟩)⟩
  | str text =>
    refine .inr ⟨rfl, ?_⟩
    dsimp only
    cases T.int text with
    | none => exact .inr (.inr ⟨_, rfl⟩)
    | some n => exact .inl ⟨n, rfl⟩
  | int n => exact .inr ⟨rfl, .inl ⟨n, rfl⟩⟩
  | bool b => exact .inr ⟨rfl, .inl ⟨_, rfl⟩⟩
  | null => exact .inr ⟨rfl, .inr (.inl ⟨_, rfl⟩)⟩
  | arr values => exact .inr ⟨rfl, .inr (.inl ⟨_, rfl⟩)⟩
  | obj items => exact .inr ⟨rfl, .inr (.inl ⟨_, rfl⟩)⟩

/-- An exception of `int` that is caught, and one that is not. -/
theorem orRaise_pyInt (value : PyJson) (e : MarketError) :
    (isInfinite value = true ∧ orRaise (pyInt T value) e = .error .overflowError) ∨
      isInfinite value = false ∧ ((∃ n, orRaise (pyInt T value) e = .ok n) ∨
        orRaise (pyInt T value) e = .error e) := by
  rcases pyInt_cases (T := T) value with ⟨h, hint⟩ | ⟨h, ⟨n, hint⟩ | ⟨msg, hint⟩ | ⟨msg, hint⟩⟩
  all_goals rw [hint]
  · exact .inl ⟨h, rfl⟩
  · exact .inr ⟨h, .inl ⟨n, rfl⟩⟩
  · exact .inr ⟨h, .inr rfl⟩
  · exact .inr ⟨h, .inr rfl⟩

theorem optionalInt_cases (value : PyJson) :
    (isInfinite value = true ∧ optionalInt T value = .error .overflowError) ∨
      isInfinite value = false ∧ ((∃ n, optionalInt T value = .ok n) ∨
        ∃ msg, optionalInt T value = .error (.rawEvent msg)) := by
  unfold optionalInt
  split
  · exact .inr ⟨rfl, .inl ⟨_, rfl⟩⟩
  · exact .inr ⟨rfl, .inl ⟨_, rfl⟩⟩
  · rcases orRaise_pyInt (T := T) value (.rawEvent ("expected integer metadata, received " ++ T.repr value))
      with ⟨h, hint⟩ | ⟨h, ⟨n, hint⟩ | hint⟩
    all_goals rw [hint]
    · exact .inl ⟨h, rfl⟩
    · exact .inr ⟨h, .inl ⟨some n, rfl⟩⟩
    · exact .inr ⟨h, .inr ⟨_, rfl⟩⟩

theorem requiredInt_cases (value : PyJson) (name : String) :
    (isInfinite value = true ∧ requiredInt T value name = .error .overflowError) ∨
      isInfinite value = false ∧ ((∃ n, requiredInt T value name = .ok n) ∨
        ∃ msg, requiredInt T value name = .error (.replay msg)) := by
  unfold requiredInt
  split
  · exact .inr ⟨rfl, .inr ⟨_, rfl⟩⟩
  · exact .inr ⟨rfl, .inr ⟨_, rfl⟩⟩
  · rcases orRaise_pyInt (T := T) value (.replay ("invalid integer " ++ name ++ ": " ++ T.repr value))
      with ⟨h, hint⟩ | ⟨h, ⟨n, hint⟩ | hint⟩
    all_goals rw [hint]
    · exact .inl ⟨h, rfl⟩
    · exact .inr ⟨h, .inl ⟨n, rfl⟩⟩
    · exact .inr ⟨h, .inr ⟨_, rfl⟩⟩

/-- The value is an integer, or there is none. -/
def readsInt (T : Texts) (value : PyJson) : Bool := (optionalInt T value).toOption.isSome

/-- The first that is no integer is infinite. -/
def overflows (T : Texts) : List PyJson → Bool
  | [] => false
  | value :: rest => isInfinite value || readsInt T value && overflows T rest

/-- What the integers of a message are read from, in this order. -/
def metadataFields (T : Texts) (message : List (String × PyJson)) : List PyJson :=
  let firstData := firstMapping (item message "data")
  item message "cs" ::
    (if optionalInt T (item message "cs") = .ok none then [item firstData "seq"] else []) ++
      [item firstData "u", item message "ts", item message "cts"]

theorem mapM_optionalInt : ∀ values : List PyJson,
    (overflows T values = true ∧ values.mapM (optionalInt T) = .error .overflowError) ∨
      overflows T values = false ∧
        ((values.all (readsInt T) = true ∧ ∃ ns, values.mapM (optionalInt T) = .ok ns) ∨
          values.all (readsInt T) = false ∧ ∃ msg, values.mapM (optionalInt T) = .error (.rawEvent msg))
  | [] => .inr ⟨rfl, .inl ⟨rfl, [], rfl⟩⟩
  | value :: rest => by
    rw [List.mapM_cons, List.all_cons]
    unfold overflows readsInt
    rcases optionalInt_cases (T := T) value with ⟨h, hint⟩ | ⟨h, ⟨n, hint⟩ | ⟨msg, hint⟩⟩
    all_goals rw [h, hint]
    · exact .inl ⟨rfl, rfl⟩
    · rcases mapM_optionalInt rest with ⟨ho, hr⟩ | ⟨ho, ⟨ha, ns, hr⟩ | ⟨ha, msg, hr⟩⟩
      all_goals rw [ho, hr]
      · exact .inl ⟨rfl, rfl⟩
      · exact .inr ⟨rfl, .inl ⟨ha, n :: ns, rfl⟩⟩
      · exact .inr ⟨rfl, .inr ⟨ha, msg, rfl⟩⟩
    · exact .inr ⟨rfl, .inr ⟨rfl, msg, rfl⟩⟩

/-- The integers of a message are read one after the other. -/
theorem readMetadata_eq (message : List (String × PyJson)) :
    (readMetadata T message).map (fun _ => ()) =
      ((metadataFields T message).mapM (optionalInt T)).map fun _ => () := by
  unfold readMetadata metadataFields
  dsimp only
  rw [List.cons_append, List.mapM_cons]
  generalize item (firstMapping (item message "data")) "seq" = seq
  generalize item (firstMapping (item message "data")) "u" = u
  generalize item message "ts" = ts
  generalize item message "cts" = cts
  have hlast : ∀ sequence : Option ℤ, (do
      let updateId ← optionalInt T u
      let exchangeTsMs ← optionalInt T ts
      let matchingTsMs ← optionalInt T cts
      return ⟨sequence, updateId, exchangeTsMs, matchingTsMs⟩ : Except MarketError Metadata).map
        (fun _ => ()) = ([u, ts, cts].mapM (optionalInt T)).map fun _ => () := by
    intro sequence
    rw [List.mapM_cons, List.mapM_cons, List.mapM_cons, List.mapM_nil]
    cases optionalInt T u with
    | error e => rfl
    | ok updateId =>
      cases optionalInt T ts with
      | error e => rfl
      | ok exchangeTsMs =>
        cases optionalInt T cts with
        | error e => rfl
        | ok matchingTsMs => rfl
  have hcons : ∀ {n : Option ℤ} {rest : Except MarketError (List (Option ℤ))},
      (do let ns ← rest; return n :: ns : Except MarketError (List (Option ℤ))).map (fun _ => ()) =
        rest.map fun _ => () := by
    intro n rest
    cases rest with
    | error e => rfl
    | ok ns => rfl
  cases optionalInt T (item message "cs") with
  | error e => rfl
  | ok crossSequence =>
    cases crossSequence with
    | some n => exact (hlast (some n)).trans hcons.symm
    | none =>
      rw [if_pos rfl, List.singleton_append, List.mapM_cons]
      cases optionalInt T seq with
      | error e => rfl
      | ok sequence => exact (hlast sequence).trans (hcons.symm.trans hcons.symm)

/-- Results that agree on whether they raise, and what. -/
theorem outcome_of_map {ε α γ : Type} {x : Except ε α} {y : Except ε γ}
    (h : x.map (fun _ => ()) = y.map fun _ => ()) :
    (∀ e, y = .error e → x = .error e) ∧ ∀ b, y = .ok b → ∃ a, x = .ok a := by
  constructor
  · rintro e rfl
    cases x with
    | error e' => exact congrArg Except.error (Except.error.inj h)
    | ok a => cases h
  · rintro b rfl
    cases x with
    | error e => cases h
    | ok a => exact ⟨a, rfl⟩

theorem readMetadata_cases (message : List (String × PyJson)) :
    (overflows T (metadataFields T message) = true ∧
      readMetadata T message = .error .overflowError) ∨
    overflows T (metadataFields T message) = false ∧
      (((metadataFields T message).all (readsInt T) = true ∧ ∃ m, readMetadata T message = .ok m) ∨
        (metadataFields T message).all (readsInt T) = false ∧
          ∃ msg, readMetadata T message = .error (.rawEvent msg)) := by
  obtain ⟨herror, hok⟩ := outcome_of_map (readMetadata_eq (T := T) message)
  rcases mapM_optionalInt (T := T) (metadataFields T message) with
    ⟨ho, hr⟩ | ⟨ho, ⟨ha, ns, hr⟩ | ⟨ha, msg, hr⟩⟩
  · exact .inl ⟨ho, herror _ hr⟩
  · exact .inr ⟨ho, .inl ⟨ha, hok ns hr⟩⟩
  · exact .inr ⟨ho, .inr ⟨ha, msg, herror _ hr⟩⟩

/-! ## What the envelope does -/

/-- The symbol of a message. -/
def symbolOf (T : Texts) (message : List (String × PyJson)) : String :=
  bybitSymbol T (topicOf T message) (firstMapping (item message "data"))

/-- The message can be encoded. -/
def Encodes (I : Interpreter) (T : Texts) (payloadText : String)
    (message : List (String × PyJson)) : Prop :=
  I.encodes payloadText = true ∧ I.encodes (topicOf T message) = true

/-- The envelope raises what is not caught. -/
def Unparsed (I : Interpreter) (T : Texts) (payloadText : String) : Prop :=
  I.loads payloadText = .error .tooManyDigits ∨ I.loads payloadText = .error .recursion ∨
    ∃ message, I.loads payloadText = .ok (.obj message) ∧
      (overflows T (metadataFields T message) = true ∨
        (metadataFields T message).all (readsInt T) = true ∧ ¬ Encodes I T payloadText message)

/-- The event is the envelope of the message. -/
structure IsEnvelope (T : Texts) (message : List (String × PyJson)) (payloadText : String)
    (receiveSequence : ℤ) (event : RawMarketEvent D) : Prop where
  payloadText_eq : event.payloadText = payloadText
  receiveSequence_eq : event.receiveSequence = receiveSequence
  exchange : event.exchange = "bybit"
  channel : event.channel = bybitChannel (topicOf T message)
  symbol : event.symbol = symbolOf T message

theorem checked_cases {r : RawFields} (hversion : r.schemaVersion = rawEventSchemaVersion)
    (hhash : D.sha256Hex r.payloadText = r.payloadSha256) :
    ((0 < r.receiveTsNs ∧ 0 < r.receiveSequence ∧ r.connectionId ≠ "") ∧
      ∃ e, RawFields.checked D r = .ok e ∧ e.toRawFields = r) ∨
    ¬ (0 < r.receiveTsNs ∧ 0 < r.receiveSequence ∧ r.connectionId ≠ "") ∧
      ∃ msg, RawFields.checked D r = .error (.rawEvent msg) := by
  unfold RawFields.checked
  simp only [dif_pos hversion]
  split
  · next hreceived =>
    split
    · next hnumbered =>
      split
      · next hconnected => exact .inl ⟨⟨hreceived, hnumbered, hconnected⟩, _, rfl, rfl⟩
      · next h => exact .inr ⟨fun hall => h hall.2.2, _, rfl⟩
    · next h => exact .inr ⟨fun hall => h hall.2.1, _, rfl⟩
  · next h => exact .inr ⟨fun hall => h hall.1, _, rfl⟩

variable {receiveSequence : ℤ}

/-- The envelope of an object. -/
theorem envelope_cases (message : List (String × PyJson)) (payloadText : String) (receiveTsNs : ℤ)
    (connectionId marketType : String) (hsequence : 0 < receiveSequence) :
    (∃ event, envelope (D := D) I T message payloadText receiveTsNs connectionId marketType
          receiveSequence = .ok event ∧
        (0 < receiveTsNs ∧ connectionId ≠ "") ∧ overflows T (metadataFields T message) = false ∧
        (metadataFields T message).all (readsInt T) = true ∧ Encodes I T payloadText message ∧
        IsEnvelope T message payloadText receiveSequence event) ∨
    (∃ msg, envelope (D := D) I T message payloadText receiveTsNs connectionId marketType
          receiveSequence = .error (.market (.rawEvent msg)) ∧
        overflows T (metadataFields T message) = false ∧
        ((metadataFields T message).all (readsInt T) = true →
          Encodes I T payloadText message ∧ ¬ (0 < receiveTsNs ∧ connectionId ≠ ""))) ∨
    ∃ e, envelope (D := D) I T message payloadText receiveTsNs connectionId marketType
          receiveSequence = .error e ∧ (∀ msg, e ≠ .market (.rawEvent msg)) ∧
        (overflows T (metadataFields T message) = true ∨
          (metadataFields T message).all (readsInt T) = true ∧
            ¬ Encodes I T payloadText message) := by
  unfold envelope
  rcases readMetadata_cases (T := T) message with ⟨ho, hr⟩ | ⟨ho, ⟨ha, m, hr⟩ | ⟨ha, msg, hr⟩⟩
  all_goals rw [hr]
  · exact .inr (.inr ⟨_, rfl, fun msg => by simp, .inl ho⟩)
  · dsimp only
    split
    · next hnot =>
      refine .inr (.inr ⟨_, rfl, fun msg => by simp, .inr ⟨ha, fun ⟨hp, ht⟩ => ?_⟩⟩)
      rw [hp, ht] at hnot
      exact absurd hnot Bool.false_ne_true
    · next hnot =>
      have hencodes : Encodes I T payloadText message := by
        simpa [Encodes] using hnot
      have hchecked := checked_cases (D := D) (r := envelopeFields T D message m payloadText
        receiveTsNs connectionId marketType receiveSequence) rfl rfl
      rcases hchecked with ⟨hall, event, hok, hfields⟩ | ⟨hall, msg, herror⟩
      · rw [hok]
        refine .inl ⟨event, rfl, ⟨hall.1, hall.2.2⟩, ho, ha, hencodes, ?_⟩
        exact ⟨congrArg RawFields.payloadText hfields, congrArg RawFields.receiveSequence hfields,
          congrArg RawFields.exchange hfields, congrArg RawFields.channel hfields,
          congrArg RawFields.symbol hfields⟩
      · rw [herror]
        exact .inr (.inl ⟨msg, rfl, ho, fun _ => ⟨hencodes, fun h => hall ⟨h.1, hsequence, h.2⟩⟩⟩)
  · exact .inr (.inl ⟨msg, rfl, ho, fun h => absurd (ha.symm.trans h) Bool.false_ne_true⟩)

/-- **The envelope.** A message is enveloped, refused, or raises what is not caught. -/
theorem parseMessage_cases (payloadText : String) (receiveTsNs : ℤ) (connectionId marketType : String)
    (hsequence : 0 < receiveSequence) :
    (∃ event message, parseMessage (D := D) I T payloadText receiveTsNs connectionId marketType
          receiveSequence = .ok event ∧
        I.loads payloadText = .ok (.obj message) ∧ (0 < receiveTsNs ∧ connectionId ≠ "") ∧
        (metadataFields T message).all (readsInt T) = true ∧
        ¬ Unparsed I T payloadText ∧ IsEnvelope T message payloadText receiveSequence event) ∨
    (∃ msg, parseMessage (D := D) I T payloadText receiveTsNs connectionId marketType receiveSequence =
        .error (.market (.rawEvent msg)) ∧ ¬ Unparsed I T payloadText ∧
      ∀ message, I.loads payloadText = .ok (.obj message) →
        (metadataFields T message).all (readsInt T) = true → ¬ (0 < receiveTsNs ∧ connectionId ≠ "")) ∨
    ∃ e, parseMessage (D := D) I T payloadText receiveTsNs connectionId marketType receiveSequence =
        .error e ∧ (∀ msg, e ≠ .market (.rawEvent msg)) ∧ Unparsed I T payloadText := by
  unfold parseMessage Unparsed
  cases hloads : I.loads payloadText with
  | error e =>
    cases e with
    | decode => exact .inr (.inl ⟨_, rfl, by simp, by simp⟩)
    | tooManyDigits => exact .inr (.inr ⟨_, rfl, by simp, .inl rfl⟩)
    | recursion => exact .inr (.inr ⟨_, rfl, by simp, .inr (.inl rfl)⟩)
  | ok value =>
    cases value with
    | obj message =>
      have hsame : ∀ message', (.ok (.obj message) : Except LoadsError PyJson) = .ok (.obj message') →
          message' = message := by
        rintro _ ⟨⟩
        rfl
      rcases envelope_cases (D := D) (I := I) (T := T) message payloadText receiveTsNs connectionId
        marketType hsequence with
        ⟨event, henvelope, hwhen, ho, ha, hencodes, hevent⟩ | ⟨msg, henvelope, ho, hrest⟩ |
          ⟨e, henvelope, hne, hraises⟩
      · refine .inl ⟨event, message, henvelope, rfl, hwhen, ha, ?_, hevent⟩
        rintro (h | h | ⟨message', h, hnot⟩)
        · cases h
        · cases h
        · cases hsame message' h
          rcases hnot with hnot | ⟨-, hnot⟩
          · exact absurd (ho.symm.trans hnot) Bool.false_ne_true
          · exact hnot hencodes
      · refine .inr (.inl ⟨msg, henvelope, ?_, fun message' h ha => ?_⟩)
        · rintro (h | h | ⟨message', h, hnot⟩)
          · cases h
          · cases h
          · cases hsame message' h
            rcases hnot with hnot | ⟨ha, hnot⟩
            · exact absurd (ho.symm.trans hnot) Bool.false_ne_true
            · exact hnot (hrest ha).1
        · cases hsame message' h
          exact (hrest ha).2
      · exact .inr (.inr ⟨e, henvelope, hne, .inr (.inr ⟨message, rfl, hraises⟩)⟩)
    | null => exact .inr (.inl ⟨_, rfl, by simp, by simp⟩)
    | bool b => exact .inr (.inl ⟨_, rfl, by simp, by simp⟩)
    | int n => exact .inr (.inl ⟨_, rfl, by simp, by simp⟩)
    | float x => exact .inr (.inl ⟨_, rfl, by simp, by simp⟩)
    | str text => exact .inr (.inl ⟨_, rfl, by simp, by simp⟩)
    | arr values => exact .inr (.inl ⟨_, rfl, by simp, by simp⟩)

/-! ## What the live books do -/

/-- The sequence is what the book cannot read of a message that was enveloped. -/
def bookOverflows (T : Texts) (message : List (String × PyJson)) : Bool :=
  match item message "data" with
  | .obj data => (requiredInt T (item data "u") "u").toOption.isSome && isInfinite (item data "seq")
  | _ => false

variable {value : PyJson}

theorem not_infinite_of_readsInt (h : readsInt T value = true) :
    isInfinite value = false := by
  rcases optionalInt_cases (T := T) value with ⟨-, hint⟩ | ⟨hnot, -⟩
  · unfold readsInt at h
    rw [hint] at h
    cases h
  · exact hnot

variable {e : MarketError}

theorem readLevels_error {fits : ℕ → Bool} {name : String}
    (h : readLevels T fits name value = .error e) : e.isReplay = true := by
  have hlevel : ∀ {level : PyJson}, readLevel T fits name level = .error e → e.isReplay = true := by
    intro level h
    unfold readLevel at h
    split at h
    · split at h
      · split at h
        · split at h
          · cases h
          · cases h
            rfl
        · cases h
          rfl
        · cases h
          rfl
      · cases h
        rfl
    · cases h
      rfl
  unfold readLevels at h
  split at h
  · next levels =>
    induction levels with
    | nil => cases h
    | cons level rest ih =>
      rw [List.mapM_cons] at h
      rcases bind_eq_error.mp h with h | ⟨l, -, h⟩
      · exact hlevel h
      · rcases bind_eq_error.mp h with h | ⟨ls, -, h⟩
        · exact ih h
        · cases h
  · cases h
    rfl

theorem applyRead_error {b : BybitOrderBook} {m : BybitBookMessage}
    (h : (b.applyRead T m).1 = .error e) : e.isReplay = true := by
  have hvalidate : ∀ {symbol : String} {sides : Sides} {e' : MarketError},
      validateBook T symbol sides = .error e' → e'.isReplay = true := by
    intro symbol sides e' h
    unfold validateBook at h
    split at h
    · split at h
      · cases h
        rfl
      · cases h
    · cases h
      rfl
  unfold BybitOrderBook.applyRead at h
  split at h
  · dsimp only at h
    split at h
    · next hinvalid =>
      cases h
      exact hvalidate hinvalid
    · cases h
  · split at h
    · cases h
      rfl
    · split at h
      · dsimp only at h
        split at h
        · cases h
          rfl
        · split at h
          · cases h
            rfl
          · split at h
            · cases h
              rfl
            · split at h
              · next hinvalid =>
                cases h
                exact hvalidate hinvalid
              · cases h
      · cases h
        rfl

variable {message : List (String × PyJson)}

theorem bookMessage_cases (b : BybitOrderBook)
    (hu : ∀ data, item message "data" = .obj data → isInfinite (item data "u") = false) :
    (bookOverflows T message = true ∧ (b.applyMessage T message).1 = .error .overflowError) ∨
      bookOverflows T message = false ∧
        ∀ e, (b.applyMessage T message).1 = .error e → e.isReplay = true := by
  rcases Classical.em (∃ data, item message "data" = .obj data) with ⟨data, hdata⟩ | hdata
  · unfold BybitOrderBook.applyMessage readBybitMessage bookOverflows
    simp only [hdata]
    rcases requiredInt_cases (T := T) (item data "u") "u" with ⟨h, -⟩ | ⟨-, ⟨n, hint⟩ | ⟨msg, hint⟩⟩
    · exact absurd ((hu data hdata).symm.trans h) Bool.false_ne_true
    · rw [hint]
      rcases requiredInt_cases (T := T) (item data "seq") "seq" with
        ⟨h, hseq⟩ | ⟨h, ⟨n', hseq⟩ | ⟨msg, hseq⟩⟩
      all_goals rw [h, hseq]
      · exact .inl ⟨rfl, rfl⟩
      · refine .inr ⟨rfl, ?_⟩
        simp only [bind, Except.bind]
        cases hbids : readLevels T (· = 2) "b" (item data "b") with
        | error e' =>
          rintro e ⟨⟩
          exact readLevels_error hbids
        | ok bids =>
          cases hasks : readLevels T (· = 2) "a" (item data "a") with
          | error e' =>
            rintro e ⟨⟩
            exact readLevels_error hasks
          | ok asks => exact fun e he => applyRead_error he
      · refine .inr ⟨rfl, ?_⟩
        rintro e ⟨⟩
        rfl
    · rw [hint]
      refine .inr ⟨rfl, ?_⟩
      rintro e ⟨⟩
      rfl
  · have hseq : bookOverflows T message = false := by
      unfold bookOverflows
      split
      · next data hobj => exact absurd ⟨data, hobj⟩ hdata
      · rfl
    have hread : readBybitMessage T b.symbol message =
        .error (.replay (b.symbol ++ " order-book data must be an object")) := by
      unfold readBybitMessage
      split
      · next data hobj => exact absurd ⟨data, hobj⟩ hdata
      · rfl
    refine .inr ⟨hseq, ?_⟩
    unfold BybitOrderBook.applyMessage
    rw [hread]
    rintro e ⟨⟩
    rfl

theorem tickerMessage_error {t : BybitTickerState}
    (hcs : isInfinite (item message "cs") = false)
    (h : (t.applyMessage T message).1 = .error e) : e.isReplay = true := by
  unfold BybitTickerState.applyMessage at h
  split at h
  · rcases requiredInt_cases (T := T) (item message "cs") "cs" with
      ⟨hinf, -⟩ | ⟨-, ⟨n, hint⟩ | ⟨msg, hint⟩⟩
    · exact absurd (hcs.symm.trans hinf) Bool.false_ne_true
    · rw [hint] at h
      dsimp only at h
      split at h
      · cases h
      · split at h
        · cases h
          rfl
        · split at h
          · split at h
            · cases h
              rfl
            · cases h
          · cases h
            rfl
    · rw [hint] at h
      cases h
      rfl
  · cases h
    rfl

section Live

variable {message : List (String × PyJson)} {payloadText : String} {receiveSequence : ℤ}
  {event : RawMarketEvent D}

/-- The payload of an event is what its envelope was made of. -/
theorem IsEnvelope.payload (h : IsEnvelope T message payloadText receiveSequence event)
    (hloads : I.loads payloadText = .ok (.obj message)) : readPayload I event = .ok message := by
  unfold readPayload
  rw [h.payloadText_eq, hloads]

/-- The live book of the message raises what is not caught. -/
def RaisesLive (T : Texts) (s : RawBybitCollector D) (message : List (String × PyJson)) : Prop :=
  bybitChannel (topicOf T message) = "orderbook" ∧
    (∃ b, s.books (symbolOf T message) = some b ∧ b.symbol = symbolOf T message) ∧
      bookOverflows T message = true

variable {e : Raised}

theorem mapError_eq_error {α : Type} {x : Except MarketError α}
    (h : x.mapError .market = .error e) : ∃ e', x = .error e' ∧ e = .market e' := by
  cases x with
  | error e' => exact ⟨e', rfl, (Except.error.inj h).symm⟩
  | ok a => cases h

theorem bookLive_cases (h : IsEnvelope T message payloadText receiveSequence event)
    (hloads : I.loads payloadText = .ok (.obj message))
    (hread : (metadataFields T message).all (readsInt T) = true)
    (hchannel : event.channel = "orderbook") (b : BybitOrderBook) :
    ((b.symbol = symbolOf T message ∧ bookOverflows T message = true) ∧
        (b.applyLive I T event).1 = .error (.market .overflowError)) ∨
      ¬ (b.symbol = symbolOf T message ∧ bookOverflows T message = true) ∧
        ∀ e, (b.applyLive I T event).1 = .error e → e.isCaught = true := by
  have hu : ∀ data, item message "data" = .obj data → isInfinite (item data "u") = false := by
    intro data hdata
    refine not_infinite_of_readsInt (T := T) (List.all_eq_true.mp hread _ ?_)
    unfold metadataFields
    rw [hdata]
    exact List.mem_append_right _ List.mem_cons_self
  unfold BybitOrderBook.applyLive
  rw [if_neg (by simp [h.exchange, hchannel]), h.payload hloads, h.symbol]
  split
  · next hsymbol =>
    refine .inr ⟨fun hall => hsymbol hall.1.symm, ?_⟩
    rintro e ⟨⟩
    rfl
  · next hsymbol =>
    have hsymbol : symbolOf T message = b.symbol := not_not.mp hsymbol
    dsimp only
    rcases bookMessage_cases (T := T) b hu with ⟨ho, herror⟩ | ⟨ho, herror⟩
    · rw [herror]
      exact .inl ⟨⟨hsymbol.symm, ho⟩, rfl⟩
    · refine .inr ⟨fun hall => absurd (ho.symm.trans hall.2) Bool.false_ne_true, fun e he => ?_⟩
      obtain ⟨e', he', rfl⟩ := mapError_eq_error he
      exact herror e' he'

theorem tickerLive_error (h : IsEnvelope T message payloadText receiveSequence event)
    (hloads : I.loads payloadText = .ok (.obj message))
    (hread : (metadataFields T message).all (readsInt T) = true) {t : BybitTickerState}
    (he : (t.applyLive I T event).1 = .error e) : e.isCaught = true := by
  have hcs : isInfinite (item message "cs") = false := by
    refine not_infinite_of_readsInt (T := T) (List.all_eq_true.mp hread _ ?_)
    exact List.mem_cons_self
  unfold BybitTickerState.applyLive at he
  rw [h.payload hloads] at he
  split at he
  · cases he
    rfl
  · split at he
    · cases he
      rfl
    · obtain ⟨e', he', rfl⟩ := mapError_eq_error he
      exact tickerMessage_error hcs he'

/-- **The live state** raises only what is caught, but for an infinite sequence. -/
theorem applyEvent_live (h : IsEnvelope T message payloadText receiveSequence event)
    (hloads : I.loads payloadText = .ok (.obj message))
    (hread : (metadataFields T message).all (readsInt T) = true) (s : RawBybitCollector D) :
    (RaisesLive T s message ∧ (s.applyEvent I T event).1 = .error (.market .overflowError)) ∨
      ¬ RaisesLive T s message ∧
        ∀ e, (s.applyEvent I T event).1 = .error e → e.isCaught = true := by
  unfold RawBybitCollector.applyEvent
  split
  · next hchannel =>
    have htopic : bybitChannel (topicOf T message) = "orderbook" := h.channel.symm.trans hchannel
    rw [h.symbol]
    cases hbook : s.books (symbolOf T message) with
    | none =>
      refine .inr ⟨?_, ?_⟩
      · rintro ⟨-, ⟨b, hb, -⟩, -⟩
        rw [hbook] at hb
        cases hb
      · rintro e ⟨⟩
        rfl
    | some b =>
      rcases bookLive_cases h hloads hread hchannel b with ⟨⟨hsymbol, ho⟩, herror⟩ | ⟨hnot, herror⟩
      · exact .inl ⟨⟨htopic, ⟨b, hbook, hsymbol⟩, ho⟩, herror⟩
      · refine .inr ⟨?_, herror⟩
        rintro ⟨-, ⟨b', hb', hsymbol⟩, ho⟩
        rw [hbook] at hb'
        cases hb'
        exact hnot ⟨hsymbol, ho⟩
  · next hchannel =>
    refine .inr ⟨fun hall => hchannel (h.channel.trans hall.1), ?_⟩
    split
    · split
      · rintro e ⟨⟩
        rfl
      · exact fun e he => tickerLive_error h hloads hread he
    · rintro e ⟨⟩

end Live

/-! ## Every message -/

/-- The event of the payload is put on the queue under the next number. -/
def QueuedAs (s s' : RawBybitCollector D) (payload : WsPayload) (event : RawMarketEvent D) : Prop :=
  payload.decode = some event.payloadText ∧ event.receiveSequence = s.receiveSequence + 1 ∧
    s'.queue = s.queue ++ [event]

/-- A drop is recorded and the shutdown is requested. -/
def FailedClosed (s s' : RawBybitCollector D) : Prop :=
  s'.health.droppedEventCount = s.health.droppedEventCount + 1 ∧ s'.shutdown = true

/-- The live book or ticker of the event, if there is to be one, has taken it. -/
def Applied (I : Interpreter) (T : Texts) (s s' : RawBybitCollector D) (event : RawMarketEvent D) :
    Prop :=
  (event.channel = "orderbook" → ∃ b, s.books event.symbol = some b ∧
    (b.applyLive I T event).1 = .ok () ∧ s'.books event.symbol = some (b.applyLive I T event).2) ∧
  (event.channel = "ticker" → ∃ t, s.tickers event.symbol = some t ∧
    (t.applyLive I T event).1 = .ok () ∧ s'.tickers event.symbol = some (t.applyLive I T event).2)

/-- Sequence uncertainty was recorded before, or is now. -/
def Uncertain (s s' : RawBybitCollector D) : Prop :=
  s'.sequenceUncertain = true ∧ (s.sequenceUncertain = true ∨
    s'.health.sequenceUncertaintyCount = s.health.sequenceUncertaintyCount + 1)

/-- The call returns, and the message is neither lost nor left unapplied in silence. -/
structure Handled (I : Interpreter) (T : Texts) (s : RawBybitCollector D) (payload : WsPayload)
    (result : Except Raised Unit × RawBybitCollector D) : Prop where
  returns : result.1 = .ok ()
  kept : Xor (∃ event, QueuedAs s result.2 payload event) (FailedClosed s result.2)
  applied : ∀ event, QueuedAs s result.2 payload event →
    Applied I T s result.2 event ∨ Uncertain s result.2

/-- The message raises what nothing catches. -/
def Escapes (I : Interpreter) (T : Texts) (s : RawBybitCollector D) (payload : WsPayload)
    (receiveTsNs : ℤ) : Prop :=
  ∃ payloadText, payload.decode = some payloadText ∧
    (Unparsed I T payloadText ∨ ∃ message, I.loads payloadText = .ok (.obj message) ∧
      (metadataFields T message).all (readsInt T) = true ∧ (0 < receiveTsNs ∧ s.connectionId ≠ "") ∧
        s.queue.length < s.queueCapacity ∧ s.sequenceUncertain = false ∧ RaisesLive T s message)

theorem publishHealth_fields (s : RawBybitCollector D) (written : Bool) :
    (s.publishHealth written).queue = s.queue ∧ (s.publishHealth written).health = s.health ∧
      (s.publishHealth written).sequenceUncertain = s.sequenceUncertain := by
  cases written with
  | true => exact ⟨rfl, rfl, rfl⟩
  | false => exact ⟨rfl, rfl, rfl⟩

variable {s s' : RawBybitCollector D}

/-- A call that fails closed. -/
theorem failClosed_handled (hqueue : s'.queue = s.queue)
    (hhealth : s'.health = s.health) (payload : WsPayload) (written : Bool) (reason : String) :
    Handled I T s payload (.ok (), s'.failClosed written reason) := by
  obtain ⟨hqueue', hhealth', -⟩ := publishHealth_fields
    ({ s' with health := s'.health.apply (.recordDrop reason) } : RawBybitCollector D) written
  have hnot : ∀ event, ¬ QueuedAs s (s'.failClosed written reason) payload event := by
    rintro event ⟨-, -, hput⟩
    have hlength := congrArg List.length (hqueue'.symm.trans hput)
    rw [hqueue, List.length_append, List.length_singleton] at hlength
    omega
  refine ⟨rfl, .inr ⟨⟨?_, rfl⟩, fun ⟨event, h⟩ => hnot event h⟩, fun event h => absurd h (hnot event)⟩
  have hdropped : (s'.failClosed written reason).health.droppedEventCount =
      s'.health.droppedEventCount + 1 := congrArg (·.droppedEventCount) hhealth'
  rw [hdropped, hhealth]

theorem applyEvent_fields (s : RawBybitCollector D) (event : RawMarketEvent D) :
    (s.applyEvent I T event).2.queue = s.queue ∧ (s.applyEvent I T event).2.health = s.health ∧
      (s.applyEvent I T event).2.sequenceUncertain = s.sequenceUncertain := by
  unfold RawBybitCollector.applyEvent
  split
  · split
    · exact ⟨rfl, rfl, rfl⟩
    · exact ⟨rfl, rfl, rfl⟩
  · split
    · split
      · exact ⟨rfl, rfl, rfl⟩
      · exact ⟨rfl, rfl, rfl⟩
    · exact ⟨rfl, rfl, rfl⟩

variable {event : RawMarketEvent D}

theorem applyEvent_applied {s : RawBybitCollector D}
    (h : (s.applyEvent I T event).1 = .ok ()) : Applied I T s (s.applyEvent I T event).2 event := by
  unfold RawBybitCollector.applyEvent at h ⊢
  split at h
  · next hchannel =>
    rw [if_pos hchannel]
    split at h
    · cases h
    · next book hbook =>
      refine ⟨fun _ => ⟨book, hbook, h, Function.update_self ..⟩, fun hticker => ?_⟩
      rw [hchannel] at hticker
      exact absurd hticker (by decide +kernel)
  · next hchannel =>
    rw [if_neg hchannel]
    refine ⟨fun hbook => absurd hbook hchannel, fun hticker => ?_⟩
    rw [if_pos hticker] at h ⊢
    split at h
    · cases h
    · next ticker hstate => exact ⟨ticker, hstate, h, Function.update_self ..⟩

/-- What is queued is validated, unless an exception is not caught. -/
theorem validate_cases (s : RawBybitCollector D) (event : RawMarketEvent D) (written : Bool) :
    (∃ e, s.sequenceUncertain = false ∧ (s.applyEvent I T event).1 = .error e ∧
      e.isCaught = false ∧ (s.validate I T event written).1 = .error e) ∨
    (s.validate I T event written).1 = .ok () ∧
      (s.sequenceUncertain = false → ∀ e, (s.applyEvent I T event).1 = .error e →
        e.isCaught = true) ∧
      (s.validate I T event written).2.queue = s.queue ∧
      (s.validate I T event written).2.health.droppedEventCount = s.health.droppedEventCount ∧
      (Applied I T s (s.validate I T event written).2 event ∨
        Uncertain s (s.validate I T event written).2) := by
  obtain ⟨hqueue, hhealth, -⟩ := applyEvent_fields (I := I) (T := T) s event
  unfold RawBybitCollector.validate
  split
  · next huncertain =>
    refine .inr ⟨rfl, fun hcertain => ?_, rfl, rfl, .inr ⟨huncertain, .inl huncertain⟩⟩
    exact absurd (hcertain.symm.trans huncertain) Bool.false_ne_true
  · next hcertain =>
    have hcertain : s.sequenceUncertain = false := Bool.eq_false_iff.mpr hcertain
    rcases hlive : s.applyEvent I T event with ⟨e | ⟨⟩, s'⟩
    · rw [hlive] at hqueue hhealth
      dsimp only
      split
      · next hcaught =>
        obtain ⟨hqueue', hhealth', huncertain⟩ := publishHealth_fields
          ({ s' with
              sequenceUncertain := true
              health := s'.health.apply (.recordSequenceUncertainty
                ("sequence uncertainty requires reconnect: " ++ e.text)) } : RawBybitCollector D) written
        refine .inr ⟨rfl, ?_, hqueue'.trans hqueue, ?_, .inr ⟨huncertain, .inr ?_⟩⟩
        · rintro - _ ⟨⟩
          exact hcaught
        · rw [← hhealth]
          exact congrArg (·.droppedEventCount) hhealth'
        · rw [← hhealth]
          exact congrArg (·.sequenceUncertaintyCount) hhealth'
      · next hnot => exact .inl ⟨e, hcertain, rfl, Bool.eq_false_iff.mpr hnot, rfl⟩
    · have happlied : Applied I T s (s.applyEvent I T event).2 event :=
        applyEvent_applied (by rw [hlive])
      rw [hlive] at hqueue hhealth happlied
      refine .inr ⟨rfl, ?_, hqueue, congrArg (·.droppedEventCount) hhealth, .inl happlied⟩
      rintro - _ ⟨⟩

/-- A call that queues the event. -/
theorem queued_handled {payload : WsPayload}
    (hpayload : payload.decode = some event.payloadText)
    (hnumber : event.receiveSequence = s.receiveSequence + 1)
    (hqueue : s'.queue = s.queue ++ [event])
    (hdropped : s'.health.droppedEventCount = s.health.droppedEventCount)
    (happlied : Applied I T s s' event ∨ Uncertain s s') :
    Handled I T s payload (.ok (), s') := by
  refine ⟨rfl, .inl ⟨⟨event, hpayload, hnumber, hqueue⟩, fun hfailed => ?_⟩, ?_⟩
  · have hrecorded := hfailed.1
    dsimp only at hrecorded
    omega
  · rintro event' ⟨-, -, hput⟩
    cases List.append_cancel_left (hqueue.symm.trans hput)
    exact happlied

/-- **Messages of the collector.** Each of them is queued, or the collector fails closed, and none
is left unapplied in silence, exactly if it raises nothing that is not caught. -/
theorem handleRawMessage_handled_iff (I : Interpreter) (T : Texts) (s : RawBybitCollector D)
    (payload : WsPayload) (receiveTsNs : ℤ) (written : Bool) :
    Handled I T s payload (s.handleRawMessage I T payload receiveTsNs written) ↔
      ¬ Escapes I T s payload receiveTsNs := by
  have failed : ∀ reason, Handled I T s payload (.ok (),
      ({ s with receiveSequence := s.receiveSequence + 1 } : RawBybitCollector D).failClosed written
        reason) := by
    intro reason
    refine failClosed_handled ?_ ?_ payload written reason
    · rfl
    · rfl
  unfold RawBybitCollector.handleRawMessage Escapes
  cases hdecode : payload.decode with
  | none =>
    refine ⟨fun _ ⟨payloadText, h, _⟩ => ?_, fun _ => ?_⟩
    · cases h
    · exact failClosed_handled (I := I) (T := T) (s := s) rfl rfl payload written _
  | some payloadText =>
    dsimp only
    have hpositive : (0 : ℤ) < ((s.receiveSequence + 1 : ℕ) : ℤ) := by omega
    rcases parseMessage_cases (D := D) (I := I) (T := T) payloadText receiveTsNs s.connectionId
        s.marketType hpositive with
      ⟨event, message, hparse, hloads, hwhen, hread, hparsed, hevent⟩ |
        ⟨msg, hparse, hparsed, hwhen⟩ | ⟨e, hparse, hne, hraises⟩
    · have hescapes : (∃ payloadText', some payloadText = some payloadText' ∧
          (Unparsed I T payloadText' ∨ ∃ message, I.loads payloadText' = .ok (.obj message) ∧
            (metadataFields T message).all (readsInt T) = true ∧
              (0 < receiveTsNs ∧ s.connectionId ≠ "") ∧ s.queue.length < s.queueCapacity ∧
                s.sequenceUncertain = false ∧ RaisesLive T s message)) ↔
          s.queue.length < s.queueCapacity ∧ s.sequenceUncertain = false ∧
            RaisesLive T s message := by
        constructor
        · rintro ⟨_, ⟨⟩, hraises | ⟨message', hloads', -, -, hlive⟩⟩
          · exact absurd hraises hparsed
          · rw [hloads] at hloads'
            cases hloads'
            exact hlive
        · exact fun hlive => ⟨payloadText, rfl, .inr ⟨message, hloads, hread, hwhen, hlive⟩⟩
      rw [hparse, hescapes]
      dsimp only
      split
      · next hfull => exact ⟨fun _ hlive => absurd hlive.1 (not_lt.mpr hfull), fun _ => failed _⟩
      · next hroom =>
        -- the live state of `s` is the one the queued event is applied to
        have hlive := applyEvent_live hevent hloads hread
          (({ s with receiveSequence := s.receiveSequence + 1 } : RawBybitCollector D).enqueue event)
        rcases validate_cases (I := I) (T := T)
            (({ s with receiveSequence := s.receiveSequence + 1 } : RawBybitCollector D).enqueue event)
            event written with
          ⟨e, hcertain, herror, huncaught, hvalidate⟩ |
            ⟨hvalidate, hcaught, hqueue, hdropped, happlied⟩
        · refine ⟨fun hall => ?_, fun hnot => ?_⟩
          · have hreturns := hvalidate.symm.trans hall.returns
            cases hreturns
          · rcases hlive with ⟨hlive, -⟩ | ⟨-, hcaught⟩
            · exact absurd ⟨not_le.mp hroom, hcertain, hlive⟩ hnot
            · exact absurd ((huncaught.symm.trans (hcaught e herror))) Bool.false_ne_true
        · refine ⟨fun _ hall => ?_, fun _ => ?_⟩
          · rcases hlive with ⟨-, herror⟩ | ⟨hnot, -⟩
            · have hbad := hcaught hall.2.1 _ herror
              cases hbad
            · exact hnot hall.2.2
          · have hhandled := queued_handled (I := I) (T := T) (s := s)
              (hdecode.trans (congrArg some hevent.payloadText_eq.symm))
              (by rw [hevent.receiveSequence_eq]; push_cast; rfl) hqueue hdropped happlied
            rw [← hvalidate] at hhandled
            exact hhandled
    · rw [hparse]
      refine ⟨fun _ => ?_, fun _ => failed _⟩
      rintro ⟨_, ⟨⟩, hraises | ⟨message, hloads, hread, hnow, -⟩⟩
      · exact hparsed hraises
      · exact hwhen message hloads hread hnow
    · rw [hparse]
      refine ⟨fun hall => ?_, fun hnot => absurd ⟨payloadText, rfl, .inl hraises⟩ hnot⟩
      have hreturns := hall.returns
      split at hreturns
      · next h => exact absurd (Except.error.inj h) (hne _)
      · cases hreturns
      · next h => cases h

/-- An infinite time is an `OverflowError` of the envelope, and it escapes. -/
theorem infinite_time_escapes :
    ¬ ∀ (I : Interpreter) (T : Texts) (s : RawBybitCollector (digestOf [])) (payload : WsPayload)
      (receiveTsNs : ℤ) (written : Bool),
        Handled I T s payload (s.handleRawMessage I T payload receiveTsNs written) := by
  intro hall
  have hraised : (RawBybitCollector.handleRawMessage (D := digestOf []) (plainInterpreter sampleFloats)
      sampleTexts { marketType := "linear", queueCapacity := 1, connectionId := "c" }
      (.text "\x7b\"ts\":Infinity\x7d") 1 true).1 = .error (.market .overflowError) := by
    decide +kernel
  have hreturns := (hall (plainInterpreter sampleFloats) sampleTexts
    { marketType := "linear", queueCapacity := 1, connectionId := "c" }
    (.text "\x7b\"ts\":Infinity\x7d") 1 true).returns
  rw [hraised] at hreturns
  cases hreturns

end Greenfield.Data
