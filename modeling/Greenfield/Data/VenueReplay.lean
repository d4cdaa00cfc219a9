import Greenfield.Data.PriceLevels
import Greenfield.Lib.Segments
import Mathlib.Logic.Function.Basic

/-!
# OKX and Deribit replay

`src/data/okx_replay.py` and `src/data/deribit_replay.py`, with the sequence gates of
`src/data/okx_adapter.py` and `src/data/deribit_adapter.py`. The two differ in how they read a
message and in the gate; what they share is defined once.

Both gates raise on a change of connection, before they look at the message. So a snapshot of a
new connection raises too, and a stream of segments is replayed exactly if all are of one
connection (`reconnect_replay`).
-/

namespace Greenfield.Data

open Py Keyed Depth

variable {D : Digests} (F : Floats) (T : Texts)

/-! ## What they share -/

/-- `OkxSequenceGate`, and `DeribitBookSequenceGate` with its `change_id`. -/
structure SequenceGate where
  symbol : String
  sequence : Option ℤ := none
  connectionId : Option String := none

def SequenceGate.invalidate (g : SequenceGate) : SequenceGate :=
  { g with sequence := none, connectionId := none }

/-- `OkxOrderBook`, and `DeribitOrderBook` with its `change_id`. -/
structure VenueBook where
  symbol : String
  sides : Sides := .empty
  sequence : Option ℤ := none

namespace VenueBook

def isReady (b : VenueBook) : Bool := b.sides.filled && b.sequence.isSome

/-- `apply_message`, after the levels are read. -/
def applyLevels (b : VenueBook) (messageType : String) (bids asks : List (ℚ × ℚ)) (sequence : ℤ) :
    Except MarketError Unit × VenueBook :=
  if messageType = "snapshot" then
    let next := Sides.ofSnapshot bids asks
    match validateBook T b.symbol next with
    | .error e => (.error e, b)
    | .ok () => (.ok (), { b with sides := next, sequence := some sequence })
  else if !b.isReady then
    (.error (.snapshotRequired (b.symbol ++ " delta arrived before a valid snapshot")), b)
  else
    let next := b.sides.apply bids asks
    match validateBook T b.symbol next with
    | .error e => (.error e, b)
    | .ok () => (.ok (), { b with sides := next, sequence := some sequence })

/-- `apply_message`, where `read` is the venue's `_levels`. -/
def applyMessage (read : String → PyJson → Except MarketError (List (ℚ × ℚ))) (b : VenueBook)
    (messageType : String) (data : List (String × PyJson)) (sequence : ℤ) :
    Except MarketError Unit × VenueBook :=
  match read "bids" (item data "bids") with
  | .error e => (.error e, b)
  | .ok bids =>
    match read "asks" (item data "asks") with
    | .error e => (.error e, b)
    | .ok asks => b.applyLevels T messageType bids asks sequence

end VenueBook

/-- The parts in which the venues differ. -/
structure Venue (D : Digests) where
  exchange : String
  /-- The error of events of other venues. -/
  rejects : String
  /-- The gate's `apply`. -/
  accept : SequenceGate → RawMarketEvent D → Except MarketError Bool × SequenceGate
  /-- What `apply` does with the book of an event that is accepted. -/
  update : VenueBook → RawMarketEvent D → Except MarketError Unit × VenueBook

structure VenueReplaySession where
  gates : String → Option SequenceGate := fun _ => none
  books : String → Option VenueBook := fun _ => none
  channelCounts : String → ℕ := fun _ => 0
  rawEventCount : ℕ := 0

namespace VenueReplaySession

/-- `self.gates.setdefault(event.symbol, ...)`. -/
def gate (s : VenueReplaySession) (symbol : String) : SequenceGate := (s.gates symbol).getD { symbol }

/-- `self.books.setdefault(event.symbol, ...)`. -/
def book (s : VenueReplaySession) (symbol : String) : VenueBook := (s.books symbol).getD { symbol }

end VenueReplaySession

/-- `apply` of the sessions. -/
def Venue.apply (v : Venue D) (s : VenueReplaySession) (e : RawMarketEvent D) :
    Except MarketError Unit × VenueReplaySession :=
  if e.exchange ≠ v.exchange then (.error (.replay v.rejects), s)
  else
    let counted := { s with
      rawEventCount := s.rawEventCount + 1
      channelCounts := Function.update s.channelCounts e.channel (s.channelCounts e.channel + 1) }
    if e.channel ≠ "orderbook" then (.ok (), counted)
    else
      let (accepted, gate) := v.accept (s.gate e.symbol) e
      let gated := { counted with gates := Function.update s.gates e.symbol (some gate) }
      match accepted with
      | .error err => (.error err, gated)
      | .ok false => (.ok (), gated)
      | .ok true =>
        let (answer, book) := v.update (s.book e.symbol) e
        (answer, { gated with books := Function.update s.books e.symbol (some book) })

/-- What is done, or the error that stops a replay. -/
def orStop {σ α : Type} : Except MarketError α × σ → Except MarketError (α × σ)
  | (.ok a, s) => .ok (a, s)
  | (.error e, _) => .error e

/-- The loop of `replay_okx_stream` and of `replay_deribit_stream`. -/
def Venue.replay (v : Venue D) (s : VenueReplaySession) (events : List (RawMarketEvent D)) :
    Except MarketError VenueReplaySession :=
  events.foldlM (fun s e => Prod.snd <$> orStop (v.apply s e)) s

/-! ## OKX -/

/-- `_first_data`. -/
def firstData (message : List (String × PyJson)) : Except MarketError (List (String × PyJson)) :=
  match item message "data" with
  | .arr [.obj data] => .ok data
  | _ => .error (.replay "OKX book message must contain one data object")

structure OkxMessage where
  data : List (String × PyJson)
  sequence : ℤ
  previous : ℤ

/-- What the gate reads. -/
def readOkx (e : RawMarketEvent D) : Except MarketError OkxMessage := do
  let message ← e.payload F
  let data ← firstData message
  let sequence ← requiredInt T (item data "seqId") "seqId"
  let previous ← requiredInt T (item data "prevSeqId") "prevSeqId"
  pure ⟨data, sequence, previous⟩

/-- `OkxSequenceGate.apply`. -/
def okxAccept (g : SequenceGate) (e : RawMarketEvent D) : Except MarketError Bool × SequenceGate :=
  if e.exchange ≠ "okx" ∨ e.channel ≠ "orderbook" then
    (.error (.replay "OKX gate accepts only orderbook events"), g)
  else if e.symbol ≠ g.symbol then
    (.error (.replay ("gate " ++ g.symbol ++ " cannot accept " ++ e.symbol)), g)
  else if g.connectionId ≠ none ∧ g.connectionId ≠ some e.connectionId then
    (.error (.snapshotRequired (g.symbol ++ " connection changed")), g.invalidate)
  else
    match readOkx F T e with
    | .error err => (.error err, g)
    | .ok m =>
      if e.messageType = "snapshot" then
        (.ok true, { g with sequence := some m.sequence, connectionId := some e.connectionId })
      else if e.messageType ≠ "delta" then
        (.error (.snapshotRequired (g.symbol ++ " requires a fresh snapshot")), g)
      else
        match g.sequence with
        | none => (.error (.snapshotRequired (g.symbol ++ " requires a fresh snapshot")), g)
        | some expected =>
          if m.previous ≠ expected then
            (.error (.sequenceGap (g.symbol ++ " expected prevSeqId=" ++ toString expected ++
              ", observed " ++ toString m.previous)), g.invalidate)
          else if m.sequence < m.previous then
            (.error (.sequenceGap (g.symbol ++ " seqId regressed")), g.invalidate)
          else
            let heartbeat := m.sequence = m.previous ∧ truth (item m.data "bids") = false ∧
              truth (item m.data "asks") = false
            (.ok (!decide heartbeat), { g with sequence := some m.sequence })

/-- What `apply` does with the book of an OKX event. -/
def okxUpdate (b : VenueBook) (e : RawMarketEvent D) : Except MarketError Unit × VenueBook :=
  match e.payload F >>= firstData with
  | .error err => (.error err, b)
  | .ok data =>
    match requiredInt T (item data "seqId") "seqId" with
    | .error err => (.error err, b)
    | .ok sequence => b.applyMessage T (readLevels T (2 ≤ ·)) e.messageType data sequence

def okx : Venue D where
  exchange := "okx"
  rejects := "OkxReplaySession accepts only OKX events"
  accept := okxAccept F T
  update := okxUpdate F T

/-! ## Deribit -/

/-- `_book_data`. -/
def bookData (message : List (String × PyJson)) : Except MarketError (List (String × PyJson)) :=
  match item message "params" with
  | .obj params =>
    match item params "data" with
    | .obj data => .ok data
    | _ => .error (.replay "Deribit book notification must contain one data object")
  | _ => .error (.replay "Deribit book notification must contain one data object")

/-- A level of Deribit's `_levels`: an action, a price and a size. -/
def readActionLevel (name : String) (level : PyJson) : Except MarketError (ℚ × ℚ) :=
  match level with
  | .arr [first, second, third] =>
    let action := T.str first
    if action ≠ "new" ∧ action ≠ "change" ∧ action ≠ "delete" then
      .error (.replay ("invalid order-book " ++ name ++ " action: " ++ T.repr (.str action)))
    else
      match T.decimal (T.str second), T.decimal (T.str third) with
      | some (.finite price), some (.finite size) =>
        if 0 < price ∧ 0 ≤ size then
          if action = "delete" ∧ size ≠ 0 then
            .error (.replay ("delete level must have zero size: " ++ T.repr level))
          else .ok (price, size)
        else .error (.replay ("invalid numeric order-book level: " ++ T.repr level))
      | some _, some _ => .error (.replay ("invalid numeric order-book level: " ++ T.repr level))
      | _, _ => .error (.replay ("invalid decimal order-book level: " ++ T.repr level))
  | _ => .error (.replay ("invalid order-book " ++ name ++ " level: " ++ T.repr level))

/-- Deribit's `_levels`. -/
def readActionLevels (name : String) : PyJson → Except MarketError (List (ℚ × ℚ))
  | .arr levels => levels.mapM (readActionLevel T name)
  | _ => .error (.replay ("order-book " ++ name ++ " must be a list"))

/-- What the gate reads at first. -/
def readDeribit (e : RawMarketEvent D) : Except MarketError (List (String × PyJson) × ℤ) := do
  let message ← e.payload F
  let data ← bookData message
  let changeId ← requiredInt T (item data "change_id") "change_id"
  pure (data, changeId)

/-- `DeribitBookSequenceGate.apply`. -/
def deribitAccept (g : SequenceGate) (e : RawMarketEvent D) :
    Except MarketError Bool × SequenceGate :=
  if e.exchange ≠ "deribit" ∨ e.channel ≠ "orderbook" then
    (.error (.replay "Deribit gate accepts only orderbook events"), g)
  else if e.symbol ≠ g.symbol then
    (.error (.replay ("gate " ++ g.symbol ++ " cannot accept " ++ e.symbol)), g)
  else if g.connectionId ≠ none ∧ g.connectionId ≠ some e.connectionId then
    (.error (.snapshotRequired (g.symbol ++ " connection changed")), g.invalidate)
  else
    match readDeribit F T e with
    | .error err => (.error err, g)
    | .ok (data, changeId) =>
      if e.messageType = "snapshot" then
        (.ok true, { g with sequence := some changeId, connectionId := some e.connectionId })
      else if e.messageType ≠ "delta" then
        (.error (.snapshotRequired (g.symbol ++ " requires a fresh snapshot")), g)
      else
        match g.sequence with
        | none => (.error (.snapshotRequired (g.symbol ++ " requires a fresh snapshot")), g)
        | some expected =>
          match requiredInt T (item data "prev_change_id") "prev_change_id" with
          | .error err => (.error err, g)
          | .ok previous =>
            if previous ≠ expected then
              (.error (.sequenceGap (g.symbol ++ " expected prev_change_id=" ++
                toString expected ++ ", observed " ++ toString previous)), g.invalidate)
            else if changeId ≤ previous then
              (.error (.sequenceGap (g.symbol ++ " change_id did not advance")), g.invalidate)
            else (.ok true, { g with sequence := some changeId })

/-- What `apply` does with the book of a Deribit event. -/
def deribitUpdate (b : VenueBook) (e : RawMarketEvent D) : Except MarketError Unit × VenueBook :=
  match e.payload F >>= bookData with
  | .error err => (.error err, b)
  | .ok data =>
    match requiredInt T (item data "change_id") "change_id" with
    | .error err => (.error err, b)
    | .ok changeId => b.applyMessage T (readActionLevels T) e.messageType data changeId

/-- The session does not look at what the gate answers, which is never `False`. -/
def deribit : Venue D where
  exchange := "deribit"
  rejects := "DeribitReplaySession accepts only Deribit events"
  accept := deribitAccept F T
  update := deribitUpdate F T

/-! ## What a replay relies on -/

/-- A gate with a sequence number has a connection. -/
def SequenceGate.Linked (g : SequenceGate) : Prop := g.sequence ≠ none → g.connectionId ≠ none

/-- An event of this connection is no change of connection. -/
def SequenceGate.Open (g : SequenceGate) (connectionId : String) : Prop :=
  ∀ c, g.connectionId = some c → connectionId = c

structure Venue.Lawful (v : Venue D) : Prop where
  /-- The gate raises on a change of connection. -/
  foreign : ∀ {g : SequenceGate} {e : RawMarketEvent D}, ¬ g.Open e.connectionId →
    ∃ err, orStop (v.accept g e) = .error err
  /-- A snapshot of the gate's connection is accepted like that of a new gate. -/
  fresh : ∀ {g : SequenceGate} {e : RawMarketEvent D}, g.Open e.connectionId →
    e.messageType = "snapshot" → orStop (v.accept g e) = orStop (v.accept { symbol := g.symbol } e)
  accepted : ∀ {g g' : SequenceGate} {e : RawMarketEvent D} {accepted : Bool}, g.Linked →
    orStop (v.accept g e) = .ok (accepted, g') →
    g'.symbol = g.symbol ∧ g'.Linked ∧ g'.connectionId = some e.connectionId ∧
      (e.messageType = "snapshot" → accepted = true)
  /-- A snapshot leaves a book as it leaves a new one. -/
  restart : ∀ {b : VenueBook} {e : RawMarketEvent D}, e.messageType = "snapshot" →
    orStop (v.update b e) = orStop (v.update { symbol := b.symbol } e)
  own : ∀ {b b' : VenueBook} {e : RawMarketEvent D},
    orStop (v.update b e) = .ok ((), b') → b'.symbol = b.symbol

variable {g : SequenceGate}

theorem SequenceGate.not_open {connectionId : String} :
    ¬ g.Open connectionId ↔ g.connectionId ≠ none ∧ g.connectionId ≠ some connectionId := by
  unfold SequenceGate.Open
  cases g.connectionId with
  | none => simp
  | some c => simp [eq_comm]

/-- The connection of a gate that raises on no change of connection. -/
theorem SequenceGate.Open.connectionId {connectionId : String}
    (h : g.Open connectionId) (hnone : g.connectionId ≠ none) :
    g.connectionId = some connectionId := by
  by_contra hother
  exact SequenceGate.not_open.mpr ⟨hnone, hother⟩ h

variable {F T} {read : String → PyJson → Except MarketError (List (ℚ × ℚ))}

theorem VenueBook.applyMessage_restart
    {b : VenueBook}
    {data : List (String × PyJson)} {sequence : ℤ} :
    orStop (b.applyMessage T read "snapshot" data sequence) =
      orStop (VenueBook.applyMessage T read { symbol := b.symbol } "snapshot" data sequence) := by
  unfold VenueBook.applyMessage VenueBook.applyLevels
  cases read "bids" (item data "bids") with
  | error e => rfl
  | ok bids =>
    cases read "asks" (item data "asks") with
    | error e => rfl
    | ok asks =>
      simp only [if_true]
      cases validateBook T b.symbol (Sides.ofSnapshot bids asks) with
      | error e => rfl
      | ok _ => rfl

theorem VenueBook.applyMessage_symbol
    (b : VenueBook)
    (messageType : String) (data : List (String × PyJson)) (sequence : ℤ) :
    (b.applyMessage T read messageType data sequence).2.symbol = b.symbol := by
  unfold VenueBook.applyMessage VenueBook.applyLevels
  cases read "bids" (item data "bids") with
  | error e => rfl
  | ok bids =>
    cases read "asks" (item data "asks") with
    | error e => rfl
    | ok asks =>
      simp only
      split
      · split
        · rfl
        · rfl
      · split
        · rfl
        · split
          · rfl
          · rfl

theorem orStop_eq_ok {σ α : Type} {x : Except MarketError α × σ} {a : α} {s : σ} :
    orStop x = .ok (a, s) ↔ x = (.ok a, s) := by
  obtain ⟨answer, s'⟩ := x
  cases answer with
  | error e => simp [orStop]
  | ok a' => simp [orStop]

theorem okx_lawful : (okx (D := D) F T).Lawful where
  foreign {g e} hopen := by
    show ∃ err, orStop (okxAccept F T g e) = .error err
    unfold okxAccept
    split
    · exact ⟨_, rfl⟩
    · split
      · exact ⟨_, rfl⟩
      · rw [if_pos (SequenceGate.not_open.mp hopen)]
        exact ⟨_, rfl⟩
  fresh {g e} hopen hsnapshot := by
    show orStop (okxAccept F T g e) = orStop (okxAccept F T { symbol := g.symbol } e)
    unfold okxAccept
    split
    · rfl
    · split
      · rfl
      · rw [if_neg fun h => SequenceGate.not_open.mpr h hopen, if_neg (by simp)]
        cases readOkx F T e with
        | error err => rfl
        | ok m => rfl
  accepted {g g' e accepted} hlinked h := by
    have h : okxAccept F T g e = (.ok accepted, g') := orStop_eq_ok.mp h
    unfold okxAccept at h
    split at h
    · cases h
    · split at h
      · cases h
      · split at h
        · cases h
        · next hopen =>
          have hopen : g.Open e.connectionId := by
            by_contra hno
            exact hopen (SequenceGate.not_open.mp hno)
          split at h
          · cases h
          · split at h
            · cases h
              exact ⟨rfl, fun _ => Option.some_ne_none _, rfl, fun _ => rfl⟩
            · next hsnapshot =>
              split at h
              · cases h
              · split at h
                · cases h
                · next hsequence =>
                  have hconn : g.connectionId ≠ none := hlinked (by rw [hsequence]; simp)
                  split at h
                  · cases h
                  · split at h
                    · cases h
                    · cases h
                      exact ⟨rfl, fun _ => hconn, hopen.connectionId hconn,
                        fun hs => absurd hs hsnapshot⟩
  restart {b e} hsnapshot := by
    show orStop (okxUpdate F T b e) = orStop (okxUpdate F T { symbol := b.symbol } e)
    unfold okxUpdate
    cases e.payload F >>= firstData with
    | error err => rfl
    | ok data =>
      simp only
      cases requiredInt T (item data "seqId") "seqId" with
      | error err => rfl
      | ok sequence =>
        rw [hsnapshot]
        exact VenueBook.applyMessage_restart
  own {b b' e} h := by
    have h : okxUpdate F T b e = (.ok (), b') := orStop_eq_ok.mp h
    unfold okxUpdate at h
    split at h
    · cases h
    · split at h
      · cases h
      · rw [← congrArg (fun x => x.2.symbol) h]
        exact VenueBook.applyMessage_symbol _ _ _ _

theorem deribit_lawful : (deribit (D := D) F T).Lawful where
  foreign {g e} hopen := by
    show ∃ err, orStop (deribitAccept F T g e) = .error err
    unfold deribitAccept
    split
    · exact ⟨_, rfl⟩
    · split
      · exact ⟨_, rfl⟩
      · rw [if_pos (SequenceGate.not_open.mp hopen)]
        exact ⟨_, rfl⟩
  fresh {g e} hopen hsnapshot := by
    show orStop (deribitAccept F T g e) = orStop (deribitAccept F T { symbol := g.symbol } e)
    unfold deribitAccept
    split
    · rfl
    · split
      · rfl
      · rw [if_neg fun h => SequenceGate.not_open.mpr h hopen, if_neg (by simp)]
        cases readDeribit F T e with
        | error err => rfl
        | ok m => rfl
  accepted {g g' e accepted} hlinked h := by
    have h : deribitAccept F T g e = (.ok accepted, g') := orStop_eq_ok.mp h
    unfold deribitAccept at h
    split at h
    · cases h
    · split at h
      · cases h
      · split at h
        · cases h
        · next hopen =>
          have hopen : g.Open e.connectionId := by
            by_contra hno
            exact hopen (SequenceGate.not_open.mp hno)
          split at h
          · cases h
          · split at h
            · cases h
              exact ⟨rfl, fun _ => Option.some_ne_none _, rfl, fun _ => rfl⟩
            · next hsnapshot =>
              split at h
              · cases h
              · split at h
                · cases h
                · next hsequence =>
                  have hconn : g.connectionId ≠ none := hlinked (by rw [hsequence]; simp)
                  split at h
                  · cases h
                  · split at h
                    · cases h
                    · split at h
                      · cases h
                      · cases h
                        exact ⟨rfl, fun _ => hconn, hopen.connectionId hconn, fun _ => rfl⟩
  restart {b e} hsnapshot := by
    show orStop (deribitUpdate F T b e) = orStop (deribitUpdate F T { symbol := b.symbol } e)
    unfold deribitUpdate
    cases e.payload F >>= bookData with
    | error err => rfl
    | ok data =>
      simp only
      cases requiredInt T (item data "change_id") "change_id" with
      | error err => rfl
      | ok sequence =>
        rw [hsnapshot]
        exact VenueBook.applyMessage_restart
  own {b b' e} h := by
    have h : deribitUpdate F T b e = (.ok (), b') := orStop_eq_ok.mp h
    unfold deribitUpdate at h
    split at h
    · cases h
    · split at h
      · cases h
      · rw [← congrArg (fun x => x.2.symbol) h]
        exact VenueBook.applyMessage_symbol _ _ _ _

/-! ## The book of a symbol -/

/-- An order-book event of the venue, for one symbol. -/
structure BookEvent (v : Venue D) (instrument : String) extends RawMarketEvent D where
  venue : exchange = v.exchange
  orderbook : channel = "orderbook"
  own : symbol = instrument

/-- The gate and the book of a symbol. -/
structure VenuePair where
  gate : SequenceGate
  book : VenueBook

def VenueReplaySession.pair (s : VenueReplaySession) (symbol : String) : VenuePair :=
  ⟨s.gate symbol, s.book symbol⟩

/-- What an order-book event does to the gate and the book. -/
def Venue.stepPair (v : Venue D) (p : VenuePair) (e : RawMarketEvent D) :
    Except MarketError VenuePair := do
  let (accepted, gate) ← orStop (v.accept p.gate e)
  if accepted then
    let ((), book) ← orStop (v.update p.book e)
    pure ⟨gate, book⟩
  else pure ⟨gate, p.book⟩

structure VenuePair.Own (symbol : String) (p : VenuePair) : Prop where
  gate : p.gate.symbol = symbol
  book : p.book.symbol = symbol
  linked : p.gate.Linked

variable {v : Venue D} {symbol : String}

theorem stepPair_eq_ok {p p' : VenuePair} {e : RawMarketEvent D} (h : v.stepPair p e = .ok p') :
    ∃ accepted, orStop (v.accept p.gate e) = .ok (accepted, p'.gate) ∧
      (p'.book = p.book ∨ orStop (v.update p.book e) = .ok ((), p'.book)) := by
  obtain ⟨⟨accepted, gate⟩, haccept, h⟩ := bind_eq_ok.mp h
  cases accepted with
  | false =>
    cases h
    exact ⟨false, haccept, .inl rfl⟩
  | true =>
    obtain ⟨⟨answer, book⟩, hupdate, h⟩ := bind_eq_ok.mp h
    cases h
    exact ⟨true, haccept, .inr hupdate⟩

/-- The gate and the book of a symbol, as a machine over its order-book events. -/
def Venue.machine (v : Venue D) (hv : v.Lawful) (symbol : String) :
    Segments.Machine VenuePair (BookEvent v symbol) String MarketError where
  step p e := v.stepPair p e.toRawMarketEvent
  init := ⟨{ symbol }, { symbol }⟩
  connection e := e.connectionId
  current p := p.gate.connectionId
  Snapshot e := e.messageType = "snapshot"
  Own := VenuePair.Own symbol
  own_init := ⟨rfl, rfl, fun h => absurd rfl h⟩
  own_step {p e p'} hp h := by
    obtain ⟨accepted, haccept, hbook⟩ := stepPair_eq_ok h
    obtain ⟨hsymbol, hlinked, -⟩ := hv.accepted hp.linked haccept
    refine ⟨hsymbol.trans hp.gate, ?_, hlinked⟩
    rcases hbook with hbook | hupdate
    · rw [hbook]
      exact hp.book
    · exact (hv.own hupdate).trans hp.book
  current_init := rfl
  foreign {p e c} _ hc hne := by
    have hopen : ¬ p.gate.Open e.connectionId := fun h => hne (h c hc)
    obtain ⟨err, herr⟩ := hv.foreign hopen
    refine ⟨err, ?_⟩
    unfold Venue.stepPair
    rw [herr]
    rfl
  reset {p e} hp hsnapshot hopen := by
    unfold Venue.stepPair
    rw [hv.fresh hopen hsnapshot, hp.gate]
    cases haccept : orStop (v.accept { symbol } e.toRawMarketEvent) with
    | error err => rfl
    | ok next =>
      obtain ⟨accepted, gate⟩ := next
      have htrue := (hv.accepted (fun h => absurd rfl h) haccept).2.2.2 hsnapshot
      subst htrue
      have hupdate : orStop (v.update p.book e.toRawMarketEvent) =
          orStop (v.update { symbol } e.toRawMarketEvent) := by
        rw [hv.restart hsnapshot, hp.book]
      simp only [bind, Except.bind, if_true, hupdate]
  moves {p e p'} hp h := by
    obtain ⟨accepted, haccept, -⟩ := stepPair_eq_ok h
    exact (hv.accepted hp.linked haccept).2.2.1

/-! ## Streams -/

/-- An event of the symbol does to a session what it does to the symbol's pair. -/
theorem pair_apply (s : VenueReplaySession) (e : BookEvent v symbol) :
    (fun s' : VenueReplaySession => s'.pair symbol) <$> Prod.snd <$>
      orStop (v.apply s e.toRawMarketEvent) = v.stepPair (s.pair symbol) e.toRawMarketEvent := by
  obtain ⟨e, hvenue, horderbook, hsymbol⟩ := e
  subst hsymbol
  unfold Venue.apply Venue.stepPair VenueReplaySession.pair
  rw [if_neg (not_not.mpr hvenue), if_neg (not_not.mpr horderbook)]
  obtain ⟨answer, gate⟩ := v.accept (s.gate e.symbol) e
  cases answer with
  | error err => rfl
  | ok accepted =>
    cases accepted with
    | false => simp [orStop, VenueReplaySession.gate, VenueReplaySession.book, bind, Except.bind,
        Functor.map, Except.map, pure, Except.pure]
    | true =>
      obtain ⟨answer, book⟩ := v.update (s.book e.symbol) e
      cases answer with
      | error err => rfl
      | ok _ => simp [orStop, VenueReplaySession.gate, VenueReplaySession.book, bind, Except.bind,
          Functor.map, Except.map, pure, Except.pure]

def rawEvents (events : List (BookEvent v symbol)) : List (RawMarketEvent D) :=
  events.map BookEvent.toRawMarketEvent

/-- A replay of events of the symbol replays them on the symbol's pair. -/
theorem pair_replay (hv : v.Lawful) (s : VenueReplaySession) (events : List (BookEvent v symbol)) :
    (fun s' : VenueReplaySession => s'.pair symbol) <$> v.replay s (rawEvents events) =
      (v.machine hv symbol).replay (s.pair symbol) events := by
  induction events generalizing s with
  | nil => rfl
  | cons e events ih =>
    have hstep := pair_apply s e
    rw [Segments.Machine.replay_cons]
    show (fun s' : VenueReplaySession => s'.pair symbol) <$>
      ((Prod.snd <$> orStop (v.apply s e.toRawMarketEvent)) >>= fun s' =>
        v.replay s' (rawEvents events)) = v.stepPair (s.pair symbol) e.toRawMarketEvent >>= _
    rw [← hstep]
    cases Prod.snd <$> orStop (v.apply s e.toRawMarketEvent) with
    | error err => rfl
    | ok s' => exact ih s'

/-- A snapshot and more events of its connection, which a new session accepts. -/
structure ConnectionSegment (v : Venue D) (symbol : String) where
  first : BookEvent v symbol
  rest : List (BookEvent v symbol)
  snapshot : first.messageType = "snapshot"
  connected : ∀ e ∈ rest, e.connectionId = first.connectionId
  accepted : ∃ s, v.replay {} (rawEvents (first :: rest)) = .ok s

namespace ConnectionSegment

def events (g : ConnectionSegment v symbol) : List (RawMarketEvent D) :=
  rawEvents (g.first :: g.rest)

def connectionId (g : ConnectionSegment v symbol) : String := g.first.connectionId

/-- The events of a first segment and of more. -/
def stream (g : ConnectionSegment v symbol) (gs : List (ConnectionSegment v symbol)) :
    List (RawMarketEvent D) := (g :: gs).flatMap events

def lastOf (g : ConnectionSegment v symbol) (gs : List (ConnectionSegment v symbol)) :
    ConnectionSegment v symbol := (g :: gs).getLast (List.cons_ne_nil g gs)

/-- The whole stream is replayed, and the book ends as after the last segment alone. -/
def Replays (g : ConnectionSegment v symbol) (gs : List (ConnectionSegment v symbol)) : Prop :=
  ∃ s s', v.replay {} (stream g gs) = .ok s ∧ v.replay {} (lastOf g gs).events = .ok s' ∧
    s.book symbol = s'.book symbol

theorem pair_init (hv : v.Lawful) : (({} : VenueReplaySession).pair symbol) =
    (v.machine hv symbol).init := rfl

def toSegment (hv : v.Lawful) (g : ConnectionSegment v symbol) :
    Segments.Segment (v.machine hv symbol) where
  first := g.first
  rest := g.rest
  snapshot := g.snapshot
  connected := g.connected
  accepted := by
    obtain ⟨s, hs⟩ := g.accepted
    refine ⟨s.pair symbol, ?_⟩
    rw [← pair_init, ← pair_replay, hs]
    rfl

theorem stream_eq (hv : v.Lawful) (g : ConnectionSegment v symbol)
    (gs : List (ConnectionSegment v symbol)) : stream g gs =
      rawEvents (Segments.stream (g.toSegment hv) (gs.map (toSegment hv))) := by
  unfold stream Segments.stream rawEvents
  rw [← List.map_cons, List.flatMap_map, List.map_flatMap]
  rfl

theorem lastOf_eq (hv : v.Lawful) (g : ConnectionSegment v symbol)
    (gs : List (ConnectionSegment v symbol)) : (lastOf g gs).events =
      rawEvents (Segments.lastOf (g.toSegment hv) (gs.map (toSegment hv))).events := by
  unfold lastOf Segments.lastOf
  simp only [← List.map_cons]
  rw [List.getLast_map]
  rfl

/-- A replay that ends, ends at a pair of the machine. -/
theorem replay_eq_ok (hv : v.Lawful) {events : List (BookEvent v symbol)} {p : VenuePair} :
    (∃ s, v.replay {} (rawEvents events) = .ok s ∧ s.pair symbol = p) ↔
      (v.machine hv symbol).replay (v.machine hv symbol).init events = .ok p := by
  rw [← pair_init, ← pair_replay]
  cases v.replay {} (rawEvents events) with
  | error err => simp [Functor.map, Except.map]
  | ok s => simp [Functor.map, Except.map]

/-- An event that a new pair accepts is replayed by a new session. -/
theorem replay_singleton (hv : v.Lawful) {e : BookEvent v symbol} {p : VenuePair}
    (h : v.stepPair ⟨{ symbol }, { symbol }⟩ e.toRawMarketEvent = .ok p) :
    ∃ s, v.replay {} (rawEvents [e]) = .ok s := by
  have hreplay : (v.machine hv symbol).replay (v.machine hv symbol).init [e] = .ok p := by
    rw [Segments.Machine.replay_cons]
    show v.stepPair ⟨{ symbol }, { symbol }⟩ e.toRawMarketEvent >>= _ = _
    rw [h]
    rfl
  obtain ⟨s, hs, -⟩ := (replay_eq_ok hv).mpr hreplay
  exact ⟨s, hs⟩

theorem replays_iff (hv : v.Lawful) (g : ConnectionSegment v symbol)
    (gs : List (ConnectionSegment v symbol)) :
    Replays g gs ↔ ∀ g' ∈ gs, g'.connectionId = g.connectionId := by
  have hsame : (∀ g' ∈ gs, g'.connectionId = g.connectionId) ↔
      ∀ g' ∈ gs.map (toSegment hv), g'.connection = (g.toSegment hv).connection := by
    rw [List.forall_mem_map]
    rfl
  rw [hsame, Replays, stream_eq hv, lastOf_eq hv]
  constructor
  · rintro ⟨s, -, hreplay, -, -⟩
    exact (Segments.replay_stream _ _).mp ⟨_, (replay_eq_ok hv).mp ⟨s, hreplay, rfl⟩⟩
  · intro hconn
    obtain ⟨p, hlast⟩ := (Segments.lastOf (g.toSegment hv) (gs.map (toSegment hv))).accepted
    have hopen := Segments.Machine.open_init (M := v.machine hv symbol) (g.toSegment hv).connection
    have hwhole := (Segments.replay_same (v.machine hv symbol).own_init hopen hconn).trans hlast
    obtain ⟨s, hs, hpair⟩ := (replay_eq_ok hv).mpr hwhole
    obtain ⟨s', hs', hpair'⟩ := (replay_eq_ok hv).mpr hlast
    exact ⟨s, s', hs, hs', congrArg VenuePair.book (hpair.trans hpair'.symm)⟩

end ConnectionSegment

/-- **Reconnects.** On both venues, a stream of segments is replayed, and its book ends as after
the last segment alone, exactly if all segments are of one connection. -/
theorem reconnect_replay (F : Floats) (T : Texts) (symbol : String) :
    (∀ (g : ConnectionSegment (okx (D := D) F T) symbol) gs,
      g.Replays gs ↔ ∀ g' ∈ gs, g'.connectionId = g.connectionId) ∧
    ∀ (g : ConnectionSegment (deribit (D := D) F T) symbol) gs,
      g.Replays gs ↔ ∀ g' ∈ gs, g'.connectionId = g.connectionId :=
  ⟨ConnectionSegment.replays_iff okx_lawful, ConnectionSegment.replays_iff deribit_lawful⟩

/-! ## A reconnect -/

/-- The payload of an OKX snapshot. -/
def okxSnapshot : List (String × PyJson) :=
  [("data", .arr [.obj [("asks", levelTexts [] [("101", "1")]), ("bids", levelTexts [] [("99", "1")]),
    ("prevSeqId", .int (-1)), ("seqId", .int 5)]])]

theorem canonical_okxSnapshot : Json.Canonical (.obj okxSnapshot) := by
  refine .obj (Json.sorted_of_keys (List.pairwise_singleton _ _)) ?_
  simp only [List.mem_singleton, forall_eq, okxSnapshot]
  refine .arr fun v hv => ?_
  rw [List.mem_singleton.mp hv]
  refine .obj (Json.sorted_of_keys ?_) (by simp)
  show (["asks", "bids", "prevSeqId", "seqId"] : List String).Pairwise (· < ·)
  decide +kernel

/-- The snapshot on a connection. -/
def okxSnapshotEvent (connectionId : String) (h : connectionId ≠ "") :
    BookEvent (okx (D := digestOf []) sampleFloats sampleTexts) "BTC" where
  toRawMarketEvent := bookEvent "okx" "snapshot" connectionId none okxSnapshot h
  venue := rfl
  orderbook := rfl
  own := rfl

theorem accepted_okxSnapshot (connectionId : String) (h : connectionId ≠ "") :
    ∃ s, (okx sampleFloats sampleTexts).replay {} (rawEvents [okxSnapshotEvent connectionId h]) =
      .ok s := by
  have hpayload : (okxSnapshotEvent connectionId h).payload sampleFloats = .ok okxSnapshot :=
    payload_bookEvent canonical_okxSnapshot
  have haccept : okxAccept sampleFloats sampleTexts { symbol := "BTC" }
      (okxSnapshotEvent connectionId h).toRawMarketEvent =
      (.ok true, ⟨"BTC", some 5, some connectionId⟩) := by
    unfold okxAccept readOkx
    rw [hpayload]
    rfl
  have hupdate : okxUpdate sampleFloats sampleTexts { symbol := "BTC" }
      (okxSnapshotEvent connectionId h).toRawMarketEvent =
      (.ok (), ⟨"BTC", .ofSnapshot [(99, 1)] [(101, 1)], some 5⟩) := by
    unfold okxUpdate
    rw [hpayload]
    rfl
  have hstep : (okx sampleFloats sampleTexts).stepPair ⟨{ symbol := "BTC" }, { symbol := "BTC" }⟩
      (okxSnapshotEvent connectionId h).toRawMarketEvent =
      .ok ⟨⟨"BTC", some 5, some connectionId⟩,
        ⟨"BTC", .ofSnapshot [(99, 1)] [(101, 1)], some 5⟩⟩ := by
    unfold Venue.stepPair okx
    simp only [haccept, hupdate]
    rfl
  exact ConnectionSegment.replay_singleton okx_lawful hstep

/-- A segment of one snapshot. -/
def okxSegment (connectionId : String) (h : connectionId ≠ "") :
    ConnectionSegment (okx (D := digestOf []) sampleFloats sampleTexts) "BTC" where
  first := okxSnapshotEvent connectionId h
  rest := []
  snapshot := rfl
  connected _ he := absurd he List.not_mem_nil
  accepted := accepted_okxSnapshot connectionId h

/-- The snapshot of a second connection raises. -/
theorem reconnect_raises : ¬ ∀ (g : ConnectionSegment (okx (D := digestOf []) sampleFloats
    sampleTexts) "BTC") gs, g.Replays gs := by
  intro hclaim
  have hc : "c" ≠ "" := by decide
  have hd : "d" ≠ "" := by decide
  have hreplays := hclaim (okxSegment "c" hc) [okxSegment "d" hd]
  have hsame := (ConnectionSegment.replays_iff okx_lawful _ _).mp hreplays (okxSegment "d" hd)
    List.mem_cons_self
  have hconn : "d" = "c" := hsame
  exact absurd hconn (by decide)

end Greenfield.Data
