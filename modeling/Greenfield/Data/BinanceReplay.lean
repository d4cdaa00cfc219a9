import Greenfield.Data.PriceLevels
import Greenfield.Lib.Run
import Mathlib.Logic.Function.Basic

/-!
# Binance replay

`src/data/binance_replay.py`, and the sequence gate of `src/data/binance_adapter.py`. The gate
and the book of a symbol are two objects, and an error in one leaves what the other has done.
So they stay in step exactly as long as no event invalidates the gate, and none is accepted by
one of them alone (`binance_replay`).
-/

namespace Greenfield.Data

open Py Keyed Depth

variable {D : Digests} (F : Floats) (T : Texts)

/-! ## Messages -/

/-- `_stream_message`. -/
def streamMessage (payload : List (String × PyJson)) :
    Except MarketError (List (String × PyJson)) :=
  match (Json.get payload "data").getD (.obj payload) with
  | .obj data => .ok data
  | _ => .error (.replay "combined stream data must be an object")

structure BinanceSnapshot where
  updateId : ℤ
  bids : List (ℚ × ℚ)
  asks : List (ℚ × ℚ)

/-- What the session and `load_snapshot` read of a snapshot. -/
def readSnapshot (e : RawMarketEvent D) : Except MarketError BinanceSnapshot := do
  let payload ← e.payload F
  let updateId ← requiredInt T (item payload "lastUpdateId") "lastUpdateId"
  let bids ← readLevels T (· = 2) "bids" (item payload "bids")
  let asks ← readLevels T (· = 2) "asks" (item payload "asks")
  pure ⟨updateId, bids, asks⟩

structure BinanceDepth where
  message : List (String × PyJson)
  first : ℤ
  final : ℤ
  previous : ℤ

/-- What the gate reads of a depth event. -/
def readDepth (e : RawMarketEvent D) : Except MarketError BinanceDepth := do
  let payload ← e.payload F
  let message ← streamMessage payload
  let first ← requiredInt T (item message "U") "U"
  let final ← requiredInt T (item message "u") "u"
  let previous ← requiredInt T (item message "pu") "pu"
  pure ⟨message, first, final, previous⟩

/-- The levels that `apply_delta` reads, bids and asks. -/
def readDelta (message : List (String × PyJson)) :
    Except MarketError (List (ℚ × ℚ) × List (ℚ × ℚ)) := do
  let bids ← readLevels T (· = 2) "b" (item message "b")
  let asks ← readLevels T (· = 2) "a" (item message "a")
  pure (bids, asks)

/-! ## The sequence gate -/

structure BinanceDepthSequenceGate where
  symbol : String
  updateId : Option ℤ := none
  connectionId : Option String := none
  firstStreamEvent : Bool := true

namespace BinanceDepthSequenceGate

def bootstrap (g : BinanceDepthSequenceGate) (snapshotUpdateId : ℤ) (connectionId : String) :
    Except MarketError Unit × BinanceDepthSequenceGate :=
  if snapshotUpdateId ≤ 0 ∨ connectionId = "" then
    (.error (.valueError "valid snapshot update ID and connection are required"), g)
  else
    (.ok (), { g with
      updateId := some snapshotUpdateId
      connectionId := some connectionId
      firstStreamEvent := true })

def invalidate (g : BinanceDepthSequenceGate) : BinanceDepthSequenceGate :=
  { g with updateId := none, connectionId := none, firstStreamEvent := true }

/-- The part of `apply` after the message is read. -/
def advance (g : BinanceDepthSequenceGate) (updateId : ℤ) (m : BinanceDepth) :
    Except MarketError Bool × BinanceDepthSequenceGate :=
  if m.final < m.first then
    (.error (.sequenceGap (g.symbol ++ " invalid update range")), g.invalidate)
  else if m.final ≤ updateId then (.ok false, g)
  else if g.firstStreamEvent then
    let expected := updateId + 1
    if m.first ≤ expected ∧ expected ≤ m.final then
      (.ok true, { g with firstStreamEvent := false, updateId := some m.final })
    else
      (.error (.sequenceGap (g.symbol ++ " snapshot bridge missing expected update " ++
        toString expected)), g.invalidate)
  else if m.previous ≠ updateId then
    (.error (.sequenceGap (g.symbol ++ " expected pu=" ++ toString updateId ++ ", observed pu=" ++
      toString m.previous)), g.invalidate)
  else (.ok true, { g with updateId := some m.final })

/-- `apply`. -/
def apply (g : BinanceDepthSequenceGate) (e : RawMarketEvent D) :
    Except MarketError Bool × BinanceDepthSequenceGate :=
  if e.exchange ≠ "binance" ∨ e.channel ≠ "orderbook" then
    (.error (.replay "depth gate accepts only Binance orderbook events"), g)
  else if e.symbol ≠ g.symbol then
    (.error (.replay ("gate " ++ g.symbol ++ " cannot accept " ++ e.symbol)), g)
  else
    match g.updateId, g.connectionId with
    | some updateId, some connectionId =>
      if e.connectionId ≠ connectionId then
        (.error (.snapshotRequired (g.symbol ++ " connection changed")), g.invalidate)
      else
        match readDepth F T e with
        | .error err => (.error err, g)
        | .ok m => g.advance updateId m
    | _, _ => (.error (.snapshotRequired (g.symbol ++ " requires a REST depth snapshot")), g)

end BinanceDepthSequenceGate

/-! ## The order book -/

structure BinanceOrderBook where
  symbol : String
  sides : Sides := .empty
  updateId : Option ℤ := none

namespace BinanceOrderBook

def isReady (b : BinanceOrderBook) : Bool := b.sides.filled && b.updateId.isSome

/-- The end of `load_snapshot` and of `apply_delta`. -/
def store (b : BinanceOrderBook) (sides : Sides) (updateId : ℤ) :
    Except MarketError Unit × BinanceOrderBook :=
  match validateBook T b.symbol sides with
  | .error e => (.error e, b)
  | .ok () => (.ok (), { b with sides, updateId := some updateId })

/-- `load_snapshot`. -/
def loadSnapshot (b : BinanceOrderBook) (m : BinanceSnapshot) :
    Except MarketError Unit × BinanceOrderBook := b.store T (.ofSnapshot m.bids m.asks) m.updateId

/-- `apply_delta`. -/
def applyDelta (b : BinanceOrderBook) (message : List (String × PyJson)) (updateId : ℤ) :
    Except MarketError Unit × BinanceOrderBook :=
  if !b.isReady then
    (.error (.snapshotRequired (b.symbol ++ " delta arrived before a valid snapshot")), b)
  else
    match readDelta T message with
    | .error e => (.error e, b)
    | .ok (bids, asks) => b.store T (b.sides.apply bids asks) updateId

end BinanceOrderBook

/-! ## The session -/

/-- The gate and the book of a symbol. -/
structure BinancePair where
  gate : BinanceDepthSequenceGate
  book : BinanceOrderBook

namespace BinancePair

/-- The branch of `apply` for snapshots. -/
def applySnapshot (p : BinancePair) (e : RawMarketEvent D) : Except MarketError Unit × BinancePair :=
  match readSnapshot F T e with
  | .error err => (.error err, p)
  | .ok m =>
    match p.book.loadSnapshot T m with
    | (.error err, book) => (.error err, { p with book })
    | (.ok (), book) =>
      let (answer, gate) := p.gate.bootstrap m.updateId e.connectionId
      (answer, ⟨gate, book⟩)

/-- The branch of `apply` for other order-book events. -/
def applyDepth (p : BinancePair) (e : RawMarketEvent D) : Except MarketError Unit × BinancePair :=
  match p.gate.apply F T e with
  | (.error err, gate) => (.error err, { p with gate })
  | (.ok false, gate) => (.ok (), { p with gate })
  | (.ok true, gate) =>
    match e.payload F >>= streamMessage with
    | .error err => (.error err, { p with gate })
    | .ok message =>
      match requiredInt T (item message "u") "u" with
      | .error err => (.error err, { p with gate })
      | .ok updateId =>
        let (answer, book) := p.book.applyDelta T message updateId
        (answer, ⟨gate, book⟩)

/-- The part of `apply` for order-book events. -/
def apply (p : BinancePair) (e : RawMarketEvent D) : Except MarketError Unit × BinancePair :=
  if e.messageType = "snapshot" then p.applySnapshot F T e else p.applyDepth F T e

end BinancePair

structure BinanceReplaySession where
  pairs : String → Option BinancePair := fun _ => none
  channelCounts : String → ℕ := fun _ => 0
  rawEventCount : ℕ := 0

namespace BinanceReplaySession

/-- `self.books.setdefault(...)` and `self.gates.setdefault(...)`. -/
def pair (s : BinanceReplaySession) (symbol : String) : BinancePair :=
  (s.pairs symbol).getD ⟨{ symbol }, { symbol }⟩

/-- `apply`. -/
def apply (s : BinanceReplaySession) (e : RawMarketEvent D) :
    Except MarketError Unit × BinanceReplaySession :=
  if e.exchange ≠ "binance" then
    (.error (.replay "BinanceReplaySession accepts only Binance events"), s)
  else
    let counted := { s with
      rawEventCount := s.rawEventCount + 1
      channelCounts := Function.update s.channelCounts e.channel (s.channelCounts e.channel + 1) }
    if e.channel ≠ "orderbook" then (.ok (), counted)
    else
      let (answer, pair) := (s.pair e.symbol).apply F T e
      (answer, { counted with pairs := Function.update s.pairs e.symbol (some pair) })

end BinanceReplaySession

/-! ## The history of a book -/

/-- What matters of an event for the history of a book. -/
inductive BinanceSeen where
  /-- A snapshot that was applied. -/
  | snapshot (m : BinanceSnapshot)
  /-- A delta that the gate accepted, with its levels. -/
  | delta (levels : Except MarketError (List (ℚ × ℚ) × List (ℚ × ℚ)))
  | gap

def BinancePair.sees (p : BinancePair) (e : RawMarketEvent D) : Option BinanceSeen :=
  if e.messageType = "snapshot" then
    match (p.applySnapshot F T e).1, readSnapshot F T e with
    | .ok _, .ok m => some (.snapshot m)
    | _, _ => none
  else
    match (p.gate.apply F T e).1 with
    | .ok true => some (.delta (readDepth F T e >>= fun m => readDelta T m.message))
    | .error (.sequenceGap _) => some .gap
    | _ => none

/-- A snapshot and the deltas accepted since. -/
structure BinanceHistory where
  snapshot : BinanceSnapshot
  deltas : List (Except MarketError (List (ℚ × ℚ) × List (ℚ × ℚ)))

namespace BinanceHistory

/-- The history after an event; there is none after a gap. -/
def extend (h : Option BinanceHistory) : Option BinanceSeen → Option BinanceHistory
  | none => h
  | some (.snapshot m) => some ⟨m, []⟩
  | some (.delta levels) => h.map fun h => { h with deltas := h.deltas ++ [levels] }
  | some .gap => none

/-- The sides are the levels of the snapshot with all deltas applied in order. -/
def Folds (h : BinanceHistory) (s : Sides) : Prop :=
  ∃ ds : List (List (ℚ × ℚ) × List (ℚ × ℚ)), h.deltas = ds.map .ok ∧
    Same s.bids (writeAll (collect h.snapshot.bids) (ds.flatMap Prod.fst)) ∧
    Same s.asks (writeAll (collect h.snapshot.asks) (ds.flatMap Prod.snd))

end BinanceHistory

/-- A book that is ready has the update id of the gate, and folds its history. -/
def BinancePair.InStep (p : BinancePair) (history : Option BinanceHistory) : Prop :=
  p.book.isReady = true →
    p.gate.updateId = p.book.updateId ∧ ∃ h, history = some h ∧ h.Folds p.book.sides

/-- A session, with the history of every book. -/
structure BinanceRun where
  session : BinanceReplaySession := {}
  history : String → Option BinanceHistory := fun _ => none

namespace BinanceRun

/-- `apply`, with the error caught. -/
def step (r : BinanceRun) (e : RawMarketEvent D) : BinanceRun where
  session := (r.session.apply F T e).2
  history :=
    if e.exchange = "binance" ∧ e.channel = "orderbook" then
      Function.update r.history e.symbol
        (BinanceHistory.extend (r.history e.symbol) ((r.session.pair e.symbol).sees F T e))
    else r.history

def InStep (r : BinanceRun) : Prop := ∀ symbol, (r.session.pair symbol).InStep (r.history symbol)

end BinanceRun

/-! ## Events that keep them in step -/

/-- The event follows the update id of the gate. -/
def BinanceDepthSequenceGate.Continues (g : BinanceDepthSequenceGate) (updateId : ℤ)
    (m : BinanceDepth) : Prop :=
  if g.firstStreamEvent then m.first ≤ updateId + 1 else m.previous = updateId

/-- A snapshot with valid levels has a positive update id. While the gate has an update id,
every other event is of its connection, and if it can be read it is stale, or it continues the
gate and its levels apply to the book. -/
def BinancePair.Follows (p : BinancePair) (e : RawMarketEvent D) : Prop :=
  if e.messageType = "snapshot" then
    ∀ m, readSnapshot F T e = .ok m → (Sides.ofSnapshot m.bids m.asks).Valid → 0 < m.updateId
  else
    ∀ updateId, p.gate.updateId = some updateId →
      p.gate.connectionId = some e.connectionId ∧
      ∀ m, readDepth F T e = .ok m → m.first ≤ m.final ∧
        (updateId < m.final → p.gate.Continues updateId m ∧
          ∃ bids asks, readDelta T m.message = .ok (bids, asks) ∧
            (p.book.sides.apply bids asks).Valid)

def BinanceRun.Follows (r : BinanceRun) (e : RawMarketEvent D) : Prop :=
  e.exchange = "binance" → e.channel = "orderbook" → (r.session.pair e.symbol).Follows F T e

/-! ## What an event does -/

variable {F T}

variable {sides : Sides}

variable {updateId : ℤ}

variable {b : BinanceOrderBook}

theorem BinanceOrderBook.store_of_valid
    (h : sides.Valid) :
    b.store T sides updateId = (.ok (), { b with sides, updateId := some updateId }) := by
  unfold BinanceOrderBook.store
  rw [validateBook_eq_ok.mpr h]

theorem BinanceOrderBook.store_of_not_valid
    (h : ¬ sides.Valid) (updateId : ℤ) : ∃ err, b.store T sides updateId = (.error err, b) := by
  unfold BinanceOrderBook.store
  cases hvalid : validateBook T b.symbol sides with
  | ok _ => exact absurd (validateBook_eq_ok.mp hvalid) h
  | error err => exact ⟨err, rfl⟩

/-- The three outcomes of the gate after it read a message. -/
theorem BinanceDepthSequenceGate.advance_cases (g : BinanceDepthSequenceGate) (updateId : ℤ)
    (m : BinanceDepth) :
    (¬ (m.first ≤ m.final ∧ (updateId < m.final → g.Continues updateId m)) ∧
      ∃ msg, g.advance updateId m = (.error (.sequenceGap msg), g.invalidate)) ∨
    (m.first ≤ m.final ∧ m.final ≤ updateId ∧ g.advance updateId m = (.ok false, g)) ∨
    (m.first ≤ m.final ∧ updateId < m.final ∧ g.Continues updateId m ∧
      ∃ first, g.advance updateId m =
        (.ok true, { g with firstStreamEvent := first, updateId := some m.final })) := by
  unfold BinanceDepthSequenceGate.advance BinanceDepthSequenceGate.Continues
  by_cases hrange : m.final < m.first
  · rw [if_pos hrange]
    exact .inl ⟨fun h => by omega, _, rfl⟩
  · rw [if_neg hrange]
    by_cases hstale : m.final ≤ updateId
    · rw [if_pos hstale]
      exact .inr (.inl ⟨by omega, hstale, rfl⟩)
    · rw [if_neg hstale]
      by_cases hfirst : g.firstStreamEvent = true
      · simp only [if_pos hfirst]
        by_cases hbridge : m.first ≤ updateId + 1 ∧ updateId + 1 ≤ m.final
        · rw [if_pos hbridge]
          exact .inr (.inr ⟨by omega, by omega, hbridge.1, _, rfl⟩)
        · rw [if_neg hbridge]
          exact .inl ⟨fun h => hbridge ⟨h.2 (by omega), by omega⟩, _, rfl⟩
      · simp only [if_neg hfirst]
        by_cases hprevious : m.previous ≠ updateId
        · rw [if_pos hprevious]
          exact .inl ⟨fun h => hprevious (h.2 (by omega)), _, rfl⟩
        · rw [if_neg hprevious]
          exact .inr (.inr ⟨by omega, by omega, not_not.mp hprevious, g.firstStreamEvent, rfl⟩)

variable {e : RawMarketEvent D}

/-- An event that cannot be read is no gap. -/
theorem readDepth_error {err : MarketError}
    (h : readDepth F T e = .error err) (msg : String) : err ≠ .sequenceGap msg := by
  rcases bind_eq_error.mp h with h | ⟨payload, -, h⟩
  · exact payload_ne_gap h msg
  · rcases bind_eq_error.mp h with h | ⟨message, -, h⟩
    · unfold streamMessage at h
      split at h
      · cases h
      · cases h
        exact MarketError.noConfusion
    · rcases bind_eq_error.mp h with h | ⟨_, -, h⟩
      · exact requiredInt_ne_gap h msg
      · rcases bind_eq_error.mp h with h | ⟨_, -, h⟩
        · exact requiredInt_ne_gap h msg
        · rcases bind_eq_error.mp h with h | ⟨_, -, h⟩
          · exact requiredInt_ne_gap h msg
          · cases h

variable {g : BinanceDepthSequenceGate}

/-- What the gate does with an event of its book. -/
theorem BinanceDepthSequenceGate.apply_cases
    {connectionId : String} (hexchange : e.exchange = "binance")
    (hchannel : e.channel = "orderbook") (hsymbol : g.symbol = e.symbol)
    (hupdate : g.updateId = some updateId) (hconn : g.connectionId = some connectionId) :
    (e.connectionId ≠ connectionId ∧
      ∃ msg, g.apply F T e = (.error (.snapshotRequired msg), g.invalidate)) ∨
    (e.connectionId = connectionId ∧
      ∃ err, readDepth F T e = .error err ∧ g.apply F T e = (.error err, g)) ∨
    (e.connectionId = connectionId ∧
      ∃ m, readDepth F T e = .ok m ∧ g.apply F T e = g.advance updateId m) := by
  unfold BinanceDepthSequenceGate.apply
  rw [if_neg (by simp [hexchange, hchannel]), if_neg (by simp [hsymbol]), hupdate, hconn]
  by_cases hsame : e.connectionId = connectionId
  · simp only [hsame, ne_eq, not_true_eq_false, if_false, true_and]
    cases hread : readDepth F T e with
    | error err => exact .inr (.inl ⟨err, rfl, rfl⟩)
    | ok m => exact .inr (.inr ⟨m, rfl, rfl⟩)
  · simp only [ne_eq, hsame, not_false_eq_true, if_true]
    exact .inl ⟨trivial, _, rfl⟩

/-- Without an update id the gate requires a snapshot. -/
theorem BinanceDepthSequenceGate.apply_none
    (hexchange : e.exchange = "binance") (hchannel : e.channel = "orderbook")
    (hsymbol : g.symbol = e.symbol) (hupdate : g.updateId = none) :
    ∃ msg, g.apply F T e = (.error (.snapshotRequired msg), g) := by
  unfold BinanceDepthSequenceGate.apply
  rw [if_neg (by simp [hexchange, hchannel]), if_neg (by simp [hsymbol]), hupdate]
  exact ⟨_, rfl⟩

/-- What an event leaves of a pair, and what is seen of it. -/
inductive BinancePair.Outcome (F : Floats) (T : Texts) (p : BinancePair) (e : RawMarketEvent D) :
    BinancePair → Option BinanceSeen → Prop
  | same (hfollows : p.Follows F T e) : Outcome F T p e p none
  | snapshot {m : BinanceSnapshot} (hread : readSnapshot F T e = .ok m)
      (hvalid : (Sides.ofSnapshot m.bids m.asks).Valid) (hpos : 0 < m.updateId)
      (hfollows : p.Follows F T e) :
      Outcome F T p e
        ⟨⟨p.gate.symbol, some m.updateId, some e.connectionId, true⟩,
          ⟨p.book.symbol, .ofSnapshot m.bids m.asks, some m.updateId⟩⟩ (some (.snapshot m))
  /-- The snapshot is applied to the book alone. -/
  | bookOnly {m : BinanceSnapshot} (hvalid : (Sides.ofSnapshot m.bids m.asks).Valid)
      (hpos : m.updateId ≤ 0) (hbreaks : ¬ p.Follows F T e) :
      Outcome F T p e
        { p with book := ⟨p.book.symbol, .ofSnapshot m.bids m.asks, some m.updateId⟩ } none
  /-- The gate is invalidated alone. -/
  | invalid {seen : Option BinanceSeen} {updateId : ℤ} (hupdate : p.gate.updateId = some updateId)
      (hbreaks : ¬ p.Follows F T e) : Outcome F T p e { p with gate := p.gate.invalidate } seen
  | delta {m : BinanceDepth} {updateId : ℤ} {first : Bool} {bids asks : List (ℚ × ℚ)}
      (hupdate : p.gate.updateId = some updateId) (hlt : updateId < m.final)
      (hread : readDelta T m.message = .ok (bids, asks))
      (hvalid : (p.book.sides.apply bids asks).Valid) (hfollows : p.Follows F T e) :
      Outcome F T p e
        ⟨{ p.gate with firstStreamEvent := first, updateId := some m.final },
          ⟨p.book.symbol, p.book.sides.apply bids asks, some m.final⟩⟩
        (some (.delta (.ok (bids, asks))))
  /-- The delta is accepted by the gate alone. -/
  | gateOnly {m : BinanceDepth} {updateId : ℤ} {first : Bool} {seen : Option BinanceSeen}
      (hupdate : p.gate.updateId = some updateId) (hlt : updateId < m.final)
      (hbreaks : ¬ p.Follows F T e) :
      Outcome F T p e
        { p with gate := { p.gate with firstStreamEvent := first, updateId := some m.final } } seen

/-- What holds of a gate and a book in every run: while the gate has an update id, that is
positive, and the book is ready. -/
structure BinancePair.Sound (p : BinancePair) (symbol : String) : Prop where
  symbol : p.gate.symbol = symbol
  tracked : ∀ updateId, p.gate.updateId = some updateId →
    0 < updateId ∧ (∃ c, p.gate.connectionId = some c) ∧ p.book.isReady = true

variable {p : BinancePair}

theorem applySnapshot_outcome
    (hsnapshot : e.messageType = "snapshot") :
    p.Outcome F T e (p.apply F T e).2 (p.sees F T e) := by
  have hfollows : p.Follows F T e ↔ ∀ m, readSnapshot F T e = .ok m →
      (Sides.ofSnapshot m.bids m.asks).Valid → 0 < m.updateId := by
    rw [BinancePair.Follows, if_pos hsnapshot]
  rw [BinancePair.apply, BinancePair.sees, if_pos hsnapshot, if_pos hsnapshot,
    BinancePair.applySnapshot]
  cases hread : readSnapshot F T e with
  | error err =>
    exact .same (hfollows.mpr fun m hm => by rw [hread] at hm; cases hm)
  | ok m =>
    have hiff : p.Follows F T e ↔ ((Sides.ofSnapshot m.bids m.asks).Valid → 0 < m.updateId) := by
      rw [hfollows, hread]
      simp
    simp only [BinanceOrderBook.loadSnapshot]
    by_cases hvalid : (Sides.ofSnapshot m.bids m.asks).Valid
    · simp only [BinanceOrderBook.store_of_valid hvalid, BinanceDepthSequenceGate.bootstrap]
      by_cases hpos : m.updateId ≤ 0
      · rw [if_pos (.inl hpos)]
        exact .bookOnly hvalid hpos fun h => absurd (hiff.mp h hvalid) (not_lt.mpr hpos)
      · rw [if_neg (not_or.mpr ⟨hpos, e.connected⟩)]
        exact .snapshot hread hvalid (not_le.mp hpos) (hiff.mpr fun _ => not_le.mp hpos)
    · obtain ⟨err, hstore⟩ := BinanceOrderBook.store_of_not_valid (T := T) (b := p.book) hvalid
        m.updateId
      simp only [hstore]
      exact .same (hiff.mpr fun h => absurd h hvalid)

/-- A gate that accepts an event: the rest is up to the book. -/
theorem applyDepth_accepted {m : BinanceDepth}
    {gate : BinanceDepthSequenceGate} (hgate : p.gate.apply F T e = (.ok true, gate))
    (hread : readDepth F T e = .ok m) :
    p.applyDepth F T e = ((p.book.applyDelta T m.message m.final).1,
      ⟨gate, (p.book.applyDelta T m.message m.final).2⟩) := by
  obtain ⟨payload, hpayload, hread⟩ := bind_eq_ok.mp hread
  obtain ⟨message, hmessage, hread⟩ := bind_eq_ok.mp hread
  obtain ⟨first, -, hread⟩ := bind_eq_ok.mp hread
  obtain ⟨final, hfinal, hread⟩ := bind_eq_ok.mp hread
  obtain ⟨previous, -, hread⟩ := bind_eq_ok.mp hread
  cases hread
  have hstream : (e.payload F >>= streamMessage) = .ok message :=
    bind_eq_ok.mpr ⟨payload, hpayload, hmessage⟩
  unfold BinancePair.applyDepth
  simp only [hgate, hstream, hfinal]

theorem applyDepth_outcome
    (hexchange : e.exchange = "binance") (hchannel : e.channel = "orderbook")
    (hsnapshot : e.messageType ≠ "snapshot") (hsound : p.Sound e.symbol) :
    p.Outcome F T e (p.apply F T e).2 (p.sees F T e) := by
  have hfollows : p.Follows F T e ↔ ∀ updateId, p.gate.updateId = some updateId →
      p.gate.connectionId = some e.connectionId ∧
      ∀ m, readDepth F T e = .ok m → m.first ≤ m.final ∧
        (updateId < m.final → p.gate.Continues updateId m ∧
          ∃ bids asks, readDelta T m.message = .ok (bids, asks) ∧
            (p.book.sides.apply bids asks).Valid) := by
    rw [BinancePair.Follows, if_neg hsnapshot]
  rw [BinancePair.apply, BinancePair.sees, if_neg hsnapshot, if_neg hsnapshot]
  cases hupdate : p.gate.updateId with
  | none =>
    obtain ⟨msg, hgate⟩ := BinanceDepthSequenceGate.apply_none (F := F) (T := T) hexchange hchannel
      hsound.symbol hupdate
    simp only [BinancePair.applyDepth, hgate]
    exact .same (hfollows.mpr fun u hu => by rw [hupdate] at hu; cases hu)
  | some updateId =>
    obtain ⟨-, ⟨c, hconn⟩, hready⟩ := hsound.tracked updateId hupdate
    rcases BinanceDepthSequenceGate.apply_cases (F := F) (T := T) hexchange hchannel hsound.symbol
      hupdate hconn with ⟨hother, msg, hgate⟩ | ⟨rfl, err, hread, hgate⟩ | ⟨rfl, m, hread, hgate⟩
    · simp only [BinancePair.applyDepth, hgate]
      refine .invalid hupdate fun h => hother ?_
      have hsame := (hfollows.mp h updateId hupdate).1
      rw [hconn] at hsame
      exact (Option.some.inj hsame).symm
    · simp only [BinancePair.applyDepth, hgate]
      have hsees : (match (Except.error err : Except MarketError Bool) with
          | .ok true => some (BinanceSeen.delta
              (readDepth F T e >>= fun m => readDelta T m.message))
          | .error (.sequenceGap _) => some .gap
          | _ => none) = none := by
        split
        · next h => cases h
        · next h =>
          cases h
          exact absurd rfl (readDepth_error hread _)
        · rfl
      rw [hsees]
      refine .same (hfollows.mpr fun u _ => ⟨hconn, fun m hm => ?_⟩)
      rw [hread] at hm
      cases hm
    · have hiff : p.Follows F T e ↔ m.first ≤ m.final ∧
          (updateId < m.final → p.gate.Continues updateId m ∧
            ∃ bids asks, readDelta T m.message = .ok (bids, asks) ∧
              (p.book.sides.apply bids asks).Valid) := by
        rw [hfollows, hupdate, hread]
        simp [hconn]
      rcases p.gate.advance_cases updateId m with ⟨hbreaks, msg, hadvance⟩ |
        ⟨hrange, hstale, hadvance⟩ | ⟨hrange, hlt, hcontinues, first, hadvance⟩
      · simp only [BinancePair.applyDepth, hgate, hadvance]
        refine .invalid hupdate fun h => hbreaks ⟨(hiff.mp h).1, fun hlt => ((hiff.mp h).2 hlt).1⟩
      · simp only [BinancePair.applyDepth, hgate, hadvance]
        exact .same (hiff.mpr ⟨hrange, fun hlt => absurd hlt (not_lt.mpr hstale)⟩)
      · rw [hadvance] at hgate
        rw [applyDepth_accepted hgate hread, hgate, hread]
        have hdelta : (Except.ok m >>= fun m : BinanceDepth => readDelta T m.message) =
            readDelta T m.message := rfl
        simp only [hdelta, BinanceOrderBook.applyDelta, hready, Bool.not_true, Bool.false_eq_true,
          if_false]
        cases hlevels : readDelta T m.message with
        | error err =>
          refine .gateOnly hupdate hlt fun h => ?_
          obtain ⟨-, bids, asks, hok, -⟩ := (hiff.mp h).2 hlt
          rw [hlevels] at hok
          cases hok
        | ok levels =>
          obtain ⟨bids, asks⟩ := levels
          by_cases hvalid : (p.book.sides.apply bids asks).Valid
          · simp only [BinanceOrderBook.store_of_valid hvalid]
            exact .delta hupdate hlt hlevels hvalid
              (hiff.mpr ⟨hrange, fun _ => ⟨hcontinues, bids, asks, hlevels, hvalid⟩⟩)
          · obtain ⟨err, hstore⟩ := BinanceOrderBook.store_of_not_valid (T := T) (b := p.book)
              hvalid m.final
            simp only [hstore]
            refine .gateOnly hupdate hlt fun h => ?_
            obtain ⟨-, bids', asks', hok, hvalid'⟩ := (hiff.mp h).2 hlt
            rw [hlevels] at hok
            cases hok
            exact hvalid hvalid'

/-- Every event of the gate's own book has an outcome. -/
theorem BinancePair.outcome
    (hexchange : e.exchange = "binance") (hchannel : e.channel = "orderbook")
    (hsound : p.Sound e.symbol) : p.Outcome F T e (p.apply F T e).2 (p.sees F T e) := by
  by_cases hsnapshot : e.messageType = "snapshot"
  · exact applySnapshot_outcome hsnapshot
  · exact applyDepth_outcome hexchange hchannel hsnapshot hsound

/-! ## Runs -/

variable {symbol : String}

theorem BinanceOrderBook.ready_of_valid
    (h : sides.Valid) : (⟨symbol, sides, some updateId⟩ : BinanceOrderBook).isReady = true := by
  simp [BinanceOrderBook.isReady, Sides.filled_eq_true.mpr ⟨h.bids, h.asks⟩]

variable {p q : BinancePair} {seen : Option BinanceSeen}

theorem BinancePair.Outcome.sound
    (h : p.Outcome F T e q seen)
    (hsound : p.Sound symbol) : q.Sound symbol := by
  cases h with
  | same _ => exact hsound
  | snapshot _ hvalid hpos _ =>
    refine ⟨hsound.symbol, fun u hu => ?_⟩
    cases hu
    exact ⟨hpos, ⟨_, rfl⟩, BinanceOrderBook.ready_of_valid hvalid⟩
  | bookOnly hvalid _ _ =>
    refine ⟨hsound.symbol, fun u hu => ?_⟩
    obtain ⟨hpos, hconn, -⟩ := hsound.tracked u hu
    exact ⟨hpos, hconn, BinanceOrderBook.ready_of_valid hvalid⟩
  | invalid _ _ =>
    refine ⟨hsound.symbol, fun u hu => ?_⟩
    cases hu
  | delta hupdate hlt _ hvalid _ =>
    obtain ⟨hpos, hconn, -⟩ := hsound.tracked _ hupdate
    refine ⟨hsound.symbol, fun u hu => ?_⟩
    cases hu
    exact ⟨hpos.trans hlt, hconn, BinanceOrderBook.ready_of_valid hvalid⟩
  | gateOnly hupdate hlt _ =>
    obtain ⟨hpos, hconn, hready⟩ := hsound.tracked _ hupdate
    refine ⟨hsound.symbol, fun u hu => ?_⟩
    cases hu
    exact ⟨hpos.trans hlt, hconn, hready⟩

theorem readSnapshot_levels {m : BinanceSnapshot}
    (h : readSnapshot F T e = .ok m) : Sides.ofSnapshot m.bids m.asks =
      ⟨collect m.bids, collect m.asks⟩ := by
  obtain ⟨_, -, h⟩ := bind_eq_ok.mp h
  obtain ⟨_, -, h⟩ := bind_eq_ok.mp h
  obtain ⟨bids, hbids, h⟩ := bind_eq_ok.mp h
  obtain ⟨asks, hasks, h⟩ := bind_eq_ok.mp h
  cases h
  rw [Sides.ofSnapshot, positiveLevels_eq fun level hlevel => (readLevels_eq_ok hbids level hlevel).2,
    positiveLevels_eq fun level hlevel => (readLevels_eq_ok hasks level hlevel).2]

/-- One more delta. -/
theorem BinanceHistory.Folds.delta {h : BinanceHistory}
    (hfolds : h.Folds sides) (bids asks : List (ℚ × ℚ)) :
    BinanceHistory.Folds { h with deltas := h.deltas ++ [.ok (bids, asks)] }
      (sides.apply bids asks) := by
  obtain ⟨ds, hds, hbids, hasks⟩ := hfolds
  refine ⟨ds ++ [(bids, asks)], ?_, ?_, ?_⟩
  · rw [List.map_append, ← hds]
    rfl
  · rw [List.flatMap_append, List.flatMap_singleton, writeAll_append]
    exact hbids.writeAll bids
  · rw [List.flatMap_append, List.flatMap_singleton, writeAll_append]
    exact hasks.writeAll asks

/-- A pair stays in step exactly if the event follows. -/
theorem BinancePair.Outcome.inStep
    {history : Option BinanceHistory}
    (h : p.Outcome F T e q seen) (hsound : p.Sound symbol) (hin : p.InStep history) :
    q.InStep (BinanceHistory.extend history seen) ↔ p.Follows F T e := by
  cases h with
  | same hfollows => exact ⟨fun _ => hfollows, fun _ => hin⟩
  | snapshot hread _ _ hfollows =>
    refine ⟨fun _ => hfollows, fun _ _ => ⟨rfl, ⟨_, []⟩, rfl, [], rfl, ?_, ?_⟩⟩
    · rw [readSnapshot_levels hread]
      exact Same.refl _
    · rw [readSnapshot_levels hread]
      exact Same.refl _
  | bookOnly hvalid hpos hbreaks =>
    refine ⟨fun hnew => ?_, fun hfollows => absurd hfollows hbreaks⟩
    have hupdate := (hnew (BinanceOrderBook.ready_of_valid hvalid)).1
    exact absurd (hsound.tracked _ hupdate).1 (not_lt.mpr hpos)
  | invalid hupdate hbreaks =>
    refine ⟨fun hnew => ?_, fun hfollows => absurd hfollows hbreaks⟩
    have hready := (hsound.tracked _ hupdate).2.2
    have hold := (hin hready).1
    rw [← (hnew hready).1, hupdate] at hold
    cases hold
  | delta hupdate _ _ _ hfollows =>
    refine ⟨fun _ => hfollows, fun _ _ => ⟨rfl, ?_⟩⟩
    obtain ⟨-, h, rfl, hfolds⟩ := hin (hsound.tracked _ hupdate).2.2
    exact ⟨_, rfl, hfolds.delta _ _⟩
  | gateOnly hupdate hlt hbreaks =>
    refine ⟨fun hnew => ?_, fun hfollows => absurd hfollows hbreaks⟩
    have hready := (hsound.tracked _ hupdate).2.2
    have hold := (hin hready).1
    rw [← (hnew hready).1, hupdate] at hold
    exact absurd (Option.some.inj hold) hlt.ne

variable {s : BinanceReplaySession}

theorem pair_apply_own
    (hexchange : e.exchange = "binance") (hchannel : e.channel = "orderbook") (symbol : String) :
    (s.apply F T e).2.pair symbol =
      if symbol = e.symbol then ((s.pair e.symbol).apply F T e).2 else s.pair symbol := by
  unfold BinanceReplaySession.apply
  rw [if_neg (not_not.mpr hexchange), if_neg (not_not.mpr hchannel)]
  by_cases h : symbol = e.symbol
  · subst h
    simp [BinanceReplaySession.pair]
  · simp [BinanceReplaySession.pair, h]

theorem pair_apply_other
    (h : ¬ (e.exchange = "binance" ∧ e.channel = "orderbook")) (symbol : String) :
    (s.apply F T e).2.pair symbol = s.pair symbol := by
  unfold BinanceReplaySession.apply
  split
  · rfl
  · next hexchange =>
    rw [if_pos fun hchannel => h ⟨not_not.mp hexchange, hchannel⟩]
    rfl

namespace BinanceRun

def Sound (r : BinanceRun) : Prop := ∀ symbol, (r.session.pair symbol).Sound symbol

theorem sound_step (r : BinanceRun) (e : RawMarketEvent D) (h : r.Sound) :
    (r.step F T e).Sound := by
  intro symbol
  unfold step
  by_cases hown : e.exchange = "binance" ∧ e.channel = "orderbook"
  · rw [pair_apply_own hown.1 hown.2]
    split
    · next hsymbol =>
      subst hsymbol
      exact (BinancePair.outcome hown.1 hown.2 (h e.symbol)).sound (h e.symbol)
    · exact h symbol
  · rw [pair_apply_other hown]
    exact h symbol

/-- An order-book event concerns the pair of its symbol. -/
theorem inStep_own {r : BinanceRun} {e : RawMarketEvent D}
    (hexchange : e.exchange = "binance") (hchannel : e.channel = "orderbook") :
    (r.step F T e).InStep ↔ ∀ symbol, if symbol = e.symbol then
      ((r.session.pair e.symbol).apply F T e).2.InStep
        (BinanceHistory.extend (r.history e.symbol) ((r.session.pair e.symbol).sees F T e))
      else (r.session.pair symbol).InStep (r.history symbol) := by
  refine forall_congr' fun symbol => ?_
  unfold step
  rw [pair_apply_own hexchange hchannel]
  simp only [if_pos (And.intro hexchange hchannel)]
  by_cases hsymbol : symbol = e.symbol
  · subst hsymbol
    rw [if_pos rfl, if_pos rfl, Function.update_self]
  · rw [if_neg hsymbol, if_neg hsymbol, Function.update_of_ne hsymbol]

theorem inStep_step (r : BinanceRun) (e : RawMarketEvent D) (hsound : r.Sound) (h : r.InStep) :
    (r.step F T e).InStep ↔ r.Follows F T e := by
  by_cases hown : e.exchange = "binance" ∧ e.channel = "orderbook"
  · have hpair := (BinancePair.outcome (F := F) (T := T) hown.1 hown.2 (hsound e.symbol)).inStep
      (hsound e.symbol) (h e.symbol)
    rw [inStep_own hown.1 hown.2]
    constructor
    · intro hnew _ _
      have hnew := hnew e.symbol
      rw [if_pos rfl] at hnew
      exact hpair.mp hnew
    · intro hfollows symbol
      split
      · exact hpair.mpr (hfollows hown.1 hown.2)
      · exact h symbol
  · refine ⟨fun _ hexchange hchannel => absurd ⟨hexchange, hchannel⟩ hown, fun _ symbol => ?_⟩
    unfold step
    rw [pair_apply_other hown]
    simp only [if_neg hown]
    exact h symbol

end BinanceRun

/-- **Binance replay.** In every run, all books that are ready have the update id of their gate
and the levels of their snapshot with all deltas accepted since, after every event, exactly if
every event follows. -/
theorem binance_replay (F : Floats) (T : Texts) (events : List (RawMarketEvent D)) :
    Runs.Always (BinanceRun.step F T) BinanceRun.InStep {} events ↔
      Runs.Meets (BinanceRun.step F T) (BinanceRun.Follows F T) {} events := by
  refine Runs.always_iff_meets (I := BinanceRun.Sound) BinanceRun.sound_step BinanceRun.inStep_step
    events (fun symbol => ⟨rfl, fun u hu => ?_⟩) (fun symbol hready => ?_)
  · cases hu
  · cases hready

/-! ## A gap -/

/-- A depth snapshot. -/
def depthSnapshot : List (String × PyJson) :=
  [("asks", levelTexts [] [("101", "1")]), ("bids", levelTexts [] [("99", "1")]),
    ("lastUpdateId", .int 10)]

theorem canonical_depthSnapshot : Json.Canonical (.obj depthSnapshot) := by
  refine .obj (Json.sorted_of_keys ?_) ?_
  · show (["asks", "bids", "lastUpdateId"] : List String).Pairwise (· < ·)
    decide +kernel
  · simp [depthSnapshot]

/-- Updates 15 and 16, without those from 11 to 14. -/
def depthGap : List (String × PyJson) :=
  [("U", .int 15), ("a", levelTexts [] []), ("b", levelTexts [] [("99", "2")]), ("pu", .int 14),
    ("u", .int 16)]

theorem canonical_depthGap : Json.Canonical (.obj depthGap) := by
  refine .obj (Json.sorted_of_keys ?_) ?_
  · show (["U", "a", "b", "pu", "u"] : List String).Pairwise (· < ·)
    decide +kernel
  · simp [depthGap]

def depthSnapshotEvent : RawMarketEvent (digestOf []) :=
  bookEvent "binance" "snapshot" "c" none depthSnapshot sampleConnection_ne

def depthGapEvent : RawMarketEvent (digestOf []) :=
  bookEvent "binance" "delta" "c" none depthGap sampleConnection_ne

theorem read_depthSnapshot : readSnapshot sampleFloats sampleTexts depthSnapshotEvent =
    .ok ⟨10, [(99, 1)], [(101, 1)]⟩ := by
  have hpayload : depthSnapshotEvent.payload sampleFloats = .ok depthSnapshot :=
    payload_bookEvent canonical_depthSnapshot
  rw [readSnapshot, hpayload]
  rfl

theorem read_depthGap : readDepth sampleFloats sampleTexts depthGapEvent =
    .ok ⟨depthGap, 15, 16, 14⟩ := by
  have hpayload : depthGapEvent.payload sampleFloats = .ok depthGap :=
    payload_bookEvent canonical_depthGap
  rw [readDepth, hpayload]
  rfl

theorem valid_depthSnapshot : (Sides.ofSnapshot [(99, 1)] [(101, 1)]).Valid :=
  ⟨by decide +kernel, by decide +kernel, by decide +kernel⟩

theorem apply_depthSnapshot (p : BinancePair) :
    (p.apply sampleFloats sampleTexts depthSnapshotEvent).2.gate =
      ⟨p.gate.symbol, some 10, some "c", true⟩ := by
  have hsnapshot : depthSnapshotEvent.messageType = "snapshot" := rfl
  have hconn : depthSnapshotEvent.connectionId = "c" := rfl
  rw [BinancePair.apply, if_pos hsnapshot, BinancePair.applySnapshot, read_depthSnapshot]
  simp [BinanceOrderBook.loadSnapshot, BinanceOrderBook.store_of_valid valid_depthSnapshot,
    BinanceDepthSequenceGate.bootstrap, hconn]

/-- The bridge from the snapshot is missing. -/
theorem gap_breaks {r : BinanceRun} (hsound : r.Sound) (hin : r.InStep)
    (hgate : (r.session.pair "BTC").gate = ⟨"BTC", some 10, some "c", true⟩) :
    ¬ (r.step sampleFloats sampleTexts depthGapEvent).InStep := by
  intro hnext
  have hexchange : depthGapEvent.exchange = "binance" := rfl
  have hchannel : depthGapEvent.channel = "orderbook" := rfl
  have hsymbol : depthGapEvent.symbol = "BTC" := rfl
  have hdelta : depthGapEvent.messageType ≠ "snapshot" := by decide
  have hfollows := (BinanceRun.inStep_step r depthGapEvent hsound hin).mp hnext hexchange hchannel
  rw [hsymbol, BinancePair.Follows, if_neg hdelta, hgate] at hfollows
  have hbridge := ((hfollows 10 rfl).2 _ read_depthGap).2 (by decide)
  have hnext : (15 : ℤ) ≤ 10 + 1 := hbridge.1
  omega

/-- After the gap the gate has no update id, and the book is ready. -/
theorem gap_keeps_book : ¬ ∀ events : List (RawMarketEvent (digestOf [])),
    Runs.Always (BinanceRun.step sampleFloats sampleTexts) BinanceRun.InStep {} events := by
  intro hclaim
  obtain ⟨-, hsnapshot, hgap⟩ := hclaim [depthSnapshotEvent, depthGapEvent]
  have hexchange : depthSnapshotEvent.exchange = "binance" := rfl
  have hchannel : depthSnapshotEvent.channel = "orderbook" := rfl
  have hsymbol : "BTC" = depthSnapshotEvent.symbol := rfl
  have hinit : BinanceRun.Sound {} := fun symbol => ⟨rfl, fun u hu => by cases hu⟩
  refine gap_breaks (BinanceRun.sound_step _ _ hinit) hsnapshot ?_ hgap
  rw [BinanceRun.step, pair_apply_own hexchange hchannel, if_pos hsymbol, apply_depthSnapshot]
  rfl

end Greenfield.Data
