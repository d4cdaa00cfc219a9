import Greenfield.Data.PriceLevels
import Greenfield.Lib.Run
import Mathlib.Data.List.Chain
import Mathlib.Logic.Function.Basic

/-!
# Bybit replay

`src/data/bybit_replay.py`. Every operation answers what it returns or raises, and the object
as it is afterwards: an error does not undo what was written before it.

A book that is ready is the fold of the last snapshot it accepted and of all deltas since,
exactly if no accepted snapshot lists a price with a size and after it with size zero
(`bybit_replay`): the dictionary of a snapshot skips the zero, and keeps the size
(`zero_size_kept`).
-/

namespace Greenfield.Data

open Py Keyed Depth

/-! ## The order book -/

structure BybitOrderBook where
  symbol : String
  sides : Sides := .empty
  updateId : Option ℤ := none
  sequence : Option ℤ := none

/-- What `apply_message` reads of a message. -/
structure BybitBookMessage where
  messageType : PyJson
  updateId : ℤ
  sequence : ℤ
  bids : List (ℚ × ℚ)
  asks : List (ℚ × ℚ)

/-- `value == text`. -/
def isText : PyJson → String → Bool
  | .str s, text => s = text
  | _, _ => false

def BybitBookMessage.isSnapshot (m : BybitBookMessage) : Bool := isText m.messageType "snapshot"

variable {D : Digests} (F : Floats) (T : Texts)

/-- The part of `apply_message` that reads the message. -/
def readBybitMessage (symbol : String) (message : List (String × PyJson)) :
    Except MarketError BybitBookMessage :=
  match item message "data" with
  | .obj data => do
    let updateId ← requiredInt T (item data "u") "u"
    let sequence ← requiredInt T (item data "seq") "seq"
    let bids ← readLevels T (· = 2) "b" (item data "b")
    let asks ← readLevels T (· = 2) "a" (item data "a")
    pure ⟨item message "type", updateId, sequence, bids, asks⟩
  | _ => .error (.replay (symbol ++ " order-book data must be an object"))

namespace BybitOrderBook

def isReady (b : BybitOrderBook) : Bool := b.sides.filled && b.updateId.isSome

def invalidate (b : BybitOrderBook) : BybitOrderBook :=
  { b with sides := .empty, updateId := none, sequence := none }

/-- The assignments at the end of both branches. -/
def store (b : BybitOrderBook) (sides : Sides) (m : BybitBookMessage) : BybitOrderBook :=
  { b with sides, updateId := some m.updateId, sequence := some m.sequence }

/-- The part of `apply_message` after the message is read. -/
def applyRead (b : BybitOrderBook) (m : BybitBookMessage) :
    Except MarketError Unit × BybitOrderBook :=
  if m.isSnapshot then
    let next := Sides.ofSnapshot m.bids m.asks
    match validateBook T b.symbol next with
    | .error e => (.error e, b)
    | .ok () => (.ok (), b.store next m)
  else if !isText m.messageType "delta" then
    (.error (.replay ("unrecognized Bybit order-book type: " ++ T.repr m.messageType)), b)
  else
    match b.isReady, b.updateId, b.sequence with
    | true, some updateId, some sequence =>
      let expected := updateId + 1
      if expected < m.updateId then
        (.error (.sequenceGap (b.symbol ++ " order-book update gap: expected u=" ++
          toString expected ++ ", observed u=" ++ toString m.updateId)), b.invalidate)
      else if m.updateId ≤ updateId then
        (.error (.sequenceRegression (b.symbol ++ " order-book u regressed or repeated: previous=" ++
          toString updateId ++ ", observed=" ++ toString m.updateId)), b.invalidate)
      else if m.sequence ≤ sequence then
        (.error (.sequenceRegression (b.symbol ++ " cross sequence did not increase: previous=" ++
          toString sequence ++ ", observed=" ++ toString m.sequence)), b.invalidate)
      else
        let next := b.sides.apply m.bids m.asks
        match validateBook T b.symbol next with
        | .error e => (.error e, b)
        | .ok () => (.ok (), b.store next m)
    | _, _, _ =>
      (.error (.snapshotRequired (b.symbol ++ " delta arrived before a valid snapshot")), b)

/-- `apply_message`. -/
def applyMessage (b : BybitOrderBook) (message : List (String × PyJson)) :
    Except MarketError Unit × BybitOrderBook :=
  match readBybitMessage T b.symbol message with
  | .error e => (.error e, b)
  | .ok m => b.applyRead T m

/-- `apply_event`. -/
def applyEvent (b : BybitOrderBook) (e : RawMarketEvent D) :
    Except MarketError Unit × BybitOrderBook :=
  if e.exchange ≠ "bybit" ∨ e.channel ≠ "orderbook" then
    (.error (.replay "BybitOrderBook accepts only Bybit orderbook events"), b)
  else if e.symbol ≠ b.symbol then
    (.error (.replay ("book " ++ b.symbol ++ " cannot accept event for " ++ e.symbol)), b)
  else
    match e.payload F with
    | .error err => (.error err, b)
    | .ok message => b.applyMessage T message

end BybitOrderBook

/-! ## The ticker -/

structure BybitTickerState where
  symbol : String
  data : Option (List (String × PyJson)) := none
  sequence : Option ℤ := none

namespace BybitTickerState

def invalidate (t : BybitTickerState) : BybitTickerState := { t with data := none, sequence := none }

/-- The part of `apply_event` after the payload is read. -/
def applyMessage (t : BybitTickerState) (message : List (String × PyJson)) :
    Except MarketError Unit × BybitTickerState :=
  match item message "data" with
  | .obj data =>
    match requiredInt T (item message "cs") "cs" with
    | .error e => (.error e, t)
    | .ok sequence =>
      let messageType := item message "type"
      if isText messageType "snapshot" then
        (.ok (), { t with data := some data, sequence := some sequence })
      else if !isText messageType "delta" then
        (.error (.replay ("unrecognized Bybit ticker type: " ++ T.repr messageType)), t)
      else
        match t.data, t.sequence with
        | some old, some previous =>
          if sequence ≤ previous then
            (.error (.sequenceRegression (t.symbol ++ " ticker sequence did not increase: previous=" ++
              toString previous ++ ", observed=" ++ toString sequence)), t.invalidate)
          else
            let updated := data.foldl (fun d p => Json.insertItem p.1 p.2 d) old
            (.ok (), { t with data := some updated, sequence := some sequence })
        | _, _ =>
          (.error (.snapshotRequired (t.symbol ++ " ticker delta arrived before snapshot")), t)
  | _ => (.error (.replay (t.symbol ++ " ticker data must be an object")), t)

/-- `apply_event`. -/
def applyEvent (t : BybitTickerState) (e : RawMarketEvent D) :
    Except MarketError Unit × BybitTickerState :=
  if e.exchange ≠ "bybit" ∨ e.channel ≠ "ticker" then
    (.error (.replay "BybitTickerState accepts only Bybit ticker events"), t)
  else if e.symbol ≠ t.symbol then
    (.error (.replay ("ticker " ++ t.symbol ++ " cannot accept event for " ++ e.symbol)), t)
  else
    match e.payload F with
    | .error err => (.error err, t)
    | .ok message => t.applyMessage T message

end BybitTickerState

/-! ## The session -/

structure BybitReplaySession where
  books : String → Option BybitOrderBook := fun _ => none
  tickers : String → Option BybitTickerState := fun _ => none
  bookConnections : String → Option String := fun _ => none
  tickerConnections : String → Option String := fun _ => none
  channelCounts : String → ℕ := fun _ => 0
  rawEventCount : ℕ := 0

namespace BybitReplaySession

/-- `self.books.setdefault(event.symbol, BybitOrderBook(event.symbol))`. -/
def book (s : BybitReplaySession) (symbol : String) : BybitOrderBook :=
  (s.books symbol).getD { symbol }

def ticker (s : BybitReplaySession) (symbol : String) : BybitTickerState :=
  (s.tickers symbol).getD { symbol }

/-- The counters at the start of `apply`. -/
def count (s : BybitReplaySession) (e : RawMarketEvent D) : BybitReplaySession :=
  { s with
    rawEventCount := s.rawEventCount + 1
    channelCounts := Function.update s.channelCounts e.channel (s.channelCounts e.channel + 1) }

/-- The book of the event's symbol, invalid if its connection is another. -/
def connected (s : BybitReplaySession) (e : RawMarketEvent D) : BybitOrderBook :=
  if s.bookConnections e.symbol = some e.connectionId then s.book e.symbol
  else (s.book e.symbol).invalidate

/-- `apply`. -/
def apply (s : BybitReplaySession) (e : RawMarketEvent D) :
    Except MarketError Unit × BybitReplaySession :=
  let counted := s.count e
  if e.channel = "orderbook" then
    let (answer, book) := (s.connected e).applyEvent F T e
    (answer, { counted with
      books := Function.update s.books e.symbol (some book)
      bookConnections := Function.update s.bookConnections e.symbol (some e.connectionId) })
  else if e.channel = "ticker" then
    let ticker := if s.tickerConnections e.symbol = some e.connectionId then s.ticker e.symbol
      else (s.ticker e.symbol).invalidate
    let (answer, ticker) := ticker.applyEvent F T e
    (answer, { counted with
      tickers := Function.update s.tickers e.symbol (some ticker)
      tickerConnections := Function.update s.tickerConnections e.symbol (some e.connectionId) })
  else (.ok (), counted)

/-- `apply`, with the error caught. -/
def step (s : BybitReplaySession) (e : RawMarketEvent D) : BybitReplaySession := (s.apply F T e).2

end BybitReplaySession

/-! ## What a message does -/

variable {F T}

/-- The sides that `b` has after it accepts `m`. -/
def Accepts (b : BybitOrderBook) (m : BybitBookMessage) (sides : Sides) : Prop :=
  sides.Valid ∧
    ((m.isSnapshot = true ∧ sides = .ofSnapshot m.bids m.asks) ∨
      (m.isSnapshot = false ∧ b.isReady = true ∧ (∃ u, b.updateId = some u ∧ m.updateId = u + 1) ∧
        sides = b.sides.apply m.bids m.asks))

/-- A message is accepted, or it raises and leaves the book as it was or invalid. -/
theorem applyRead_cases (b : BybitOrderBook) (m : BybitBookMessage) :
    (∃ sides, Accepts b m sides ∧ b.applyRead T m = (.ok (), b.store sides m)) ∨
    ∃ e, b.applyRead T m = (.error e, b) ∨ b.applyRead T m = (.error e, b.invalidate) := by
  unfold BybitOrderBook.applyRead
  by_cases hsnapshot : m.isSnapshot = true
  · rw [if_pos hsnapshot]
    cases hvalid : validateBook T b.symbol (.ofSnapshot m.bids m.asks) with
    | error e => exact .inr ⟨e, .inl (by simp only [hvalid])⟩
    | ok _ =>
      exact .inl ⟨_, ⟨validateBook_eq_ok.mp hvalid, .inl ⟨hsnapshot, rfl⟩⟩, by simp only [hvalid]⟩
  · rw [if_neg hsnapshot]
    split
    · exact .inr ⟨_, .inl rfl⟩
    · split
      · next updateId sequence hready hupdate hsequence =>
        by_cases hgap : updateId + 1 < m.updateId
        · simp only [if_pos hgap]
          exact .inr ⟨_, .inr rfl⟩
        · simp only [if_neg hgap]
          by_cases hregressed : m.updateId ≤ updateId
          · rw [if_pos hregressed]
            exact .inr ⟨_, .inr rfl⟩
          · rw [if_neg hregressed]
            by_cases hcross : m.sequence ≤ sequence
            · rw [if_pos hcross]
              exact .inr ⟨_, .inr rfl⟩
            · rw [if_neg hcross]
              cases hvalid : validateBook T b.symbol (b.sides.apply m.bids m.asks) with
              | error e => exact .inr ⟨e, .inl rfl⟩
              | ok _ =>
                have hnext : m.updateId = updateId + 1 := by omega
                refine .inl ⟨_, ⟨validateBook_eq_ok.mp hvalid, .inr ⟨?_, hready,
                  ⟨updateId, hupdate, hnext⟩, rfl⟩⟩, rfl⟩
                simpa using hsnapshot
      · exact .inr ⟨_, .inl rfl⟩

/-- What an order-book event is read as. -/
def readEvent (F : Floats) (T : Texts) (e : RawMarketEvent D) :
    Except MarketError BybitBookMessage := e.payload F >>= readBybitMessage T e.symbol

theorem applyEvent_cases (b : BybitOrderBook) (e : RawMarketEvent D) :
    (∃ m sides, e.exchange = "bybit" ∧ readEvent F T e = .ok m ∧ Accepts b m sides ∧
      b.applyEvent F T e = (.ok (), b.store sides m)) ∨
    ∃ err, b.applyEvent F T e = (.error err, b) ∨
      b.applyEvent F T e = (.error err, b.invalidate) := by
  unfold BybitOrderBook.applyEvent
  split
  · exact .inr ⟨_, .inl rfl⟩
  · next hvenue =>
    have hexchange : e.exchange = "bybit" := not_not.mp fun h => hvenue (.inl h)
    split
    · exact .inr ⟨_, .inl rfl⟩
    · next hsymbol =>
      have hsymbol : e.symbol = b.symbol := not_not.mp hsymbol
      cases hpayload : e.payload F with
      | error err => exact .inr ⟨err, .inl rfl⟩
      | ok message =>
        simp only [BybitOrderBook.applyMessage]
        cases hread : readBybitMessage T b.symbol message with
        | error err => exact .inr ⟨err, .inl rfl⟩
        | ok m =>
          rcases applyRead_cases (T := T) b m with ⟨sides, haccepts, happly⟩ | ⟨err, happly⟩
          · refine .inl ⟨m, sides, hexchange, ?_, haccepts, happly⟩
            rw [readEvent, hpayload, hsymbol]
            exact hread
          · exact .inr ⟨err, happly⟩

variable {b : BybitOrderBook} {e : RawMarketEvent D} {m : BybitBookMessage}

/-- A snapshot of the book whose sides are valid is accepted. -/
theorem applyEvent_snapshot
    (hexchange : e.exchange = "bybit") (hchannel : e.channel = "orderbook")
    (hsymbol : b.symbol = e.symbol) (hread : readEvent F T e = .ok m)
    (hsnapshot : m.isSnapshot = true) (hvalid : (Sides.ofSnapshot m.bids m.asks).Valid) :
    b.applyEvent F T e = (.ok (), b.store (.ofSnapshot m.bids m.asks) m) := by
  obtain ⟨message, hpayload, hread⟩ := bind_eq_ok.mp hread
  unfold BybitOrderBook.applyEvent
  rw [if_neg (by simp [hexchange, hchannel]), if_neg (by simp [hsymbol]), hpayload]
  simp only [BybitOrderBook.applyMessage, hsymbol, hread, BybitOrderBook.applyRead, hsnapshot,
    if_true, validateBook_eq_ok.mpr hvalid]

theorem readEvent_levels
    (h : readEvent F T e = .ok m) :
    (∀ level ∈ m.bids, 0 < level.1 ∧ 0 ≤ level.2) ∧ ∀ level ∈ m.asks, 0 < level.1 ∧ 0 ≤ level.2 := by
  obtain ⟨message, -, h⟩ := bind_eq_ok.mp h
  unfold readBybitMessage at h
  split at h
  · obtain ⟨_, -, h⟩ := bind_eq_ok.mp h
    obtain ⟨_, -, h⟩ := bind_eq_ok.mp h
    obtain ⟨bids, hbids, h⟩ := bind_eq_ok.mp h
    obtain ⟨asks, hasks, h⟩ := bind_eq_ok.mp h
    cases h
    exact ⟨readLevels_eq_ok hbids, readLevels_eq_ok hasks⟩
  · cases h

/-! ## Books that are rebuilt -/

/-- An accepted order-book event. -/
structure Accepted where
  connectionId : String
  message : BybitBookMessage

/-- The book is the fold of `ms`: a snapshot and the deltas since, of one connection. -/
structure Rebuilt (book : BybitOrderBook) (connectionId : String) (ms : List Accepted) : Prop where
  starts : ∃ first rest, ms = first :: rest ∧ first.message.isSnapshot = true ∧
    ∀ a ∈ rest, a.message.isSnapshot = false
  connection : ∀ a ∈ ms, a.connectionId = connectionId
  contiguous : ms.IsChain fun a b => b.message.updateId = a.message.updateId + 1
  updateId : book.updateId = ms.getLast?.map (·.message.updateId)
  valid : book.sides.Valid
  sized : book.sides.Sized
  bids : Same book.sides.bids (writeAll Table.empty (ms.flatMap (·.message.bids)))
  asks : Same book.sides.asks (writeAll Table.empty (ms.flatMap (·.message.asks)))

theorem pos_of_level {levels : List (ℚ × ℚ)} (h : ∀ level ∈ levels, 0 < level.1 ∧ 0 ≤ level.2) :
    ∀ level ∈ levels, level.2 ≠ 0 → 0 < level.2 :=
  fun level hlevel hzero => lt_of_le_of_ne (h level hlevel).2 (Ne.symm hzero)

theorem Rebuilt.snapshot
    (hread : readEvent F T e = .ok m) (hsnapshot : m.isSnapshot = true)
    (hvalid : (Sides.ofSnapshot m.bids m.asks).Valid)
    (hsettled : Settled m.bids ∧ Settled m.asks) (c : String) :
    Rebuilt (b.store (.ofSnapshot m.bids m.asks) m) c [⟨c, m⟩] := by
  obtain ⟨hbids, hasks⟩ := readEvent_levels hread
  have hbid := positiveLevels_eq fun level hlevel => (hbids level hlevel).2
  have hask := positiveLevels_eq fun level hlevel => (hasks level hlevel).2
  refine ⟨⟨_, [], rfl, hsnapshot, fun a ha => absurd ha List.not_mem_nil⟩, fun a ha => ?_,
    List.IsChain.singleton _, rfl, hvalid, ⟨?_, ?_⟩, ?_, ?_⟩
  · rw [List.mem_singleton.mp ha]
  · show ∀ level ∈ (positiveLevels m.bids).rows, 0 < level.2
    rw [hbid]
    exact forall_collect (pos_of_level hbids)
  · show ∀ level ∈ (positiveLevels m.asks).rows, 0 < level.2
    rw [hask]
    exact forall_collect (pos_of_level hasks)
  · rw [List.flatMap_singleton]
    show Same (positiveLevels m.bids) _
    rw [hbid]
    exact same_collect.mpr hsettled.1
  · rw [List.flatMap_singleton]
    show Same (positiveLevels m.asks) _
    rw [hask]
    exact same_collect.mpr hsettled.2

/-- A snapshot that is its own fold is settled. -/
theorem Rebuilt.settled
    {c c' : String} (hread : readEvent F T e = .ok m)
    (h : Rebuilt (b.store (.ofSnapshot m.bids m.asks) m) c [⟨c', m⟩]) :
    Settled m.bids ∧ Settled m.asks := by
  obtain ⟨hbids, hasks⟩ := readEvent_levels hread
  have hbid : Same (positiveLevels m.bids) (writeAll Table.empty m.bids) := by
    have hsame := h.bids
    rwa [List.flatMap_singleton] at hsame
  have hask : Same (positiveLevels m.asks) (writeAll Table.empty m.asks) := by
    have hsame := h.asks
    rwa [List.flatMap_singleton] at hsame
  rw [positiveLevels_eq fun level hlevel => (hbids level hlevel).2] at hbid
  rw [positiveLevels_eq fun level hlevel => (hasks level hlevel).2] at hask
  exact ⟨same_collect.mp hbid, same_collect.mp hask⟩

variable {ms : List Accepted}

theorem Rebuilt.delta
    {c : String} (h : Rebuilt b c ms) (hread : readEvent F T e = .ok m)
    (hdelta : m.isSnapshot = false) {u : ℤ} (hu : b.updateId = some u) (hnext : m.updateId = u + 1)
    (hvalid : (b.sides.apply m.bids m.asks).Valid) :
    Rebuilt (b.store (b.sides.apply m.bids m.asks) m) c (ms ++ [⟨c, m⟩]) := by
  obtain ⟨hbids, hasks⟩ := readEvent_levels hread
  obtain ⟨first, rest, rfl, hfirst, hrest⟩ := h.starts
  refine ⟨⟨first, rest ++ [⟨c, m⟩], rfl, hfirst, ?_⟩, ?_, ?_, ?_,
    hvalid, ⟨?_, ?_⟩, ?_, ?_⟩
  · intro a ha
    rcases List.mem_append.mp ha with ha | ha
    · exact hrest a ha
    · rw [List.mem_singleton.mp ha]
      exact hdelta
  · intro a ha
    rcases List.mem_append.mp ha with ha | ha
    · exact h.connection a ha
    · rw [List.mem_singleton.mp ha]
  · apply List.isChain_append.mpr
    refine ⟨h.contiguous, List.IsChain.singleton _, fun a ha b hb => ?_⟩
    rw [← Option.some.inj hb]
    have hlast := h.updateId
    rw [hu, Option.mem_def.mp ha] at hlast
    rw [hnext, Option.some.inj hlast]
  · rw [List.getLast?_concat]
    rfl
  · exact forall_writeAll h.sized.1 (pos_of_level hbids)
  · exact forall_writeAll h.sized.2 (pos_of_level hasks)
  · rw [List.flatMap_append, writeAll_append, List.flatMap_singleton]
    exact h.bids.writeAll m.bids
  · rw [List.flatMap_append, writeAll_append, List.flatMap_singleton]
    exact h.asks.writeAll m.asks

/-! ## Runs of a session -/

section Runs

variable (F T)

/-- What the session accepts of a book's events. -/
def accepted (symbol : String) (s : BybitReplaySession) (e : RawMarketEvent D) : Option Accepted :=
  if e.channel = "orderbook" ∧ e.symbol = symbol then
    match (s.apply F T e).1, readEvent F T e with
    | .ok _, .ok m => some ⟨e.connectionId, m⟩
    | _, _ => none
  else none

/-- What is accepted, from the last snapshot on. -/
def extend (ms : List Accepted) : Option Accepted → List Accepted
  | none => ms
  | some a => if a.message.isSnapshot then [a] else ms ++ [a]

/-- A session, with the last snapshot that it accepted for every book and the deltas since. -/
structure BybitRun where
  session : BybitReplaySession := {}
  history : String → List Accepted := fun _ => []

def BybitRun.step (r : BybitRun) (e : RawMarketEvent D) : BybitRun where
  session := r.session.step F T e
  history symbol := extend (r.history symbol) (accepted F T symbol r.session e)

/-- If the event is a snapshot that its book accepts, no price in it has a size and after it
size zero. -/
def SettledEvent (e : RawMarketEvent D) : Prop :=
  e.exchange = "bybit" → e.channel = "orderbook" → ∀ m, readEvent F T e = .ok m →
    m.isSnapshot = true → (Sides.ofSnapshot m.bids m.asks).Valid →
    Settled m.bids ∧ Settled m.asks

end Runs

/-- A book that is ready is rebuilt by `ms`. -/
def Rebuilds (symbol : String) (s : BybitReplaySession) (ms : List Accepted) : Prop :=
  ∀ book, s.books symbol = some book → book.isReady = true →
    ∃ c, s.bookConnections symbol = some c ∧ Rebuilt book c ms

/-- All books that are ready are rebuilt. -/
def BybitRun.Rebuilds (r : BybitRun) : Prop :=
  ∀ symbol, Data.Rebuilds symbol r.session (r.history symbol)

/-- Books are kept under their symbols. -/
def BybitRun.Own (r : BybitRun) : Prop :=
  ∀ symbol book, r.session.books symbol = some book → book.symbol = symbol

theorem invalidate_not_ready (b : BybitOrderBook) : b.invalidate.isReady = false := rfl

variable {s : BybitReplaySession}

/-- A book of the session that is ready has the connection of the event. -/
theorem connected_ready
    (h : (s.connected e).isReady = true) :
    s.books e.symbol = some (s.connected e) ∧ s.bookConnections e.symbol = some e.connectionId := by
  unfold BybitReplaySession.connected at h ⊢
  split
  · next hconn =>
    rw [if_pos hconn] at h
    cases hbook : s.books e.symbol with
    | none =>
      rw [BybitReplaySession.book, hbook] at h
      cases h
    | some book => exact ⟨by rw [BybitReplaySession.book, hbook]; rfl, hconn⟩
  · next hconn =>
    rw [if_neg hconn, invalidate_not_ready] at h
    cases h

/-- An order-book event changes the book of its symbol. -/
theorem apply_orderbook
    (h : e.channel = "orderbook") :
    (s.apply F T e).1 = ((s.connected e).applyEvent F T e).1 ∧
    (s.apply F T e).2.books =
      Function.update s.books e.symbol (some ((s.connected e).applyEvent F T e).2) ∧
    (s.apply F T e).2.bookConnections =
      Function.update s.bookConnections e.symbol (some e.connectionId) := by
  unfold BybitReplaySession.apply
  rw [if_pos h]
  exact ⟨rfl, rfl, rfl⟩

/-- Other events change no book. -/
theorem apply_other (h : e.channel ≠ "orderbook") :
    (s.apply F T e).2.books = s.books ∧ (s.apply F T e).2.bookConnections = s.bookConnections := by
  unfold BybitReplaySession.apply
  rw [if_neg h]
  split
  · exact ⟨rfl, rfl⟩
  · exact ⟨rfl, rfl⟩

/-- What is accepted of an order-book event, for its own book. -/
theorem accepted_own
    (hchannel : e.channel = "orderbook") : accepted F T e.symbol s e =
      match ((s.connected e).applyEvent F T e).1, readEvent F T e with
      | .ok _, .ok m => some ⟨e.connectionId, m⟩
      | _, _ => none := by
  unfold accepted
  rw [if_pos ⟨hchannel, rfl⟩, (apply_orderbook hchannel).1]

theorem rebuilds_step {symbol : String}
    (hsettled : SettledEvent F T e) (h : Rebuilds symbol s ms) :
    Rebuilds symbol (s.step F T e) (extend ms (accepted F T symbol s e)) := by
  intro book hbook hready
  unfold BybitReplaySession.step at hbook ⊢
  by_cases hown : e.channel = "orderbook" ∧ e.symbol = symbol
  · obtain ⟨hchannel, rfl⟩ := hown
    obtain ⟨hanswer, hbooks, hconns⟩ := apply_orderbook (F := F) (T := T) (s := s) hchannel
    rw [hbooks, Function.update_self] at hbook
    cases hbook
    rw [hconns, Function.update_self]
    refine ⟨e.connectionId, rfl, ?_⟩
    rw [accepted_own hchannel]
    have hready' (hb : (s.connected e).isReady = true) :
        Rebuilt (s.connected e) e.connectionId ms := by
      obtain ⟨hin, hconn⟩ := connected_ready hb
      obtain ⟨c, hc, hrebuilt⟩ := h _ hin hb
      rw [hconn] at hc
      cases hc
      exact hrebuilt
    rcases applyEvent_cases (F := F) (T := T) (s.connected e) e with
      ⟨m, sides, hexchange, hread, ⟨hvalid, hkind⟩, happly⟩ | ⟨err, happly | happly⟩
    · rw [happly, hread]
      rcases hkind with ⟨hsnapshot, rfl⟩ | ⟨hdelta, hb, ⟨u, hu, hnext⟩, rfl⟩
      · simp only [extend, hsnapshot, if_true]
        exact .snapshot hread hsnapshot hvalid
          (hsettled hexchange hchannel m hread hsnapshot hvalid) e.connectionId
      · simp only [extend, hdelta, Bool.false_eq_true, if_false]
        exact (hready' hb).delta hread hdelta hu hnext hvalid
    · rw [happly] at hready ⊢
      exact hready' hready
    · rw [happly, invalidate_not_ready] at hready
      cases hready
  · have hnone : accepted F T symbol s e = none := by
      unfold accepted
      rw [if_neg hown]
    rw [hnone]
    by_cases hchannel : e.channel = "orderbook"
    · have hsymbol : symbol ≠ e.symbol := fun hs => hown ⟨hchannel, hs.symm⟩
      obtain ⟨-, hbooks, hconns⟩ := apply_orderbook (F := F) (T := T) (s := s) hchannel
      rw [hbooks, Function.update_of_ne hsymbol] at hbook
      rw [hconns, Function.update_of_ne hsymbol]
      exact h book hbook hready
    · obtain ⟨hbooks, hconns⟩ := apply_other (F := F) (T := T) (s := s) hchannel
      rw [hbooks] at hbook
      rw [hconns]
      exact h book hbook hready

/-- An event that raises leaves every book as it was, or invalid. -/
theorem apply_error {s s' : BybitReplaySession} {err : MarketError}
    (h : s.apply F T e = (.error err, s')) (symbol : String) :
    s'.books symbol = s.books symbol ∨
      ∃ book, s'.books symbol = some book ∧ book = book.invalidate := by
  have hs' : s' = (s.apply F T e).2 := by rw [h]
  have hanswer : (s.apply F T e).1 = .error err := by rw [h]
  subst hs'
  by_cases hchannel : e.channel = "orderbook"
  · obtain ⟨hsame, hbooks, -⟩ := apply_orderbook (F := F) (T := T) (s := s) hchannel
    rw [hbooks]
    by_cases hsymbol : symbol = e.symbol
    · subst hsymbol
      rw [Function.update_self]
      rcases applyEvent_cases (F := F) (T := T) (s.connected e) e with
        ⟨m, sides, -, -, -, happly⟩ | ⟨err', happly | happly⟩
      · rw [hsame, happly] at hanswer
        cases hanswer
      · rw [happly]
        unfold BybitReplaySession.connected
        split
        · cases hbook : s.books e.symbol with
          | none => exact .inr ⟨_, rfl, by rw [BybitReplaySession.book, hbook]; rfl⟩
          | some book => exact .inl (by rw [BybitReplaySession.book, hbook]; rfl)
        · exact .inr ⟨_, rfl, rfl⟩
      · rw [happly]
        exact .inr ⟨_, rfl, rfl⟩
    · rw [Function.update_of_ne hsymbol]
      exact .inl rfl
  · rw [(apply_other (F := F) (T := T) (s := s) hchannel).1]
    exact .inl rfl

theorem connected_symbol {r : BybitRun} (h : r.Own) (e : RawMarketEvent D) :
    (r.session.connected e).symbol = e.symbol := by
  have hbook : (r.session.book e.symbol).symbol = e.symbol := by
    unfold BybitReplaySession.book
    cases hbook : r.session.books e.symbol with
    | none => rfl
    | some book => exact h e.symbol book hbook
  unfold BybitReplaySession.connected
  split
  · exact hbook
  · exact hbook

theorem own_init : BybitRun.Own {} := by
  intro symbol book hbook
  cases hbook

theorem own_step (r : BybitRun) (e : RawMarketEvent D) (h : r.Own) : (r.step F T e).Own := by
  intro symbol book hbook
  unfold BybitRun.step BybitReplaySession.step at hbook
  by_cases hchannel : e.channel = "orderbook"
  · simp only [(apply_orderbook (F := F) (T := T) (s := r.session) hchannel).2.1] at hbook
    by_cases hsymbol : symbol = e.symbol
    · subst hsymbol
      rw [Function.update_self] at hbook
      cases hbook
      rw [← connected_symbol h e]
      rcases applyEvent_cases (F := F) (T := T) (r.session.connected e) e with
        ⟨m, sides, -, -, -, happly⟩ | ⟨err, happly | happly⟩
      · rw [happly]
        rfl
      · rw [happly]
      · rw [happly]
        rfl
    · rw [Function.update_of_ne hsymbol] at hbook
      exact h symbol book hbook
  · simp only [(apply_other (F := F) (T := T) (s := r.session) hchannel).1] at hbook
    exact h symbol book hbook

/-- The books stay rebuilt exactly if the event is settled. -/
theorem rebuilds_iff (r : BybitRun) (e : RawMarketEvent D) (hown : r.Own) (h : r.Rebuilds) :
    (r.step F T e).Rebuilds ↔ SettledEvent F T e := by
  constructor
  · intro hnew hexchange hchannel m hread hsnapshot hvalid
    have happly := applyEvent_snapshot (T := T) hexchange hchannel (connected_symbol hown e) hread
      hsnapshot hvalid
    have hbook : (r.step F T e).session.books e.symbol =
        some ((r.session.connected e).store (.ofSnapshot m.bids m.asks) m) := by
      show (r.session.apply F T e).2.books e.symbol = _
      rw [(apply_orderbook hchannel).2.1, Function.update_self, happly]
    have hhistory : (r.step F T e).history e.symbol = [⟨e.connectionId, m⟩] := by
      show extend _ (accepted F T e.symbol r.session e) = _
      rw [accepted_own hchannel, happly, hread]
      simp only [extend, hsnapshot, if_true]
    have hready : ((r.session.connected e).store (.ofSnapshot m.bids m.asks) m).isReady = true := by
      simp [BybitOrderBook.isReady, BybitOrderBook.store,
        Sides.filled_eq_true.mpr ⟨hvalid.bids, hvalid.asks⟩]
    obtain ⟨c, -, hrebuilt⟩ := hnew e.symbol _ hbook hready
    rw [hhistory] at hrebuilt
    exact hrebuilt.settled hread
  · intro hsettled symbol
    exact rebuilds_step hsettled (h symbol)

/-- **Bybit replay.** In every run, each book that is ready is the fold of the last snapshot it
accepted and of the deltas since, after every event, exactly if all events are settled. An event
that raises leaves every book as it was, or invalid. -/
theorem bybit_replay (F : Floats) (T : Texts) :
    (∀ events : List (RawMarketEvent D),
      Runs.Always (BybitRun.step F T) BybitRun.Rebuilds {} events ↔
        ∀ e ∈ events, SettledEvent F T e) ∧
    ∀ (s s' : BybitReplaySession) (e : RawMarketEvent D) err, s.apply F T e = (.error err, s') →
      ∀ symbol, s'.books symbol = s.books symbol ∨
        ∃ book, s'.books symbol = some book ∧ book = book.invalidate := by
  constructor
  · intro events
    have hmeets : Runs.Meets (BybitRun.step F T) (fun _ e => SettledEvent F T e) {} events ↔
        ∀ e ∈ events, SettledEvent F T e := Runs.meets_inputs
    rw [← hmeets]
    apply Runs.always_iff_meets own_step rebuilds_iff events own_init
    intro symbol book hbook
    cases hbook
  · exact fun s s' e err h symbol => apply_error h symbol

/-! ## A price listed twice -/

/-- A Bybit order-book message. -/
def bybitMessage (messageType : String) (updateId sequence : ℤ) (bids asks : List (String × String)) :
    List (String × PyJson) :=
  [("data", .obj [("a", levelTexts [] asks), ("b", levelTexts [] bids), ("seq", .int sequence),
    ("u", .int updateId)]), ("type", .str messageType)]

theorem canonical_bybitMessage (messageType : String) (updateId sequence : ℤ)
    (bids asks : List (String × String)) :
    Json.Canonical (.obj (bybitMessage messageType updateId sequence bids asks)) := by
  refine .obj (Json.sorted_of_keys ?_) ?_
  · show (["data", "type"] : List String).Pairwise (· < ·)
    decide +kernel
  · simp only [bybitMessage, List.forall_mem_cons]
    refine ⟨.obj (Json.sorted_of_keys ?_) ?_, by simp⟩
    · show (["a", "b", "seq", "u"] : List String).Pairwise (· < ·)
      decide +kernel
    · simp

/-- A snapshot that lists the bid at 100 twice, the second time with size zero. -/
def doubleBid : List (String × PyJson) :=
  bybitMessage "snapshot" 1 1 [("100", "5"), ("100", "0"), ("99", "1")] [("101", "1")]

def doubleBidEvent : RawMarketEvent (digestOf []) :=
  bookEvent "bybit" "snapshot" "c" none doubleBid sampleConnection_ne

/-- What is read of the snapshot. -/
def doubleBidMessage : BybitBookMessage :=
  ⟨.str "snapshot", 1, 1, [(100, 5), (100, 0), (99, 1)], [(101, 1)]⟩

theorem read_doubleBid : readEvent sampleFloats sampleTexts doubleBidEvent = .ok doubleBidMessage := by
  have hpayload : doubleBidEvent.payload sampleFloats = .ok doubleBid :=
    payload_bookEvent (canonical_bybitMessage _ _ _ _ _)
  rw [readEvent, hpayload]
  rfl

theorem valid_doubleBid :
    (Sides.ofSnapshot doubleBidMessage.bids doubleBidMessage.asks).Valid :=
  ⟨by decide +kernel, by decide +kernel, by decide +kernel⟩

/-- The book keeps the bid at 100, which the fold of the snapshot removes. -/
theorem zero_size_kept : ¬ ∀ events : List (RawMarketEvent (digestOf [])),
    Runs.Always (BybitRun.step sampleFloats sampleTexts) BybitRun.Rebuilds {} events := by
  intro hclaim
  obtain ⟨hinit, hstep⟩ := hclaim [doubleBidEvent]
  have hexchange : doubleBidEvent.exchange = "bybit" := rfl
  have hchannel : doubleBidEvent.channel = "orderbook" := rfl
  have hsnapshot : doubleBidMessage.isSnapshot = true := rfl
  obtain ⟨hbids, -⟩ := (rebuilds_iff {} doubleBidEvent own_init hinit).mp hstep hexchange hchannel
    doubleBidMessage read_doubleBid hsnapshot valid_doubleBid
  exact absurd hbids (by decide +kernel)

end Greenfield.Data
