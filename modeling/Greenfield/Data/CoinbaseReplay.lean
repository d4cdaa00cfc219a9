import Greenfield.Data.PriceLevels
import Greenfield.Lib.Run
import Mathlib.Logic.Function.Basic

/-!
# Coinbase replay

`src/data/coinbase_replay.py`, and the sequence gate of `src/data/coinbase_adapter.py`. One gate
counts the messages of a connection, of all products; every product has a book. The gate starts
again after a change of connection and after an error, but no book is told. So a book that is
ready is the fold of a snapshot and the updates since exactly as long as the messages go on
without a change of connection or a gap, and every update of a book applies (`coinbase_replay`).
-/

namespace Greenfield.Data

open Py Keyed Depth

variable {D : Digests} (F : Floats) (T : Texts)

/-! ## The sequence gate -/

/-- The connection and its last sequence number, which are set and reset together. -/
structure CoinbaseConnectionSequenceGate where
  position : Option (String × ℤ) := none

/-- `observe`. -/
def CoinbaseConnectionSequenceGate.observe (g : CoinbaseConnectionSequenceGate)
    (e : RawMarketEvent D) : Except MarketError Bool × CoinbaseConnectionSequenceGate :=
  if e.exchange ≠ "coinbase" then
    (.error (.replay "connection sequence gate accepts only Coinbase events"), g)
  else
    match e.sequence with
    | none => (.ok false, g)
    | some sequence =>
      match g.position with
      | none => (.ok true, ⟨some (e.connectionId, sequence)⟩)
      | some (connectionId, last) =>
        if e.connectionId ≠ connectionId then (.ok true, ⟨some (e.connectionId, sequence)⟩)
        else if sequence = last + 1 then (.ok true, ⟨some (connectionId, sequence)⟩)
        else if sequence = last then
          (.error (.sequenceDuplicate ("duplicate sequence_num=" ++ toString sequence ++
            " on connection " ++ T.repr (.str connectionId))), ⟨none⟩)
        else if last < sequence then
          (.error (.sequenceGap ("sequence gap on connection " ++ T.repr (.str connectionId) ++
            ": expected " ++ toString (last + 1) ++ ", observed " ++ toString sequence ++ " (" ++
            toString (sequence - last - 1) ++ " missing)")), ⟨none⟩)
        else
          (.error (.sequenceRollback ("sequence rollback on connection " ++
            T.repr (.str connectionId) ++ ": last " ++ toString last ++ ", observed " ++
            toString sequence)), ⟨none⟩)

/-! ## Levels -/

inductive BookSide where
  | bid
  | ask
  deriving DecidableEq

abbrev SideLevel := BookSide × ℚ × ℚ

/-- `str.lower`, of ASCII letters; no other letter is lowered to one of a side's name. -/
def lowerAscii (s : String) : String := String.ofList (s.toList.map Char.toLower)

/-- An update of `_levels`. -/
def readUpdate (update : PyJson) : Except MarketError SideLevel :=
  match update with
  | .obj fields =>
    let rawSide := lowerAscii (T.str (orElse (item fields "side") (.str "")))
    if rawSide ≠ "bid" ∧ rawSide ≠ "offer" then
      .error (.replay ("invalid Coinbase book side: " ++ T.repr (.str rawSide)))
    else
      let side := if rawSide = "offer" then BookSide.ask else .bid
      match T.decimal (T.str (item fields "price_level")),
        T.decimal (T.str (item fields "new_quantity")) with
      | some (.finite price), some (.finite size) =>
        if 0 < price ∧ 0 ≤ size then .ok (side, price, size)
        else .error (.replay ("invalid numeric L2 level: " ++ T.repr update))
      | some _, some _ => .error (.replay ("invalid numeric L2 level: " ++ T.repr update))
      | _, _ => .error (.replay ("invalid decimal L2 level: " ++ T.repr update))
  | _ => .error (.replay "Coinbase L2 update must be an object")

/-- An entry of `_levels`. -/
def readEntry : PyJson → Except MarketError (List SideLevel)
  | .obj entry =>
    match item entry "updates" with
    | .arr updates => updates.mapM (readUpdate T)
    | _ => .error (.replay "Coinbase L2 updates must be a list")
  | _ => .error (.replay "Coinbase L2 event must be an object")

/-- `_levels`. -/
def readEntries (entries : List PyJson) : Except MarketError (List SideLevel) :=
  List.flatten <$> entries.mapM (readEntry T)

/-- The levels of one side, in order. -/
def sideLevels (side : BookSide) (levels : List SideLevel) : List (ℚ × ℚ) :=
  (levels.filter fun level => level.1 = side).map Prod.snd

/-- The loop of `apply_delta`. -/
def applySideLevels (s : Sides) (levels : List SideLevel) : Sides :=
  levels.foldl (fun s level => match level.1 with
    | .bid => { s with bids := applyLevels s.bids [level.2] }
    | .ask => { s with asks := applyLevels s.asks [level.2] }) s

/-! ## The order book -/

structure CoinbaseOrderBook where
  symbol : String
  sides : Sides := .empty
  lastSequenceNum : Option ℤ := none

namespace CoinbaseOrderBook

def isReady (b : CoinbaseOrderBook) : Bool := b.sides.filled

/-- The end of `load_snapshot` and of `apply_delta`. -/
def store (b : CoinbaseOrderBook) (sides : Sides) (sequenceNum : Option ℤ) :
    Except MarketError Unit × CoinbaseOrderBook :=
  match validateBook T b.symbol sides with
  | .error e => (.error e, b)
  | .ok () => (.ok (), { b with sides, lastSequenceNum := sequenceNum })

/-- `load_snapshot`. -/
def loadSnapshot (b : CoinbaseOrderBook) (entries : List PyJson) (sequenceNum : Option ℤ) :
    Except MarketError Unit × CoinbaseOrderBook :=
  match readEntries T entries with
  | .error e => (.error e, b)
  | .ok levels => b.store T (.ofSnapshot (sideLevels .bid levels) (sideLevels .ask levels)) sequenceNum

/-- `apply_delta`. -/
def applyDelta (b : CoinbaseOrderBook) (entries : List PyJson) (sequenceNum : Option ℤ) :
    Except MarketError Unit × CoinbaseOrderBook :=
  if !b.isReady then (.error (.replay (b.symbol ++ " delta arrived before a valid snapshot")), b)
  else
    match readEntries T entries with
    | .error e => (.error e, b)
    | .ok levels => b.store T (applySideLevels b.sides levels) sequenceNum

/-- The end of the session's `apply`, with the book of the event. -/
def applyEvent (b : CoinbaseOrderBook) (e : RawMarketEvent D) :
    Except MarketError Unit × CoinbaseOrderBook :=
  match e.payload F with
  | .error err => (.error err, b)
  | .ok message =>
    match item message "events" with
    | .arr entries =>
      if e.messageType = "snapshot" then b.loadSnapshot T entries e.sequence
      else b.applyDelta T entries e.sequence
    | _ => (.error (.replay "Coinbase events must be a list"), b)

end CoinbaseOrderBook

/-! ## The session -/

structure CoinbaseReplaySession where
  books : String → Option CoinbaseOrderBook := fun _ => none
  connectionGate : CoinbaseConnectionSequenceGate := {}
  channelCounts : String → ℕ := fun _ => 0
  rawEventCount : ℕ := 0

namespace CoinbaseReplaySession

/-- `self.books.setdefault(event.symbol, CoinbaseOrderBook(event.symbol))`. -/
def book (s : CoinbaseReplaySession) (symbol : String) : CoinbaseOrderBook :=
  (s.books symbol).getD { symbol }

/-- `apply`. -/
def apply (s : CoinbaseReplaySession) (e : RawMarketEvent D) :
    Except MarketError Unit × CoinbaseReplaySession :=
  if e.exchange ≠ "coinbase" then
    (.error (.replay "CoinbaseReplaySession accepts only Coinbase events"), s)
  else
    let (observed, gate) := s.connectionGate.observe T e
    let observing := { s with
      connectionGate := gate
      rawEventCount := s.rawEventCount + 1
      channelCounts := Function.update s.channelCounts e.channel (s.channelCounts e.channel + 1) }
    match observed with
    | .error err => (.error err, observing)
    | .ok _ =>
      if e.channel ≠ "orderbook" then (.ok (), observing)
      else if e.symbol = "ALL" ∨ e.symbol = "MULTI" then
        (.error (.replay ("L2 event must resolve to exactly one product, got " ++
          T.repr (.str e.symbol))), observing)
      else if e.messageType ≠ "snapshot" ∧ e.messageType ≠ "delta" then
        (.error (.replay ("unexpected Coinbase L2 message_type: " ++
          T.repr (.str e.messageType))), observing)
      else
        let (answer, book) := (s.book e.symbol).applyEvent F T e
        (answer, { observing with books := Function.update s.books e.symbol (some book) })

end CoinbaseReplaySession

/-! ## The history of a book -/

/-- A Coinbase message with a sequence number. -/
structure CoinbaseMessage (D : Digests) extends RawMarketEvent D where
  number : ℤ
  venue : exchange = "coinbase"
  sequenced : sequence = some number

/-- The event is a level-2 message of the product. -/
def IsLevel2 (messageType product : String) (e : RawMarketEvent D) : Prop :=
  e.channel = "orderbook" ∧ e.symbol = product ∧ product ≠ "ALL" ∧ product ≠ "MULTI" ∧
    e.messageType = messageType

instance (messageType product : String) (e : RawMarketEvent D) :
    Decidable (IsLevel2 messageType product e) := by
  unfold IsLevel2
  infer_instance

/-- The levels of a level-2 message. -/
def readLevel2 (e : RawMarketEvent D) : Except MarketError (List SideLevel) := do
  let message ← e.payload F
  match item message "events" with
  | .arr entries => readEntries T entries
  | _ => .error (.replay "Coinbase events must be a list")

/-- A snapshot that was loaded, the updates since, and the last number of the connection. -/
structure CoinbaseHistory where
  connectionId : String
  last : ℤ
  snapshot : List SideLevel
  updates : List (Except MarketError (List SideLevel))

namespace CoinbaseHistory

/-- The history after a message. It ends with a change of connection, and with a number that is
not the next one. -/
def next (product : String) (h : CoinbaseHistory) (e : CoinbaseMessage D) : Option CoinbaseHistory :=
  if e.connectionId = h.connectionId ∧ e.number = h.last + 1 then
    some { h with
      last := e.number
      updates := h.updates ++
        if IsLevel2 "delta" product e.toRawMarketEvent then [readLevel2 F T e.toRawMarketEvent] else [] }
  else none

/-- The sides are the levels of the snapshot with all updates applied in order. -/
def Folds (h : CoinbaseHistory) (s : Sides) : Prop :=
  ∃ us : List (List SideLevel), h.updates = us.map .ok ∧
    Same s.bids (writeAll (collect (sideLevels .bid h.snapshot)) (us.flatMap (sideLevels .bid))) ∧
    Same s.asks (writeAll (collect (sideLevels .ask h.snapshot)) (us.flatMap (sideLevels .ask)))

end CoinbaseHistory

/-- The levels of a snapshot that the session loads. -/
def CoinbaseReplaySession.loads (s : CoinbaseReplaySession) (product : String)
    (e : CoinbaseMessage D) : Option (List SideLevel) :=
  if IsLevel2 "snapshot" product e.toRawMarketEvent then
    match (s.apply F T e.toRawMarketEvent).1, readLevel2 F T e.toRawMarketEvent with
    | .ok _, .ok levels => some levels
    | _, _ => none
  else none

/-- A session, with the history of every book. -/
structure CoinbaseRun where
  session : CoinbaseReplaySession := {}
  history : String → Option CoinbaseHistory := fun _ => none

namespace CoinbaseRun

/-- `apply`, with the error caught. -/
def step (r : CoinbaseRun) (e : CoinbaseMessage D) : CoinbaseRun where
  session := (r.session.apply F T e.toRawMarketEvent).2
  history product :=
    match r.session.loads F T product e with
    | some levels => some ⟨e.connectionId, e.number, levels, []⟩
    | none => (r.history product).bind (CoinbaseHistory.next F T product · e)

/-- A book that is ready folds its history. -/
def Folds (r : CoinbaseRun) : Prop :=
  ∀ product, (r.session.book product).isReady = true →
    ∃ h, r.history product = some h ∧ h.Folds (r.session.book product).sides

end CoinbaseRun

/-! ## Messages that go on -/

/-- The number is the next one of the connection, or the connection is new. -/
def CoinbaseConnectionSequenceGate.Admits (g : CoinbaseConnectionSequenceGate)
    (e : CoinbaseMessage D) : Prop :=
  ∀ connectionId last, g.position = some (connectionId, last) →
    e.connectionId = connectionId → e.number = last + 1

/-- The sides of the book after a level-2 message with these levels. -/
def CoinbaseOrderBook.nextSides (b : CoinbaseOrderBook) (e : RawMarketEvent D)
    (levels : List SideLevel) : Sides :=
  if e.messageType = "snapshot" then .ofSnapshot (sideLevels .bid levels) (sideLevels .ask levels)
  else applySideLevels b.sides levels

/-- The levels of the message can be read, and leave the book valid. -/
def CoinbaseOrderBook.Takes (b : CoinbaseOrderBook) (e : RawMarketEvent D)
    (levels : List SideLevel) : Prop :=
  readLevel2 F T e = .ok levels ∧ (b.nextSides e levels).Valid

/-- If the book of the product is ready, the message is a snapshot of the product that is
admitted and taken, or it has the next number of the gate's connection, and is taken if it is an
update of the product. -/
def CoinbaseRun.ContinuesAt (product : String) (r : CoinbaseRun) (e : CoinbaseMessage D) : Prop :=
  (r.session.book product).isReady = true →
    (r.session.connectionGate.Admits e ∧ IsLevel2 "snapshot" product e.toRawMarketEvent ∧
      ∃ levels, (r.session.book product).Takes F T e.toRawMarketEvent levels) ∨
    (r.session.connectionGate.position = some (e.connectionId, e.number - 1) ∧
      (IsLevel2 "delta" product e.toRawMarketEvent →
        ∃ levels, (r.session.book product).Takes F T e.toRawMarketEvent levels))

def CoinbaseRun.Continues (r : CoinbaseRun) (e : CoinbaseMessage D) : Prop :=
  ∀ product, r.ContinuesAt F T product e

/-! ## What a message does -/

variable {F T}

variable {e : CoinbaseMessage D}

variable {g : CoinbaseConnectionSequenceGate}

theorem observe_of_admits
    (h : g.Admits e) :
    g.observe T e.toRawMarketEvent = (.ok true, ⟨some (e.connectionId, e.number)⟩) := by
  unfold CoinbaseConnectionSequenceGate.observe
  rw [if_neg (not_not.mpr e.venue), e.sequenced]
  cases hposition : g.position with
  | none => rfl
  | some position =>
    obtain ⟨connectionId, last⟩ := position
    by_cases hconn : e.connectionId = connectionId
    · have hnext := h connectionId last hposition hconn
      simp [hconn, hnext]
    · simp [hconn]

theorem observe_of_not_admits
    (h : ¬ g.Admits e) : ∃ err, g.observe T e.toRawMarketEvent = (.error err, ⟨none⟩) := by
  simp only [CoinbaseConnectionSequenceGate.Admits, not_forall, exists_prop] at h
  obtain ⟨connectionId, last, hposition, hconn, hnext⟩ := h
  unfold CoinbaseConnectionSequenceGate.observe
  rw [if_neg (not_not.mpr e.venue), e.sequenced, hposition]
  simp only [hconn, ne_eq, not_true_eq_false, if_false, if_neg hnext]
  split
  · exact ⟨_, rfl⟩
  · split
    · exact ⟨_, rfl⟩
    · exact ⟨_, rfl⟩

variable {s : CoinbaseReplaySession}

/-- A message that is not admitted resets the gate, and changes no book. -/
theorem apply_rejected
    (h : ¬ s.connectionGate.Admits e) :
    (∃ err, (s.apply F T e.toRawMarketEvent).1 = .error err) ∧
    (s.apply F T e.toRawMarketEvent).2.connectionGate.position = none ∧
    ∀ product, (s.apply F T e.toRawMarketEvent).2.book product = s.book product := by
  obtain ⟨err, hobserve⟩ := observe_of_not_admits (T := T) h
  unfold CoinbaseReplaySession.apply
  rw [if_neg (not_not.mpr e.venue), hobserve]
  exact ⟨⟨err, rfl⟩, rfl, fun _ => rfl⟩

/-- A message that is admitted moves the gate, and is up to the book if it is level 2. -/
theorem apply_admitted
    (h : s.connectionGate.Admits e) :
    (s.apply F T e.toRawMarketEvent).2.connectionGate.position =
      some (e.connectionId, e.number) ∧
    ∀ product,
      if IsLevel2 "snapshot" product e.toRawMarketEvent ∨
          IsLevel2 "delta" product e.toRawMarketEvent then
        (s.apply F T e.toRawMarketEvent).1 =
            ((s.book product).applyEvent F T e.toRawMarketEvent).1 ∧
          (s.apply F T e.toRawMarketEvent).2.book product =
            ((s.book product).applyEvent F T e.toRawMarketEvent).2
      else (s.apply F T e.toRawMarketEvent).2.book product = s.book product := by
  have hobserve := observe_of_admits (T := T) h
  unfold CoinbaseReplaySession.apply IsLevel2
  rw [if_neg (not_not.mpr e.venue), hobserve]
  by_cases hchannel : e.channel = "orderbook"
  · by_cases hmany : e.symbol = "ALL" ∨ e.symbol = "MULTI"
    · simp only [hchannel, ne_eq, not_true_eq_false, if_false, hmany, if_true]
      refine ⟨trivial, fun product => ?_⟩
      rw [if_neg]
      · rfl
      · rintro (⟨-, rfl, hall, hmulti, -⟩ | ⟨-, rfl, hall, hmulti, -⟩)
        · exact hmany.elim hall hmulti
        · exact hmany.elim hall hmulti
    · by_cases htype : e.messageType ≠ "snapshot" ∧ e.messageType ≠ "delta"
      · simp only [hchannel, ne_eq, not_true_eq_false, if_false, hmany, htype.1, htype.2,
          not_false_eq_true, and_self, if_true, and_false, or_self]
        exact ⟨trivial, fun _ => rfl⟩
      · simp only [hchannel, ne_eq, not_true_eq_false, if_false, hmany]
        rw [if_neg htype]
        refine ⟨rfl, fun product => ?_⟩
        have htype : e.messageType = "snapshot" ∨ e.messageType = "delta" := by
          by_contra hno
          exact htype (not_or.mp hno)
        by_cases hproduct : e.symbol = product
        · subst hproduct
          have hone := not_or.mp hmany
          rw [if_pos (htype.imp (fun ht => ⟨trivial, rfl, hone.1, hone.2, ht⟩)
            (fun ht => ⟨trivial, rfl, hone.1, hone.2, ht⟩))]
          exact ⟨rfl, by simp [CoinbaseReplaySession.book]⟩
        · rw [if_neg]
          · simp [CoinbaseReplaySession.book, Function.update_of_ne (Ne.symm hproduct)]
          · rintro (⟨-, h, -⟩ | ⟨-, h, -⟩)
            · exact hproduct h
            · exact hproduct h
  · simp only [ne_eq, hchannel, not_false_eq_true, if_true, false_and, or_self, if_false]
    exact ⟨trivial, fun _ => rfl⟩

theorem store_cases (b : CoinbaseOrderBook) (sides : Sides) (sequenceNum : Option ℤ) :
    (sides.Valid ∧
      b.store T sides sequenceNum = (.ok (), { b with sides, lastSequenceNum := sequenceNum })) ∨
    (¬ sides.Valid ∧ ∃ err, b.store T sides sequenceNum = (.error err, b)) := by
  unfold CoinbaseOrderBook.store
  cases hvalid : validateBook T b.symbol sides with
  | ok _ => exact .inl ⟨validateBook_eq_ok.mp hvalid, rfl⟩
  | error err =>
    refine .inr ⟨fun h => ?_, err, rfl⟩
    rw [validateBook_eq_ok.mpr h] at hvalid
    cases hvalid

variable {b : CoinbaseOrderBook} {e : RawMarketEvent D}

theorem applyEvent_eq
    (h : e.messageType = "snapshot" ∨ b.isReady = true) :
    b.applyEvent F T e = match readLevel2 F T e with
      | .error err => (.error err, b)
      | .ok levels => b.store T (b.nextSides e levels) e.sequence := by
  unfold CoinbaseOrderBook.applyEvent readLevel2 CoinbaseOrderBook.nextSides
  cases hpayload : e.payload F with
  | error err => rfl
  | ok message =>
    simp only [bind, Except.bind]
    split
    · by_cases hsnapshot : e.messageType = "snapshot"
      · simp only [if_pos hsnapshot]
        rfl
      · simp only [if_neg hsnapshot, CoinbaseOrderBook.applyDelta, h.resolve_left hsnapshot,
          Bool.not_true, Bool.false_eq_true, if_false]
    · rfl

/-- A level-2 message is taken by the book, or it raises and leaves the book as it was. -/
theorem applyEvent_level2
    (h : e.messageType = "snapshot" ∨ b.isReady = true) :
    (∃ levels, b.Takes F T e levels ∧ b.applyEvent F T e =
      (.ok (), { b with sides := b.nextSides e levels, lastSequenceNum := e.sequence })) ∨
    ((∀ levels, ¬ b.Takes F T e levels) ∧ ∃ err, b.applyEvent F T e = (.error err, b)) := by
  unfold CoinbaseOrderBook.Takes
  rw [applyEvent_eq h]
  cases hread : readLevel2 F T e with
  | error err => exact .inr ⟨fun levels htakes => absurd htakes.1 (by simp), err, rfl⟩
  | ok levels =>
    rcases store_cases (T := T) b (b.nextSides e levels) e.sequence with
      ⟨hvalid, hstore⟩ | ⟨hvalid, err, hstore⟩
    · exact .inl ⟨levels, ⟨rfl, hvalid⟩, hstore⟩
    · refine .inr ⟨fun levels' htakes => ?_, err, hstore⟩
      obtain ⟨hlevels, hnext⟩ := htakes
      cases hlevels
      exact hvalid hnext

/-- An update of a book that is not ready raises. -/
theorem applyEvent_unready
    (hsnapshot : e.messageType ≠ "snapshot") (h : b.isReady = false) :
    ∃ err, b.applyEvent F T e = (.error err, b) := by
  unfold CoinbaseOrderBook.applyEvent
  cases hpayload : e.payload F with
  | error err => exact ⟨err, rfl⟩
  | ok message =>
    simp only [if_neg hsnapshot, CoinbaseOrderBook.applyDelta, h, Bool.not_false, if_true]
    split
    · exact ⟨_, rfl⟩
    · exact ⟨_, rfl⟩

theorem readUpdate_size {update : PyJson} {level : SideLevel}
    (h : readUpdate T update = .ok level) : 0 ≤ level.2.2 := by
  unfold readUpdate at h
  split at h
  · simp only at h
    split at h
    · cases h
    · split at h
      · split at h
        · next hnumbers =>
          cases h
          exact hnumbers.2
        · cases h
      · cases h
      · cases h
  · cases h

variable {levels : List SideLevel}

theorem readLevel2_sizes
    (h : readLevel2 F T e = .ok levels) : ∀ level ∈ levels, 0 ≤ level.2.2 := by
  obtain ⟨message, -, h⟩ := bind_eq_ok.mp h
  split at h
  · next entries _ =>
    unfold readEntries at h
    cases hentries : entries.mapM (readEntry T) with
    | error err =>
      rw [hentries] at h
      cases h
    | ok read =>
      rw [hentries] at h
      cases h
      have hread := forall_of_mapM (P := fun levels => ∀ level ∈ levels, 0 ≤ level.2.2)
        (fun entry levels hentry => ?_) hentries
      · intro level hlevel
        obtain ⟨levels, hlevels, hlevel⟩ := List.mem_flatten.mp hlevel
        exact hread levels hlevels level hlevel
      · unfold readEntry at hentry
        split at hentry
        · split at hentry
          · exact forall_of_mapM (fun _ _ => readUpdate_size) hentry
          · cases hentry
        · cases hentry
  · cases h

variable {product : String}

theorem takes_snapshot
    (h : IsLevel2 "snapshot" product e) : b.Takes F T e levels ↔
      readLevel2 F T e = .ok levels ∧
        (Sides.ofSnapshot (sideLevels .bid levels) (sideLevels .ask levels)).Valid := by
  rw [CoinbaseOrderBook.Takes, CoinbaseOrderBook.nextSides, if_pos h.2.2.2.2]

theorem takes_delta
    (h : IsLevel2 "delta" product e) : b.Takes F T e levels ↔
      readLevel2 F T e = .ok levels ∧ (applySideLevels b.sides levels).Valid := by
  have htype : e.messageType ≠ "snapshot" := by
    rw [h.2.2.2.2]
    decide
  rw [CoinbaseOrderBook.Takes, CoinbaseOrderBook.nextSides, if_neg htype]

/-- What a message leaves of a book and of its history. -/
inductive CoinbaseRun.Outcome (F : Floats) (T : Texts) (r : CoinbaseRun) (e : CoinbaseMessage D)
    (product : String) : CoinbaseOrderBook → Option CoinbaseHistory → Prop
  | loaded {levels : List SideLevel} (hadmits : r.session.connectionGate.Admits e)
      (hsnapshot : IsLevel2 "snapshot" product e.toRawMarketEvent)
      (htakes : (r.session.book product).Takes F T e.toRawMarketEvent levels) :
      Outcome F T r e product
        ⟨(r.session.book product).symbol,
          .ofSnapshot (sideLevels .bid levels) (sideLevels .ask levels), e.sequence⟩
        (some ⟨e.connectionId, e.number, levels, []⟩)
  | updated {levels : List SideLevel} (hadmits : r.session.connectionGate.Admits e)
      (hupdate : IsLevel2 "delta" product e.toRawMarketEvent)
      (hready : (r.session.book product).isReady = true)
      (htakes : (r.session.book product).Takes F T e.toRawMarketEvent levels) :
      Outcome F T r e product
        ⟨(r.session.book product).symbol, applySideLevels (r.session.book product).sides levels,
          e.sequence⟩
        ((r.history product).bind (CoinbaseHistory.next F T product · e))
  | same (hsnapshot : r.session.connectionGate.Admits e →
        IsLevel2 "snapshot" product e.toRawMarketEvent →
        ∀ levels, ¬ (r.session.book product).Takes F T e.toRawMarketEvent levels)
      (hupdate : r.session.connectionGate.Admits e → (r.session.book product).isReady = true →
        IsLevel2 "delta" product e.toRawMarketEvent →
        ∀ levels, ¬ (r.session.book product).Takes F T e.toRawMarketEvent levels) :
      Outcome F T r e product (r.session.book product)
        ((r.history product).bind (CoinbaseHistory.next F T product · e))

theorem CoinbaseRun.outcome (r : CoinbaseRun) (e : CoinbaseMessage D) (product : String) :
    r.Outcome F T e product ((r.step F T e).session.book product)
      ((r.step F T e).history product) := by
  unfold CoinbaseRun.step CoinbaseReplaySession.loads
  simp only
  by_cases hadmits : r.session.connectionGate.Admits e
  · have happly := (apply_admitted (F := F) (T := T) hadmits).2 product
    by_cases hsnapshot : IsLevel2 "snapshot" product e.toRawMarketEvent
    · rw [if_pos (.inl hsnapshot)] at happly
      rw [if_pos hsnapshot, happly.1, happly.2]
      rcases applyEvent_level2 (F := F) (T := T) (b := r.session.book product)
        (.inl hsnapshot.2.2.2.2) with ⟨levels, htakes, hevent⟩ | ⟨hno, err, hevent⟩
      · rw [hevent, htakes.1]
        have hsides : (r.session.book product).nextSides e.toRawMarketEvent levels =
            .ofSnapshot (sideLevels .bid levels) (sideLevels .ask levels) := by
          rw [CoinbaseOrderBook.nextSides, if_pos hsnapshot.2.2.2.2]
        simp only [hsides]
        exact .loaded hadmits hsnapshot htakes
      · rw [hevent]
        exact .same (fun _ _ => hno) fun _ _ _ => hno
    · rw [if_neg hsnapshot]
      by_cases hupdate : IsLevel2 "delta" product e.toRawMarketEvent
      · rw [if_pos (.inr hupdate)] at happly
        rw [happly.2]
        have htype : e.messageType ≠ "snapshot" := by
          rw [hupdate.2.2.2.2]
          decide
        cases hready : (r.session.book product).isReady with
        | false =>
          obtain ⟨err, hevent⟩ := applyEvent_unready (F := F) (T := T) htype hready
          rw [hevent]
          refine .same (fun _ h => absurd h hsnapshot) fun _ h => ?_
          rw [hready] at h
          cases h
        | true =>
          rcases applyEvent_level2 (F := F) (T := T) (e := e.toRawMarketEvent) (.inr hready) with
            ⟨levels, htakes, hevent⟩ | ⟨hno, err, hevent⟩
          · rw [hevent]
            have hsides : (r.session.book product).nextSides e.toRawMarketEvent levels =
                applySideLevels (r.session.book product).sides levels := by
              rw [CoinbaseOrderBook.nextSides, if_neg htype]
            simp only [hsides]
            exact .updated hadmits hupdate hready htakes
          · rw [hevent]
            exact .same (fun _ _ => hno) fun _ _ _ => hno
      · rw [if_neg (not_or.mpr ⟨hsnapshot, hupdate⟩)] at happly
        rw [happly]
        exact .same (fun _ h => absurd h hsnapshot) fun _ _ h => absurd h hupdate
  · obtain ⟨⟨err, herr⟩, -, hbook⟩ := apply_rejected (F := F) (T := T) hadmits
    rw [herr, hbook product, ite_self]
    exact .same (fun h => absurd h hadmits) fun h => absurd h hadmits

/-! ## Runs -/

theorem applySideLevels_eq (s : Sides) (levels : List SideLevel) : applySideLevels s levels =
    ⟨writeAll s.bids (sideLevels .bid levels), writeAll s.asks (sideLevels .ask levels)⟩ := by
  induction levels generalizing s with
  | nil => rfl
  | cons level levels ih =>
    obtain ⟨side, level⟩ := level
    cases side with
    | bid => exact ih { s with bids := applyLevels s.bids [level] }
    | ask => exact ih { s with asks := applyLevels s.asks [level] }

namespace CoinbaseHistory

variable {product : String} {e : CoinbaseMessage D}

/-- A history goes on exactly if the message has the next number of its connection. -/
theorem next_isSome {h : CoinbaseHistory} :
    (h.next F T product e).isSome = true ↔
      some (h.connectionId, h.last) = some (e.connectionId, e.number - 1) := by
  unfold next
  simp only [Option.some.injEq, Prod.mk.injEq]
  split
  · next hnext =>
    simp only [Option.isSome_some, true_iff]
    exact ⟨hnext.1.symm, by omega⟩
  · next hnext =>
    simp only [Option.isSome_none, Bool.false_eq_true, false_iff]
    exact fun hsame => hnext ⟨hsame.1.symm, by omega⟩

variable {h h' : CoinbaseHistory}

theorem next_eq_some
    (hnext : h.next F T product e = some h') : h'.connectionId = e.connectionId ∧
      h'.last = e.number ∧ h'.snapshot = h.snapshot ∧ h'.updates = h.updates ++
        if IsLevel2 "delta" product e.toRawMarketEvent then [readLevel2 F T e.toRawMarketEvent]
        else [] := by
  unfold next at hnext
  split at hnext
  · next hsame =>
    cases hnext
    exact ⟨hsame.1.symm, rfl, rfl, rfl⟩
  · cases hnext

variable {s : Sides} {levels : List SideLevel}

theorem Folds.update
    (hfolds : h.Folds s) (hsnapshot : h'.snapshot = h.snapshot)
    (hupdates : h'.updates = h.updates ++ [.ok levels]) : h'.Folds (applySideLevels s levels) := by
  obtain ⟨us, hus, hbids, hasks⟩ := hfolds
  refine ⟨us ++ [levels], ?_, ?_, ?_⟩
  · rw [hupdates, hus, List.map_append]
    rfl
  · rw [hsnapshot, applySideLevels_eq, List.flatMap_append, List.flatMap_singleton, writeAll_append]
    exact hbids.writeAll _
  · rw [hsnapshot, applySideLevels_eq, List.flatMap_append, List.flatMap_singleton, writeAll_append]
    exact hasks.writeAll _

/-- An update that changes nothing can be read, and leaves the sides the same. -/
theorem Folds.unchanged
    {update : Except MarketError (List SideLevel)} (hfolds : h.Folds s) (hfolds' : h'.Folds s)
    (hsnapshot : h'.snapshot = h.snapshot) (hupdates : h'.updates = h.updates ++ [update]) :
    ∃ levels, update = .ok levels ∧ Same s.bids (applySideLevels s levels).bids ∧
      Same s.asks (applySideLevels s levels).asks := by
  obtain ⟨us, hus, hbids, hasks⟩ := hfolds
  obtain ⟨us', hus', hbids', hasks'⟩ := hfolds'
  rw [hupdates] at hus'
  obtain ⟨before, last, rfl, hbefore, hlast⟩ := List.append_eq_map_iff.mp hus'
  obtain ⟨levels, rfl, rfl⟩ := List.map_eq_singleton_iff.mp hlast
  have hsame : before = us := by
    apply List.map_injective_iff.mpr (fun _ _ => Except.ok.inj)
    exact hbefore.trans hus
  subst hsame
  rw [hsnapshot, List.flatMap_append, List.flatMap_singleton, writeAll_append] at hbids' hasks'
  refine ⟨levels, rfl, ?_⟩
  rw [applySideLevels_eq]
  exact ⟨hbids'.trans (hbids.writeAll _).symm, hasks'.trans (hasks.writeAll _).symm⟩

/-- A history that begins with a snapshot. -/
theorem folds_snapshot {e : RawMarketEvent D} {connectionId : String}
    {last : ℤ} (h : readLevel2 F T e = .ok levels) :
    Folds ⟨connectionId, last, levels, []⟩
      (.ofSnapshot (sideLevels .bid levels) (sideLevels .ask levels)) := by
  have hsizes (side : BookSide) : ∀ level ∈ sideLevels side levels, 0 ≤ level.2 := by
    intro level hlevel
    obtain ⟨level', hlevel', rfl⟩ := List.mem_map.mp hlevel
    exact readLevel2_sizes h level' (List.mem_of_mem_filter hlevel')
  refine ⟨[], rfl, ?_, ?_⟩
  · rw [Sides.ofSnapshot, positiveLevels_eq (hsizes .bid)]
    exact Same.refl _
  · rw [Sides.ofSnapshot, positiveLevels_eq (hsizes .ask)]
    exact Same.refl _

end CoinbaseHistory

namespace CoinbaseRun

/-- What holds in every run: the gate is where every history is, and books that are ready are
valid. -/
structure Linked (r : CoinbaseRun) : Prop where
  position : ∀ product h, r.history product = some h →
    r.session.connectionGate.position = some (h.connectionId, h.last)
  valid : ∀ product, (r.session.book product).isReady = true →
    (r.session.book product).sides.Valid

variable {r : CoinbaseRun} {e : CoinbaseMessage D}

variable {product : String} {book : CoinbaseOrderBook} {history : Option CoinbaseHistory}

theorem position_step
    {h : CoinbaseHistory}
    (hlinked : r.Linked) (houtcome : r.Outcome F T e product book history)
    (hhistory : history = some h) : r.session.connectionGate.Admits e ∧
      h.connectionId = e.connectionId ∧ h.last = e.number := by
  have hnext (hhistory : (r.history product).bind (CoinbaseHistory.next F T product · e) = some h) :
      r.session.connectionGate.Admits e ∧ h.connectionId = e.connectionId ∧ h.last = e.number := by
    obtain ⟨h', hold, hnext⟩ := Option.bind_eq_some_iff.mp hhistory
    obtain ⟨hconn, hlast, -⟩ := CoinbaseHistory.next_eq_some hnext
    refine ⟨fun connectionId last hposition _ => ?_, hconn, hlast⟩
    have hsome := CoinbaseHistory.next_isSome.mp (Option.isSome_iff_exists.mpr ⟨h, hnext⟩)
    rw [hlinked.position product h' hold, hsome] at hposition
    cases hposition
    omega
  cases houtcome with
  | loaded hadmits _ _ =>
    cases hhistory
    exact ⟨hadmits, rfl, rfl⟩
  | updated _ _ _ _ => exact hnext hhistory
  | same _ _ => exact hnext hhistory

/-- A message that is admitted moves the gate. -/
theorem position_of_admits
    (h : r.session.connectionGate.Admits e) :
    (r.step F T e).session.connectionGate.position = some (e.connectionId, e.number) :=
  (apply_admitted h).1

theorem linked_step (r : CoinbaseRun) (e : CoinbaseMessage D) (hlinked : r.Linked) :
    (r.step F T e).Linked := by
  constructor
  · intro product h hhistory
    obtain ⟨hadmits, hconn, hlast⟩ := position_step hlinked (r.outcome (F := F) (T := T) e product)
      hhistory
    rw [hconn, hlast]
    exact position_of_admits hadmits
  · intro product
    have houtcome := r.outcome (F := F) (T := T) e product
    revert houtcome
    generalize (r.step F T e).session.book product = book
    generalize (r.step F T e).history product = history
    intro houtcome hready
    cases houtcome with
    | loaded _ hsnapshot htakes => exact ((takes_snapshot hsnapshot).mp htakes).2
    | updated _ hupdate _ htakes => exact ((takes_delta hupdate).mp htakes).2
    | same _ _ => exact hlinked.valid product hready

/-- A book goes on folding its history exactly if the message continues it. -/
theorem Outcome.folds
    (houtcome : r.Outcome F T e product book history) (hlinked : r.Linked)
    (hold : (r.session.book product).isReady = true →
      ∃ h, r.history product = some h ∧ h.Folds (r.session.book product).sides) :
    (book.isReady = true → ∃ h, history = some h ∧ h.Folds book.sides) ↔
      r.ContinuesAt F T product e := by
  cases houtcome with
  | loaded hadmits hsnapshot htakes =>
    have hread := ((takes_snapshot hsnapshot).mp htakes).1
    exact ⟨fun _ _ => .inl ⟨hadmits, hsnapshot, _, htakes⟩,
      fun _ _ => ⟨_, rfl, CoinbaseHistory.folds_snapshot hread⟩⟩
  | updated hadmits hupdate hready htakes =>
    obtain ⟨h, hhistory, hfolds⟩ := hold hready
    obtain ⟨hread, hvalid⟩ := (takes_delta hupdate).mp htakes
    have hposition := hlinked.position product h hhistory
    rw [hhistory, Option.bind_some]
    constructor
    · intro hnew _
      obtain ⟨h', hnext, -⟩ := hnew (Sides.filled_eq_true.mpr ⟨hvalid.bids, hvalid.asks⟩)
      refine .inr ⟨?_, fun _ => ⟨_, htakes⟩⟩
      rw [hposition]
      exact CoinbaseHistory.next_isSome.mp (Option.isSome_iff_exists.mpr ⟨h', hnext⟩)
    · intro hcontinues _
      rcases hcontinues hready with ⟨-, hsnapshot, -⟩ | ⟨hnumber, -⟩
      · have htype := hupdate.2.2.2.2.symm.trans hsnapshot.2.2.2.2
        exact absurd htype (by decide)
      · rw [hposition] at hnumber
        have hsome : (h.next F T product e).isSome = true := CoinbaseHistory.next_isSome.mpr hnumber
        obtain ⟨h', hnext⟩ := Option.isSome_iff_exists.mp hsome
        obtain ⟨-, -, hsnapshot, hupdates⟩ := CoinbaseHistory.next_eq_some hnext
        rw [if_pos hupdate, hread] at hupdates
        exact ⟨h', hnext, hfolds.update hsnapshot hupdates⟩
  | same hsnapshot hupdate =>
    refine imp_congr_right fun hready => ?_
    obtain ⟨h, hhistory, hfolds⟩ := hold hready
    have hposition := hlinked.position product h hhistory
    have hadmits (hnumber : r.session.connectionGate.position =
        some (e.connectionId, e.number - 1)) : r.session.connectionGate.Admits e := by
      intro connectionId last hlast _
      rw [hnumber] at hlast
      cases hlast
      omega
    rw [hhistory, Option.bind_some]
    constructor
    · rintro ⟨h', hnext, hfolds'⟩
      have hnumber := CoinbaseHistory.next_isSome.mp (Option.isSome_iff_exists.mpr ⟨h', hnext⟩)
      rw [← hposition] at hnumber
      refine .inr ⟨hnumber, fun hdelta => ?_⟩
      obtain ⟨-, -, hsame, hupdates⟩ := CoinbaseHistory.next_eq_some hnext
      rw [if_pos hdelta] at hupdates
      obtain ⟨levels, hread, hbids, hasks⟩ := hfolds.unchanged hfolds' hsame hupdates
      exact ⟨levels, (takes_delta hdelta).mpr
        ⟨hread, (hlinked.valid product hready).of_same hbids hasks⟩⟩
    · rintro (⟨hadm, hsnap, levels, htakes⟩ | ⟨hnumber, htakes⟩)
      · exact absurd htakes (hsnapshot hadm hsnap levels)
      · have hdelta : ¬ IsLevel2 "delta" product e.toRawMarketEvent := by
          intro hdelta
          obtain ⟨levels, htakes⟩ := htakes hdelta
          exact hupdate (hadmits hnumber) hready hdelta levels htakes
        rw [hposition] at hnumber
        have hsome : (h.next F T product e).isSome = true := CoinbaseHistory.next_isSome.mpr hnumber
        obtain ⟨h', hnext⟩ := Option.isSome_iff_exists.mp hsome
        obtain ⟨-, -, hsame, hupdates⟩ := CoinbaseHistory.next_eq_some hnext
        rw [if_neg hdelta, List.append_nil] at hupdates
        refine ⟨h', hnext, ?_⟩
        unfold CoinbaseHistory.Folds
        rw [hsame, hupdates]
        exact hfolds

theorem linked_init : Linked {} :=
  ⟨fun _ _ hhistory => (by cases hhistory), fun _ hready => (by cases hready)⟩

end CoinbaseRun

/-- **Coinbase replay.** In every run, all books that are ready fold one snapshot and all updates
since, over messages of one connection without a gap, after every message, exactly if every
message continues every book that is ready. -/
theorem coinbase_replay (F : Floats) (T : Texts) (messages : List (CoinbaseMessage D)) :
    Runs.Always (CoinbaseRun.step F T) CoinbaseRun.Folds {} messages ↔
      Runs.Meets (CoinbaseRun.step F T) (CoinbaseRun.Continues F T) {} messages := by
  refine Runs.always_iff_meets (I := CoinbaseRun.Linked) CoinbaseRun.linked_step ?_ messages
    CoinbaseRun.linked_init (fun product hready => ?_)
  · intro r e hlinked hfolds
    exact forall_congr' fun product => (r.outcome e product).folds hlinked (hfolds product)
  · cases hready

/-! ## A missing number -/

/-- An update of a level-2 message. -/
def levelUpdate (side price size : String) : PyJson :=
  .obj [("new_quantity", .str size), ("price_level", .str price), ("side", .str side)]

@[simp] theorem canonical_levelUpdate (side price size : String) :
    Json.Canonical (levelUpdate side price size) := by
  refine .obj (Json.sorted_of_keys ?_) (by simp)
  show (["new_quantity", "price_level", "side"] : List String).Pairwise (· < ·)
  decide +kernel

/-- The payload of a level-2 message. -/
def level2Payload (updates : List PyJson) : List (String × PyJson) :=
  [("events", .arr [.obj [("updates", .arr updates)]])]

theorem canonical_level2Payload {updates : List PyJson} (h : ∀ u ∈ updates, Json.Canonical u) :
    Json.Canonical (.obj (level2Payload updates)) := by
  refine .obj (Json.sorted_of_keys (List.pairwise_singleton _ _)) ?_
  simp only [List.mem_singleton, forall_eq, level2Payload]
  refine .arr fun v hv => ?_
  rw [List.mem_singleton.mp hv]
  refine .obj (Json.sorted_of_keys (List.pairwise_singleton _ _)) ?_
  simp only [List.mem_singleton, forall_eq]
  exact .arr h

def snapshotUpdates : List PyJson := [levelUpdate "bid" "99" "1", levelUpdate "offer" "101" "1"]

/-- A snapshot with number 1. -/
def level2Snapshot : CoinbaseMessage (digestOf []) where
  toRawMarketEvent := bookEvent "coinbase" "snapshot" "c" (some 1) (level2Payload snapshotUpdates)
    sampleConnection_ne
  number := 1
  venue := rfl
  sequenced := rfl

/-- An update with number 3 of the same connection. -/
def level2Late : CoinbaseMessage (digestOf []) where
  toRawMarketEvent := bookEvent "coinbase" "delta" "c" (some 3) (level2Payload []) sampleConnection_ne
  number := 3
  venue := rfl
  sequenced := rfl

theorem read_level2Snapshot :
    readLevel2 sampleFloats sampleTexts level2Snapshot.toRawMarketEvent =
      .ok [(.bid, 99, 1), (.ask, 101, 1)] := by
  have hpayload : level2Snapshot.payload sampleFloats = .ok (level2Payload snapshotUpdates) :=
    payload_bookEvent (canonical_level2Payload (by simp [snapshotUpdates]))
  rw [readLevel2, hpayload]
  rfl

theorem snapshot_level2Snapshot :
    IsLevel2 "snapshot" "BTC" level2Snapshot.toRawMarketEvent :=
  ⟨rfl, rfl, by decide, by decide, rfl⟩

theorem admits_level2Snapshot :
    (({} : CoinbaseRun).session.connectionGate).Admits level2Snapshot :=
  fun connectionId last h => by cases h

theorem ready_level2Snapshot : ((CoinbaseRun.step sampleFloats sampleTexts {}
    level2Snapshot).session.book "BTC").isReady = true := by
  have hvalid : (Sides.ofSnapshot [(99, 1)] [(101, 1)]).Valid :=
    ⟨by decide +kernel, by decide +kernel, by decide +kernel⟩
  have houtcome := CoinbaseRun.outcome (F := sampleFloats) (T := sampleTexts) {} level2Snapshot "BTC"
  revert houtcome
  generalize (CoinbaseRun.step sampleFloats sampleTexts {} level2Snapshot).session.book "BTC" = book
  generalize (CoinbaseRun.step sampleFloats sampleTexts {} level2Snapshot).history "BTC" = history
  intro houtcome
  cases houtcome with
  | loaded _ hsnapshot htakes =>
    obtain ⟨-, hnext⟩ := (takes_snapshot hsnapshot).mp htakes
    exact Sides.filled_eq_true.mpr ⟨hnext.bids, hnext.asks⟩
  | updated _ _ hready _ => cases hready
  | same hsnapshot _ =>
    exact absurd ((takes_snapshot snapshot_level2Snapshot).mpr ⟨read_level2Snapshot, hvalid⟩)
      (hsnapshot admits_level2Snapshot snapshot_level2Snapshot _)

/-- After number 1 comes number 3: the book of the snapshot is still ready. -/
theorem missing_number_keeps_book : ¬ ∀ messages : List (CoinbaseMessage (digestOf [])),
    Runs.Always (CoinbaseRun.step sampleFloats sampleTexts) CoinbaseRun.Folds {} messages := by
  intro hclaim
  obtain ⟨-, -, hlate⟩ := hclaim [level2Snapshot, level2Late]
  have hposition : (CoinbaseRun.step sampleFloats sampleTexts {}
      level2Snapshot).session.connectionGate.position =
      some (level2Snapshot.connectionId, level2Snapshot.number) :=
    CoinbaseRun.position_of_admits admits_level2Snapshot
  have hready := ready_level2Snapshot
  have hlinked := CoinbaseRun.linked_step (F := sampleFloats) (T := sampleTexts) _ level2Snapshot
    CoinbaseRun.linked_init
  generalize CoinbaseRun.step sampleFloats sampleTexts {} level2Snapshot = r at *
  have hadmits : ¬ r.session.connectionGate.Admits level2Late := by
    intro h
    have hnext : level2Late.number = level2Snapshot.number + 1 := h _ _ hposition rfl
    exact absurd hnext (by decide)
  have hsame := (apply_rejected (F := sampleFloats) (T := sampleTexts) hadmits).2.2 "BTC"
  obtain ⟨h, hhistory, -⟩ := hlate "BTC" ((congrArg CoinbaseOrderBook.isReady hsame).trans hready)
  exact hadmits (CoinbaseRun.position_step hlinked (r.outcome level2Late "BTC") hhistory).1

end Greenfield.Data
