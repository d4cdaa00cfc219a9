import Greenfield.Data.RawEvent
import Greenfield.Lib.Depth

/-!
# Price levels of a message

The functions that the replay modules of the venues each have a copy of. The two sides of a
book are tables of sizes by price.
-/

namespace Greenfield.Data

open Py Keyed Depth

abbrev PriceSide := Side ℚ ℚ

/-- `_bids` and `_asks`. -/
structure Sides where
  bids : PriceSide
  asks : PriceSide

def Sides.empty : Sides := ⟨Table.empty, Table.empty⟩

/-- `bool(self._bids) and bool(self._asks)`. -/
def Sides.filled (s : Sides) : Bool := !s.bids.rows.isEmpty && !s.asks.rows.isEmpty

/-- `not bids or not asks or max(bids) >= min(asks)`. -/
def Sides.isEmptyOrCrossed (s : Sides) : Bool :=
  match (s.bids.rows.map Prod.fst).max?, (s.asks.rows.map Prod.fst).min? with
  | some bestBid, some bestAsk => bestAsk ≤ bestBid
  | _, _ => true

/-- `{price: size for price, size in levels if size > 0}`. -/
def positiveLevels (levels : List (ℚ × ℚ)) : PriceSide :=
  (levels.filter fun level => 0 < level.2).foldl Table.upsert Table.empty

/-- `_apply_levels`. -/
def applyLevels (side : PriceSide) (levels : List (ℚ × ℚ)) : PriceSide :=
  levels.foldl (fun side level => if level.2 = 0 then side.erase level.1 else side.upsert level)
    side

/-- The sides of a snapshot. -/
def Sides.ofSnapshot (bids asks : List (ℚ × ℚ)) : Sides :=
  ⟨positiveLevels bids, positiveLevels asks⟩

/-- Copies of the sides with a delta applied. -/
def Sides.apply (s : Sides) (bids asks : List (ℚ × ℚ)) : Sides :=
  ⟨applyLevels s.bids bids, applyLevels s.asks asks⟩

variable (T : Texts)

/-- A level of `_levels`, of which `fits` tests the length; the price and the size are the
first two elements. -/
def readLevel (fits : ℕ → Bool) (name : String) (level : PyJson) : Except MarketError (ℚ × ℚ) :=
  match level with
  | .arr (first :: second :: rest) =>
    if fits (rest.length + 2) then
      match T.decimal (T.str first), T.decimal (T.str second) with
      | some (.finite price), some (.finite size) =>
        if 0 < price ∧ 0 ≤ size then .ok (price, size)
        else .error (.replay ("invalid numeric order-book level: " ++ T.repr level))
      | some _, some _ => .error (.replay ("invalid numeric order-book level: " ++ T.repr level))
      | _, _ => .error (.replay ("invalid decimal order-book level: " ++ T.repr level))
    else .error (.replay ("invalid order-book " ++ name ++ " level: " ++ T.repr level))
  | _ => .error (.replay ("invalid order-book " ++ name ++ " level: " ++ T.repr level))

/-- `_levels`. -/
def readLevels (fits : ℕ → Bool) (name : String) : PyJson → Except MarketError (List (ℚ × ℚ))
  | .arr levels => levels.mapM (readLevel T fits name)
  | _ => .error (.replay ("order-book " ++ name ++ " must be a list"))

/-- `_required_int`. -/
def requiredInt (value : PyJson) (name : String) : Except MarketError ℤ :=
  match value with
  | .null => .error (.replay ("missing integer " ++ name))
  | .bool _ => .error (.replay ("missing integer " ++ name))
  | value => orRaise (pyInt T value)
      (.replay ("invalid integer " ++ name ++ ": " ++ T.repr value))

/-- `_validate_book`. -/
def validateBook (symbol : String) (s : Sides) : Except MarketError Unit :=
  match (s.bids.rows.map Prod.fst).max?, (s.asks.rows.map Prod.fst).min? with
  | some bestBid, some bestAsk =>
    if bestAsk ≤ bestBid then
      .error (.invalidOrderBook (symbol ++ " order book is crossed: bid=" ++ T.ofDecimal bestBid ++
        ", ask=" ++ T.ofDecimal bestAsk))
    else .ok ()
  | _, _ => .error (.invalidOrderBook (symbol ++ " order book has an empty side"))

/-! ## What they leave -/

/-- Both sides have levels, all with a size, and every bid is below every ask. -/
structure Sides.Valid (s : Sides) : Prop where
  bids : s.bids.rows ≠ []
  asks : s.asks.rows ≠ []
  uncrossed : ∀ bid ∈ s.bids.rows, ∀ ask ∈ s.asks.rows, bid.1 < ask.1

/-- Sides with the same levels are both valid. -/
theorem Sides.Valid.of_same {s t : Sides} (h : s.Valid) (hbids : Same s.bids t.bids)
    (hasks : Same s.asks t.asks) : t.Valid :=
  ⟨hbids.rows_ne_nil h.bids, hasks.rows_ne_nil h.asks,
    fun bid hbid ask hask => h.uncrossed bid (hbids.mem.mpr hbid) ask (hasks.mem.mpr hask)⟩

/-- Every level has a size. -/
def Sides.Sized (s : Sides) : Prop :=
  (∀ level ∈ s.bids.rows, 0 < level.2) ∧ ∀ level ∈ s.asks.rows, 0 < level.2

variable {s : Sides}

theorem Sides.filled_eq_true :
    s.filled = true ↔ s.bids.rows ≠ [] ∧ s.asks.rows ≠ [] := by
  simp [Sides.filled]

variable {T}

theorem Sides.isEmptyOrCrossed_eq_false : s.isEmptyOrCrossed = false ↔ s.Valid := by
  unfold Sides.isEmptyOrCrossed
  cases hbid : (s.bids.rows.map Prod.fst).max? with
  | none =>
    simp only [Bool.true_eq_false, false_iff]
    intro h
    simp [h.bids] at hbid
  | some bestBid =>
    cases hask : (s.asks.rows.map Prod.fst).min? with
    | none =>
      simp only [Bool.true_eq_false, false_iff]
      intro h
      simp [h.asks] at hask
    | some bestAsk =>
      obtain ⟨hbidMem, hbidMax⟩ := List.max?_eq_some_iff.mp hbid
      obtain ⟨haskMem, haskMin⟩ := List.min?_eq_some_iff.mp hask
      have hbids : s.bids.rows ≠ [] := fun h => by simp [h] at hbidMem
      have hasks : s.asks.rows ≠ [] := fun h => by simp [h] at haskMem
      rw [decide_eq_false_iff_not, not_le]
      constructor
      · intro hlt
        refine ⟨hbids, hasks, fun bid hb ask ha => ?_⟩
        have hle := hbidMax bid.1 (List.mem_map_of_mem hb)
        have hge := haskMin ask.1 (List.mem_map_of_mem ha)
        exact (hle.trans_lt hlt).trans_le hge
      · intro h
        obtain ⟨bid, hb, rfl⟩ := List.mem_map.mp hbidMem
        obtain ⟨ask, ha, rfl⟩ := List.mem_map.mp haskMem
        exact h.uncrossed bid hb ask ha

theorem validateBook_eq_ok {symbol : String} :
    validateBook T symbol s = .ok () ↔ s.Valid := by
  rw [← Sides.isEmptyOrCrossed_eq_false]
  unfold validateBook Sides.isEmptyOrCrossed
  split
  · next bestBid bestAsk _ _ =>
    by_cases hle : bestAsk ≤ bestBid
    · simp [hle]
    · simp [hle]
  · simp

variable {name : String} {fits : ℕ → Bool}

theorem readLevel_eq_ok {level : PyJson} {l : ℚ × ℚ}
    (h : readLevel T fits name level = .ok l) : 0 < l.1 ∧ 0 ≤ l.2 := by
  unfold readLevel at h
  split at h
  · split at h
    · split at h
      · split at h
        · next hnumbers =>
          cases h
          exact hnumbers
        · cases h
      · cases h
      · cases h
    · cases h
  · cases h

theorem readLevels_eq_ok {value : PyJson} {ls : List (ℚ × ℚ)}
    (h : readLevels T fits name value = .ok ls) : ∀ l ∈ ls, 0 < l.1 ∧ 0 ≤ l.2 := by
  unfold readLevels at h
  split at h
  · exact forall_of_mapM (fun _ _ => readLevel_eq_ok) h
  · cases h

/-- A number that cannot be read is no gap. -/
theorem requiredInt_ne_gap {value : PyJson} {err : MarketError}
    (h : requiredInt T value name = .error err) (msg : String) : err ≠ .sequenceGap msg := by
  unfold requiredInt at h
  split at h
  · cases h
    exact MarketError.noConfusion
  · cases h
    exact MarketError.noConfusion
  · rcases orRaise_eq_error h with rfl | h
    · exact MarketError.noConfusion
    · exact pyInt_ne_gap h msg

theorem positiveLevels_eq {levels : List (ℚ × ℚ)} (h : ∀ l ∈ levels, 0 ≤ l.2) :
    positiveLevels levels = collect levels := by
  unfold positiveLevels collect
  rw [List.foldl_filter]
  apply List.foldl_ext
  intro side level hlevel
  by_cases hzero : level.2 = 0
  · simp [hzero]
  · simp [hzero, lt_of_le_of_ne (h level hlevel) (Ne.symm hzero)]

/-! ## Messages as the venues write them -/

/-- The texts of a few numbers. -/
def sampleNumbers : List (String × ℚ) :=
  [("0", 0), ("1", 1), ("2", 2), ("5", 5), ("99", 99), ("100", 100), ("101", 101), ("102", 102)]

/-- Python's readings of texts like these. -/
def sampleTexts : Texts where
  str
    | .str s => s
    | _ => ""
  repr _ := ""
  int text := (sampleNumbers.lookup text).map Rat.floor
  decimal text := (sampleNumbers.lookup text).map .finite
  ofDecimal _ := ""

/-- Levels of a price and a size, after the texts in `before`. -/
def levelTexts (before : List String) (levels : List (String × String)) : PyJson :=
  .arr (levels.map fun level => .arr ((before ++ [level.1, level.2]).map .str))

@[simp] theorem canonical_levelTexts (before : List String) (levels : List (String × String)) :
    Json.Canonical (levelTexts before levels) := by
  refine .arr fun v hv => ?_
  obtain ⟨level, -, rfl⟩ := List.mem_map.mp hv
  refine .arr fun v hv => ?_
  obtain ⟨text, -, rfl⟩ := List.mem_map.mp hv
  exact .str text

/-- An order-book event with this payload. -/
def bookEvent (exchange messageType connectionId : String) (sequence : Option ℤ)
    (message : List (String × PyJson)) (hconn : connectionId ≠ "") :
    RawMarketEvent (digestOf []) where
  schemaVersion := rawEventSchemaVersion
  ingestionVersion := rawIngestionVersion
  eventId := "e"
  exchange
  marketType := "linear"
  channel := "orderbook"
  topic := "orderbook"
  symbol := "BTC"
  messageType
  exchangeTsMs := some 1
  receiveTsNs := 1
  receiveSequence := 1
  matchingTsMs := some 1
  sequence
  updateId := none
  connectionId
  payloadSha256 := (digestOf []).sha256Hex (Json.dumps sampleFloats (.obj message))
  payloadText := Json.dumps sampleFloats (.obj message)
  version := rfl
  received := Int.one_pos
  numbered := Int.one_pos
  connected := hconn
  hashed := rfl

theorem payload_bookEvent {exchange messageType connectionId : String} {sequence : Option ℤ}
    {message : List (String × PyJson)} {hconn : connectionId ≠ ""}
    (h : Json.Canonical (.obj message)) :
    (bookEvent exchange messageType connectionId sequence message hconn).payload sampleFloats =
      .ok message := by
  have hloads : Json.loads sampleFloats (bookEvent exchange messageType connectionId sequence
      message hconn).payloadText = some (.obj message) := Json.loads_dumps h
  unfold RawMarketEvent.payload
  rw [hloads]

end Greenfield.Data
