import Greenfield.Py.Json
import Greenfield.Py.Time
import Greenfield.Risk.Limits

/-!
# The portfolio state store

`src/risk/portfolio_state_store.py`: the file of a risk snapshot, with the SHA-256 of its
canonical payload. A dictionary literal is written in the order of its keys. The text of a
float is a parameter that reads back what it writes.
-/

namespace Greenfield.Py

/-- `value.astimezone(UTC)`. -/
def Datetime.instant (d : Datetime) : Instant := d.micros - d.utcOffset.getD 0

end Greenfield.Py

namespace Greenfield.Risk

open Keyed Py Json

/-! ## Writing -/

section

variable (D : Digests) (F : Floats)

/-- `_digest`. -/
def digest (payload : PyJson) : String := D.sha256Hex (dumps F payload)

def positionToDict (x : PortfolioPosition) : PyJson :=
  .obj
    [("committed_risk_fraction", ofRat x.committedRiskFraction), ("engine", .str x.engine),
      ("key", .str x.key), ("opened_at_utc", .str (isoformat x.openedAtUtc.instant)),
      ("signed_notional", ofRat x.signedNotional), ("strategy", .str x.strategy),
      ("symbol", .str x.symbol), ("venue", .str x.venue)]

/-- `_snapshot_to_dict`. -/
def snapshotToDict (s : PortfolioRiskSnapshot) : PyJson :=
  .obj
    [("current_day", ofOptional (s.currentDay.map dateIsoformat)),
      ("daily_realized_pnl", ofRat s.dailyRealizedPnl),
      ("kill_switch_reason", ofOptional s.killSwitchReason), ("peak_equity", ofRat s.peakEquity),
      ("positions", .arr (s.positions.map positionToDict))]

def payloadOf (s : PortfolioRiskSnapshot) (savedAt : Instant) : PyJson :=
  .obj [("saved_at_utc", .str (isoformat savedAt)), ("schema_version", .int 1),
    ("snapshot", snapshotToDict s)]

def envelopeOf (s : PortfolioRiskSnapshot) (savedAt : Instant) : PyJson :=
  .obj [("saved_at_utc", .str (isoformat savedAt)), ("schema_version", .int 1),
    ("sha256", .str (digest D F (payloadOf s savedAt))), ("snapshot", snapshotToDict s)]

/-- The text that `save` writes. -/
def savedText (s : PortfolioRiskSnapshot) (savedAt : Instant) : String :=
  dumps F (envelopeOf D F s savedAt) ++ "\n"

/-! ## Reading

A decoder answers `none` where the code raises a `KeyError`, `TypeError` or `ValueError`,
which `_decode` turns into one error. -/

/-- `_number`. -/
def number : Option PyJson → Option ℚ
  | some (.int n) => some n
  | some (.float (.finite q)) => some q
  | _ => none

def string : Option PyJson → Option String
  | some (.str s) => some s
  | _ => none

/-- A string or `null`. -/
def optionalString : Option PyJson → Option (Option String)
  | some (.str s) => some (some s)
  | some .null => some none
  | _ => none

/-- `_parse_datetime`. -/
def parseDatetime (v : Option PyJson) : Option Datetime := do
  fromisoformat (replaceZ (← string v))

/-- `_position_from_dict`, with the tests of the constructor. -/
def positionFromDict : PyJson → Option PortfolioPosition
  | .obj v => do
    let key ← string (get v "key")
    let symbol ← string (get v "symbol")
    let venue ← string (get v "venue")
    let strategy ← string (get v "strategy")
    let engine ← string (get v "engine")
    let signedNotional ← number (get v "signed_notional")
    let committedRiskFraction ← number (get v "committed_risk_fraction")
    let openedAtUtc ← parseDatetime (get v "opened_at_utc")
    if h : (∀ v ∈ [key, symbol, venue, strategy, engine], isBlank v = false) ∧
        signedNotional ≠ 0 ∧ (0 < committedRiskFraction ∧ committedRiskFraction ≤ 1) ∧
        openedAtUtc.utcOffset ≠ none then
      some
        { key, symbol, venue, strategy, engine, signedNotional, committedRiskFraction, openedAtUtc
          identifiers := h.1
          notional := h.2.1
          risk := h.2.2.1
          aware := h.2.2.2 }
    else none
  | _ => none

/-- `date.fromisoformat(value) if value else None`. -/
def dayFromText : Option String → Option (Option Int)
  | none => some none
  | some text => if text = "" then some none else (dateFromisoformat text).map some

/-- `_snapshot_from_dict`, with the tests of the constructor. -/
def snapshotFromDict (v : List (String × PyJson)) : Option PortfolioRiskSnapshot := do
  let positions ← match get v "positions" with
    | some (.arr items) => items.mapM positionFromDict
    | _ => none
  let day ← optionalString (get v "current_day")
  let peakEquity ← number (get v "peak_equity")
  let dailyRealizedPnl ← number (get v "daily_realized_pnl")
  let killSwitchReason ← optionalString (get v "kill_switch_reason")
  let currentDay ← dayFromText day
  if h : (positions.map PortfolioPosition.key).Nodup ∧ 0 ≤ peakEquity ∧
      killSwitchReason.all (fun r => !isBlank r) = true then
    some
      { positions, peakEquity, dailyRealizedPnl, currentDay, killSwitchReason
        unique := h.1
        peak := h.2.1
        reason := h.2.2 }
  else none

/-- The payload's timestamp is aware, and its snapshot is a dictionary. -/
def snapshotOfPayload (payload : List (String × PyJson)) : Option PortfolioRiskSnapshot := do
  let savedAt ← parseDatetime (get payload "saved_at_utc")
  if savedAt.utcOffset = none then none
  else
    match get payload "snapshot" with
    | some (.obj v) => snapshotFromDict v
    | _ => none

/-- `value == 1`, which a boolean and a float can satisfy. -/
def isOne : Option PyJson → Bool
  | some (.int n) => n = 1
  | some (.float (.finite q)) => q = 1
  | some (.bool b) => b
  | _ => false

/-- `{key: value for key, value in envelope.items() if key != "sha256"}`. -/
def withoutChecksum (envelope : List (String × PyJson)) : List (String × PyJson) :=
  envelope.filter fun item => item.1 ≠ "sha256"

/-- The checksum of an envelope, of 64 characters. -/
def checksumOf (envelope : List (String × PyJson)) : Except PyError String :=
  match get envelope "sha256" with
  | some (.str checksum) => do
    require (checksum.length = 64)
      (.portfolioRiskState "portfolio risk state checksum is missing")
    .ok checksum
  | _ => .error (.portfolioRiskState "portfolio risk state checksum is missing")

/-- `_decode`, with the checksum of the envelope. -/
def decode (text : String) : Except PyError (PortfolioRiskSnapshot × String) :=
  match loads F text with
  | none => .error (.portfolioRiskState "portfolio risk state is not valid JSON")
  | some (.obj envelope) => do
    require (isOne (get envelope "schema_version"))
      (.portfolioRiskState "unsupported portfolio risk state schema")
    let checksum ← checksumOf envelope
    let payload := withoutChecksum envelope
    let equal ← compareDigest checksum (digest D F (.obj payload))
    require equal
      (.portfolioRiskState "portfolio risk state checksum mismatch")
    match snapshotOfPayload payload with
    | some snapshot => .ok (snapshot, checksum)
    | none => .error (.portfolioRiskState "portfolio risk state payload is invalid")
  | some _ => .error (.portfolioRiskState "portfolio risk state must be a JSON object")

structure PortfolioRiskStateStore where
  path : String
  /-- The contents of the file, if it exists. -/
  file : Option String

namespace PortfolioRiskStateStore

/-- `load`. -/
def load (store : PortfolioRiskStateStore) : Except PyError (Option PortfolioRiskSnapshot) :=
  match store.file with
  | none => .ok none
  | some text => (decode D F text).map fun p => some p.1

/-- `load_required`. -/
def loadRequired (store : PortfolioRiskStateStore) : Except PyError PortfolioRiskSnapshot := do
  match ← store.load D F with
  | some snapshot => .ok snapshot
  | none => .error (.portfolioRiskState
      ("required portfolio risk state is absent: " ++ store.path))

/-- `checksum`. -/
def checksum (store : PortfolioRiskStateStore) : Except PyError (Option String) :=
  match store.file with
  | none => .ok none
  | some text => (decode D F text).map fun p => some p.2

/-- `save`, with the checksum and the store it leaves. -/
def save (store : PortfolioRiskStateStore) (snapshot : PortfolioRiskSnapshot)
    (savedAtUtc : Datetime) : Except PyError (String × PortfolioRiskStateStore) := do
  let savedAt ← utc savedAtUtc "risk state timestamp"
  .ok (digest D F (payloadOf snapshot savedAt),
    { store with file := some (savedText D F snapshot savedAt) })

end PortfolioRiskStateStore

end

/-! ## Reading what was written -/

/-- The same position, with its timestamp in UTC. -/
def PortfolioPosition.inUtc (x : PortfolioPosition) : PortfolioPosition :=
  { x with
    openedAtUtc := .ofInstant x.openedAtUtc.instant
    aware := by intro h; cases h }

theorem PortfolioPosition.inUtc_comp_inUtc :
    PortfolioPosition.inUtc ∘ PortfolioPosition.inUtc = PortfolioPosition.inUtc := by
  funext x
  have hinstant : (Datetime.ofInstant x.openedAtUtc.instant).instant = x.openedAtUtc.instant :=
    Int.sub_zero _
  simp only [Function.comp_apply, inUtc, hinstant]

/-- The same snapshot, with its timestamps in UTC. The code takes two snapshots for equal
when they agree so, as aware datetimes of one instant are equal. -/
def PortfolioRiskSnapshot.inUtc (s : PortfolioRiskSnapshot) : PortfolioRiskSnapshot :=
  { s with
    positions := s.positions.map PortfolioPosition.inUtc
    unique := by
      have hkeys : PortfolioPosition.key ∘ PortfolioPosition.inUtc = PortfolioPosition.key := rfl
      rw [List.map_map, hkeys]
      exact s.unique }

section

variable {D : Digests} {F : Floats} {s : PortfolioRiskSnapshot}

theorem canonical_positionToDict (x : PortfolioPosition) : Canonical (positionToDict x) := by
  refine .obj (sorted_of_keys ?_) ?_
  · simp only [List.map_cons, List.map_nil]
    decide +kernel
  · simp [ofRat]

theorem canonical_ofOptional (s : Option String) : Canonical (ofOptional s) := by
  cases s with
  | none => exact .null
  | some s => exact .str s

theorem canonical_snapshotToDict (s : PortfolioRiskSnapshot) : Canonical (snapshotToDict s) := by
  have hpositions : Canonical (.arr (s.positions.map positionToDict)) := by
    refine .arr fun v hv => ?_
    obtain ⟨x, -, rfl⟩ := List.mem_map.mp hv
    exact canonical_positionToDict x
  refine .obj (sorted_of_keys ?_) ?_
  · simp only [List.map_cons, List.map_nil]
    decide +kernel
  · simp [ofRat, canonical_ofOptional, hpositions]

theorem canonical_payloadOf (s : PortfolioRiskSnapshot) (savedAt : Instant) :
    Canonical (payloadOf s savedAt) := by
  refine .obj (sorted_of_keys ?_) ?_
  · simp only [List.map_cons, List.map_nil]
    decide +kernel
  · simp [canonical_snapshotToDict]

theorem canonical_envelopeOf (s : PortfolioRiskSnapshot) (savedAt : Instant) :
    Canonical (envelopeOf D F s savedAt) := by
  refine .obj (sorted_of_keys ?_) ?_
  · simp only [List.map_cons, List.map_nil]
    decide +kernel
  · simp [canonical_snapshotToDict]

theorem parseDatetime_isoformat (i : Instant) :
    parseDatetime (some (.str (isoformat i))) = some (.ofInstant i) := by
  simp only [parseDatetime, string, Option.bind_eq_bind, Option.bind_some, replaceZ_isoformat,
    fromisoformat_isoformat]

theorem positionFromDict_positionToDict (x : PortfolioPosition) :
    positionFromDict (positionToDict x) = some x.inUtc := by
  have htests : (∀ v ∈ [x.key, x.symbol, x.venue, x.strategy, x.engine], isBlank v = false) ∧
      x.signedNotional ≠ 0 ∧ (0 < x.committedRiskFraction ∧ x.committedRiskFraction ≤ 1) ∧
      (Datetime.ofInstant x.openedAtUtc.instant).utcOffset ≠ none :=
    ⟨x.identifiers, x.notional, x.risk, by intro h; cases h⟩
  simp only [positionFromDict, positionToDict, get_cons, String.reduceEq, if_true, if_false, string,
    number, ofRat, parseDatetime_isoformat, Option.bind_eq_bind, Option.bind_some]
  rw [dif_pos htests]
  rfl

theorem mapM_positionFromDict (xs : List PortfolioPosition) :
    (xs.map positionToDict).mapM positionFromDict = some (xs.map PortfolioPosition.inUtc) := by
  induction xs with
  | nil => rfl
  | cons x xs ih =>
    rw [List.map_cons, List.mapM_cons, positionFromDict_positionToDict, ih]
    rfl

theorem optionalString_ofOptional (s : Option String) :
    optionalString (some (ofOptional s)) = some s := by
  cases s with
  | none => rfl
  | some s => rfl

theorem dayFromText_dateIsoformat (day : Option Int) :
    dayFromText (day.map dateIsoformat) = some day := by
  cases day with
  | none => rfl
  | some day =>
    have hread := dateFromisoformat_dateIsoformat day
    have hne : dateIsoformat day ≠ "" := by
      intro h
      rw [h] at hread
      cases hread
    rw [Option.map_some, dayFromText, if_neg hne, hread, Option.map_some]

theorem snapshotOfPayload_payloadOf {items : List (String × PyJson)} {savedAt : Instant}
    (h : payloadOf s savedAt = .obj items) : snapshotOfPayload items = some s.inUtc := by
  have haware : ¬ (Datetime.ofInstant savedAt).utcOffset = none := by
    intro h
    cases h
  have htests : (s.inUtc.positions.map PortfolioPosition.key).Nodup ∧ 0 ≤ s.peakEquity ∧
      s.killSwitchReason.all (fun r => !isBlank r) = true :=
    ⟨s.inUtc.unique, s.peak, s.reason⟩
  cases h
  simp only [snapshotOfPayload, snapshotToDict, get_cons, String.reduceEq, if_true, if_false,
    parseDatetime_isoformat, Option.bind_eq_bind, Option.bind_some, haware]
  simp only [snapshotFromDict, get_cons, String.reduceEq, if_true, if_false, ofRat, number,
    mapM_positionFromDict, optionalString_ofOptional, dayFromText_dateIsoformat,
    Option.bind_eq_bind, Option.bind_some]
  exact dif_pos htests

theorem loads_savedText (s : PortfolioRiskSnapshot) (savedAt : Instant) :
    loads F (savedText D F s savedAt) = some (envelopeOf D F s savedAt) :=
  loads_dumps_white (canonical_envelopeOf s savedAt) ['\n'] (by simp [isWhite])

/-- **What is saved is what is loaded.** -/
theorem decode_savedText (hhex : D.Hex) (s : PortfolioRiskSnapshot) (savedAt : Instant) :
    decode D F (savedText D F s savedAt) =
      .ok (s.inUtc, digest D F (payloadOf s savedAt)) := by
  have hloads := loads_savedText (D := D) (F := F) s savedAt
  obtain ⟨items, hitems⟩ : ∃ items, envelopeOf D F s savedAt = .obj items := ⟨_, rfl⟩
  have hpayload : payloadOf s savedAt = .obj (withoutChecksum items) := by
    cases hitems
    rfl
  have hone : isOne (Json.get items "schema_version") = true := by
    cases hitems
    rfl
  have hchecksum : checksumOf items = .ok (digest D F (payloadOf s savedAt)) := by
    cases hitems
    simp only [checksumOf, get_cons, String.reduceEq, if_true, if_false]
    rw [digest, hhex.length]
    rfl
  have hequal : compareDigest (digest D F (payloadOf s savedAt)) (digest D F (payloadOf s savedAt)) =
      .ok true := compareDigest_eq_ok_true.mpr ⟨⟨hhex.ascii _, hhex.ascii _⟩, rfl⟩
  simp only [decode, hloads, hitems, hone, hchecksum, ← hpayload, bind_eq_ok, require_eq_ok,
    snapshotOfPayload_payloadOf hpayload]
  exact ⟨(), trivial, _, rfl, true, hequal, (), rfl, rfl⟩

theorem decode_eq_ok {text : String} {p : PortfolioRiskSnapshot × String}
    (h : decode D F text = .ok p) : ∃ envelope, loads F text = some (.obj envelope) ∧
      Json.get envelope "sha256" = some (.str p.2) ∧
      p.2 = digest D F (.obj (withoutChecksum envelope)) := by
  unfold decode at h
  split at h
  · cases h
  · next envelope hloads =>
    simp only [bind_eq_ok, require_eq_ok] at h
    obtain ⟨-, -, checksum, hsum, equal, hequal, -, rfl, h⟩ := h
    have hget : Json.get envelope "sha256" = some (.str checksum) := by
      unfold checksumOf at hsum
      split at hsum
      · next c hc =>
        simp only [bind_eq_ok] at hsum
        obtain ⟨-, -, hsum⟩ := hsum
        cases hsum
        exact hc
      · cases hsum
    split at h
    · cases h
      exact ⟨envelope, hloads, hget, (compareDigest_eq_ok_true.mp hequal).2⟩
    · cases h
  · cases h

/-- Two values of one digest have one text. -/
def NoCollision (D : Digests) (F : Floats) (u v : PyJson) : Prop :=
  digest D F u = digest D F v → dumps F u = dumps F v

/-- **A changed payload is refused.** -/
theorem decode_altered {text : String} {envelope : List (String × PyJson)} {payload : PyJson}
    (hloads : loads F text = some (.obj envelope))
    (hsum : Json.get envelope "sha256" = some (.str (digest D F payload)))
    (hcanonical : Canonical payload) (halter : .obj (withoutChecksum envelope) ≠ payload)
    (hcollision : NoCollision D F (.obj (withoutChecksum envelope)) payload) :
    ∃ err, decode D F text = .error err := by
  cases h : decode D F text with
  | error err => exact ⟨err, rfl⟩
  | ok p =>
    obtain ⟨envelope', hloads', hget, heq⟩ := decode_eq_ok h
    rw [hloads] at hloads'
    cases hloads'
    have hsame : digest D F payload = p.2 := by simpa [hsum] using hget
    have hcanonical' : Canonical (.obj (withoutChecksum envelope)) := by
      cases canonical_loads hloads with
      | obj hs hitems =>
        exact .obj (hs.filter _) fun p hp => hitems p (List.mem_of_mem_filter hp)
    exact absurd (dumps_injective hcanonical' hcanonical (hcollision (hsame.trans heq).symm)) halter

end

end Greenfield.Risk
