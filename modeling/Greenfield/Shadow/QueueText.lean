import Greenfield.Py.IsoOrder
import Greenfield.Shadow.Queue
import Mathlib.Data.Int.ConditionallyCompleteOrder
import Mathlib.Data.Prod.Lex

/-!
# The texts of the SHADOW queue

`claim` of `src/execution/shadow_loop.py` on the table as it is stored, where times are ISO texts and
the database compares texts. The texts are in the order of the times, so what is claimed is due, and
first by its times (`claim_chronological`).
-/

namespace Greenfield.Shadow

open Keyed Py

/-- An aware `datetime` in UTC. -/
abbrev UtcDatetime := {i : Instant // Dated i}

/-- `isoformat()`. -/
def UtcDatetime.text (value : UtcDatetime) : String := isoformat value.1

theorem text_strictMono : StrictMono UtcDatetime.text := fun a b h => isoformat_lt a.2 b.2 h

/-- A row of `shadow_queue`, with its times in `τ`. -/
structure QueueRecord (τ : Type) where
  itemId : String
  payloadUri : String
  status : ShadowQueueStatus
  attempts : ℕ
  availableAtUtc : τ
  leaseUntilUtc : Option τ
  lastError : Option String
  createdAtUtc : τ
  completedAtUtc : Option τ

namespace QueueRecord

variable {σ τ : Type}

def map (f : σ → τ) (r : QueueRecord σ) : QueueRecord τ where
  itemId := r.itemId
  payloadUri := r.payloadUri
  status := r.status
  attempts := r.attempts
  availableAtUtc := f r.availableAtUtc
  leaseUntilUtc := r.leaseUntilUtc.map f
  lastError := r.lastError
  createdAtUtc := f r.createdAtUtc
  completedAtUtc := r.completedAtUtc.map f

section Order

variable [LinearOrder σ] [LinearOrder τ]

/-- `(status = ? AND available_at_utc <= ?) OR (status = ? AND lease_until_utc <= ?)`. -/
def eligible (now : τ) (r : QueueRecord τ) : Bool :=
  r.status = .pending ∧ r.availableAtUtc ≤ now ∨
    r.status = .processing ∧ r.leaseUntilUtc.any (· ≤ now)

/-- `ORDER BY available_at_utc, created_at_utc, item_id`. -/
def rank (r : QueueRecord τ) : τ ×ₗ τ ×ₗ String :=
  toLex (r.availableAtUtc, toLex (r.createdAtUtc, r.itemId))

/-- The row that `claim` selects. -/
def select (now : τ) (rows : List (QueueRecord τ)) : Option (QueueRecord τ) :=
  (sorted (fun a b => decide (rank a ≤ rank b)) (rows.filter (eligible now))).head?

theorem eligible_map {f : σ → τ} (hf : StrictMono f) (now : σ) (r : QueueRecord σ) :
    (r.map f).eligible (f now) = r.eligible now := by
  cases hlease : r.leaseUntilUtc <;> simp [eligible, map, hlease, hf.le_iff_le]

theorem rank_map_le {f : σ → τ} (hf : StrictMono f) (a b : QueueRecord σ) :
    (a.map f).rank ≤ (b.map f).rank ↔ a.rank ≤ b.rank := by
  simp [rank, map, Prod.Lex.toLex_le_toLex, hf.lt_iff_lt, hf.injective.eq_iff]

/-- Nothing is selected if no row is eligible, and else one of the lowest rank. -/
theorem select_spec (now : τ) (rows : List (QueueRecord τ)) :
    (select now rows = none ↔ ∀ r ∈ rows, r.eligible now = false) ∧
      ∀ r, select now rows = some r → (r ∈ rows ∧ r.eligible now = true) ∧
        ∀ r' ∈ rows, r'.eligible now = true → r.rank ≤ r'.rank := by
  obtain ⟨hnone, hsome⟩ := head_sorted_key rank (rows.filter (eligible now))
  refine ⟨hnone.trans (by simp [List.filter_eq_nil_iff]), fun r hr => ?_⟩
  obtain ⟨hmem, hleast⟩ := hsome r hr
  exact ⟨by simpa using hmem, fun r' hr' he => hleast r' (by simp [hr', he])⟩

end Order

end QueueRecord

/-! ## Claims -/

inductive ClaimError where
  | py (e : PyError)
  /-- `OverflowError`: the lease ends after the year 9999. -/
  | overflow
  deriving DecidableEq

/-- The table as it is stored. -/
abbrev StoredQueue := Table (QueueRecord.itemId (τ := String))

/-- `_parse`. -/
def parseText (value : String) : Except PyError Instant :=
  match fromisoformat (replaceZ value) with
  | some ⟨micros, some offset⟩ => .ok (micros - offset)
  | some ⟨micros, none⟩ => .ok micros
  | none => .error (.valueError "Invalid isoformat string")

/-- `_fetch`. -/
def fetchStored (rows : StoredQueue) (itemId : String) : Except PyError (Option ShadowQueueItem) :=
  match rows.find itemId with
  | none => .ok none
  | some row => do
    let availableAtUtc ← parseText row.availableAtUtc
    let leaseUntilUtc ← match row.leaseUntilUtc with
      | none => pure none
      | some lease => some <$> parseText lease
    .ok (some ⟨row.itemId, row.payloadUri, row.status, row.attempts, availableAtUtc, leaseUntilUtc,
      row.lastError⟩)

def claimRecord (leaseUntil : String) (row : QueueRecord String) : QueueRecord String :=
  { row with status := .processing, attempts := row.attempts + 1, leaseUntilUtc := some leaseUntil }

theorem claimRecord_itemId (leaseUntil : String) (row : QueueRecord String) :
    (claimRecord leaseUntil row).itemId = row.itemId := rfl

/-- `claim`. -/
def claimStored (rows : StoredQueue) (now : UtcDatetime) (leaseSeconds : ℚ) :
    Except ClaimError (Option ShadowQueueItem × StoredQueue) :=
  if leaseSeconds ≤ 0 then .error (.py (.valueError "queue lease must be finite and positive"))
  else
    let leaseUntil := now.1 + timedelta leaseSeconds
    if !decide (Dated leaseUntil) then .error .overflow
    else
      match QueueRecord.select now.text rows.rows with
      | none => .ok (none, rows)
      | some row =>
        let claimed := rows.modify row.itemId (claimRecord (isoformat leaseUntil))
          (claimRecord_itemId (isoformat leaseUntil))
        match fetchStored claimed row.itemId with
        | .error e => .error (.py e)
        | .ok item => .ok (item, claimed)

/-! ## Chronological order -/

/-- The times of a queue, and the queue as it is stored. -/
abbrev TimedQueue := Table (QueueRecord.itemId (τ := UtcDatetime))

def TimedQueue.stored (queue : TimedQueue) : StoredQueue where
  rows := queue.rows.map (QueueRecord.map UtcDatetime.text)
  nodup := by
    rw [List.map_map]
    exact queue.nodup

/-- What a claim answers, and when it does. -/
structure ClaimsFirst (queue : TimedQueue) (now : UtcDatetime) (leaseSeconds : ℚ)
    (result : Except ClaimError (Option ShadowQueueItem × StoredQueue)) : Prop where
  answers : (∃ item rows, result = .ok (item, rows)) ↔
    0 < leaseSeconds ∧ Dated (now.1 + timedelta leaseSeconds)
  none_iff : ∀ item rows, result = .ok (item, rows) →
    (item = none ↔ ∀ row ∈ queue.rows, row.eligible now = false)
  first : ∀ item rows, result = .ok (some item, rows) → ∃ row ∈ queue.rows,
    row.itemId = item.itemId ∧ row.eligible now = true ∧
      ∀ other ∈ queue.rows, other.eligible now = true → row.rank ≤ other.rank

theorem claimsFirst_error {queue : TimedQueue} {now : UtcDatetime} {leaseSeconds : ℚ}
    {e : ClaimError} (h : ¬ (0 < leaseSeconds ∧ Dated (now.1 + timedelta leaseSeconds))) :
    ClaimsFirst queue now leaseSeconds (.error e) := ⟨iff_of_false nofun h, nofun, nofun⟩

theorem parseText_isoformat (i : Instant) : parseText (isoformat i) = .ok i := by
  rw [parseText, replaceZ_isoformat, fromisoformat_isoformat]
  show Except.ok (i - 0) = _
  rw [sub_zero]

/-- A row of texts that was claimed is read back. -/
theorem fetchStored_claimed {rows : StoredQueue} {row : QueueRecord UtcDatetime}
    (hrow : row.map UtcDatetime.text ∈ rows.rows) (leaseUntil : Instant) :
    fetchStored (rows.modify row.itemId (claimRecord (isoformat leaseUntil))
        (claimRecord_itemId (isoformat leaseUntil))) row.itemId =
      .ok (some ⟨row.itemId, row.payloadUri, .processing, row.attempts + 1, row.availableAtUtc.1,
        some leaseUntil, row.lastError⟩) := by
  have hfind : rows.find row.itemId = some (row.map UtcDatetime.text) := Table.find_of_mem hrow
  have havailable : parseText (row.map UtcDatetime.text).availableAtUtc = .ok row.availableAtUtc.1 :=
    parseText_isoformat row.availableAtUtc.1
  rw [fetchStored, Table.find_modify, if_pos rfl, hfind]
  simp only [Option.map_some, claimRecord, havailable, parseText_isoformat]
  rfl

/-- **Chronological claims.** The texts of UTC datetimes are in their order. So what is claimed from
the stored queue is due, and none that is due comes before it in time. -/
theorem claim_chronological :
    (∀ a b : UtcDatetime, a.text < b.text ↔ a < b) ∧
      ∀ (queue : TimedQueue) (now : UtcDatetime) (leaseSeconds : ℚ),
        ClaimsFirst queue now leaseSeconds (claimStored queue.stored now leaseSeconds) := by
  refine ⟨fun a b => text_strictMono.lt_iff_lt, fun queue now leaseSeconds => ?_⟩
  obtain ⟨hnone, hsome⟩ := QueueRecord.select_spec now.text queue.stored.rows
  have hstored : ∀ row ∈ queue.stored.rows, ∃ timed ∈ queue.rows, timed.map UtcDatetime.text = row :=
    fun row hrow => List.mem_map.mp hrow
  have heligible : ∀ row : QueueRecord UtcDatetime,
      (row.map UtcDatetime.text).eligible now.text = row.eligible now :=
    QueueRecord.eligible_map text_strictMono now
  unfold claimStored
  split
  · next hlease =>
    exact claimsFirst_error fun h => absurd h.1 (not_lt.mpr hlease)
  · next hlease =>
    dsimp only
    split
    · next hdated =>
      exact claimsFirst_error fun h => by simp [h.2] at hdated
    · next hdated =>
      have hanswers : 0 < leaseSeconds ∧ Dated (now.1 + timedelta leaseSeconds) :=
        ⟨not_le.mp hlease, by simpa using hdated⟩
      cases hselect : QueueRecord.select now.text queue.stored.rows with
      | none =>
        refine ⟨iff_of_true ⟨none, _, rfl⟩ hanswers, ?_, by rintro _ _ ⟨⟩⟩
        rintro _ _ ⟨⟩
        refine iff_of_true rfl fun row hrow => ?_
        rw [← heligible]
        exact hnone.mp hselect _ (List.mem_map_of_mem hrow)
      | some row =>
        obtain ⟨⟨hmem, hdue⟩, hleast⟩ := hsome row hselect
        obtain ⟨timed, htimed, rfl⟩ := hstored row hmem
        have hfetch := fetchStored_claimed hmem (now.1 + timedelta leaseSeconds)
        dsimp only
        rw [show (timed.map UtcDatetime.text).itemId = timed.itemId from rfl, hfetch]
        have hdue' : timed.eligible now = true := (heligible timed).symm.trans hdue
        refine ⟨iff_of_true ⟨_, _, rfl⟩ hanswers, ?_, ?_⟩
        · rintro _ _ ⟨⟩
          refine iff_of_false (Option.some_ne_none _) fun hall => ?_
          rw [hall timed htimed] at hdue'
          cases hdue'
        · rintro _ _ ⟨⟩
          refine ⟨timed, htimed, rfl, hdue', fun other hother hothers => ?_⟩
          rw [← QueueRecord.rank_map_le text_strictMono]
          exact hleast _ (List.mem_map_of_mem hother) ((heligible other).trans hothers)

end Greenfield.Shadow
