import Greenfield.Lib.Table
import Greenfield.Py.Basic
import Mathlib.Tactic.Positivity

/-!
# The SHADOW queue

The tables and transactions of `DurableShadowQueue`, in `src/execution/shadow_loop.py`.
ISO timestamps in UTC are ordered as their instants: at a full second `+` stands where
`.` does else, and is less.
-/

namespace Greenfield.Shadow

open Keyed Py

inductive ShadowQueueStatus where
  | pending
  | processing
  | done
  | dead
  deriving DecidableEq, Repr

structure ShadowQueueItem where
  itemId : String
  payloadUri : String
  status : ShadowQueueStatus
  attempts : Nat
  availableAtUtc : Instant
  leaseUntilUtc : Option Instant
  lastError : Option String
  deriving DecidableEq, Repr

structure ShadowLoopConfig where
  leaseSeconds : ℚ := 60
  pollIntervalSeconds : ℚ := 1
  maximumAttempts : Int := 5
  retryBaseSeconds : ℚ := 2
  retryMaxSeconds : ℚ := 300
  maximumConsecutiveFailures : Int := 3
  durations : ∀ v ∈ [leaseSeconds, pollIntervalSeconds, retryBaseSeconds, retryMaxSeconds], 0 < v
  limits : 1 ≤ maximumAttempts ∧ 1 ≤ maximumConsecutiveFailures
  ordered : retryBaseSeconds ≤ retryMaxSeconds

/-- A row of `shadow_queue`. -/
structure QueueRow where
  itemId : String
  payloadUri : String
  status : ShadowQueueStatus
  attempts : Nat
  availableAtUtc : Instant
  leaseUntilUtc : Option Instant
  lastError : Option String
  createdAtUtc : Instant
  completedAtUtc : Option Instant

/-- The row of `shadow_loop_state`. -/
structure LoopState where
  status : String := "STARTING"
  consecutiveFailures : Nat := 0
  totalProcessed : Nat := 0
  totalFailures : Nat := 0
  heartbeatAtUtc : Option Instant := none
  lastError : Option String := none

structure DurableShadowQueue where
  rows : Table QueueRow.itemId := .empty
  loopState : LoopState := {}

namespace DurableShadowQueue

/-- `_fetch`. -/
def itemOf (r : QueueRow) : ShadowQueueItem where
  itemId := r.itemId
  payloadUri := r.payloadUri
  status := r.status
  attempts := r.attempts
  availableAtUtc := r.availableAtUtc
  leaseUntilUtc := r.leaseUntilUtc
  lastError := r.lastError

def get (q : DurableShadowQueue) (itemId : String) : Option ShadowQueueItem :=
  (q.rows.find itemId).map itemOf

/-- `UPDATE shadow_queue SET ... WHERE item_id = ?`. -/
def update (q : DurableShadowQueue) (itemId : String) (f : QueueRow → QueueRow)
    (hf : ∀ r, (f r).itemId = r.itemId) : DurableShadowQueue :=
  { q with rows := q.rows.modify itemId f hf }

def enqueue (q : DurableShadowQueue) (itemId payloadUri : String) (availableAtUtc : Datetime) :
    Except PyError (Bool × DurableShadowQueue) := do
  require (!isBlank itemId ∧ !isBlank payloadUri)
    (.valueError "shadow queue item and payload URI must be non-empty")
  let available ← utc availableAtUtc "queue availability timestamp"
  let row : QueueRow :=
    { itemId, payloadUri
      status := .pending
      attempts := 0
      availableAtUtc := available
      leaseUntilUtc := none
      lastError := none
      createdAtUtc := available
      completedAtUtc := none }
  match q.rows.find itemId, q.rows.insert row with
  | some existing, _ => do
    require (existing.payloadUri = payloadUri)
      (.valueError "shadow queue id already belongs to another payload")
    .ok (false, q)
  | none, some rows => .ok (true, { q with rows })
  | none, none => .error (.integrityError "UNIQUE constraint failed: shadow_queue.item_id")

/-- What `claim` selects: a pending item that is available, or one whose lease is over. -/
def due (now : Instant) (r : QueueRow) : Bool :=
  r.status = .pending ∧ r.availableAtUtc ≤ now ∨
    r.status = .processing ∧ r.leaseUntilUtc.any (· ≤ now)

/-- `ORDER BY available_at_utc, created_at_utc, item_id`. -/
def before (a b : QueueRow) : Bool :=
  a.availableAtUtc < b.availableAtUtc ∨ a.availableAtUtc = b.availableAtUtc ∧
    (a.createdAtUtc < b.createdAtUtc ∨ a.createdAtUtc = b.createdAtUtc ∧ a.itemId ≤ b.itemId)

/-- The row that `claim` takes. -/
def nextDue (q : DurableShadowQueue) (now : Instant) : Option QueueRow :=
  (sorted before (q.rows.rows.filter (due now))).head?

def claimRow (leaseUntil : Instant) (r : QueueRow) : QueueRow :=
  { r with status := .processing, attempts := r.attempts + 1, leaseUntilUtc := some leaseUntil }

theorem claimRow_itemId (leaseUntil : Instant) (r : QueueRow) :
    (claimRow leaseUntil r).itemId = r.itemId := rfl

def claim (q : DurableShadowQueue) (nowUtc : Instant) (leaseSeconds : ℚ) :
    Except PyError (Option ShadowQueueItem × DurableShadowQueue) := do
  require (0 < leaseSeconds) (.valueError "queue lease must be finite and positive")
  let leaseUntil := nowUtc + timedelta leaseSeconds
  match q.nextDue nowUtc with
  | none => .ok (none, q)
  | some row =>
    let q := q.update row.itemId (claimRow leaseUntil) (claimRow_itemId leaseUntil)
    .ok (q.get row.itemId, q)

def acknowledgeRow (completed : Instant) (r : QueueRow) : QueueRow :=
  { r with status := .done, leaseUntilUtc := none, completedAtUtc := some completed
           lastError := none }

theorem acknowledgeRow_itemId (completed : Instant) (r : QueueRow) :
    (acknowledgeRow completed r).itemId = r.itemId := rfl

def acknowledge (q : DurableShadowQueue) (itemId : String) (completedAtUtc : Instant) :
    Except PyError (Unit × DurableShadowQueue) :=
  match q.rows.find itemId with
  | some row =>
    if row.status = .processing then
      .ok ((), q.update itemId (acknowledgeRow completedAtUtc)
        (acknowledgeRow_itemId completedAtUtc))
    else .error (.valueError "only a processing shadow item can be acknowledged")
  | none => .error (.valueError "only a processing shadow item can be acknowledged")

def retryRow (error : String) (failedAt retryAt : Instant) (status : ShadowQueueStatus)
    (r : QueueRow) : QueueRow :=
  { r with status, availableAtUtc := retryAt, leaseUntilUtc := none, lastError := some error
           completedAtUtc := if status = .dead then some failedAt else none }

theorem retryRow_itemId (error : String) (failedAt retryAt : Instant) (status : ShadowQueueStatus)
    (r : QueueRow) : (retryRow error failedAt retryAt status r).itemId = r.itemId := rfl

def retryOrDeadLetter (q : DurableShadowQueue) (itemId error : String)
    (failedAtUtc retryAtUtc : Instant) (maximumAttempts : Int) :
    Except PyError (ShadowQueueStatus × DurableShadowQueue) := do
  require (!isBlank error ∧ 1 ≤ maximumAttempts)
    (.valueError "shadow retry requires error and attempt limit")
  match q.rows.find itemId with
  | some row =>
    if row.status = .processing then
      let status := if row.attempts ≥ maximumAttempts then .dead else .pending
      .ok (status, q.update itemId (retryRow error failedAtUtc retryAtUtc status)
        (retryRow_itemId error failedAtUtc retryAtUtc status))
    else .error (.valueError "only a processing shadow item can be retried")
  | none => .error (.valueError "only a processing shadow item can be retried")

def recordSuccess (q : DurableShadowQueue) (now : Instant) :
    Except PyError (Unit × DurableShadowQueue) :=
  .ok ((), { q with loopState := { q.loopState with
    status := "RUNNING"
    consecutiveFailures := 0
    totalProcessed := q.loopState.totalProcessed + 1
    heartbeatAtUtc := some now
    lastError := none } })

def recordFailure (q : DurableShadowQueue) (now : Instant) (error : String) :
    Except PyError (Nat × DurableShadowQueue) := do
  require (!isBlank error) (.valueError "shadow loop failure requires an error")
  .ok (q.loopState.consecutiveFailures + 1, { q with loopState := { q.loopState with
    status := "DEGRADED"
    consecutiveFailures := q.loopState.consecutiveFailures + 1
    totalFailures := q.loopState.totalFailures + 1
    heartbeatAtUtc := some now
    lastError := some error } })

def recordHeartbeat (q : DurableShadowQueue) (now : Instant) :
    Except PyError (Unit × DurableShadowQueue) :=
  .ok ((), { q with loopState := { q.loopState with status := "IDLE", heartbeatAtUtc := some now } })

/-! ## Transactions -/

variable {q q' : DurableShadowQueue}

/-- Every other row is as it was. -/
theorem find_update {itemId j : String} {f : QueueRow → QueueRow}
    {hf : ∀ r, (f r).itemId = r.itemId} :
    (q.update itemId f hf).rows.find j =
      if j = itemId then (q.rows.find itemId).map f else q.rows.find j := @Table.find_modify _ _ _ _ _ _ _ _ hf

theorem nextDue_eq_some {now : Instant} {row : QueueRow} (h : q.nextDue now = some row) :
    q.rows.find row.itemId = some row ∧ due now row = true := by
  obtain ⟨hmem, hdue⟩ := List.mem_filter.mp (mem_sorted.mp (List.mem_of_mem_head? h))
  exact ⟨Table.find_of_mem hmem, hdue⟩

/-- What `claim` can do: nothing, or it starts an attempt of the row that is next. -/
theorem claim_cases {now : Instant} {lease : ℚ} {x : Option ShadowQueueItem}
    (h : q.claim now lease = .ok (x, q')) : x = none ∧ q' = q ∨
      ∃ row, q.nextDue now = some row ∧
        x = some (itemOf (claimRow (now + timedelta lease) row)) ∧
        q' = q.update row.itemId (claimRow (now + timedelta lease)) (claimRow_itemId _) := by
  simp only [claim, bind_eq_ok] at h
  obtain ⟨-, -, h⟩ := h
  cases hrow : q.nextDue now with
  | none =>
    rw [hrow] at h
    cases h
    exact .inl ⟨rfl, rfl⟩
  | some row =>
    rw [hrow] at h
    cases h
    refine .inr ⟨row, rfl, ?_, rfl⟩
    rw [get, find_update, if_pos rfl, (nextDue_eq_some hrow).1, Option.map_some, Option.map_some]

/-- An acknowledgement takes a processing row to `DONE`. -/
theorem acknowledge_cases {itemId : String} {completed : Instant} {u : Unit}
    (h : q.acknowledge itemId completed = .ok (u, q')) :
    ∃ row, q.rows.find itemId = some row ∧ row.status = .processing ∧
      q' = q.update itemId (acknowledgeRow completed) (acknowledgeRow_itemId completed) := by
  unfold acknowledge at h
  split at h
  · next row hrow =>
    split at h
    · next hstatus =>
      cases h
      exact ⟨row, hrow, hstatus, rfl⟩
    · cases h
  · cases h

/-- A retry takes a processing row to `PENDING`, or to `DEAD` when its attempts are used. -/
theorem retryOrDeadLetter_cases {itemId error : String} {failedAt retryAt : Instant} {m : Int}
    {status : ShadowQueueStatus}
    (h : q.retryOrDeadLetter itemId error failedAt retryAt m = .ok (status, q')) :
    ∃ row, q.rows.find itemId = some row ∧ row.status = .processing ∧
      status = (if row.attempts ≥ m then .dead else .pending) ∧
      q' = q.update itemId (retryRow error failedAt retryAt status)
        (retryRow_itemId error failedAt retryAt status) := by
  simp only [retryOrDeadLetter, bind_eq_ok] at h
  obtain ⟨-, -, h⟩ := h
  split at h
  · next row hrow =>
    split at h
    · next hstatus =>
      cases h
      exact ⟨row, hrow, hstatus, rfl, rfl⟩
    · cases h
  · cases h

/-- An item is added as pending and without an attempt, or nothing changes. -/
theorem enqueue_cases {itemId payloadUri : String} {available : Datetime} {added : Bool}
    (h : q.enqueue itemId payloadUri available = .ok (added, q')) : q' = q ∨
      ∃ row, q.rows.find row.itemId = none ∧ row.status = .pending ∧ row.attempts = 0 ∧
        q.rows.insert row = some q'.rows := by
  simp only [enqueue, bind_eq_ok] at h
  obtain ⟨-, -, i, -, h⟩ := h
  split at h
  · simp only [bind_eq_ok] at h
    obtain ⟨-, -, h⟩ := h
    cases h
    exact .inl rfl
  · next rows hnone hins =>
    cases h
    exact .inr ⟨_, hnone, rfl, rfl, hins⟩
  · cases h

end DurableShadowQueue

end Greenfield.Shadow
