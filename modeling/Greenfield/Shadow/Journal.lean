import Greenfield.Risk.StateStore

/-!
# The SHADOW audit journal

`ShadowAuditJournal` of `src/execution/shadow_runtime.py`: a file of one JSON line for each
audit record, with the SHA-256 of the record and of the line before it. A journal object
holds the identifiers and the last checksum of what it has written.
-/

namespace Greenfield.Shadow

open Keyed Py Risk Json

inductive ShadowStatus where
  | initialized
  | wait
  | riskRejected
  | eligibleNoOrder
  | virtualClose
  | safetyHold
  deriving DecidableEq, Repr

def ShadowStatus.value : ShadowStatus → String
  | .initialized => "INITIALIZED"
  | .wait => "WAIT"
  | .riskRejected => "RISK_REJECTED"
  | .eligibleNoOrder => "ELIGIBLE_NO_ORDER"
  | .virtualClose => "VIRTUAL_CLOSE"
  | .safetyHold => "SAFETY_HOLD"

/-- `ShadowStatus(value)`. -/
def ShadowStatus.ofValue (value : String) : Option ShadowStatus :=
  [.initialized, .wait, .riskRejected, .eligibleNoOrder, .virtualClose, .safetyHold].find?
    fun s => s.value = value

/-- The fields of an audit record. -/
structure AuditFields where
  observationId : String
  sessionId : String
  decisionTimestampUtc : Datetime
  action : String
  status : ShadowStatus
  selectedEngineId : Option String
  proposalKeys : List String
  riskReasons : List String
  reasonCodes : List String
  datasetFingerprint : String
  codeCommit : String
  configFingerprint : String
  riskStateSha256 : Option String

/-- `ShadowAuditRecord`: the fields with the tests of the constructor. -/
structure ShadowAuditRecord extends AuditFields where
  identifiers : isBlank observationId = false ∧ isBlank sessionId = false
  aware : decisionTimestampUtc.utcOffset ≠ none
  described : isBlank action = false ∧ reasonCodes ≠ []
  fingerprints : ∀ v ∈ [datasetFingerprint, codeCommit, configFingerprint], isBlank v = false
  checksum : ∀ v ∈ riskStateSha256, v.length = 64

/-- `ShadowAuditRecord(...)`. -/
def AuditFields.checked (r : AuditFields) : Except PyError ShadowAuditRecord :=
  if identifiers : isBlank r.observationId = false ∧ isBlank r.sessionId = false then
    if aware : r.decisionTimestampUtc.utcOffset ≠ none then
      if described : isBlank r.action = false ∧ r.reasonCodes ≠ [] then
        if fingerprints : ∀ v ∈ [r.datasetFingerprint, r.codeCommit, r.configFingerprint],
            isBlank v = false then
          if checksum : ∀ v ∈ r.riskStateSha256, v.length = 64 then
            .ok { r with identifiers, aware, described, fingerprints, checksum }
          else .error (.valueError "shadow risk-state checksum must be SHA-256")
        else .error (.valueError "shadow audit requires complete fingerprints")
      else .error (.valueError "shadow audit requires action and reason codes")
    else .error (.valueError "shadow decision timestamp must be timezone-aware")
  else .error (.valueError "shadow audit identifiers must be non-empty")

/-! ## Records as JSON -/

section

variable (D : Digests) (F : Floats)

def strings (values : List String) : PyJson := .arr (values.map .str)

/-- `_record_to_dict`. -/
def recordToDict (r : ShadowAuditRecord) : PyJson :=
  .obj
    [("action", .str r.action), ("code_commit", .str r.codeCommit),
      ("config_fingerprint", .str r.configFingerprint),
      ("dataset_fingerprint", .str r.datasetFingerprint),
      ("decision_timestamp_utc", .str (isoformat r.decisionTimestampUtc.instant)),
      ("observation_id", .str r.observationId), ("proposal_keys", strings r.proposalKeys),
      ("reason_codes", strings r.reasonCodes), ("risk_reasons", strings r.riskReasons),
      ("risk_state_sha256", ofOptional r.riskStateSha256),
      ("selected_engine_id", ofOptional r.selectedEngineId), ("session_id", .str r.sessionId),
      ("status", .str r.status.value)]

/-- `_string_tuple`. -/
def stringTuple : Option PyJson → Option (List String)
  | some (.arr items) => items.mapM fun v => string (some v)
  | _ => none

/-- `_record_from_dict`, or `none` where it raises. -/
def recordFromDict : PyJson → Option ShadowAuditRecord
  | .obj v => do
    let observationId ← string (get v "observation_id")
    let sessionId ← string (get v "session_id")
    let decisionTimestampUtc ← parseDatetime (get v "decision_timestamp_utc")
    let action ← string (get v "action")
    let status ← ShadowStatus.ofValue (← string (get v "status"))
    let selectedEngineId ← optionalString (get v "selected_engine_id")
    let proposalKeys ← stringTuple (get v "proposal_keys")
    let riskReasons ← stringTuple (get v "risk_reasons")
    let reasonCodes ← stringTuple (get v "reason_codes")
    let datasetFingerprint ← string (get v "dataset_fingerprint")
    let codeCommit ← string (get v "code_commit")
    let configFingerprint ← string (get v "config_fingerprint")
    let riskStateSha256 ← optionalString (get v "risk_state_sha256")
    (AuditFields.checked
      { observationId, sessionId, decisionTimestampUtc, action, status, selectedEngineId
        proposalKeys, riskReasons, reasonCodes, datasetFingerprint, codeCommit, configFingerprint
        riskStateSha256 }).toOption
  | _ => none

/-- `{"previous_sha256": .., "record": ..}`. -/
def chained (previous record : PyJson) : PyJson :=
  .obj [("previous_sha256", previous), ("record", record)]

/-! ## Verification -/

/-- `actual_previous == previous`. -/
def isPrevious : PyJson → Option String → Bool
  | .null, none => true
  | .str s, some previous => s = previous
  | _, _ => false

/-- What `verify` makes of a line: the record and its checksum, or `none` where it raises. -/
def verifyLine (previous : Option String) (seen : List String) (line : String) :
    Option (ShadowAuditRecord × String) :=
  match loads F line with
  | some (.obj envelope) => do
    let actualPrevious ← get envelope "previous_sha256"
    let checksum ← string (get envelope "sha256")
    let rawRecord ← get envelope "record"
    guard (isPrevious actualPrevious previous = true)
    guard (checksum.length = 64)
    guard (compareDigest checksum (digest D F (chained actualPrevious rawRecord)) = .ok true)
    let record ← recordFromDict rawRecord
    guard (record.observationId ∉ seen)
    some (record, checksum)
  | _ => none

/-- The lines from number `lineNumber` on. -/
def verifyLines (lineNumber : Nat) (previous : Option String) (seen : List String) :
    List String → Except PyError (List ShadowAuditRecord)
  | [] => .ok []
  | line :: lines =>
    match verifyLine D F previous seen line with
    | none => .error (.shadowAudit ("invalid shadow audit at line " ++ toString lineNumber))
    | some (record, checksum) => do
      .ok (record :: (← verifyLines (lineNumber + 1) (some checksum)
        (record.observationId :: seen) lines))

/-- The lines of a file, if it exists. -/
def fileLines (file : Option String) : List String := splitlines (file.getD "")

/-- `verify`. -/
def verify (file : Option String) : Except PyError (List ShadowAuditRecord) :=
  verifyLines D F 1 none [] (fileLines file)

/-! ## The journal -/

structure ShadowAuditJournal where
  file : Option String := none
  observationIds : List String := []
  lastHash : Option String := none

/-- `_read_last_hash`, of a file that is verified. -/
def readLastHash (file : Option String) : Option String :=
  (fileLines file).getLast?.bind fun line =>
    match loads F line with
    | some (.obj envelope) => string (get envelope "sha256")
    | _ => none

/-- `ShadowAuditJournal(path)`. -/
def openJournal (file : Option String) : Except PyError ShadowAuditJournal := do
  let verified ← verify D F file
  .ok { file
        observationIds := verified.map (·.observationId)
        lastHash := readLastHash F file }

/-- `ensure_available`. -/
def ShadowAuditJournal.ensureAvailable (j : ShadowAuditJournal) (observationId : String) :
    Except PyError Unit := do
  require (!isBlank observationId) (.valueError "shadow observation id must be non-empty")
  require (observationId ∉ j.observationIds)
    (.shadowAudit ("duplicate shadow observation id: " ++ observationId))

/-- `find`. -/
def ShadowAuditJournal.find (j : ShadowAuditJournal) (observationId : String) :
    Except PyError (Option ShadowAuditRecord) := do
  .ok ((← verify D F j.file).find? fun r => r.observationId = observationId)

/-- `latest_risk_state_sha256`. -/
def ShadowAuditJournal.latestRiskStateSha256 (j : ShadowAuditJournal) :
    Except PyError (Option String) := do
  .ok ((← verify D F j.file).reverse.findSome? fun r => r.riskStateSha256)

/-- The checksum of a record after the line with checksum `previous`. -/
def recordChecksum (previous : Option String) (record : ShadowAuditRecord) : String :=
  digest D F (chained (ofOptional previous) (recordToDict record))

/-- The line of a record, without its line feed. -/
def recordLine (previous : Option String) (record : ShadowAuditRecord) : String :=
  dumps F (.obj [("previous_sha256", ofOptional previous), ("record", recordToDict record),
    ("sha256", .str (recordChecksum D F previous record))])

/-- How the write of a line fails: before it, in the middle, or once it is made. -/
inductive WriteFault where
  | before
  | short (written : Nat)
  | after
  deriving DecidableEq

/-- `append`, whose write may fail. It answers with the checksum, and leaves the journal. -/
def ShadowAuditJournal.append (j : ShadowAuditJournal) (record : ShadowAuditRecord)
    (fault : Option WriteFault) : Except PyError String × ShadowAuditJournal :=
  if record.observationId ∈ j.observationIds then
    (.error (.shadowAudit ("duplicate shadow observation id: " ++ record.observationId)), j)
  else
    let encoded := recordLine D F j.lastHash record ++ "\n"
    let written := fun text => some (j.file.getD "" ++ text)
    match fault with
    | some .before => (.error .osError, j)
    | some (.short n) =>
      (.error (.shadowAudit "short write to shadow audit journal"),
        { j with file := written (String.ofList (encoded.toList.take n)) })
    | some .after => (.error .osError, { j with file := written encoded })
    | none =>
      (.ok (recordChecksum D F j.lastHash record),
        { file := written encoded
          observationIds := record.observationId :: j.observationIds
          lastHash := some (recordChecksum D F j.lastHash record) })

end

end Greenfield.Shadow
