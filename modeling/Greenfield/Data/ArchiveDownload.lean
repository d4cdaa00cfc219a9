import Greenfield.Data.ArchiveRotation
import Greenfield.Lib.Run

/-!
# The download of an archive

`download_binance_archive` of `src/data/binance_public_archive.py`, one operation on the files after
the other, of which any can fail and after any of which the process can stop. The archive is renamed
into place before its manifest, and a call that finds the archive does not look for the manifest.
-/

namespace Greenfield.Data.Download

open Effects Files Py

open Rotation (Path Bytes Formats mapName name temporary)

/-! ## Jobs and checksums -/

structure BinanceArchiveJob where
  baseUrl : String
  market : String
  dataset : String
  symbol : String
  cadence : String
  period : String
  interval : Option String := none

namespace BinanceArchiveJob

def filename (job : BinanceArchiveJob) : String :=
  job.symbol ++ "-" ++ (if truthy job.interval then job.interval.getD "" else job.dataset) ++ "-" ++
    job.period ++ ".zip"

def url (job : BinanceArchiveJob) : String :=
  job.baseUrl ++ "/" ++ job.market ++ "/" ++ job.cadence ++ "/" ++ job.dataset ++ "/" ++ job.symbol ++
    (if truthy job.interval then "/" ++ job.interval.getD "" else "") ++ "/" ++ job.filename

def checksumUrl (job : BinanceArchiveJob) : String := job.url ++ ".CHECKSUM"

def identity (job : BinanceArchiveJob) : String :=
  job.market ++ ":" ++ job.cadence ++ ":" ++ job.dataset ++ ":" ++ job.symbol ++ ":" ++
    (if truthy job.interval then job.interval.getD "" else "none") ++ ":" ++ job.period

/-- `self.market.replace("/", "-")`. -/
def marketPart (job : BinanceArchiveJob) : String :=
  String.ofList (job.market.toList.map fun c => if c = '/' then '-' else c)

/-- `target_path`. -/
def targetPath (job : BinanceArchiveJob) (dataDir : Path) : Path :=
  dataDir ++ ["external", "binance-public-data", job.marketPart, job.dataset, job.symbol] ++
    (if truthy job.interval then job.interval.toList else []) ++ [job.filename]

end BinanceArchiveJob

structure BinanceArchiveProbe where
  job : BinanceArchiveJob
  available : Bool
  sizeBytes : Option ℤ

/-- `value.split()`. -/
def splitWords (value : String) : List String :=
  ((value.toList.splitOnP isSpace).filter (· ≠ [])).map String.ofList

/-- `parse_checksum`. -/
def parseChecksum (value expectedFilename : String) : Except PyError String :=
  let fields := splitWords value
  if fields.length < 2 ∨
      (fields.getLastD "").toList.dropWhile (· = '*') ≠ expectedFilename.toList then
    .error (.valueError "unexpected Binance checksum response")
  else
    let digest := (fields.headD "").toList.map Char.toLower
    if digest.length ≠ 64 ∨ digest.any (fun char => !"0123456789abcdef".toList.contains char) then
      .error (.valueError "invalid Binance SHA-256 checksum")
    else .ok (String.ofList digest)

/-! ## The download -/

inductive Query where
  /-- `_read_url(checksum_url)`, which may not be UTF-8. -/
  | checksum
  /-- `urlopen(url)`. -/
  | payload
  /-- `disk_usage(target.parent).free`. -/
  | free
  /-- `datetime.now(UTC).isoformat()`. -/
  | now
  /-- `mkdir` and `os.fsync`. -/
  | settle

abbrev Answer : Query → Type
  | .checksum => Except PyError String
  | .payload => Bytes
  | .free => ℤ
  | .now => String
  | .settle => Unit

abbrev FileProg (α : Type) := Prog (Files.Op Path UInt8 Query) (Res Path UInt8 Answer) PyError α

abbrev op (o : Files.Op Path UInt8 Query) : FileProg (Res Path UInt8 Answer o) := Prog.perform o

/-- `target.with_suffix(target.suffix + ".manifest.json")`. -/
def manifestPath (target : Path) : Path := mapName (· ++ ".manifest.json") target

/-- The metadata of an archive. -/
structure ArchiveMetadata where
  identity : String
  sourceUrl : String
  checksumUrl : String
  contentSha256 : String
  sizeBytes : ℕ
  downloadedAtUtc : String

def ArchiveMetadata.json (m : ArchiveMetadata) : PyJson :=
  .obj (Json.dict [("schema_version", .int 1), ("identity", .str m.identity),
    ("source_url", .str m.sourceUrl), ("checksum_url", .str m.checksumUrl),
    ("content_sha256", .str m.contentSha256), ("size_bytes", .int m.sizeBytes),
    ("downloaded_at_utc", .str m.downloadedAtUtc)])

variable (F : Formats)

/-- `_write_json_atomic`. -/
def writeJsonAtomic (path : Path) (value : PyJson) : FileProg Unit := do
  let temp := mapName (· ++ ".tmp") path
  op (.ask .settle)
  op (.truncate temp)
  op (.append temp (F.dump value))
  op (.ask .settle)
  op (.replace temp path)

/-- The `try` of the download. -/
def fetch (target : Path) (expected : String) : FileProg Unit := do
  let payload ← op (.ask .payload)
  op (.truncate (temporary target))
  op (.append (temporary target) payload)
  op (.ask .settle)
  let content ← op (.read (temporary target))
  Prog.check (F.sha256 content = expected) (.valueError ("downloaded Binance archive checksum " ++
    "mismatch: expected=" ++ expected ++ ", actual=" ++ F.sha256 content))
  op (.replace (temporary target) target)

/-- An archive that is not there. -/
def downloadNew (job : BinanceArchiveJob) (target : Path) (expected : String)
    (required : ℤ) : FileProg (Path × Bool) := do
  let free ← op (.ask .free)
  Prog.check (required ≤ free) .osError
  let answer ← (fetch F target expected).attempt
  op (.unlink (temporary target) true)
  Prog.lift answer
  let content ← op (.read target)
  let now ← op (.ask .now)
  writeJsonAtomic F (manifestPath target) (ArchiveMetadata.json
    { identity := job.identity, sourceUrl := job.url, checksumUrl := job.checksumUrl
      contentSha256 := expected, sizeBytes := content.length, downloadedAtUtc := now })
  Prog.ret (target, true)

/-- `download_binance_archive`. -/
def downloadBinanceArchive (probe : BinanceArchiveProbe) (dataDir : Path)
    (minimumFreeBytes : ℤ) : FileProg (Path × Bool) :=
  match probe.available, probe.sizeBytes with
  | true, some sizeBytes => do
    let target := probe.job.targetPath dataDir
    op (.ask .settle)
    let text ← op (.ask .checksum)
    let expected ← Prog.lift (text >>= (parseChecksum · probe.job.filename))
    if ← op (.isFile target) then
      let content ← op (.read target)
      Prog.check (F.sha256 content = expected) (.valueError
        ("existing Binance archive checksum mismatch: " ++ "/".intercalate target))
      Prog.ret (target, false)
    else downloadNew F probe.job target expected (sizeBytes + minimumFreeBytes)
  | _, _ => Prog.raise (.valueError "cannot download an unavailable or unsized archive")

/-! ## Calls -/

/-- A call: what it is answered, which of its operations fail, and after how many of them the process
stops. -/
structure Call where
  probe : BinanceArchiveProbe
  dataDir : Path
  minimumFreeBytes : ℤ
  answers : (o : Query) → Answer o
  faults : ℕ → Option ℕ
  stop : Option ℕ

namespace Call

def target (call : Call) : Path := call.probe.job.targetPath call.dataDir

/-- The published checksum. -/
def published (call : Call) : Except PyError String :=
  call.answers .checksum >>= (parseChecksum · call.probe.job.filename)

def program (call : Call) : FileProg (Path × Bool) :=
  downloadBinanceArchive F call.probe call.dataDir call.minimumFreeBytes

/-- What the call returns or raises, unless the process stops. -/
def answer (call : Call) (s : Store Path UInt8) : Option (Except PyError (Path × Bool)) :=
  match call.stop with
  | none => some ((call.program F).run (faulty PyError.osError (fun _ => call.answers) call.faults)
      (0, s)).1
  | some _ => none

def step (s : Store Path UInt8) (call : Call) : Store Path UInt8 :=
  match call.stop with
  | none => ((call.program F).run (faulty PyError.osError (fun _ => call.answers) call.faults)
      (0, s)).2.2
  | some n => (stopped (faulty PyError.osError (fun _ => call.answers) call.faults) n
      (call.program F) (0, s)).2

end Call

end Greenfield.Data.Download
