import Greenfield.Lib.Files
import Greenfield.Py.Json
import Mathlib.Data.List.Infix

/-!
# The rotation of the Binance archive

`rotate_binance_archive_month` of `src/data/binance_archive_rotation.py`, one operation on the
files after the other. A path is the list of its parts, so `data_dir` and the backup root are
resolved and there are no links; a period is one part. `json.loads` and `json.dump` of a whole
file are parameters, and so is SHA-256.

Whatever is in the backup, and wherever a call stops, the bytes of every source file are in the
source or in a copy that was verified (`rotation_keeps`).
-/

namespace Greenfield.Data.Rotation

open Effects Files Py

abbrev Path := List String

abbrev Bytes := List UInt8

inductive Query where
  /-- `shutil.disk_usage(_existing_parent(backup)).free`. -/
  | free
  /-- `datetime.now(UTC).isoformat()`. -/
  | now
  /-- `path.mkdir(parents=True, exist_ok=True)` and `os.fsync`. -/
  | settle

abbrev Answer : Query → Type
  | .free => Nat
  | .now => String
  | .settle => Unit

abbrev FileProg (α : Type) := Prog (Files.Op Path UInt8 Query) (Res Path UInt8 Answer) PyError α

abbrev op (o : Files.Op Path UInt8 Query) : FileProg (Res Path UInt8 Answer o) := Prog.perform o

structure Formats where
  /-- `json.loads` of a manifest, which is an object. -/
  loads : Bytes → Except PyError (List (String × PyJson))
  /-- `json.dump(value, stream, indent=2, sort_keys=True)`, and the end of the line. -/
  dump : PyJson → Bytes
  sha256 : Bytes → String
  /-- `str(value)`. -/
  str : PyJson → String

def datasets : List String := ["trades", "aggTrades"]

def markets : List String := ["spot", "futures-um"]

def symbols : List String := ["BTCUSDT", "ETHUSDT", "SOLUSDT"]

/-! ## Paths -/

/-- `path.name`. -/
def name (p : Path) : String := p.getLastD ""

/-- The path with another name. -/
def mapName (f : String → String) (p : Path) : Path := p.dropLast ++ [f (name p)]

/-- `name.removesuffix(suffix)` of a name that has it. -/
def removeSuffix (suffix text : String) : String :=
  String.ofList (text.toList.take (text.length - suffix.length))

def endsWith (suffix text : String) : Bool := suffix.toList.isSuffixOf text.toList

/-- `path.with_suffix(path.suffix + ".part")`. -/
def temporary (p : Path) : Path := mapName (· ++ ".part") p

/-! ## The files of a period -/

/-- The files and identities that were discovered. -/
structure Found where
  files : List Path := []
  bronze : List String := []
  silver : List String := []

variable (F : Formats)

/-- `str(raw.get(key, ""))`. -/
def field (raw : List (String × PyJson)) (key : String) : String :=
  F.str ((Json.get raw key).getD (.str ""))

/-- A Bronze manifest. -/
def addBronze (period : String) (found : Found) (manifest : Path) : FileProg Found := do
  let raw ← Prog.lift (F.loads (← op (.read manifest)))
  match (field F raw "identity").splitOn ":" with
  | [market, _, dataset, symbol, _, sourcePeriod] =>
    if sourcePeriod ≠ period ∨ dataset ∉ datasets then Prog.ret found
    else
      let source := mapName (removeSuffix ".manifest.json") manifest
      Prog.check (← op (.isFile source)) .osError
      Prog.ret { found with
        bronze := found.bronze ++ [market.replace "/" "-" ++ ":" ++ dataset ++ ":" ++ symbol]
        files := found.files ++ [source, manifest] }
  | _ => Prog.ret found

/-- A Silver manifest. -/
def addSilver (period : String) (found : Found) (manifest : Path) : FileProg Found := do
  let raw ← Prog.lift (F.loads (← op (.read manifest)))
  let dataset := field F raw "dataset"
  if field F raw "period" ≠ period ∨ dataset ∉ datasets then Prog.ret found
  else
    let source := mapName (fun _ => "part.parquet") manifest
    Prog.check (← op (.isFile source)) .osError
    Prog.ret { found with
      silver := found.silver ++ [field F raw "market" ++ ":" ++ dataset ++ ":" ++
        field F raw "symbol"]
      files := found.files ++ [source, manifest] }

/-- `root.rglob(..)`. -/
def rglob (root : Path) (pattern : String → Bool) (paths : List Path) : List Path :=
  paths.filter fun p => root.isPrefixOf p && root.length < p.length && pattern (name p)

/-- `_discover_period_files`. -/
def discoverPeriodFiles (data : Path) (period : String) : FileProg Found := do
  let paths ← op .list
  let found ← foldEach (addBronze F period) {}
    (rglob (data ++ ["external", "binance-public-data"]) (endsWith ".zip.manifest.json") paths)
  let paths ← op .list
  foldEach (addSilver F period) found
    (rglob (data ++ ["silver", "binance-public-data", "v1"]) (· = "part.manifest.json") paths)

/-! ## Copying -/

/-- `try: body finally: temporary.unlink(missing_ok=True)`. -/
def finallyUnlink {α : Type} (temp : Path) (body : FileProg α) : FileProg α := do
  let answer ← body.attempt
  op (.unlink temp true)
  Prog.lift answer

/-- The `try` of `_copy_verified`. -/
def copyBody (source destination : Path) (expectedSha256 : String) : FileProg Unit := do
  let temp := temporary destination
  let content ← op (.read source)
  op (.create temp)
  op (.append temp content)
  op (.ask .settle)
  let copied ← op (.read temp)
  Prog.check (F.sha256 copied = expectedSha256) (.valueError
    ("backup copy checksum mismatch: " ++ "/".intercalate destination))
  op (.replace temp destination)

/-- `_copy_verified`. -/
def copyVerified (source destination : Path) (expectedSha256 : String) : FileProg Unit := do
  if ← op (.isFile destination) then
    let content ← op (.read destination)
    Prog.check (F.sha256 content = expectedSha256) (.valueError
      ("existing backup checksum mismatch: " ++ "/".intercalate destination))
  else
    op (.ask .settle)
    finallyUnlink (temporary destination) (copyBody F source destination expectedSha256)

/-- `_write_json_atomic`. -/
def writeJsonAtomic (path : Path) (value : PyJson) : FileProg Unit := do
  op (.ask .settle)
  finallyUnlink (temporary path) do
    op (.truncate (temporary path))
    op (.append (temporary path) (F.dump value))
    op (.ask .settle)
    op (.replace (temporary path) path)

/-! ## The rotation -/

/-- An entry of the report; the path is relative to `data_dir`. -/
structure Entry where
  path : Path
  sizeBytes : Nat
  sha256 : String

/-- `path.stat().st_size`. -/
def fileSize (path : Path) : FileProg Nat := do
  let content ← op (.read path)
  Prog.ret content.length

def addEntry (data : Path) (entries : List Entry) (path : Path) : FileProg (List Entry) := do
  let sizeBytes ← fileSize path
  let content ← op (.read path)
  Prog.ret (entries ++ [⟨path.drop data.length, sizeBytes, F.sha256 content⟩])

/-- The bytes of the files that the backup does not have. -/
def addMissing (data destinationRoot : Path) (total : Nat) (entry : Entry) : FileProg Nat := do
  if ← op (.isFile (destinationRoot ++ entry.path)) then Prog.ret total
  else do
    let size ← fileSize (data ++ entry.path)
    Prog.ret (total + size)

/-- `all(sha256_file(destination_root / entry["path"]) == entry["sha256"] ..)`. -/
def verifyCopies (destinationRoot : Path) : List Entry → FileProg Bool
  | [] => Prog.ret true
  | entry :: entries => do
    let content ← op (.read (destinationRoot ++ entry.path))
    if F.sha256 content = entry.sha256 then verifyCopies destinationRoot entries
    else Prog.ret false

/-- The report, with what became of the rotation. -/
def report (data backup : Path) (period : String) (execute : Bool) (entries : List Entry)
    (totalBytes : Nat) (completedAtUtc : Option String) (sourcePruned : Bool) : PyJson :=
  .obj (Json.dict ([("schema_version", .int 1), ("period", .str period),
    ("source_root", .str ("/" ++ "/".intercalate data)),
    ("backup_root", .str ("/" ++ "/".intercalate backup)),
    ("file_count", .int entries.length), ("total_bytes", .int totalBytes),
    ("files", .arr (entries.map fun e => .obj (Json.dict
      [("path", .str ("/".intercalate e.path)), ("size_bytes", .int e.sizeBytes),
        ("sha256", .str e.sha256)]))),
    ("executed", .bool execute), ("source_pruned", .bool sourcePruned),
    ("qualified", .bool completedAtUtc.isSome)] ++
    (completedAtUtc.map fun at' => ("completed_at_utc", .str at')).toList))

/-- The identities of a complete month. -/
def expected : List String :=
  markets.flatMap fun market => datasets.flatMap fun dataset =>
    symbols.map fun symbol => market ++ ":" ++ dataset ++ ":" ++ symbol

def sameSet (a b : List String) : Bool := a.all b.contains && b.all a.contains

/-- Copy the files, verify the copies, and then prune the source. -/
def copyAndPrune (data backup : Path) (period : String) (pruneSource : Bool)
    (entries : List Entry) (totalBytes : Nat) : FileProg PyJson := do
  let destinationRoot := backup ++ [period]
  let missing ← foldEach (addMissing data destinationRoot) 0 entries
  let free ← op (.ask .free)
  Prog.check (missing + 1024 ^ 3 ≤ free) .osError
  foldEach (fun _ entry => copyVerified F (data ++ entry.path) (destinationRoot ++ entry.path)
    entry.sha256) () entries
  let qualified ← verifyCopies F destinationRoot entries
  Prog.check qualified (.valueError "rotated Binance backup failed checksum verification")
  let completedAtUtc ← op (.ask .now)
  let completed := report data backup period true entries totalBytes (some completedAtUtc) false
  writeJsonAtomic F (destinationRoot ++ ["rotation-manifest.json"]) completed
  if pruneSource then
    foldEach (fun _ entry => op (.unlink (data ++ entry.path) false)) () entries
    let pruned := report data backup period true entries totalBytes (some completedAtUtc) true
    writeJsonAtomic F (destinationRoot ++ ["prune-evidence.json"]) pruned
    Prog.ret pruned
  else Prog.ret completed

/-- `rotate_binance_archive_month`. -/
def rotateBinanceArchiveMonth (data backup : Path) (period : String)
    (execute pruneSource : Bool) : FileProg PyJson := do
  Prog.check (!data.isPrefixOf backup && !backup.isPrefixOf data)
    (.valueError "backup root must be distinct and outside data_dir")
  let found ← discoverPeriodFiles F data period
  Prog.check (sameSet found.bronze expected && sameSet found.silver expected) (.valueError
    ("rotation requires complete Bronze and Silver trades/aggTrades for all BTC/ETH/SOL " ++
      "spot/perp streams: " ++ period))
  let files := sorted (fun a b => decide (a ≤ b)) found.files.dedup
  Prog.check (files.length = 48) (.valueError
    ("rotation requires exactly 48 source files; found " ++ toString files.length))
  let entries ← foldEach (addEntry F data) [] files
  let totalBytes ← foldEach (fun total path => do
    let size ← fileSize path
    Prog.ret (total + size)) 0 files
  if execute then copyAndPrune F data backup period pruneSource entries totalBytes
  else Prog.ret (report data backup period false entries totalBytes none false)

end Greenfield.Data.Rotation
