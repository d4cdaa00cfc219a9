import Greenfield.Lib.Files
import Greenfield.Lib.Run
import Greenfield.Py.Basic

/-!
# The compaction of the microstructure files

`write_batch` and `read_range` of `src/data/microstructure_writer.py`, and
`src/data/microstructure_compactor.py`. A Parquet file is its rows and its footer, without which
it cannot be read. The names of the files have a `uuid4` each; these are numbers that are not
drawn twice. A day is the number of a UTC calendar day.
-/

namespace Greenfield.Data.Micro

open Effects Files Py

/-- `data_dir / "microstructure" / stream / symbol / date`. -/
structure Directory where
  stream : String
  symbol : String
  day : Int
  deriving DecidableEq, Repr

inductive FileName where
  /-- `{time_ns}-{uuid}.parquet`. -/
  | batch (timeNs id : Nat)
  /-- `.{name}.{uuid}.tmp` of such a name. -/
  | batchTemp (timeNs id tempId : Nat)
  /-- `.tmp-{uuid}.parquet`. -/
  | mergeTemp (id : Nat)
  /-- `compacted-{uuid}.parquet`. -/
  | compacted (id : Nat)
  deriving DecidableEq, Repr

/-- The name matches `*.parquet`, which the temporary of a merge does as well. -/
def FileName.isParquet : FileName → Bool
  | .batchTemp .. => false
  | _ => true

/-- `name.startswith("compacted-")`. -/
def FileName.isCompacted : FileName → Bool
  | .compacted _ => true
  | _ => false

abbrev Path := Directory × FileName

/-- A row, with its timestamp in nanoseconds. -/
structure Row (ρ : Type) where
  timestamp : Int
  fields : ρ
  deriving DecidableEq

def dayNs : Int := 86400000000000

variable {ρ : Type}

/-- `timestamp.strftime("%Y-%m-%d")`, as the number of the day. -/
def Row.day (r : Row ρ) : Int := r.timestamp / dayNs

/-- What a Parquet file is made of. -/
inductive Piece (ρ : Type) where
  | row (r : Row ρ)
  | footer

abbrev Content (ρ : Type) := List (Piece ρ)

def parquet (rows : List (Row ρ)) : Content ρ := rows.map .row ++ [.footer]

/-- The rows of a file that is complete. -/
def rowsOf : Content ρ → Option (List (Row ρ))
  | [.footer] => some []
  | .row r :: rest => (rowsOf rest).map (r :: ·)
  | _ => none

/-- `pd.read_parquet`. -/
def readParquet (c : Content ρ) : Except PyError (List (Row ρ)) :=
  match rowsOf c with
  | some rows => .ok rows
  | none => .error (.valueError ("Parquet magic bytes not found in footer. Either the file is " ++
      "corrupted or this is not a parquet file."))

inductive Query where
  /-- `directory.exists()`. -/
  | isDir (d : Directory)
  /-- `time.time_ns()`. -/
  | timeNs

abbrev Answer : Query → Type
  | .isDir _ => Bool
  | .timeNs => Nat

abbrev Lake (ρ : Type) := Store Path (Piece ρ)

abbrev FileProg (ρ α : Type) := Prog (Files.Op Path (Piece ρ) Query) (Res Path (Piece ρ) Answer) PyError α

abbrev op (o : Files.Op Path (Piece ρ) Query) : FileProg ρ (Res Path (Piece ρ) Answer o) := Prog.perform o

/-- `frame.to_parquet(path, index=False)`. -/
def toParquet (path : Path) (rows : List (Row ρ)) : FileProg ρ Unit := do
  op (.truncate path)
  op (.append path (rows.map .row))
  op (.append path [.footer])

/-! ## Writing and reading -/

def streams : List String := ["orderbook", "trades", "liquidations"]

def unknownStream (stream : String) : PyError :=
  .valueError ("unknown stream '" ++ stream ++
    "', expected one of ['orderbook', 'trades', 'liquidations']")

/-- The days of the rows, in order. -/
def daysOf (rows : List (Row ρ)) : List Int :=
  sorted (fun a b => decide (a ≤ b)) (rows.map Row.day).dedup

/-- The rows of one day in a file of their own. -/
def writeGroup (stream symbol : String) (rows : List (Row ρ)) (id : Nat) (day : Int) :
    FileProg ρ Nat := do
  let timeNs ← op (.ask .timeNs)
  let path : Path := (⟨stream, symbol, day⟩, .batch timeNs id)
  let temp : Path := (⟨stream, symbol, day⟩, .batchTemp timeNs id (id + 1))
  let answer ← Prog.attempt do
    toParquet temp (rows.filter fun r => r.day = day)
    op (.replace temp path)
  op (.unlink temp true)
  Prog.lift answer
  Prog.ret (id + 2)

/-- `write_batch`; `id` is the first `uuid4` that it draws. -/
def writeBatch (stream symbol : String) (rows : List (Row ρ)) (id : Nat) : FileProg ρ Nat := do
  Prog.check (streams.contains stream) (unknownStream stream)
  foldEach (writeGroup stream symbol rows) id (daysOf rows)

/-- `directory.glob("*.parquet")`. -/
def glob (directory : Directory) (paths : List Path) : List Path :=
  paths.filter fun p => p.1 = directory ∧ p.2.isParquet

/-- `pd.date_range(start.floor("D"), end.floor("D"), freq="D")`. -/
def dateRange (start stop : Int) : List Int :=
  (List.range (1 + stop / dayNs - start / dayNs).toNat).map fun i : Nat => start / dayNs + i

/-- `read_range`. -/
def readRange (lake : Lake ρ) (stream symbol : String) (start stop : Int) :
    Except PyError (List (Row ρ)) := do
  require (streams.contains stream) (unknownStream stream)
  let paths := (dateRange start stop).flatMap fun day =>
    glob ⟨stream, symbol, day⟩ lake.paths
  let frames ← paths.mapM fun p => readParquet ((lake.read p).getD [])
  return sorted (fun a b => decide (a.timestamp ≤ b.timestamp))
    (frames.flatten.filter fun r => start ≤ r.timestamp ∧ r.timestamp ≤ stop)

/-! ## Compaction -/

structure CompactionResult where
  directory : Directory
  sourceFiles : Nat
  sourceRows : Nat
  mergedRows : Nat
  mergedPath : Option Path
  skippedReason : Option String := none

/-- `_small_files`. -/
def smallFiles (directory : Directory) (paths : List Path) : List Path :=
  (glob directory paths).filter fun p => !p.2.isCompacted

/-- The smallest and the greatest timestamp differ; those of no rows are `NaT`. -/
def rangeMismatch (a b : List (Row ρ)) : Bool :=
  match (a.map Row.timestamp).min?, (b.map Row.timestamp).min?, (a.map Row.timestamp).max?,
    (b.map Row.timestamp).max? with
  | some minA, some minB, some maxA, some maxB => minA ≠ minB || maxA ≠ maxB
  | _, _, _, _ => true

def readFile (path : Path) : FileProg ρ (List (Row ρ)) := do
  let content ← op (.read path)
  Prog.lift (readParquet content)

/-- The merge of the small files `sources`. -/
def mergeFiles (directory : Directory) (sources : List Path) (tmpId finalId : Nat) :
    FileProg ρ CompactionResult := do
  let frames ← foldEach (fun frames path => do
    let rows ← readFile path
    Prog.ret (frames ++ [rows])) [] sources
  let sourceRows := (frames.map List.length).sum
  let merged := sorted (fun a b => decide (a.timestamp ≤ b.timestamp)) frames.flatten
  let tmpPath : Path := (directory, .mergeTemp tmpId)
  toParquet tmpPath merged
  let reread ← readFile tmpPath
  if reread.length ≠ sourceRows then
    op (.unlink tmpPath true)
    Prog.ret { directory, sourceFiles := sources.length, sourceRows, mergedRows := reread.length,
               mergedPath := none
               skippedReason := some ("validation failed: merged row count " ++
                 toString reread.length ++ " != source row count " ++ toString sourceRows ++
                 " - source files left untouched") }
  else if rangeMismatch reread merged then
    op (.unlink tmpPath true)
    Prog.ret { directory, sourceFiles := sources.length, sourceRows, mergedRows := reread.length,
               mergedPath := none
               skippedReason := some ("validation failed: timestamp range mismatch - " ++
                 "source files left untouched") }
  else
    let finalPath : Path := (directory, .compacted finalId)
    op (.replace tmpPath finalPath)
    foldEach (fun _ path => op (.unlink path true)) () sources
    Prog.ret { directory, sourceFiles := sources.length, sourceRows, mergedRows := reread.length,
               mergedPath := some finalPath }

/-- `compact_day`; `tmpId` and `finalId` are the `uuid4`s that it draws. -/
def compactDay (directory : Directory) (tmpId finalId : Nat) : FileProg ρ CompactionResult := do
  if !(← op (.ask (.isDir directory))) then
    Prog.ret { directory, sourceFiles := 0, sourceRows := 0, mergedRows := 0, mergedPath := none
               skippedReason := some "directory does not exist" }
  else
    let paths ← op .list
    let sources := smallFiles directory paths
    if sources.length ≤ 1 then
      Prog.ret { directory, sourceFiles := sources.length, sourceRows := 0, mergedRows := 0,
                 mergedPath := none
                 skippedReason := some "nothing to compact" }
    else mergeFiles directory sources tmpId finalId

/-- The reason that `compact_all` gives where `compact_day` raises. -/
def errorReason (e : PyError) : String :=
  match e with
  | .valueError msg => "compaction error (ArrowInvalid): " ++ msg ++ "; source files left untouched"
  | _ => "compaction error (OSError): ; source files left untouched"

/-- A directory of `compact_all`, after those of `results`. -/
def compactNext (today : Int) (id : Nat) (results : List CompactionResult)
    (directory : Directory) : FileProg ρ (List CompactionResult) := do
  if directory.day = today then Prog.ret results
  else
    match ← (compactDay directory (id + 2 * results.length) (id + 2 * results.length + 1)).attempt
      with
    | .ok result => Prog.ret (results ++ [result])
    | .error e =>
      let paths ← op .list
      Prog.ret (results ++ [{ directory, sourceFiles := (smallFiles directory paths).length,
                              sourceRows := 0, mergedRows := 0, mergedPath := none
                              skippedReason := some (errorReason e) }])

/-- `compact_all`, of the directories that it lists. -/
def compactAll (directories : List Directory) (today : Int) (id : Nat) :
    FileProg ρ (List CompactionResult) :=
  foldEach (compactNext today id) [] directories

end Greenfield.Data.Micro
