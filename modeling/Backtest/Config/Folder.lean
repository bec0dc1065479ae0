import Backtest.Config.Strategy
import Backtest.Document.Yaml.Load
import Backtest.Document.Json
import Backtest.Digest.Sha256
import Backtest.Market.PriceFile
import Backtest.Calendar.Moment

/-!
# A strategy's folder

A folder is the list of its files by relative path, with the directories made in it; paths are
walked part by part, `..` going back up, and directories are made as `mkdir -p` makes them. The
strategy file is read as YAML with its line ends made `\n`, hashed by SHA-256 of its bytes, and
checked against its lock file; a run context names a run
`<prefix>-<YYYYmmddTHHMMSSZ>-<first 8 hex digits of the hash>` unless a run id is given.
-/

namespace Backtest.Config

open Backtest.Document Backtest.Market

/-- The files of a folder, by path relative to it, and the directories made in it that no file
shows. -/
structure Folder where
  files : List (String × String)
  directories : List String := []

/-- The empty folder. -/
def Folder.empty : Folder :=
  { files := [] }

/-- Where a path leads in a folder. -/
inductive Place where
  /-- A file's place, given by the path it reaches; the file may or may not exist. -/
  | file (path : String)
  /-- A directory: the folder itself, a directory above it, or one holding files. -/
  | directory
  /-- A path through a directory that does not exist. -/
  | noDirectory
  /-- A path through a file as if it were a directory. -/
  | throughFile

/-- The parts of a path in normal form; the folder itself has none. -/
def pathParts (path : String) : List String :=
  let normal := normalizePath path
  if normal = "." then [] else normal.splitOn "/"

/-- A path of parts; no parts is the folder itself. -/
def joinParts (parts : List String) : String :=
  if parts.isEmpty then "." else "/".intercalate parts

/-- The parts reached by one more part of a path: `..` leaves the directory reached, or climbs
above the folder from it or from above it; any other part enters it. -/
def stepPart (reached : List String) (part : String) : List String :=
  if part = ".." then
    if reached.all (· = "..") then reached ++ [".."] else reached.dropLast
  else reached ++ [part]

/-- Whether a reached path names a directory: the folder itself, a directory above it (`..`
parts only), a directory made in it, or one above a file or a made directory. -/
def Folder.isDirectory (folder : Folder) (path : String) : Bool :=
  path = "." || (path.splitOn "/").all (· = "..") || folder.directories.contains path ||
    folder.files.any (fun (q, _) => (path ++ "/").isPrefixOf q) ||
    folder.directories.any fun d => (path ++ "/").isPrefixOf d

/-- Where the parts left of a path lead from the parts reached: every part before the last must
reach a directory. -/
def Folder.walk (folder : Folder) (reached : List String) : List String → Place
  | [] => if folder.isDirectory (joinParts reached) then .directory else .file (joinParts reached)
  | [last] =>
    let target := joinParts (stepPart reached last)
    if folder.isDirectory target then .directory else .file target
  | part :: rest =>
    let next := stepPart reached part
    if folder.isDirectory (joinParts next) then folder.walk next rest
    else if (folder.files.lookup (joinParts next)).isSome then .throughFile
    else .noDirectory

/-- Where a path leads from the folder. -/
def Folder.locate (folder : Folder) (path : String) : Place :=
  folder.walk [] (pathParts path)

/-- A path as messages show it: in normal form, the folder itself as the empty path. -/
def shownPath (path : String) : String :=
  let normal := normalizePath path
  if normal = "." then "" else normal

/-- The fault of a path that names no file. -/
def noSuchFile (path : String) : Fault :=
  .missingFile ("[Errno 2] No such file or directory: " ++ Text.quote (shownPath path))

/-- The fault of a path that names a directory. -/
def isADirectory (path : String) : Fault :=
  .isDirectory ("[Errno 21] Is a directory: " ++ Text.quote (shownPath path))

/-- The fault of a path through a file. -/
def notADirectory (path : String) : Fault :=
  .notDirectory ("[Errno 20] Not a directory: " ++ Text.quote (shownPath path))

/-- The fault of a directory to be made where a file is. -/
def fileExists (path : String) : Fault :=
  .fileExists ("[Errno 17] File exists: " ++ Text.quote (shownPath path))

/-- The fault of a place that is not a file's. -/
def Place.fault (path : String) : Place → Fault
  | .directory => isADirectory path
  | .throughFile => notADirectory path
  | _ => noSuchFile path

/-- The text of a file. -/
def Folder.read (folder : Folder) (path : String) : Except Fault String :=
  match folder.locate path with
  | .file p =>
    match folder.files.lookup p with
    | some text => .ok text
    | none => .error (noSuchFile path)
  | place => .error (place.fault path)

/-- Whether a path names a file or directory. -/
def Folder.exists (folder : Folder) (path : String) : Bool :=
  match folder.locate path with
  | .file p => (folder.files.lookup p).isSome
  | .directory => true
  | _ => false

/-- The first run of lone surrogates among code points: where it starts and how long it is. -/
def surrogateRun (us : List Nat) : Option (Nat × Nat) :=
  let start := (us.takeWhile (fun u => !Text.isSurrogateCode u)).length
  let run := ((us.drop start).takeWhile Text.isSurrogateCode).length
  if run = 0 then none else some (start, run)

/-- Checks that a text can be encoded as UTF-8: a lone surrogate cannot. -/
def encodable (text : String) : Except Fault Unit :=
  let us := Text.codes text
  match surrogateRun us with
  | none => .ok ()
  | some (start, 1) =>
    .error (.unencodable ("'utf-8' codec can't encode character '\\u" ++
      String.ofList (Text.hexDigits 4 (us.getD start 0)) ++ "' in position " ++ toString start ++
      ": surrogates not allowed"))
  | some (start, run) =>
    .error (.unencodable ("'utf-8' codec can't encode characters in position " ++
      toString start ++ "-" ++ toString (start + run - 1) ++ ": surrogates not allowed"))

/-- The folder with a file written (replacing one at the same path), as UTF-8. -/
def Folder.write (folder : Folder) (path text : String) : Except Fault Folder :=
  match folder.locate path with
  | .file p => do
    encodable text
    pure { folder with files := (p, text) :: folder.files.filter fun (q, _) => q ≠ p }
  | place => .error (place.fault path)

/-- The folder with text added at the end of a file, which is made if missing. -/
def Folder.append (folder : Folder) (path text : String) : Except Fault Folder := do
  let old ← match folder.locate path with
    | .file p => pure ((folder.files.lookup p).getD "")
    | place => throw (place.fault path)
  folder.write path (old ++ text)

/-- Makes a directory in an existing one; a directory already there is kept. -/
def Folder.makeDirectory (folder : Folder) (path : String) : Except Fault Folder :=
  match folder.locate path with
  | .directory => .ok folder
  | .file p =>
    if (folder.files.lookup p).isSome then .error (fileExists path)
    else .ok { folder with directories := p :: folder.directories }
  | place => .error (place.fault path)

/-- Makes the directory of some parts of a path and the missing ones above it, the highest first;
`fuel` counts the parts that may still be climbed. A directory already there is kept, a file in
the way is a fault. -/
def Folder.makePath (folder : Folder) : Nat → List String → Except Fault Folder
  | 0, parts => folder.makeDirectory (joinParts parts)
  | fuel + 1, parts =>
    match folder.locate (joinParts parts) with
    | .noDirectory => do (← folder.makePath fuel parts.dropLast).makeDirectory (joinParts parts)
    | _ => folder.makeDirectory (joinParts parts)

/-- Makes the directory that holds a path, with the missing ones above it. -/
def Folder.makeParent (folder : Folder) (path : String) : Except Fault Folder :=
  let parent := (pathParts path).dropLast
  folder.makePath parent.length parent

/-- Text as read in text mode: `\r\n` and `\r` become `\n`. -/
def universalNewlines : List Char → List Char
  | '\r' :: '\n' :: rest => '\n' :: universalNewlines rest
  | '\r' :: rest => '\n' :: universalNewlines rest
  | c :: rest => c :: universalNewlines rest
  | [] => []

/-- Reads a file in text mode. -/
def Folder.readText (folder : Folder) (path : String) : Except Fault String := do
  pure (String.ofList (universalNewlines (← folder.read path).toList))

/-- Loads the strategy file at a path. -/
def Folder.loadStrategy (folder : Folder) (path : String) : Except Fault Strategy := do
  let doc ← Yaml.loadYaml (← folder.readText path)
  Strategy.ofDocument doc

/-- The hash of a file. -/
def Folder.hash (folder : Folder) (path : String) : Except Fault String := do
  pure (Digest.sha256Hex (← folder.read path))

/-- The observations of a price file. -/
def Folder.readPrices (folder : Folder) (path : String) : Except Fault (List Observation) := do
  readPriceFile path (← folder.read path)

/-- The observations of a strategy's price file within its date window. -/
def Folder.loadPrices (folder : Folder) (s : Strategy) : Except Fault (List Observation) := do
  s.prices.select (← folder.readPrices s.prices.path)

/-- The lock file path of a strategy file. -/
def lockPathOf (path : String) : String :=
  path ++ ".lock.json"

/-- The text of a lock recording a strategy file's path and hash and when it was frozen. -/
def lockText (path hash frozenAt : String) : String :=
  writeJson (.map [(.str "config_path", .str path), (.str "config_hash", .str hash),
    (.str "frozen_at_utc", .str frozenAt)])

/-- Freezes a strategy file: writes its lock (at `lockPath`, or beside it) and returns the
folder and the lock's path. -/
def Folder.freeze (folder : Folder) (path : String) (lockPath : Option String)
    (frozenAt : String) : Except Fault (Folder × String) := do
  let hash ← folder.hash path
  let lock := lockPath.getD (lockPathOf path)
  pure (← folder.write lock (lockText path hash frozenAt), shownPath lock)

/-- Whether a strategy file matches its lock: false without a lock, otherwise whether the lock's
`config_hash` is the file's hash. -/
def Folder.verify (folder : Folder) (path : String) (lockPath : Option String) :
    Except Fault Bool := do
  let lock := lockPath.getD (lockPathOf path)
  if !folder.exists lock then pure false
  else
    let text ← folder.readText lock
    let payload ← (parseJson text).mapError (JsonError.toFault text)
    let expected ← match payload with
      | .map _ => pure (payload.get? "config_hash")
      | other => throw (.noAttribute ("'" ++ other.typeName ++ "' object has no attribute 'get'"))
    let hash ← folder.hash path
    pure (match expected with
      | some (.str e) => e == hash
      | _ => false)

/-- The identity of a run. -/
structure RunContext where
  runId : String
  configPath : String
  configHash : String
  startedAt : Calendar.Moment

/-- The run id `<prefix>-<stamp>-<first 8 code points of the hash>`. -/
def makeRunId (pre hash : String) (startedAt : Calendar.Moment) : String :=
  pre ++ "-" ++ startedAt.stamp ++ "-" ++ Text.ofCodes ((Text.codes hash).take 8)

/-- The context of a run of the strategy file at `path`; an empty run id counts as none. -/
def Folder.runContext (folder : Folder) (path pre : String) (runId : Option String)
    (now : Calendar.Moment) : Except Fault RunContext := do
  let hash ← folder.hash path
  let id := match runId with
    | some r => if r.isEmpty then makeRunId pre hash now else r
    | none => makeRunId pre hash now
  pure { runId := id, configPath := path, configHash := hash, startedAt := now }

end Backtest.Config
