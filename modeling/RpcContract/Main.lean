import RpcContract.CommandLine.Check
import RpcContract.CommandLine.Generate
import RpcContract.Files.Changes
import Std.Time.Format

/-!
The programs on the file system. The files that a run can reach are taken into a tree, the run is
made on the tree, and what it changed is written back.
-/

namespace RpcContract.Main

/-- How deep directories are followed, so that links that lead upwards end. -/
def depth : Nat := 64

def treeOf : Nat → IO.FS.DirEntry → IO FileTree
  | 0, _ => return .empty
  | fuel + 1, entry => do
    if ← entry.path.isDir then
      let trees ← (← entry.path.readDir).toList.filterMapM fun inner => do
        try return some (inner.fileName, ← treeOf fuel inner)
        catch _ => return none
      return .directory (Dict.ofList trees)
    else return .file (.ofBytes (← IO.FS.readBinFile entry.path))

def entryAt (place : List String) : IO.FS.DirEntry := ⟨"/", "/".intercalate place⟩

/-- The disk with what stands at a place. -/
def takeTree (disk : Disk) (place : List String) : IO Disk := do
  try return disk.put place (← treeOf depth (entryAt place))
  catch _ => return disk

/-- The disk with a directory, without what stands in it. -/
def takeDirectory (disk : Disk) (place : List String) : IO Disk := do
  if disk.isDirectoryAt place then return disk
  else if ← (entryAt place).path.isDir then return disk.put place .empty
  else return disk

/-- The disk with all that a path can lead to. -/
def take (disk : Disk) (path : String) : IO Disk := do
  if (disk.at? path).isSome then return disk
  let place := disk.placeOf path
  takeTree (← takeDirectory disk place.dropLast) place

def environment : IO (List (String × String)) := do
  let bytes ← IO.FS.readBinFile "/proc/self/environ"
  let entries := ((String.fromUTF8? bytes).getD "").splitOn "\x00"
  return entries.filterMap fun entry =>
    match entry.splitOn "=" with
    | name :: value => some (name, "=".intercalate value)
    | [] => none

/-- Where the user's configuration files are. -/
def userDirectory : IO String := do
  match ← IO.getEnv "XDG_CONFIG_HOME" with
  | some dir => if Path.isAbsolute dir then return dir
  | none => pure ()
  return Path.join ((← IO.getEnv "HOME").getD "/") ".config"

def surroundings (words : List String) : IO Config.Surroundings := do
  let place := Path.names (← IO.currentDir).toString
  let disk ← takeTree ⟨.empty, place⟩ place
  let userFile := Path.join (← userDirectory) "openrpc-schemas/openrpc.toml"
  let temporary := (← IO.getEnv "TMPDIR").getD "/tmp"
  let disk ← (userFile :: words).foldlM take disk
  let disk ← takeDirectory disk (disk.placeOf temporary)
  return ⟨disk, ← environment, userFile, temporary⟩

/-- The surroundings with the files that the configuration names. -/
def configured (s : Config.Surroundings) (path : Option String) : IO Config.Surroundings := do
  match Config.load s path with
  | .error _ => return s
  | .ok c => return { s with disk := ← c.paths.foldlM take s.disk }

/-- Words of the command line that may be paths, alone or after an equality sign. -/
def pathsOf (words : List String) : List String :=
  (words.flatMap (·.splitOn "=")).filter (· ≠ "")

def writeBack (before after : Disk) : IO Unit := do
  for (names, content) in FileTree.changes before.root after.root do
    if let some text := content.text? then
      IO.FS.createDirAll (entryAt names.dropLast).path
      IO.FS.writeFile (entryAt names).path text

def finish (s : Config.Surroundings) (outcome : CommandLine.Outcome) : IO UInt32 := do
  writeBack s.disk outcome.disk
  IO.print outcome.output
  IO.eprint outcome.errors
  return outcome.status.code.toUInt32

/-- The `--config` option of a command line, where it can be read. -/
def configOf (forms : List CommandLine.OptionForm) (words : List String) : Option String :=
  match CommandLine.readOptions forms words with
  | .ok given => given.first? "config"
  | .error _ => none

def now : IO String := do
  let moment := Std.Time.DateTime.ofTimestamp (← Std.Time.Timestamp.now)
    Std.Time.TimeZone.ZoneRules.UTC
  return moment.format "uuuu-MM-dd'T'HH:mm:ss.SSSSSSSSSxxx"

def generate (words : List String) : IO UInt32 := do
  let s ← surroundings (pathsOf words)
  let s ← configured s (configOf CommandLine.Generate.forms words)
  let stamp ← IO.rand 0 999999
  finish s (CommandLine.Generate.run s (toString stamp) words)

def check (words : List String) : IO UInt32 := do
  let s ← surroundings (pathsOf words)
  let s ← configured s (configOf CommandLine.Check.forms words)
  finish s (CommandLine.Check.run s (← now) words)

end RpcContract.Main

def main : List String → IO UInt32
  | "specgen" :: words => RpcContract.Main.generate words
  | "speccheck" :: words => RpcContract.Main.check words
  | _ => do
    IO.eprintln "Usage: <specgen|speccheck> [OPTIONS]"
    return 2
