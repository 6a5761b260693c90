import RpcContract.Files.Tree

/-!
A tree of files with a working directory in it, where relative paths start.
-/

namespace RpcContract

/-- `directory` are the names that lead from the root to the working directory. -/
structure Disk where
  root : FileTree
  directory : List String
deriving Repr

namespace Disk

/-- The parts of a path from the root on. -/
def partsOf (disk : Disk) (path : String) : List String :=
  if Path.isAbsolute path then Path.parts path else disk.directory ++ Path.parts path

/-- What a path denotes, and the names that lead there. -/
def locate (disk : Disk) (path : String) : Except FileFault (FileTree × List String) :=
  if path = "" then .error .notFound else disk.root.follow [] (disk.partsOf path)

def at? (disk : Disk) (path : String) : Option FileTree :=
  match disk.locate path with
  | .ok (t, _) => some t
  | .error _ => none

def isFile (disk : Disk) (path : String) : Bool := (disk.at? path).any (!·.isDirectory)

def content (disk : Disk) (path : String) : Except FileFault Content := do
  match ← disk.locate path with
  | (.directory _, _) => .error .isDirectory
  | (.file content, _) => .ok content

def read (disk : Disk) (path : String) : Except FileFault String := do
  match ← disk.content path with
  | .text s => .ok s
  | .bytes _ => .error .notUtf8

def put (disk : Disk) (names : List String) (t : FileTree) : Disk :=
  { disk with root := FileTree.put t names disk.root }

def write (disk : Disk) (path text : String) : Except FileFault Disk :=
  if path = "" then .error .notFound
  else do
    let parts := disk.partsOf path
    let last := parts.getLastD ""
    match ← disk.root.follow [] parts.dropLast with
    | (.file _, _) => .error .notDirectory
    | (.directory entries, names) =>
      if last = "" ∨ last = "." ∨ last = ".." then .error .isDirectory
      else
        match Dict.get? entries last with
        | some (.directory _) => .error .isDirectory
        | _ => .ok (disk.put (names ++ [last]) (.file (.text text)))

/-- Makes a directory below one that exists. -/
def makeDirectory (disk : Disk) (parts : List String) : Except FileFault Disk := do
  let last := parts.getLastD ""
  match ← disk.root.follow [] parts.dropLast with
  | (.file _, _) => .error .notDirectory
  | (.directory entries, names) =>
    if last = "" ∨ last = ".." then .error .alreadyExists
    else
      match Dict.get? entries last with
      | some _ => .error .alreadyExists
      | none => .ok (disk.put (names ++ [last]) .empty)

def isDirectoryAt (disk : Disk) (parts : List String) : Bool :=
  match disk.root.follow [] parts with
  | .ok (t, _) => t.isDirectory
  | .error _ => false

/-- Makes a directory, unless it is there already. -/
def ensureDirectory (disk : Disk) (parts : List String) : Except FileFault Disk :=
  match disk.makeDirectory parts with
  | .ok disk => .ok disk
  | .error fault => if disk.isDirectoryAt parts then .ok disk else .error fault

/-- Makes the directory that names lead to, from the root on, and those above it that lack; the
names stand in reverse. -/
def makeAll (disk : Disk) : List String → Except FileFault Disk
  | [] => .ok disk
  | name :: above =>
    let parts := (name :: above).reverse
    match disk.makeDirectory parts with
    | .error .notFound => do (← makeAll disk above).ensureDirectory parts
    | _ => disk.ensureDirectory parts

/-- Makes the directories above a path that lack. -/
def makeParents (disk : Disk) (path : String) : Except FileFault Disk :=
  let names := (Path.names path).dropLast
  if names = [] then .ok disk
  else
    let start := if Path.isAbsolute path then [] else disk.directory
    disk.makeAll (start ++ names).reverse

end Disk

end RpcContract
