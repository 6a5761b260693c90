/-!
Paths are texts whose names are parted by slashes. A name may be `.` or `..`; where it may be
left out without a change of meaning the functions here leave it out.
-/

namespace RpcContract.Path

/-- The parts between the slashes, empty ones included. -/
def parts (path : String) : List String :=
  (path.toList.splitOn '/').map String.ofList

/-- The parts without the empty ones and the dots, which stay where they are. -/
def names (path : String) : List String :=
  (parts path).filter fun part => part != "" && part != "."

def isAbsolute (path : String) : Bool := path.toList.head? = some '/'

/-- A path from a directory on; an absolute path is the same from everywhere. -/
def join (path name : String) : String :=
  if isAbsolute name then name
  else if path = "" ∨ path.toList.getLast? = some '/' then path ++ name
  else path ++ "/" ++ name

/-- The last name of a path, unless it is `..`. -/
def fileName? (path : String) : Option String :=
  (names path).getLast?.filter (· != "..")

/-- A file name before and after its last point; a point at the start is part of the name. -/
def splitExtension (name : String) : String × Option String :=
  let cs := name.toList
  let extension := (cs.reverse.takeWhile (· != '.')).reverse
  let stem := cs.take (cs.length - extension.length - 1)
  if stem = [] ∨ extension.length = cs.length then (name, none)
  else (String.ofList stem, some (String.ofList extension))

/-- A file name without its extension. The last point of the name goes with the extension, except
where only `.` would stay: of `..io` both points stay. -/
def withoutExtension (name : String) : String :=
  match splitExtension name with
  | (stem, some _) => if stem = "." then ".." else stem
  | (_, none) => name

/-- The way from a directory to a place, both given by their names from the root. -/
def between : List String → List String → List String
  | dir :: dirs, name :: names =>
    if dir = name then between dirs names else (dir :: dirs).map (fun _ => "..") ++ name :: names
  | dirs, names => dirs.map (fun _ => "..") ++ names

def extension? (path : String) : Option String :=
  (fileName? path).bind fun name => (splitExtension name).2

end RpcContract.Path
