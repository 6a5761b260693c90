import RpcContract.Files.Disk

/-!
What one tree of files holds and another does not, and the place that a path leads to by its names
alone.
-/

namespace RpcContract

def FileTree.contentAt? (t : FileTree) (names : List String) : Option Content :=
  match t.follow [] names with
  | .ok (.file content, _) => some content
  | _ => none

/-- The files of a later tree that an earlier one lacks or holds with another content. -/
def FileTree.changes (before after : FileTree) : List (List String × Content) :=
  after.files.filter fun f => before.contentAt? f.1 ≠ some f.2

def Disk.placeStep (place : List String) (part : String) : List String :=
  if part = "" ∨ part = "." then place
  else if part = ".." then place.dropLast
  else place ++ [part]

/-- The names from the root to the place that a path leads to. -/
def Disk.placeOf (disk : Disk) (path : String) : List String :=
  (disk.partsOf path).foldl placeStep []

end RpcContract
