import RpcContract.Dict
import RpcContract.Error
import RpcContract.Files.Path

/-!
A tree of files as a value: following names in it, the files below a directory in order, and
putting a file or directory in its place.
-/

namespace RpcContract

/-- The bytes of a file, or the text that they spell. -/
inductive Content where
  | text (s : String)
  | bytes (b : List UInt8)
deriving DecidableEq, Repr

def Content.ofBytes (b : ByteArray) : Content :=
  match String.fromUTF8? b with
  | some s => .text s
  | none => .bytes b.toList

def Content.text? : Content → Option String
  | .text s => some s
  | .bytes _ => none

inductive FileTree where
  | file (content : Content)
  | directory (entries : List (String × FileTree))
deriving Repr, Inhabited

namespace FileTree

def empty : FileTree := .directory []

def isDirectory : FileTree → Bool
  | .directory _ => true
  | .file _ => false

def child? (t : FileTree) (name : String) : Except FileFault FileTree :=
  match t with
  | .file _ => .error .notDirectory
  | .directory entries =>
    match Dict.get? entries name with
    | some t => .ok t
    | none => .error .notFound

/-- Follows the parts of a path; the directories passed on the way are kept for `..`. -/
def follow (t : FileTree) (passed : List (String × FileTree)) :
    List String → Except FileFault (FileTree × List String)
  | [] => .ok (t, (passed.map (·.1)).reverse)
  | part :: rest =>
    if !t.isDirectory then .error .notDirectory
    else if part = "" ∨ part = "." then follow t passed rest
    else if part = ".." then
      match passed with
      | [] => follow t [] rest
      | (_, above) :: passed => follow above passed rest
    else
      match t.child? part with
      | .ok u => follow u ((part, t) :: passed) rest
      | .error fault => .error fault

mutual

/-- The files of a tree with the names that lead to them, the entries of each directory in the
order of their names. -/
def files : FileTree → List (List String × Content)
  | .file content => [([], content)]
  | .directory entries => entryFiles entries

def entryFiles : List (String × FileTree) → List (List String × Content)
  | [] => []
  | (name, t) :: entries =>
    (files t).map (fun f => (name :: f.1, f.2)) ++ entryFiles entries

end

/-- The tree with `u` where the names lead; directories that lack are made. -/
def put (u : FileTree) : List String → FileTree → FileTree
  | [], _ => u
  | name :: names, .directory entries =>
    .directory (Dict.insert entries name (put u names ((Dict.get? entries name).getD empty)))
  | name :: names, .file _ => .directory [(name, put u names empty)]

end FileTree

end RpcContract
