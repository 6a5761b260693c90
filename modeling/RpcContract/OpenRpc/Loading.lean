import RpcContract.Files.Disk
import RpcContract.OpenRpc.Assembly

/-!
Loading fragments from files. All inputs are looked up before the first file is read; then the
files are added one by one, and the first that fails ends the loading.
-/

namespace RpcContract.OpenRpc

def isFragment (path : String) : Bool :=
  (Path.extension? path).any ["yaml", "yml", "json"].contains

/-- The files of an input: itself, or the fragments below a directory in the order of their names.
Of what is no directory only a file counts. -/
def fragmentsOf (disk : Disk) (input : String) : Except Error (List String) :=
  match disk.at? input with
  | some (.file _) => .ok [input]
  | some (.directory entries) =>
    .ok <| ((FileTree.entryFiles entries).map fun f => f.1.foldl Path.join input).filter isFragment
  | none => .error (.read input .noInput)

def collectFragments (disk : Disk) : List String → Except Error (List String)
  | [] => .ok []
  | input :: inputs => do
    let files ← fragmentsOf disk input
    return files ++ (← collectFragments disk inputs)

/-- Adds files in order; what was added before a failure stays. -/
def addFiles (disk : Disk) (add : Assembly → String → Except Error (Assembly × Nat))
    (a : Assembly) (total : Nat) : List String → Assembly × Except Error Nat
  | [] => (a, .ok total)
  | path :: paths =>
    match (disk.read path).mapError (Error.read path) with
    | .error e => (a, .error e)
    | .ok text =>
      match (add a text).mapError (Error.inFile path) with
      | .error e => (a, .error e)
      | .ok (a, n) => addFiles disk add a (total + n) paths

def load (disk : Disk) (add : Assembly → String → Except Error (Assembly × Nat))
    (a : Assembly) (inputs : List String) : Assembly × Except Error Nat :=
  match collectFragments disk inputs with
  | .error e => (a, .error e)
  | .ok paths => addFiles disk add a 0 paths

def loadMethods (disk : Disk) (a : Assembly) (inputs : List String) :
    Assembly × Except Error Nat :=
  load disk Assembly.addMethodsText a inputs

def loadSchemas (disk : Disk) (a : Assembly) (inputs : List String) :
    Assembly × Except Error Nat :=
  load disk Assembly.addSchemasText a inputs

end RpcContract.OpenRpc
