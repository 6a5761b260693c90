import RpcContract.Exchange.Fixture
import RpcContract.Files.Disk

/-!
Reading the fixtures below a directory, in the order of their names. A fixture is named by its path
from there, without the extension; only fixtures whose name is selected are read.
-/

namespace RpcContract.Fixture

/-- The name of a fixture, from the names that lead to its file. -/
def nameOf (names : List String) : String :=
  match names.getLast? with
  | some last => "/".intercalate (names.dropLast ++ [Path.withoutExtension last])
  | none => ""

def isFixture (path : String) : Bool := Path.extension? path = some "io"

def readFiles (root : String) (select : String → Bool) :
    List (List String × Content) → Except Error (List Exchange)
  | [] => .ok []
  | (names, content) :: files =>
    let path := names.foldl Path.join root
    if isFixture path && select (nameOf names) then
      match content.text? with
      | none => .error (.read path .notUtf8)
      | some text => do
        let exchanges ← parse (nameOf names) text
        return exchanges ++ (← readFiles root select files)
    else readFiles root select files

def readAll (disk : Disk) (root : String) (select : String → Bool) :
    Except Error (List Exchange) :=
  match disk.locate root with
  | .error fault => .error (.files (.walking root fault))
  | .ok (t, _) => readFiles root select t.files

end RpcContract.Fixture
