import RpcContract.Files.Disk
import RpcContract.Json.Reader
import RpcContract.Method

/-!
Reading the methods of a document from its file.
-/

namespace RpcContract.Methods

def read (disk : Disk) (path : String) : Except Error Methods := do
  let text ← (disk.read path).mapError (.read path)
  let document ← (Json.read text).mapError .json
  ofDocument document

end RpcContract.Methods
