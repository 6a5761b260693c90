import RpcContract.Files.Disk

/-!
Keeping a document that fails validation for inspection.
-/

namespace RpcContract.OpenRpc

/-- The file of a failing document in a directory; `stamp` tells it from others there. -/
def dumpPath (dir stamp : String) : String :=
  Path.join dir ("openrpc-invalid-" ++ stamp ++ ".json")

/-- Writes the document that an error is about, where it is about one and the directory takes a
file. -/
def dump (disk : Disk) (dir stamp : String) : Error → Disk
  | .invalidSpec _ document =>
    match disk.write (dumpPath dir stamp) document.pretty with
    | .ok disk => disk
    | .error _ => disk
  | _ => disk

end RpcContract.OpenRpc
