import RpcContract.Checksum.Sha256
import RpcContract.Files.Disk

/-!
Checksums of texts, and the file that stands beside a file and tells its checksum.
-/

namespace RpcContract.Checksum

def ofBytes (bytes : List UInt8) : String := Sha256.hex (Sha256.digest bytes)

def ofText (text : String) : String := ofBytes text.toUTF8.toList

def verify (checksum text : String) : Bool := ofText text == checksum

/-- The line of a checksum file: the file is named without its directories. -/
def sumLine (checksum path : String) : String :=
  checksum ++ "  " ++ (Path.fileName? path).getD path ++ "\n"

def sidecar (path : String) : String := path ++ ".sha256"

def writeFor (checksum path : String) (disk : Disk) : Except FileFault Disk :=
  disk.write (sidecar path) (sumLine checksum path)

end RpcContract.Checksum
