import RpcContract.Files.Disk

/-!
What a run of a program leaves behind.
-/

namespace RpcContract.CommandLine

inductive Status where
  | success
  | failure
  | misuse
deriving DecidableEq, Repr

def Status.code : Status → Nat
  | .success => 0
  | .failure => 1
  | .misuse => 2

structure Outcome where
  status : Status
  output : String
  errors : String
  disk : Disk
deriving Repr

namespace Outcome

def success (disk : Disk) (line : String) : Outcome := ⟨.success, line ++ "\n", "", disk⟩

def failure (disk : Disk) (message : String) : Outcome :=
  ⟨.failure, "", "Error: " ++ message ++ "\n", disk⟩

end Outcome

end RpcContract.CommandLine
