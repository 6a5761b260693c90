/-!
Where a value stands inside a tree: the keys and indices on the way to it, outermost first.
-/

namespace RpcContract.Json

inductive Step where
  | key (name : String)
  | index (position : Nat)
deriving DecidableEq, Repr

abbrev Path := List Step

def Step.text : Step → String
  | .key name => "." ++ name
  | .index position => "[" ++ toString position ++ "]"

def Path.text : Path → String
  | [] => "(root)"
  | steps => String.join (steps.map Step.text)

end RpcContract.Json
