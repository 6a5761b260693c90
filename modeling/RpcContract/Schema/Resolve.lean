import RpcContract.Schema.Dereference
import RpcContract.Schema.Merge

/-!
Resolving a schema: its references are expanded, then its compositions merged.
-/

namespace RpcContract.Schema

def resolve (schema : Json) (repository : Repository) : Except Error Json := do
  let expanded ← dereference schema repository
  merge expanded

end RpcContract.Schema
