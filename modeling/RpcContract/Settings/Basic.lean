import RpcContract.Dict
import RpcContract.Text.Lower

/-!
Settings as they stand in their sources, before it is known what each is for: trees of tables and
lists. A setting remembers the source it comes from; a table that was put together from several
sources has none.

Laying one source over another replaces single values and lists and merges tables. Names of
settings are kept in lower case.
-/

namespace RpcContract

inductive Scalar where
  | nil
  | bool (b : Bool)
  | int (n : Int)
  | float (bits : UInt64)
  | text (s : String)
deriving DecidableEq, Repr, Inhabited

inductive Setting where
  | scalar (origin : Option String) (value : Scalar)
  | list (origin : Option String) (items : List Setting)
  | table (origin : Option String) (entries : List (String × Setting))
deriving Repr, Inhabited

abbrev Settings := Dict Setting

namespace Settings

/-- The entries of a table; of anything else none. -/
def entriesOf : Setting → Settings
  | .table _ entries => entries
  | _ => []

mutual

/-- Lays a setting over what a table has under a name. An empty table changes nothing. -/
def lay (under : Settings) (name : String) : Setting → Settings
  | .table _ entries =>
    let key := Text.lowercase name
    match Dict.get? under key with
    | some old =>
      if entries.isEmpty then under
      else Dict.insert under key (.table none (layAll (entriesOf old) entries))
    | none => Dict.insert under key (.table none (layAll [] entries))
  | value => Dict.insert under (Text.lowercase name) value

def layAll (under : Settings) : List (String × Setting) → Settings
  | [] => under
  | (name, value) :: entries => layAll (lay under name value) entries

end

end Settings

end RpcContract
