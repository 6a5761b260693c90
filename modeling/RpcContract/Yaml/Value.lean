import RpcContract.Yaml.Node
import RpcContract.Yaml.Plain

/-!
Constructing values from the nodes of a document, in particular JSON values.
-/

namespace RpcContract.Yaml

/-- What scalars, sequences and mappings with their tags become; none where that is refused. -/
structure Construct (α : Type) where
  scalar : Option String → String → Bool → Option α
  sequence : Option String → List α → Option α
  mapping : Option String → List (String × α) → Option α

/-- The state counts the aliases that have been followed. -/
abbrev Follow := StateT Nat Option

/-- The node that a number stands for. At most 100 aliases are followed for each part of the
document. -/
def Reading.target (r : Reading) (n : Node) : Follow Node :=
  match n with
  | .alias id => do
    let jumps ← get
    if 100 * r.size ≤ jumps then failure
    else
      set (jumps + 1)
      match (r.starts.lookup id).bind fun start => r.nodes.lookup start with
      | some n => return n
      | none => failure
  | n => return n

def keyText (r : Reading) (n : Node) : Follow String := do
  match ← r.target n with
  | .scalar _ text _ => return text
  | _ => failure

namespace Construct

variable {α : Type}

def given (a : Option α) : Follow α := fun jumps => a.map (·, jumps)

def leaf (c : Construct α) : Node → Follow α
  | .scalar tag text plain => given (c.scalar tag text plain)
  | _ => failure

/-- The value of a node in which at most `depth` collections contain one another. -/
def value (c : Construct α) (r : Reading) : Nat → Node → Follow α
  | 0, n => do c.leaf (← r.target n)
  | depth + 1, n => do
    match ← r.target n with
    | .sequence tag items => given (c.sequence tag (← items.mapM (value c r depth)))
    | .mapping tag entries =>
      let members ← entries.mapM fun (k, v) => do
        let key ← keyText r k
        return (key, ← value c r depth v)
      given (c.mapping tag members)
    | n => c.leaf n

def deepest : Nat := 128

/-- The value of a stream; none within if it is empty. -/
def ofText? (c : Construct α) (text : String) : Option (Option α) := do
  let (n, r) ← Node.ofTokens? (← Token.ofText? text)
  match n with
  | none => some none
  | some n => (fun p => some p.1) <$> c.value r deepest n 0

end Construct

/-- Collections with a local tag are refused like scalars. -/
def jsonConstruct : Construct Json where
  scalar := scalarValue?
  sequence tag items := if tag.any isLocal then none else some (.arr items)
  mapping tag entries := if tag.any isLocal then none else some (.obj (Dict.ofList entries))

end RpcContract.Yaml

namespace RpcContract

/-- The value of YAML text; none if it is malformed or stands for no JSON value. -/
def Json.ofYaml? (text : String) : Option Json :=
  (Yaml.jsonConstruct.ofText? text).map (·.getD .null)

end RpcContract
