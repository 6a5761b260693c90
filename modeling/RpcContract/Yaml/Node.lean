import RpcContract.Yaml.Token

/-!
The node of a YAML document. An alias refers to its node by number, so that it may stand inside
that node.
-/

namespace RpcContract.Yaml

inductive Node where
  | alias (target : Nat)
  | scalar (tag : Option String) (text : String) (plain : Bool)
  | sequence (tag : Option String) (items : List Node)
  | mapping (tag : Option String) (entries : List (Node × Node))
deriving Inhabited

/-- What has been read of a document. `size` counts the scalars, the aliases and both ends of each
collection. An anchor gets as its number how many names there were before; a second anchor of one
name thus takes the number of the next name. A number stands for the node that started last of
those that got it. -/
structure Reading where
  tokens : List Token
  handles : List (String × String)
  size : Nat
  names : List (String × Nat)
  starts : List (Nat × Nat)
  nodes : List (Nat × Node)

namespace Node

abbrev Reader := StateT Reading Option

def peek : Reader (Option Token) := fun r => some (r.tokens.head?, r)

def isNext (ts : List Token) : Reader Bool := fun r =>
  some (r.tokens.head?.any ts.contains, r)

def drop : Reader Unit := fun r => some ((), { r with tokens := r.tokens.tail })

/-- Passes over a token if it is next. -/
def accept (t : Token) : Reader Bool := fun r =>
  if r.tokens.head? = some t then some (true, { r with tokens := r.tokens.tail })
  else some (false, r)

def fail : Reader α := fun _ => none

/-- Counts `n` parts of the document. -/
def grow (n : Nat) : Reader Unit := fun r => some ((), { r with size := r.size + n })

/-- Numbers an anchor whose node is about to start; the start of the node. -/
def bind (name : Option String) : Reader Nat := fun r =>
  match name with
  | none => some (r.size, r)
  | some name =>
    let id := r.names.length
    some (r.size, { r with
      names := (name, id) :: r.names.filter (·.1 != name)
      starts := (id, r.size) :: r.starts })

/-- Records the node that started at `start`, if it has an anchor. -/
def record (name : Option String) (start : Nat) (n : Node) : Reader Node := fun r =>
  some (n, if name.isSome then { r with nodes := (start, n) :: r.nodes } else r)

/-- The whole tag: the suffix after what its handle stands for. -/
def resolveTag (t : Tag) : Reader String := fun r =>
  if t.handle = "" then some (t.suffix, r)
  else
    let stem := r.handles.find? fun h => h.1 = t.handle
    stem.map fun h => (h.2 ++ t.suffix, r)

def anchorNext : Reader (Option String) := fun r =>
  match r.tokens with
  | .anchor name :: rest => some (some name, { r with tokens := rest })
  | _ => some (none, r)

def tagNext : Reader (Option Tag) := fun r =>
  match r.tokens with
  | .tag t :: rest => some (some t, { r with tokens := rest })
  | _ => some (none, r)

/-- An anchor and a tag in either order. -/
def properties : Reader (Option String × Option String) := do
  let anchor ← anchorNext
  let t ← tagNext
  let anchor ← if anchor.isNone ∧ t.isSome then anchorNext else pure anchor
  match t with
  | none => pure (anchor, none)
  | some t => do pure (anchor, some (← resolveTag t))

/-- A leaf of the document. -/
def leaf (anchor : Option String) (n : Node) : Reader Node := do
  let start ← bind anchor
  grow 1
  record anchor start n

/-- The node where nothing is written. -/
def absent : Reader Node := leaf none (.scalar none "" true)

def aliasNode (name : String) : Reader Node := fun r => do
  let (_, id) ← r.names.find? fun n => n.1 = name
  some (.alias id, { r with size := r.size + 1 })

mutual

/-- A node; `block` says that it may be a block collection, `aligned` that it may be a sequence
as little indented as the mapping around it. -/
def node (block aligned : Bool) : Nat → Reader Node
  | 0 => fail
  | fuel + 1 => do
    match ← peek with
    | some (.alias name) => do drop; aliasNode name
    | _ =>
      let (anchor, tag) ← properties
      let collect (items : Reader Node) : Reader Node := do
        let start ← bind anchor
        grow 1
        let n ← items
        grow 1
        record anchor start n
      match ← peek with
      | some .blockEntry =>
        if aligned then collect (do return .sequence tag (← alignedItems fuel))
        else if anchor.isSome ∨ tag.isSome then leaf anchor (.scalar tag "" true)
        else fail
      | some (.scalar text plain) => do
        drop
        leaf anchor (.scalar (tag.filter (· != "!")) text plain)
      | some .flowSequence => do drop; collect (do return .sequence tag (← flowItems true fuel))
      | some .flowMapping => do drop; collect (do return .mapping tag (← flowEntries true fuel))
      | some t =>
        if block ∧ t = .blockSequence then do
          drop; collect (do return .sequence tag (← blockItems fuel))
        else if block ∧ t = .blockMapping then do
          drop; collect (do return .mapping tag (← blockEntries fuel))
        else if anchor.isSome ∨ tag.isSome then leaf anchor (.scalar tag "" true)
        else fail
      | none =>
        if anchor.isSome ∨ tag.isSome then leaf anchor (.scalar tag "" true)
        else fail

/-- A node unless one of the tokens that come after it is next. -/
def nodeUnless (ends : List Token) (block aligned : Bool) : Nat → Reader Node
  | 0 => fail
  | fuel + 1 => do if ← isNext ends then absent else node block aligned fuel

def blockItems : Nat → Reader (List Node)
  | 0 => fail
  | fuel + 1 => do
    if ← accept .blockEntry then
      let n ← nodeUnless [.blockEntry, .blockEnd] true false fuel
      return n :: (← blockItems fuel)
    else if ← accept .blockEnd then return []
    else fail

def alignedItems : Nat → Reader (List Node)
  | 0 => fail
  | fuel + 1 => do
    if ← accept .blockEntry then
      let n ← nodeUnless [.blockEntry, .key, .value, .blockEnd] true false fuel
      return n :: (← alignedItems fuel)
    else return []

def blockEntries : Nat → Reader (List (Node × Node))
  | 0 => fail
  | fuel + 1 => do
    if ← accept .key then
      let k ← nodeUnless [.key, .value, .blockEnd] true true fuel
      let v ← if ← accept .value then nodeUnless [.key, .value, .blockEnd] true true fuel
        else absent
      return (k, v) :: (← blockEntries fuel)
    else if ← accept .blockEnd then return []
    else fail

def flowItems (first : Bool) : Nat → Reader (List Node)
  | 0 => fail
  | fuel + 1 => do
    if ← accept .flowSequenceEnd then return []
    else
      unless first do
        unless ← accept .flowEntry do fail
      if ← accept .flowSequenceEnd then return []
      else if ← accept .key then
        let n ← pair fuel
        return n :: (← flowItems false fuel)
      else
        let n ← node false false fuel
        return n :: (← flowItems false fuel)

/-- A mapping of one entry that stands in a flow sequence without brackets. Where its key is
missing, the token in the place of the key is passed over. -/
def pair : Nat → Reader Node
  | 0 => fail
  | fuel + 1 => do
    grow 1
    let k ← if ← isNext [.value, .flowEntry, .flowSequenceEnd] then do drop; absent
      else node false false fuel
    let v ← if ← accept .value then
        nodeUnless [.flowEntry, .flowSequenceEnd] false false fuel
      else absent
    grow 1
    return .mapping none [(k, v)]

def flowEntries (first : Bool) : Nat → Reader (List (Node × Node))
  | 0 => fail
  | fuel + 1 => do
    if ← accept .flowMappingEnd then return []
    else
      unless first do
        unless ← accept .flowEntry do fail
      if ← accept .flowMappingEnd then return []
      else if ← accept .key then
        let k ← nodeUnless [.value, .flowEntry, .flowMappingEnd] false false fuel
        let v ← if ← accept .value then
            nodeUnless [.flowEntry, .flowMappingEnd] false false fuel
          else absent
        return (k, v) :: (← flowEntries false fuel)
      else
        let k ← node false false fuel
        let v ← absent
        return (k, v) :: (← flowEntries false fuel)

end

def standardHandles : List (String × String) := [("!", "!"), ("!!", "tag:yaml.org,2002:")]

/-- The tag handles of a document, from the directives before it. There is one version at most,
and none but 1.1 and 1.2; a handle is set once. -/
def handles? : List Directive → Option (List (String × String))
  | [] => some []
  | .version major minor :: ds => do
    let rest ← handles? ds
    let again := ds.any fun d => match d with
      | .version .. => true
      | .tag .. => false
    if major = 1 ∧ (minor = 1 ∨ minor = 2) ∧ !again then some rest else none
  | .tag handle stem :: ds => do
    let rest ← handles? ds
    if rest.any (·.1 = handle) then none else some ((handle, stem) :: rest)

def directives : List Token → List Directive
  | .directive d :: ts => d :: directives ts
  | _ => []

/-- The node of a document and what has been read with it; no node where the stream has no
document. A second document is refused. -/
def ofTokens? (tokens : List Token) : Option (Option Node × Reading) := do
  let ds := directives tokens
  let rest := tokens.drop ds.length
  let handles ← handles? ds
  let fuel := 3 * tokens.length + 3
  let start (rest : List Token) : Reading :=
    ⟨rest, handles ++ standardHandles, 0, [], [], []⟩
  match rest with
  | .documentStart :: rest =>
    let next := rest.head?
    let isEmpty := next.all fun t => match t with
      | .directive _ | .documentStart | .documentEnd => true
      | _ => false
    let (n, r) ← (if isEmpty then absent else node true false fuel) (start rest)
    if r.tokens.all (· = .documentEnd) then some (some n, r) else none
  | rest =>
    if ds ≠ [] then none
    else if rest = [] then some (none, start [])
    else
      let (n, r) ← node true false fuel (start rest)
      if r.tokens.all (· = .documentEnd) then some (some n, r) else none

end Node

end RpcContract.Yaml
