import RpcContract.Schema.Error

/-!
Merging compositions. Every `allOf` of a schema without references is folded into the object that
holds it, entry by entry: properties are united, lists of required names are united without
repetitions, and of all other members the first one counts, those of the object itself before
those of its entries.
-/

namespace RpcContract.Schema

def allOfKey : String := "allOf"

def propertiesKey : String := "properties"

def requiredKey : String := "required"

/-- A list without the texts that occurred before, in it or in `seen`. -/
def withoutRepeats (seen : List String) : List Json → List Json
  | [] => []
  | .str s :: items =>
    if s ∈ seen then withoutRepeats seen items
    else .str s :: withoutRepeats (s :: seen) items
  | item :: items => item :: withoutRepeats seen items

def absorbProperties (acc : Json.Members) (value : Json) : Json.Members :=
  match value with
  | .obj incoming =>
    match Dict.get? acc propertiesKey with
    | none => Dict.insert acc propertiesKey value
    | some (.obj existing) => Dict.insert acc propertiesKey (.obj (Dict.fill existing incoming))
    | some _ => acc
  | _ => Dict.insertNew acc propertiesKey value

def setRequired (acc : Json.Members) (names : List Json) : Json.Members :=
  if names = [] then acc else Dict.insert acc requiredKey (.arr names)

def absorbRequired (acc : Json.Members) (value : Json) : Json.Members :=
  match value with
  | .arr incoming =>
    match Dict.get? acc requiredKey with
    | none => setRequired acc (withoutRepeats [] incoming)
    | some (.arr current) => setRequired acc (withoutRepeats [] (current ++ incoming))
    | some _ => acc
  | _ => Dict.insertNew acc requiredKey value

def absorbMember (acc : Json.Members) (member : String × Json) : Json.Members :=
  if member.1 = propertiesKey then absorbProperties acc member.2
  else if member.1 = requiredKey then absorbRequired acc member.2
  else Dict.insertNew acc member.1 member.2

/-- Folds one merged entry into the object. -/
def absorb (acc entry : Json.Members) : Json.Members := entry.foldl absorbMember acc

/-- Refuses an object that still has a reference. -/
def checkResolved (path : Json.Path) (members : Json.Members) : Except Error Unit :=
  match Dict.get? members Reference.key with
  | none => .ok ()
  | some (.str text) => .error ⟨path, .unresolvedReference text⟩
  | some value => .error ⟨path, .unresolvedReference value.compact⟩

mutual

def mergeValue (path : Json.Path) : Json → Except Error Json
  | .arr items => (mergeItems path 0 items).map .arr
  | .obj members => do
    checkResolved path members
    let own ← mergeMembers path members
    let entries ← mergeCompositions path members
    return .obj (entries.foldl absorb own)
  | value => .ok value

def mergeItems (path : Json.Path) : Nat → List Json → Except Error (List Json)
  | _, [] => .ok []
  | i, item :: items => do
    let item ← mergeValue (path ++ [.index i]) item
    let items ← mergeItems path (i + 1) items
    return item :: items

/-- The merged members of an object, its composition apart. -/
def mergeMembers (path : Json.Path) : List (String × Json) → Except Error Json.Members
  | [] => .ok []
  | (key, value) :: members =>
    if key = allOfKey then mergeMembers path members
    else do
      let value ← mergeValue (path ++ [.key key]) value
      let members ← mergeMembers path members
      return (key, value) :: members

/-- The merged entries of the composition of an object, none if it has no composition. -/
def mergeCompositions (path : Json.Path) :
    List (String × Json) → Except Error (List Json.Members)
  | [] => .ok []
  | (key, value) :: members =>
    if key = allOfKey then
      match value with
      | .arr entries => mergeEntries (path ++ [.key allOfKey]) 0 entries
      | _ => .error ⟨path ++ [.key allOfKey], .invalidComposition "expected an array of schemas"⟩
    else mergeCompositions path members

def mergeEntries (path : Json.Path) : Nat → List Json → Except Error (List Json.Members)
  | _, [] => .ok []
  | i, .obj members :: entries => do
    checkResolved (path ++ [.index i]) members
    let own ← mergeMembers (path ++ [.index i]) members
    let inner ← mergeCompositions (path ++ [.index i]) members
    let entries ← mergeEntries path (i + 1) entries
    return inner.foldl absorb own :: entries
  | i, entry :: _ =>
    .error ⟨path ++ [.index i],
      .invalidComposition ("entry is not an object: " ++ entry.compact)⟩

end

def mergeObject (path : Json.Path) (members : Json.Members) : Except Error Json.Members := do
  checkResolved path members
  let own ← mergeMembers path members
  let entries ← mergeCompositions path members
  return entries.foldl absorb own

/-- A schema with all its compositions merged. -/
def merge (schema : Json) : Except Error Json := mergeValue [] schema

end RpcContract.Schema
