import RpcContract.Pattern.Basic

/-!
Searching a text for a pattern. From a given place a pattern reaches a list of places, those
first that it prefers, without repetitions; a pattern occurs in a text if from some place it
reaches any.
-/

namespace RpcContract.Pattern

/-- A place in the text with the parts of it that groups have matched. -/
structure Reached where
  position : Nat
  groups : List (Nat × Nat × Nat)
deriving DecidableEq, Repr

def isWordAt (text : Array Char) (i : Nat) : Bool := (text[i]?).any CharSet.isWord

def wordBefore (text : Array Char) (i : Nat) : Bool := i ≠ 0 && isWordAt text (i - 1)

def anchored (a : Anchor) (text : Array Char) (i : Nat) : Bool :=
  match a with
  | .textStart => i = 0
  | .textEnd => i = text.size
  | .lineStart => i = 0 || text[i - 1]? = some '\n'
  | .lineEnd => i = text.size || text[i]? = some '\n'
  | .wordEdge => wordBefore text i != isWordAt text i
  | .noWordEdge => wordBefore text i == isWordAt text i

/-- Everything that repeated steps lead to, the farthest first if `greedy`. The steps already
taken are in `done`, the latest first. -/
def closure (step : Reached → List Reached) (greedy : Bool) :
    Nat → List Reached → Reached → List Reached
  | 0, done, _ => done
  | fuel + 1, done, s =>
    if s ∈ done then done
    else
      let next := (step s).filter (·.position ≠ s.position)
      if greedy then s :: next.foldl (closure step greedy fuel) done
      else next.foldl (closure step greedy fuel) (s :: done)

/-- The places after exactly `n` steps. -/
def exactly (step : Reached → List Reached) : Nat → List Reached → List Reached
  | 0, states => states
  | n + 1, states => exactly step n (states.flatMap step).eraseDups

/-- The places after each number of steps up to `n`, more steps first if `greedy`. -/
def upTo (step : Reached → List Reached) (greedy : Bool) : Nat → List Reached → List Reached
  | 0, states => states
  | n + 1, states =>
    if states = [] then []
    else
      let more := upTo step greedy n (states.flatMap step).eraseDups
      if greedy then more ++ states else states ++ more

def sameText (text : Array Char) (ignoreCase : Bool) (a b length : Nat) : Bool :=
  (List.range length).all fun i =>
    match text[a + i]?, text[b + i]? with
    | some x, some y => x = y || (ignoreCase && Text.foldCase x = Text.foldCase y)
    | _, _ => false

def reach (text : Array Char) (keepGroups : Bool) : Pattern → Reached → List Reached
  | .empty, s => [s]
  | .chars set ignoreCase, s =>
    match text[s.position]? with
    | some c => if set.holds ignoreCase c then [{ s with position := s.position + 1 }] else []
    | none => []
  | .anchor a, s => if anchored a text s.position then [s] else []
  | .seq a b, s => ((reach text keepGroups a s).flatMap (reach text keepGroups b)).eraseDups
  | .alt a b, s => (reach text keepGroups a s ++ reach text keepGroups b s).eraseDups
  | .repeated body least most greedy, s =>
    let step := reach text keepGroups body
    let states := exactly step least [s]
    match most with
    | some most => (upTo step greedy (most - least) states).eraseDups
    | none =>
      let done := fun s => (closure step greedy (text.size + 1) [] s).reverse
      (states.flatMap done).eraseDups
  | .group index body, s =>
    (reach text keepGroups body s).map fun t =>
      if keepGroups then
        { t with groups := (index, s.position, t.position) :: t.groups.filter (·.1 ≠ index) }
      else t
  | .look ahead wanted body, s =>
    let found :=
      if ahead then (reach text keepGroups body s).head?
      else
        (List.range (s.position + 1)).findSome? fun i =>
          (reach text keepGroups body { s with position := i }).find? (·.position = s.position)
    match found with
    | some t => if wanted then [{ t with position := s.position }] else []
    | none => if wanted then [] else [s]
  | .atomic body, s => (reach text keepGroups body s).take 1
  | .back index ignoreCase, s =>
    match s.groups.lookup index with
    | some (first, last) =>
      if sameText text ignoreCase first s.position (last - first) then
        [{ s with position := s.position + (last - first) }]
      else []
    | none => []

/-- Whether the pattern occurs in a text. -/
def occursIn (p : Pattern) (text : String) : Bool :=
  let chars := text.toList.toArray
  (List.range (chars.size + 1)).any fun i => !(reach chars p.refersBack p ⟨i, []⟩).isEmpty

end RpcContract.Pattern
