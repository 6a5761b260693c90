import RpcContract.Pattern.CharSet

/-!
Patterns: regular expressions with groups and, in their wider dialect, look-around, atomic groups
and references back to groups.
-/

namespace RpcContract

inductive Anchor where
  | textStart
  | textEnd
  | lineStart
  | lineEnd
  /-- Between a word character and another one. -/
  | wordEdge
  | noWordEdge
deriving DecidableEq, Repr

inductive Pattern where
  | empty
  | chars (set : CharSet) (ignoreCase : Bool)
  | anchor (kind : Anchor)
  | seq (first second : Pattern)
  | alt (first second : Pattern)
  /-- At least `least` times, at most `most` times if that is given. -/
  | repeated (body : Pattern) (least : Nat) (most : Option Nat) (greedy : Bool)
  | group (index : Nat) (body : Pattern)
  | look (ahead wanted : Bool) (body : Pattern)
  | atomic (body : Pattern)
  | back (index : Nat) (ignoreCase : Bool)
deriving Repr, Inhabited

namespace Pattern

/-- Whether the match of an earlier group matters. -/
def refersBack : Pattern → Bool
  | .back .. => true
  | .seq a b | .alt a b => a.refersBack || b.refersBack
  | .repeated a .. | .group _ a | .look _ _ a | .atomic a => a.refersBack
  | _ => false

/-- The number of characters of all matches, if it is one number. -/
def width? : Pattern → Option Nat
  | .empty | .anchor _ | .look .. => some 0
  | .chars .. => some 1
  | .seq a b => do return (← a.width?) + (← b.width?)
  | .alt a b => do
    let m ← a.width?
    let n ← b.width?
    if m = n then some m else none
  | .repeated a least most _ => do
    if most = some least then return least * (← a.width?) else none
  | .group _ a | .atomic a => a.width?
  | .back .. => none

/-- Whether every alternative has one width. -/
def fixedWidth : Pattern → Bool
  | .alt a b => a.fixedWidth && b.fixedWidth
  | .group _ a => a.fixedWidth
  | p => p.width?.isSome

end Pattern

end RpcContract
