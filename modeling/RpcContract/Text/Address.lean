import RpcContract.Decimal.Reading
import RpcContract.Json.Cursor

/-!
Network addresses as text: dotted numbers of version 4, groups of hexadecimal digits of version 6.
-/

namespace RpcContract.Text

def splitOn (mark : Char) : List Char → List (List Char)
  | [] => [[]]
  | c :: cs =>
    if c = mark then [] :: splitOn mark cs
    else
      match splitOn mark cs with
      | [] => [[c]]
      | part :: parts => (c :: part) :: parts

/-- A number below 256 without leading zeros. -/
def isOctet (cs : List Char) : Bool :=
  cs ≠ [] && cs.length ≤ 3 && cs.all Decimal.isDigit && (cs.length = 1 || cs.head? ≠ some '0') &&
    Decimal.natOf cs < 256

def isAddress4 (cs : List Char) : Bool :=
  let parts := splitOn '.' cs
  parts.length = 4 && parts.all isOctet

def isHexGroup (cs : List Char) : Bool :=
  cs ≠ [] && cs.length ≤ 4 && cs.all fun c => (Json.Cursor.hexDigit? c).isSome

/-- How many groups the parts between colons stand for; the last may be an address of version 4,
which counts for two. -/
def groupCount (allow4 : Bool) : List (List Char) → Option Nat
  | [] => some 0
  | [part] =>
    if isHexGroup part then some 1 else if allow4 && isAddress4 part then some 2 else none
  | part :: parts => if isHexGroup part then (groupCount allow4 parts).map (· + 1) else none

/-- The texts around the first `::`. -/
def aroundGap : List Char → Option (List Char × List Char)
  | ':' :: ':' :: rest => some ([], rest)
  | c :: rest => (aroundGap rest).map fun (a, b) => (c :: a, b)
  | [] => none

def isAddress6 (cs : List Char) : Bool :=
  let count (allow4 : Bool) (part : List Char) :=
    if part = [] then some 0 else groupCount allow4 (splitOn ':' part)
  match aroundGap cs with
  | none => count true cs = some 8
  | some (head, tail) =>
    match count false head, count true tail with
    | some m, some n => m + n ≤ 7
    | _, _ => false

end RpcContract.Text
