/-!
Reading decimal text as the nearest double.
-/

namespace RpcContract.Decimal

def isDigit (c : Char) : Bool := '0' ≤ c && c ≤ '9'

def digitValue (c : Char) : Nat := c.toNat - '0'.toNat

/-- The number that decimal digits spell. -/
def natOf (digits : List Char) : Nat := digits.foldl (fun n c => 10 * n + digitValue c) 0

def infinityBits : UInt64 := 0x7FF0000000000000

def signed (negative : Bool) (bits : UInt64) : UInt64 :=
  if negative then bits ||| 0x8000000000000000 else bits

/-- The bits of the double nearest to `coefficient · 10^exponent`. -/
def nearest (coefficient : Nat) (exponent : Int) : UInt64 :=
  let size : Int := (Nat.toDigits 10 coefficient).length + exponent
  if coefficient = 0 ∨ size < -400 then 0
  else if 400 < size then infinityBits
  else (Float.ofScientific coefficient (exponent < 0) exponent.natAbs).toBits

/-- A signed run of digits, as after the mark of an exponent. -/
def exponent? : List Char → Option Int
  | '+' :: ds => if ds ≠ [] ∧ ds.all isDigit then some (natOf ds) else none
  | '-' :: ds => if ds ≠ [] ∧ ds.all isDigit then some (-(natOf ds : Int)) else none
  | ds => if ds ≠ [] ∧ ds.all isDigit then some (natOf ds) else none

/-- Unsigned digits with an optional point and exponent, at least one digit beside the point. -/
def magnitude? (cs : List Char) : Option UInt64 :=
  let whole := cs.takeWhile isDigit
  let rest := cs.dropWhile isDigit
  let (fraction, rest) := match rest with
    | '.' :: r => (r.takeWhile isDigit, r.dropWhile isDigit)
    | r => ([], r)
  if whole = [] ∧ fraction = [] then none
  else
    let coefficient := natOf (whole ++ fraction)
    let shift : Int := -(fraction.length : Int)
    match rest with
    | [] => some (nearest coefficient shift)
    | c :: r =>
      if c = 'e' ∨ c = 'E' then (exponent? r).map fun e => nearest coefficient (shift + e)
      else none

def lower (cs : List Char) : List Char := cs.map Char.toLower

/-- The bits of the double that a text denotes: an optional sign before digits with an optional
point and exponent, or before `inf`, `infinity` or `nan` in any case. -/
def bits? (text : String) : Option UInt64 :=
  let (negative, cs) := match text.toList with
    | '-' :: r => (true, r)
    | '+' :: r => (false, r)
    | r => (false, r)
  let word := lower cs
  let size :=
    if word = ['i', 'n', 'f'] ∨ word = ['i', 'n', 'f', 'i', 'n', 'i', 't', 'y'] then
      some infinityBits
    else if word = ['n', 'a', 'n'] then some 0x7FF8000000000000
    else magnitude? cs
  size.map (signed negative)

/-- An integer in decimal digits with an optional sign. -/
def int? (text : String) : Option Int :=
  match text.toList with
  | '-' :: ds => if ds ≠ [] ∧ ds.all isDigit then some (-(natOf ds : Int)) else none
  | '+' :: ds => if ds ≠ [] ∧ ds.all isDigit then some (natOf ds) else none
  | ds => if ds ≠ [] ∧ ds.all isDigit then some (natOf ds) else none

end RpcContract.Decimal
