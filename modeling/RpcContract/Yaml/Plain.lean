import RpcContract.Decimal.Reading
import RpcContract.Json.Basic
import RpcContract.Json.Cursor

/-!
The values that scalars stand for. Text in quotes stands for itself; plain text may be null, a
boolean or a number.
-/

namespace RpcContract.Yaml

def isNull (text : String) : Bool := ["null", "Null", "NULL", "~"].contains text

def bool? (text : String) : Option Bool :=
  if ["true", "True", "TRUE"].contains text then some true
  else if ["false", "False", "FALSE"].contains text then some false
  else none

def natOf? (radix : Nat) (digits : List Char) : Option Nat :=
  if digits = [] then none
  else digits.foldl (fun n d => do
    let n ← n
    let d ← Json.Cursor.hexDigit? d
    if d < radix then some (radix * n + d) else none) (some 0)

/-- Digits after a leading zero make no number. -/
def isPadded (cs : List Char) : Bool :=
  match (match cs with | '-' :: r | '+' :: r => r | r => r) with
  | '0' :: d :: r => (d :: r).all Decimal.isDigit
  | _ => false

def unsigned? (cs : List Char) : Option Nat :=
  match (match cs with | '+' :: r => r | r => r) with
  | '0' :: 'x' :: ds => natOf? 16 ds
  | '0' :: 'o' :: ds => natOf? 8 ds
  | '0' :: 'b' :: ds => natOf? 2 ds
  | ds => if isPadded cs || !ds.all Decimal.isDigit then none else natOf? 10 ds

def negative? (cs : List Char) : Option Nat :=
  match cs with
  | '-' :: '0' :: 'x' :: ds => natOf? 16 ds
  | '-' :: '0' :: 'o' :: ds => natOf? 8 ds
  | '-' :: '0' :: 'b' :: ds => natOf? 2 ds
  | '-' :: ds => if isPadded cs || !ds.all Decimal.isDigit then none else natOf? 10 ds
  | _ => none

/-- What an integer literal is: an integer of 64 bits; too large for that, though not for 128 bits;
or no integer. -/
inductive Literal where
  | fits (n : Int)
  | large
  | other

def integer (text : String) : Literal :=
  match unsigned? text.toList, negative? text.toList with
  | some n, _ => if n < Nat.pow 2 64 then .fits n else if n < Nat.pow 2 128 then .large else .other
  | none, some n =>
    if n ≤ Nat.pow 2 63 then .fits (-(n : Int)) else if n ≤ Nat.pow 2 127 then .large else .other
  | none, none => .other

def isFinite (bits : UInt64) : Bool := bits &&& Decimal.infinityBits != Decimal.infinityBits

/-- A floating-point number; infinities and what is no number have no value in JSON. -/
def float? (text : String) : Option Json :=
  let body := match text.toList with
    | '+' :: '+' :: _ | '+' :: '-' :: _ => []
    | '+' :: r => r
    | r => r
  if [".inf", ".Inf", ".INF"].contains (String.ofList body) ||
      ["-.inf", "-.Inf", "-.INF", ".nan", ".NaN", ".NAN"].contains text then some .null
  else ((Decimal.bits? (String.ofList body)).filter isFinite).map fun bits => .num (.float bits)

/-- The value of plain text; none for an integer that is too large. -/
def plainValue? (text : String) : Option Json :=
  if text = "" ∨ isNull text then some .null
  else
    match bool? text with
    | some b => some (.bool b)
    | none =>
      match integer text with
      | .fits n => some (.num (.int n))
      | .large => none
      | .other =>
        if isPadded text.toList then some (.str text) else some ((float? text).getD (.str text))

def isLocal (tag : String) : Bool := tag.toList.head? = some '!'

/-- The value of a scalar. The tags of the core schema ask for their kind of value, other global
tags for text; local tags are refused. -/
def scalarValue? (tag : Option String) (text : String) (plain : Bool) : Option Json :=
  match tag with
  | none => if plain then plainValue? text else some (.str text)
  | some tag =>
    if isLocal tag then none
    else if tag = "tag:yaml.org,2002:bool" then (bool? text).map .bool
    else if tag = "tag:yaml.org,2002:int" then
      match integer text with
      | .fits n => some (.num (.int n))
      | _ => none
    else if tag = "tag:yaml.org,2002:float" then float? text
    else if tag = "tag:yaml.org,2002:null" then if isNull text then some .null else none
    else some (.str text)

end RpcContract.Yaml
