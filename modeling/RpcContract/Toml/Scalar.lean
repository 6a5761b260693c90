import RpcContract.Json.Cursor
import RpcContract.Text.Moment
import RpcContract.Toml.Value

/-!
Numbers, truth values, dates and times. Underscores may part the digits of a number.
-/

namespace RpcContract.Toml

/-- Digits without the underscores between them. -/
def digits? (isDigit : Char → Bool) (cs : List Char) : Option (List Char) :=
  let groups := cs.splitOn '_'
  if groups.all fun g => !g.isEmpty && g.all isDigit then some groups.flatten else none

def radixInt? (radix : Nat) (cs : List Char) : Option Int :=
  let isDigit (c : Char) : Bool := (Json.Cursor.hexDigit? c).any (· < radix)
  (digits? isDigit cs).bind fun ds =>
    let n := ds.foldl (fun n c => radix * n + (Json.Cursor.hexDigit? c).getD 0) 0
    if n < Nat.pow 2 63 then some (n : Int) else none

/-- Decimal digits that do not start with a zero, but for zero itself. -/
def wholeDigits? (cs : List Char) : Option (List Char) :=
  if cs.head? = some '0' ∧ cs ≠ ['0'] then none else digits? Decimal.isDigit cs

def splitSign : List Char → Bool × List Char
  | '-' :: cs => (true, cs)
  | '+' :: cs => (false, cs)
  | cs => (false, cs)

def int? : List Char → Option Int
  | '0' :: 'x' :: cs => radixInt? 16 cs
  | '0' :: 'o' :: cs => radixInt? 8 cs
  | '0' :: 'b' :: cs => radixInt? 2 cs
  | cs =>
    let (negative, cs) := splitSign cs
    (wholeDigits? cs).bind fun ds =>
      let n := Decimal.natOf ds
      if negative then if n ≤ Nat.pow 2 63 then some (-(n : Int)) else none
      else if n < Nat.pow 2 63 then some (n : Int) else none

def isExponentMark (c : Char) : Bool := c = 'e' || c = 'E'

/-- The digits of a fraction with its point; nothing where there is none. -/
def fraction? : List Char → Option (List Char)
  | [] => some []
  | '.' :: cs => (digits? Decimal.isDigit cs).map ('.' :: ·)
  | _ => none

def exponent? : List Char → Option (List Char)
  | [] => some []
  | _ :: cs =>
    let (negative, ds) := splitSign cs
    (digits? Decimal.isDigit ds).map fun ds => 'e' :: (if negative then '-' :: ds else ds)

/-- A number with a fraction or an exponent. It may be too small to be told from minus infinity,
but not too large. -/
def float? (cs : List Char) : Option UInt64 :=
  let (negative, cs) := splitSign cs
  let sign := Decimal.signed negative
  if cs = ['i', 'n', 'f'] then some (sign Decimal.infinityBits)
  else if cs = ['n', 'a', 'n'] then some (sign 0x7FF8000000000000)
  else do
    let mantissa := cs.takeWhile (!isExponentMark ·)
    let whole ← wholeDigits? (mantissa.takeWhile (· != '.'))
    let fraction ← fraction? (mantissa.dropWhile (· != '.'))
    let exponent ← exponent? (cs.dropWhile (!isExponentMark ·))
    if fraction = [] ∧ exponent = [] then none
    else
      let bits ← Decimal.bits? (String.ofList (whole ++ fraction ++ exponent))
      if !negative ∧ bits = Decimal.infinityBits then none else some (sign bits)

/-! Dates and times -/

def twoDigits (n : Nat) : String := (if n < 10 then "0" else "") ++ toString n

def fourDigits (n : Nat) : String :=
  (if n < 10 then "000" else if n < 100 then "00" else if n < 1000 then "0" else "") ++ toString n

def dateText (d : Text.Moment.Date) : String :=
  fourDigits d.year ++ "-" ++ twoDigits d.month ++ "-" ++ twoDigits d.day

/-- A time with its text, in which a fraction has nine digits at most and no zeros at its end. -/
def time? (cs : List Char) : Option (String × List Char) := do
  let (hour, cs) ← Text.Moment.number 2 cs
  let cs ← Text.Moment.mark ':' cs
  let (minute, cs) ← Text.Moment.number 2 cs
  let cs ← Text.Moment.mark ':' cs
  let (second, cs) ← Text.Moment.number 2 cs
  if 23 < hour ∨ 59 < minute ∨ 60 < second then none
  else
    let text := twoDigits hour ++ ":" ++ twoDigits minute ++ ":" ++ twoDigits second
    match cs with
    | '.' :: cs =>
      let ds := cs.takeWhile Decimal.isDigit
      let kept := ((ds.take 9).reverse.dropWhile (· = '0')).reverse
      if ds = [] then none
      else some (if kept = [] then text else text ++ "." ++ String.ofList kept,
        cs.dropWhile Decimal.isDigit)
    | cs => some (text, cs)

def offset? : List Char → Option String
  | [] => some ""
  | [c] => if c = 'Z' ∨ c = 'z' then some "Z" else none
  | cs =>
    match Text.Moment.offset cs with
    | some (minutes, []) =>
      let n := minutes.natAbs
      some ((if minutes < 0 then "-" else "+") ++ twoDigits (n / 60) ++ ":" ++ twoDigits (n % 60))
    | _ => none

def isDateMark (c : Char) : Bool := c = 'T' || c = 't' || c = ' '

/-- A date, a time, or a date and a time with or without its distance from universal time. -/
def moment? (cs : List Char) : Option String :=
  match Text.Moment.date cs with
  | some (d, []) => some (dateText d)
  | some (d, mark :: rest) =>
    if isDateMark mark then do
      let (time, rest) ← time? rest
      some (dateText d ++ "T" ++ time ++ (← offset? rest))
    else none
  | none =>
    match time? cs with
    | some (time, []) => some time
    | _ => none

/-! Scalars -/

def isWordChar (c : Char) : Bool := c.isAlphanum || "+-._:".toList.contains c

def scalarOf? (cs : List Char) : Option Value :=
  if cs = ['t', 'r', 'u', 'e'] then some (.bool true)
  else if cs = ['f', 'a', 'l', 's', 'e'] then some (.bool false)
  else
    match moment? cs with
    | some s => some (.moment s)
    | none =>
      match int? cs with
      | some n => some (.int n)
      | none => (float? cs).map .float

/-- A value that is a word; a space may part a date from its time. -/
def scalar? (cs : List Char) : Option (Value × List Char) :=
  let word := cs.takeWhile isWordChar
  let rest := cs.dropWhile isWordChar
  match rest with
  | ' ' :: more =>
    match moment? (word ++ ' ' :: more.takeWhile isWordChar) with
    | some s => some (.moment s, more.dropWhile isWordChar)
    | none => (scalarOf? word).map (·, rest)
  | _ => (scalarOf? word).map (·, rest)

end RpcContract.Toml
