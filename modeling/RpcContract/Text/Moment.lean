import RpcContract.Decimal.Reading

/-!
Calendar dates and moments as text: a four-digit year, two digits for every other part.
-/

namespace RpcContract.Text.Moment

structure Date where
  year : Nat
  month : Nat
  day : Nat
deriving DecidableEq, Repr

def isLeap (year : Nat) : Bool := year % 4 = 0 && (year % 100 ≠ 0 || year % 400 = 0)

def monthLength (year month : Nat) : Nat :=
  if month = 2 then (if isLeap year then 29 else 28)
  else if month = 4 ∨ month = 6 ∨ month = 9 ∨ month = 11 then 30
  else 31

def Date.isReal (d : Date) : Bool :=
  1 ≤ d.month && d.month ≤ 12 && 1 ≤ d.day && d.day ≤ monthLength d.year d.month

/-- A number of exactly `n` digits. -/
def number (n : Nat) (cs : List Char) : Option (Nat × List Char) :=
  let ds := cs.take n
  if ds.length = n ∧ ds.all Decimal.isDigit then some (Decimal.natOf ds, cs.drop n) else none

def mark (c : Char) : List Char → Option (List Char)
  | d :: cs => if c = d then some cs else none
  | [] => none

def date (cs : List Char) : Option (Date × List Char) := do
  let (year, cs) ← number 4 cs
  let cs ← mark '-' cs
  let (month, cs) ← number 2 cs
  let cs ← mark '-' cs
  let (day, cs) ← number 2 cs
  let d : Date := ⟨year, month, day⟩
  if d.isReal then some (d, cs) else none

def isDate (text : String) : Bool :=
  match date text.toList with
  | some (_, []) => true
  | _ => false

/-- The distance from universal time in minutes. -/
def offset : List Char → Option (Int × List Char)
  | 'Z' :: cs => some (0, cs)
  | 'z' :: cs => some (0, cs)
  | sign :: cs => do
    let (hours, cs) ← number 2 cs
    let cs ← mark ':' cs
    let (minutes, cs) ← number 2 cs
    let size : Int := 60 * hours + minutes
    if 23 < hours ∨ 59 < minutes then none
    else if sign = '+' then some (size, cs)
    else if sign = '-' then some (-size, cs)
    else none
  | [] => none

/-- Whether the minute is the last one of a month in universal time; only there a second can be
added. -/
def endsMonth (d : Date) (minute : Int) : Bool :=
  if minute = 1439 then d.day = monthLength d.year d.month
  else if minute = 1439 - 1440 then d.day = 1
  else if minute = 1439 + 1440 then d.day + 1 = monthLength d.year d.month
  else false

/-- A date, any character, a time with its distance from universal time. -/
def isMoment (text : String) : Bool :=
  let read : Option Bool := do
    let (d, cs) ← date text.toList
    let cs ← match cs with
      | c :: cs => if c.toNat < 128 then some cs else none
      | [] => none
    let (hour, cs) ← number 2 cs
    let cs ← mark ':' cs
    let (minute, cs) ← number 2 cs
    let cs ← mark ':' cs
    let (second, cs) ← number 2 cs
    let cs ← match cs with
      | '.' :: cs =>
        if cs.head?.any Decimal.isDigit then some (cs.dropWhile Decimal.isDigit) else none
      | cs => some cs
    let (shift, cs) ← offset cs
    return cs = [] && hour < 24 && minute < 60 &&
      (second < 60 || (second = 60 && endsMonth d (60 * hour + minute - shift)))
  read.getD false

end RpcContract.Text.Moment
