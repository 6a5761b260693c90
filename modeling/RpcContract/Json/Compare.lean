import RpcContract.Decimal.Reading
import RpcContract.Decimal.Shortest
import RpcContract.Json.Basic

/-!
Numbers by their values: comparing them exactly, whether they are whole, and what is a multiple of
what. Equality of values in this sense takes `1` and `1.0` for the same.
-/

namespace RpcContract

namespace Number

/-- The number as `numerator · 2^exponent`; nothing for what is no finite number. -/
def parts? : Number → Option (Int × Int)
  | .int n => some (n, 0)
  | .float bits =>
    match Decimal.classify bits with
    | .finite x => some (if x.negative then -(x.mantissa : Int) else x.mantissa, x.exponent)
    | _ => none

/-- `2^n` as an integer. -/
def power (n : Int) : Int := Nat.pow 2 n.toNat

/-- Both numbers as multiples of one power of two. -/
def aligned (a b : Int × Int) : Int × Int :=
  let e := min a.2 b.2
  (a.1 * power (a.2 - e), b.1 * power (b.2 - e))

def lt (a b : Number) : Bool :=
  match a.parts?, b.parts? with
  | some x, some y => let (m, n) := aligned x y; m < n
  | _, _ => false

def same (a b : Number) : Bool :=
  match a.parts?, b.parts? with
  | some x, some y => let (m, n) := aligned x y; m = n
  | _, _ => a = b

def isWhole (a : Number) : Bool :=
  match a.parts? with
  | some (m, e) => 0 ≤ e || m % power (-e) = 0
  | none => false

/-- The bits of the nearest double. -/
def bits : Number → UInt64
  | .int n => Decimal.signed (n < 0) (Decimal.nearest n.natAbs 0)
  | .float bits => bits

def toFloat (a : Number) : Float := Float.ofBits a.bits

/-- Whether a quotient of doubles is taken for whole: its fraction is below `2^-52`, which holds
of every negative quotient. -/
def nearlyWhole (q : Number) : Bool :=
  match q.parts? with
  | some (m, e) => m < 0 || 0 ≤ e || (m % power (-e)) * Nat.pow 2 52 < power (-e)
  | none => true

/-- Divisibility of the shortest decimals of two doubles. -/
def divides (a b : UInt64) : Bool :=
  match Decimal.classify a, Decimal.classify b with
  | .finite x, .finite y =>
    if y.mantissa = 0 then true
    else if x.mantissa = 0 then false
    else
      let d := Decimal.shortest x
      let n := Decimal.shortest y
      let e := min d.exponent n.exponent
      n.coefficient * Nat.pow 10 (n.exponent - e).toNat %
        (d.coefficient * Nat.pow 10 (d.exponent - e).toNat) = 0
  | _, _ => true

/-- Whether `a` is a multiple of `unit`. Exact for a whole unit; for another one the quotient of
the doubles decides, or their decimals where that is no finite number. -/
def isMultiple (a unit : Number) : Bool :=
  let x := Number.float a.bits
  let u := Number.float unit.bits
  if u.isWhole then
    x.isWhole &&
      match x.parts?, u.parts? with
      | some p, some q =>
        let (m, n) := aligned p q
        n ≠ 0 && m % n = 0
      | _, _ => false
  else
    let q := a.toFloat / unit.toFloat
    if q.isNaN || q.isInf then divides unit.bits a.bits else nearlyWhole (.float q.toBits)

/-- Whether two doubles differ by less than `2^-52`. -/
def close (a b : Number) : Bool :=
  (a.toFloat - b.toFloat).abs < Float.ofBits 0x3CB0000000000000

end Number

namespace Json

mutual

/-- Equality up to the way in which numbers are written. -/
def same : Json → Json → Bool
  | .num a, .num b => a.same b
  | .arr a, .arr b => sameItems a b
  | .obj a, .obj b => sameMembers a b
  | .null, .null => true
  | .bool a, .bool b => a == b
  | .str a, .str b => a == b
  | _, _ => false

def sameItems : List Json → List Json → Bool
  | [], [] => true
  | a :: as, b :: bs => same a b && sameItems as bs
  | _, _ => false

def sameMembers : List (String × Json) → List (String × Json) → Bool
  | [], [] => true
  | (k, a) :: as, (l, b) :: bs => k == l && same a b && sameMembers as bs
  | _, _ => false

end

def allDifferent : List Json → Bool
  | [] => true
  | item :: items => items.all (fun other => !(same item other)) && allDifferent items

mutual

/-- The number of values in a tree. -/
def size : Json → Nat
  | .arr items => 1 + itemsSize items
  | .obj members => 1 + membersSize members
  | _ => 1

def itemsSize : List Json → Nat
  | [] => 0
  | item :: items => size item + itemsSize items

def membersSize : List (String × Json) → Nat
  | [] => 0
  | (_, value) :: members => size value + membersSize members

end

end Json

end RpcContract
