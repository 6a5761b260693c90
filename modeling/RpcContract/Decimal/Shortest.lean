/-!
The shortest decimal that reads back as a given double: of all decimals with the fewest digits
inside the interval of reals that round to the double, the nearest to it. The double is taken
apart into `mantissa · 2^exponent` and everything is decided in exact integer arithmetic.
-/

namespace RpcContract.Decimal

/-- A double by its parts; its magnitude is `mantissa · 2^exponent`. -/
structure Binary where
  negative : Bool
  mantissa : Nat
  exponent : Int
  /-- Whether the next smaller double is only half as far away as the next larger one. -/
  steep : Bool
deriving Repr

inductive Class where
  | finite (parts : Binary)
  | infinite (negative : Bool)
  | notANumber
deriving Repr

def classify (bits : UInt64) : Class :=
  let n : Nat := bits.toNat
  let fraction : Nat := n % Nat.pow 2 52
  let biased : Nat := n / Nat.pow 2 52 % Nat.pow 2 11
  let negative := Nat.pow 2 63 ≤ n
  if biased = 2047 then
    if fraction = 0 then .infinite negative else .notANumber
  else if biased = 0 then
    .finite ⟨negative, fraction, -1074, false⟩
  else
    .finite ⟨negative, Nat.pow 2 52 + fraction, (biased : Int) - 1075, fraction = 0 ∧ 1 < biased⟩

/-- The decimal `coefficient · 10^exponent`. -/
structure Number where
  coefficient : Nat
  exponent : Int
deriving Repr, DecidableEq

def digitCount (n : Nat) : Nat := (Nat.toDigits 10 n).length

/-- A positive rational as a fraction, in units of a power of ten. -/
def scaled (num den : Nat) (k : Int) : Nat × Nat :=
  if 0 ≤ k then (num, den * Nat.pow 10 k.toNat) else (num * Nat.pow 10 (-k).toNat, den)

/-- The number `p` with `10^(p-1) ≤ num/den < 10^p`, for positive `num` and `den`. -/
def magnitude (num den : Nat) : Int :=
  let guess : Int := (digitCount num : Int) - digitCount den
  let (a, b) := scaled num den guess
  if b ≤ a then guess + 1 else guess

def trimZeros : Nat → Number → Number
  | 0, d => d
  | fuel + 1, d =>
    if d.coefficient % 10 = 0 ∧ d.coefficient ≠ 0
    then trimZeros fuel ⟨d.coefficient / 10, d.exponent + 1⟩ else d

/-- The neighbour of `num/den` on the grid of step `10^k` that lies in the interval from `lo/den`
to `hi/den`, ends included when `closed`; of two the nearer, of two equally near the even one. -/
def onGrid? (lo num hi den : Nat) (closed : Bool) (k : Int) : Option Nat :=
  let (a, b) := scaled num den k
  let (l, _) := scaled lo den k
  let (h, _) := scaled hi den k
  let d := a / b
  let lower := if closed then l ≤ d * b else l < d * b
  let upper := if closed then (d + 1) * b ≤ h else (d + 1) * b < h
  if lower ∧ upper then
    let below := a - d * b
    let above := (d + 1) * b - a
    if below < above then some d
    else if above < below then some (d + 1)
    else if d % 2 = 0 then some d else some (d + 1)
  else if lower then some d
  else if upper then some (d + 1)
  else none

/-- The shortest decimal of a positive double. -/
def shortest (x : Binary) : Number :=
  let unit := x.exponent - 2
  let up := if 0 ≤ unit then Nat.pow 2 unit.toNat else 1
  let den := if 0 ≤ unit then 1 else Nat.pow 2 (-unit).toNat
  let num := 4 * x.mantissa * up
  let lo := (4 * x.mantissa - if x.steep then 1 else 2) * up
  let hi := (4 * x.mantissa + 2) * up
  let closed := x.mantissa % 2 = 0
  let p := magnitude num den
  let hit := (List.range 17).findSome? fun i =>
    let k := p - (i + 1 : Nat)
    (onGrid? lo num hi den closed k).map fun c => (⟨c, k⟩ : Number)
  trimZeros 20 (hit.getD ⟨num / den, 0⟩)

end RpcContract.Decimal
