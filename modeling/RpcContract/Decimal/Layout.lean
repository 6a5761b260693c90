import RpcContract.Decimal.Shortest

/-!
How decimals are laid out as text. A `Layout` says which numbers are written positionally and
whether a whole number keeps its `.0`; the others get an exponent with its sign.
-/

namespace RpcContract.Decimal

structure Layout where
  /-- Leading exponents `x`, as in `d.ddd · 10^x`, that are written positionally. -/
  positional : Int → Bool
  wholePoint : Bool

def zeros (n : Nat) : String := String.ofList (List.replicate n '0')

def Layout.write (layout : Layout) (d : Number) : String :=
  let digits := toString d.coefficient
  let lead : Int := digits.length + d.exponent - 1
  if layout.positional lead then
    if 0 ≤ d.exponent then
      digits ++ zeros d.exponent.toNat ++ (if layout.wholePoint then ".0" else "")
    else if 0 ≤ lead then
      let whole := (lead + 1).toNat
      String.ofList (digits.toList.take whole) ++ "." ++ String.ofList (digits.toList.drop whole)
    else
      "0." ++ zeros (-lead - 1).toNat ++ digits
  else
    let tail := String.ofList (digits.toList.drop 1)
    String.ofList (digits.toList.take 1) ++ (if tail = "" then "" else "." ++ tail) ++ "e" ++
      (if lead < 0 then "-" else "+") ++ toString lead.natAbs

/-- The text of a double; infinities and NaN have texts of their own. -/
def Layout.writeBits (layout : Layout) (bits : UInt64) : String :=
  match classify bits with
  | .notANumber => "NaN"
  | .infinite negative => if negative then "-inf" else "inf"
  | .finite x =>
    (if x.negative then "-" else "") ++
      if x.mantissa = 0 then (if layout.wholePoint then "0.0" else "0")
      else layout.write (shortest x)

/-- Without exponents, a whole number like an integer. -/
def plain : Layout := ⟨fun _ => true, false⟩

end RpcContract.Decimal
