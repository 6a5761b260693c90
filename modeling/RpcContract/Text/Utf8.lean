/-!
Where bytes stop being the UTF-8 form of a text, and the text that they spell all the same.
-/

namespace RpcContract.Text.Utf8

/-- The place of the first fault, and how many bytes are wrong there; no number if the bytes end
inside a character. -/
structure Fault where
  index : Nat
  length : Option Nat
deriving DecidableEq, Repr

/-- The ranges that the bytes after a leading byte have to lie in. -/
def tails (b : Nat) : Option (List (Nat × Nat)) :=
  if b < 0x80 then some []
  else if b < 0xC2 then none
  else if b < 0xE0 then some [(0x80, 0xBF)]
  else if b = 0xE0 then some [(0xA0, 0xBF), (0x80, 0xBF)]
  else if b = 0xED then some [(0x80, 0x9F), (0x80, 0xBF)]
  else if b < 0xF0 then some [(0x80, 0xBF), (0x80, 0xBF)]
  else if b = 0xF0 then some [(0x90, 0xBF), (0x80, 0xBF), (0x80, 0xBF)]
  else if b < 0xF4 then some [(0x80, 0xBF), (0x80, 0xBF), (0x80, 0xBF)]
  else if b = 0xF4 then some [(0x80, 0x8F), (0x80, 0xBF), (0x80, 0xBF)]
  else none

/-- The number of bytes until one is out of its range, none if all are in; `some none` if there
are too few. -/
def tailFault : Nat → List (Nat × Nat) → List UInt8 → Option (Option Nat)
  | _, [], _ => none
  | _, _ :: _, [] => some none
  | n, (lo, hi) :: ranges, b :: bs =>
    if lo ≤ b.toNat ∧ b.toNat ≤ hi then tailFault (n + 1) ranges bs else some (some n)

/-- Looks at the bytes from an index on; `skip` of them belong to a character already seen. -/
def faultFrom (index skip : Nat) : List UInt8 → Option Fault
  | [] => none
  | b :: bs =>
    if 0 < skip then faultFrom (index + 1) (skip - 1) bs
    else
      match tails b.toNat with
      | none => some ⟨index, some 1⟩
      | some ranges =>
        match tailFault 1 ranges bs with
        | some length => some ⟨index, length⟩
        | none => faultFrom (index + 1) ranges.length bs

def fault? (bytes : List UInt8) : Option Fault := faultFrom 0 0 bytes

def spelled (bytes : List UInt8) : String := (String.fromUTF8? ⟨bytes.toArray⟩).getD ""

def repairFrom : Nat → List UInt8 → String
  | 0, _ => ""
  | fuel + 1, bytes =>
    match fault? bytes with
    | none => spelled bytes
    | some fault =>
      spelled (bytes.take fault.index) ++ "\uFFFD" ++
        match fault.length with
        | some n => repairFrom fuel (bytes.drop (fault.index + n))
        | none => ""

/-- The text that bytes spell, with a replacement character for each fault. -/
def repair (bytes : List UInt8) : String := repairFrom (bytes.length + 1) bytes

end RpcContract.Text.Utf8
