/-!
Blank characters, and the lines of a text with the blanks around them taken away.
-/

namespace RpcContract.Text

/-- The white space of Unicode. -/
def isBlank (c : Char) : Bool :=
  let n := c.toNat
  (9 ≤ n && n ≤ 13) || n = 32 || n = 0x85 || n = 0xA0 || n = 0x1680 ||
    (0x2000 ≤ n && n ≤ 0x200A) || n = 0x2028 || n = 0x2029 || n = 0x202F || n = 0x205F ||
    n = 0x3000

def dropTrailing (p : Char → Bool) (cs : List Char) : List Char :=
  (cs.reverse.dropWhile p).reverse

def trim (cs : List Char) : List Char := dropTrailing isBlank (cs.dropWhile isBlank)

/-- The lines of a text; a line break at the end begins no further line. -/
def lines : List Char → List (List Char)
  | [] => []
  | '\n' :: cs => [] :: lines cs
  | c :: cs =>
    match cs with
    | [] => [[c]]
    | '\n' :: rest => [c] :: lines rest
    | d :: rest =>
      match lines (d :: rest) with
      | [] => [[c]]
      | line :: more => (c :: line) :: more

end RpcContract.Text
