import RpcContract.Json.Cursor
import RpcContract.Yaml.Cursor

/-!
Names that stand beside the content of a stream: anchors and aliases, tags, and directives.
-/

namespace RpcContract.Yaml

/-- The name after `&` or `*`. -/
def anchor (c : Cursor) : Option (String × Cursor) :=
  let name := c.next.takeWhile isWord
  let c := c.next.skipWhile isWord
  if name = [] then none
  else if c.gapAt 0 || c.peek.any ("?:,]\x7d%@`".toList.contains ·) then
    some (String.ofList name, c)
  else none

def isUriChar (verbatim : Bool) (c : Char) : Bool :=
  isWord c || ";/?:@&=+$.%!~*'()".toList.contains c || (verbatim && ",[]".toList.contains c)

/-- The number of bytes that follow a leading byte, and its share of the code point. -/
def leadingByte? (b : Nat) : Option (Nat × Nat) :=
  if b < 0x80 then some (0, b)
  else if b / 0x20 = 6 then some (1, b % 0x20)
  else if b / 0x10 = 14 then some (2, b % 0x10)
  else if b / 0x08 = 30 then some (3, b % 0x08)
  else none

/-- A text with its percent escapes resolved. Of the character that is being put together, `left`
bytes are still to come. -/
def uriText? (left code : Nat) : List Char → Option (List Char)
  | '%' :: a :: b :: rest => do
    let byte := 16 * (← Json.Cursor.hexDigit? a) + (← Json.Cursor.hexDigit? b)
    let (left, code) ←
      match left with
      | 0 => leadingByte? byte
      | left + 1 => if byte / 0x40 = 2 then some (left, 0x40 * code + byte % 0x40) else none
    if left = 0 then (Char.ofNat code :: ·) <$> uriText? 0 0 rest else uriText? left code rest
  | c :: rest => if 0 < left ∨ c = '%' then none else (c :: ·) <$> uriText? 0 0 rest
  | [] => if 0 < left then none else some []

def uri (verbatim : Bool) (c : Cursor) : Option (List Char × Cursor) := do
  let text ← uriText? 0 0 (c.takeWhile (isUriChar verbatim))
  some (text, c.skipWhile (isUriChar verbatim))

def uriNonempty (verbatim : Bool) (c : Cursor) : Option (List Char × Cursor) :=
  if (c.takeWhile (isUriChar verbatim)).isEmpty then none else uri verbatim c

/-- A tag as it is written: the name of what its suffix is added to, and the suffix. -/
structure Tag where
  handle : String
  suffix : String
deriving DecidableEq

/-- The tag after `!`. A whole tag has no handle, and neither has a lone `!`. -/
def tagText (c : Cursor) : Option (Tag × Cursor) :=
  if c.peekAt 1 = some '<' then do
    let (text, c) ← uriNonempty true (c.skip 2)
    if c.isAt '>' then some (⟨"", String.ofList text⟩, c.next) else none
  else do
    let word := c.next.takeWhile isWord
    let c := c.next.skipWhile isWord
    if c.isAt '!' then
      let (text, c) ← uriNonempty false c.next
      some (⟨String.ofList ('!' :: word ++ ['!']), String.ofList text⟩, c)
    else
      let (text, c) ← uri false c
      if word ++ text = [] then some (⟨"", "!"⟩, c)
      else some (⟨"!", String.ofList (word ++ text)⟩, c)

def tag (flow : Bool) (c : Cursor) : Option (Tag × Cursor) := do
  let (t, c) ← tagText c
  if c.gapAt 0 ∨ (flow ∧ c.isAt ',') then some (t, c) else none

inductive Directive where
  | version (major minor : Nat)
  | tag (handle : String) (stem : String)
deriving DecidableEq

def versionPart (c : Cursor) : Option (Nat × Cursor) :=
  let digits := c.takeWhile Char.isDigit
  if digits = [] ∨ 9 < digits.length then none
  else some (digits.foldl (fun n d => 10 * n + (d.toNat - '0'.toNat)) 0, c.skipWhile Char.isDigit)

def versionValue (c : Cursor) : Option (Directive × Cursor) := do
  let (major, c) ← versionPart c
  if c.isAt '.' then
    let (minor, c) ← versionPart c.next
    some (.version major minor, c)
  else none

def tagValue (c : Cursor) : Option (Directive × Cursor) :=
  if c.isAt '!' then
    let word := c.next.takeWhile isWord
    let c := c.next.skipWhile isWord
    let handle? := if c.isAt '!' then some ('!' :: word ++ ['!'], c.next)
      else if word = [] then some (['!'], c)
      else none
    do
      let (handle, c) ← handle?
      if c.peek.any isBlank then
        let (stem, c) ← uriNonempty true (c.skipWhile isBlank)
        if c.gapAt 0 then some (.tag (String.ofList handle) (String.ofList stem), c) else none
      else none
  else none

/-- The directive after `%`; its line may end with a comment. -/
def directive (c : Cursor) : Option (Directive × Cursor) :=
  let name := String.ofList (c.next.takeWhile isWord)
  let c := c.next.skipWhile isWord
  if c.gapAt 0 then do
    let c := c.skipWhile isBlank
    let (d, c) ←
      if name = "YAML" then versionValue c
      else if name = "TAG" then tagValue c
      else none
    let c := c.skipWhile isBlank
    let c := if c.isAt '#' then c.skipWhile (!isBreak ·) else c
    if c.lineEndsAt 0 then some (d, c.next) else none
  else none

end RpcContract.Yaml
