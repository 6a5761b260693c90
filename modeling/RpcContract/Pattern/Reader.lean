import RpcContract.Decimal.Reading
import RpcContract.Json.Cursor
import RpcContract.Pattern.Basic

/-!
Reading patterns. There are two dialects. The plain one has groups, classes and repetitions; the
wide one adds look-around, atomic groups and references back, takes a brace that begins no
repetition for itself, and refuses to repeat what has no width.
-/

namespace RpcContract.Pattern

inductive Dialect where
  | plain
  | wide
deriving DecidableEq, Repr

structure Flags where
  ignoreCase : Bool
  multiLine : Bool
  dotAll : Bool
  verbose : Bool
  lazy : Bool
deriving Repr

def Flags.default : Flags := ⟨false, false, false, false, false⟩

/-- What is left to read, with the flags and the groups so far. -/
structure Source where
  rest : List Char
  flags : Flags
  groups : Nat
  names : List (String × Nat)
deriving Repr

abbrev Reader := StateT Source Option

namespace Reader

def peek : Reader (Option Char) := do return (← get).rest.head?

def eat : Reader Unit := modify fun s => { s with rest := s.rest.drop 1 }

def next : Reader Char := do
  match (← get).rest with
  | [] => failure
  | c :: rest =>
    modify fun s => { s with rest }
    return c

/-- Takes a text if it comes next. -/
def take (text : List Char) : Reader Bool := do
  match text.isPrefixOf? (← get).rest with
  | some rest =>
    modify fun s => { s with rest }
    return true
  | none => return false

def need (c : Char) : Reader Unit := do
  if (← next) = c then return else failure

def takeWhile (p : Char → Bool) : Reader (List Char) := do
  let s ← get
  set { s with rest := s.rest.dropWhile p }
  return s.rest.takeWhile p

def flags : Reader Flags := do return (← get).flags

def setFlags (flags : Flags) : Reader Unit := modify fun s => { s with flags }

/-- Passes over blanks and comments where they do not count. -/
def skipIgnored : Reader Unit := do
  if (← flags).verbose then
    modify fun s => { s with rest := dropIgnored s.rest.length s.rest }
where
  dropIgnored : Nat → List Char → List Char
    | 0, cs => cs
    | fuel + 1, cs =>
      match cs.dropWhile Text.isBlank with
      | '#' :: rest => dropIgnored fuel (rest.dropWhile (· ≠ '\n'))
      | rest => rest

def addGroup (name : Option String) : Reader Nat := do
  let s ← get
  let index := s.groups + 1
  set { s with groups := index, names := match name with
    | some name => (name, index) :: s.names
    | none => s.names }
  return index

end Reader

open Reader

def hexValue? (digits : List Char) : Option Nat := do
  let ds ← digits.mapM Json.Cursor.hexDigit?
  if ds = [] then none
  else
    let n := ds.foldl (fun n d => 16 * n + d) 0
    if n.isValidChar then some n else none

/-- The character that a `\x`, `\u` or `\U` escape spells: a fixed number of digits or any number
in braces. -/
def hexCharacter (digits : Nat) : Reader Char := do
  let ds ←
    if ← take ['\x7b'] then do
      let ds ← takeWhile fun c => (Json.Cursor.hexDigit? c).isSome
      need '\x7d'
      pure ds
    else (List.range digits).mapM fun _ => next
  match hexValue? ds with
  | some n => return Char.ofNat n
  | none => failure

def categoryGroups : List (String × List Text.Category) :=
  [("L", [.Lu, .Ll, .Lt, .Lm, .Lo]), ("LC", [.Lu, .Ll, .Lt]), ("M", [.Mn, .Mc, .Me]),
   ("N", [.Nd, .Nl, .No]), ("P", [.Pc, .Pd, .Ps, .Pe, .Pi, .Pf, .Po]),
   ("S", [.Sm, .Sc, .Sk, .So]), ("Z", [.Zs, .Zl, .Zp]), ("C", [.Cc, .Cf, .Cs, .Co, .Cn])]

def longNames : List (String × String) :=
  [("letter", "L"), ("casedletter", "LC"), ("uppercaseletter", "Lu"), ("lowercaseletter", "Ll"),
   ("titlecaseletter", "Lt"), ("modifierletter", "Lm"), ("otherletter", "Lo"), ("mark", "M"),
   ("nonspacingmark", "Mn"), ("spacingmark", "Mc"), ("enclosingmark", "Me"), ("number", "N"),
   ("decimalnumber", "Nd"), ("letternumber", "Nl"), ("othernumber", "No"),
   ("punctuation", "P"), ("connectorpunctuation", "Pc"), ("dashpunctuation", "Pd"),
   ("openpunctuation", "Ps"), ("closepunctuation", "Pe"), ("initialpunctuation", "Pi"),
   ("finalpunctuation", "Pf"), ("otherpunctuation", "Po"), ("symbol", "S"),
   ("mathsymbol", "Sm"), ("currencysymbol", "Sc"), ("modifiersymbol", "Sk"),
   ("othersymbol", "So"), ("separator", "Z"), ("spaceseparator", "Zs"),
   ("lineseparator", "Zl"), ("paragraphseparator", "Zp"), ("other", "C"), ("control", "Cc"),
   ("format", "Cf"), ("surrogate", "Cs"), ("privateuse", "Co"), ("unassigned", "Cn")]

/-- Property names are compared without case, blanks, hyphens and underscores. -/
def looseName (name : List Char) : String :=
  String.ofList ((name.filter fun c => c ≠ ' ' ∧ c ≠ '-' ∧ c ≠ '_').map Char.toLower)

def propertySet? (name : List Char) : Option CharSet :=
  let loose := looseName name
  let short := (longNames.lookup loose).getD loose
  let same (s : String) : Bool := s.map Char.toLower = short.map Char.toLower
  match categoryGroups.find? fun g => same g.1 with
  | some (_, categories) => some (.inCategory categories)
  | none =>
    match Text.Category.names.find? fun g => same g.1 with
    | some (_, category) => some (.inCategory [category])
    | none =>
      if loose = "any" then some .any
      else if loose = "ascii" then some (.range 0 127)
      else if loose = "assigned" then some (.compl (.inCategory [.Cn]))
      else if loose = "alphabetic" ∨ loose = "alpha" then some .alphabetic
      else if loose = "whitespace" ∨ loose = "space" then some .blank
      else none

/-- The name after `\p`: one letter, or anything in braces. -/
def property (negated : Bool) : Reader CharSet := do
  let name ←
    if ← take ['\x7b'] then do
      let name ← takeWhile (· ≠ '\x7d')
      need '\x7d'
      pure name
    else do pure [← next]
  let (inverse, name) := match name with
    | '^' :: name => (true, name)
    | name => (false, name)
  match propertySet? name with
  | some s => return if negated != inverse then .compl s else s
  | none => failure

/-- An escape that stands for one character or a set of them. -/
inductive Escaped where
  | char (c : Char)
  | chars (s : CharSet)

def isAsciiPunctuation (c : Char) : Bool := 32 ≤ c.toNat && c.toNat < 127 && !c.isAlphanum

def hexSet : CharSet := .union (.range 48 57) (.union (.range 65 70) (.range 97 102))

/-- The rest of an escape after the backslash and its letter, for what may also stand in a class. -/
def classEscape (dialect : Dialect) (c : Char) : Reader Escaped := do
  match c with
  | 'd' => return .chars .digit
  | 'D' => return .chars (.compl .digit)
  | 's' => return .chars .blank
  | 'S' => return .chars (.compl .blank)
  | 'w' => return .chars .word
  | 'W' => return .chars (.compl .word)
  | 'p' => return .chars (← property false)
  | 'P' => return .chars (← property true)
  | 'n' => return .char '\n'
  | 'r' => return .char '\r'
  | 't' => return .char '\t'
  | 'f' => return .char '\x0c'
  | 'v' => return .char '\x0b'
  | 'a' => return .char '\x07'
  | 'x' => return .char (← hexCharacter 2)
  | 'u' => return .char (← hexCharacter 4)
  | 'U' => return .char (← hexCharacter 8)
  | c =>
    if dialect = .wide ∧ c = 'e' then return .char '\x1b'
    else if dialect = .wide ∧ c = 'h' then return .chars hexSet
    else if dialect = .wide ∧ c = 'H' then return .chars (.compl hexSet)
    else if isAsciiPunctuation c ∧ (dialect = .wide ∨ (c ≠ ' ' ∧ c ≠ '<' ∧ c ≠ '>')) then
      return .char c
    else failure

def asciiSets : List (String × CharSet) :=
  let lower := CharSet.range 97 122
  let upper := CharSet.range 65 90
  let number := CharSet.range 48 57
  let alpha := CharSet.union lower upper
  let alnum := CharSet.union alpha number
  let graph := CharSet.range 33 126
  [("alnum", alnum), ("alpha", alpha), ("ascii", .range 0 127),
   ("blank", .ofList [' ', '\t']), ("cntrl", .union (.range 0 31) (.range 127 127)),
   ("digit", number), ("graph", graph), ("lower", lower), ("print", .range 32 126),
   ("punct", graph.diff alnum),
   ("space", .ofList ['\t', '\n', '\x0b', '\x0c', '\r', ' ']), ("upper", upper),
   ("word", .union alnum (.single '_')), ("xdigit", hexSet)]

/-- A named class such as `[:alpha:]`, from after its opening bracket on. -/
def asciiClass : Reader CharSet := do
  need ':'
  let negated ← take ['^']
  let name ← takeWhile Char.isAlpha
  need ':'
  need ']'
  match asciiSets.lookup (String.ofList name) with
  | some s => return if negated then .compl s else s
  | none => failure

/-- A single character of a class, or a set given by an escape. -/
def classAtom (dialect : Dialect) : Reader Escaped := do
  let c ← next
  if c = '\\' then classEscape dialect (← next) else return .char c

/-- One item of a class: a character, a range or an escape. -/
def classItem (dialect : Dialect) : Reader CharSet := do
  let first ← classAtom dialect
  let isRange := match (← get).rest with
    | '-' :: d :: _ => d ≠ ']' && d ≠ '-'
    | _ => false
  if isRange then
    eat
    match first, ← classAtom dialect with
    | .char first, .char last =>
      if first ≤ last then return .range first.toNat last.toNat else failure
    | _, _ => failure
  else
    match first with
    | .char c => return .single c
    | .chars s => return s

inductive ClassOp where
  | inter
  | diff
  | differing

def combine : Option ClassOp → CharSet → CharSet → CharSet
  | none, _, b => b
  | some .inter, a, b => .inter a b
  | some .diff, a, b => .diff a b
  | some .differing, a, b => .differing a b

mutual

/-- The items of a class up to and with its closing bracket: those of the operand that is being
read are in `items`, what stands before its operator in `left`. -/
def classItems (dialect : Dialect) :
    Nat → Option ClassOp → CharSet → CharSet → Reader CharSet
  | 0, _, _, _ => failure
  | fuel + 1, op, left, items => do
    if ← take [']'] then return combine op left items
    else if ← take ['&', '&'] then
      classItems dialect fuel (some .inter) (combine op left items) .none
    else if ← take ['-', '-'] then
      classItems dialect fuel (some .diff) (combine op left items) .none
    else if ← take ['~', '~'] then
      classItems dialect fuel (some .differing) (combine op left items) .none
    else if ← take ['['] then
      let inner ← (asciiClass <|> classBody dialect fuel)
      classItems dialect fuel op left (.union items inner)
    else
      let item ← classItem dialect
      classItems dialect fuel op left (.union items item)

/-- A class, from after its opening bracket on. -/
def classBody (dialect : Dialect) : Nat → Reader CharSet
  | 0 => failure
  | fuel + 1 => do
    let negated ← take ['^']
    let hyphens ← takeWhile (· = '-')
    let bracket ← if hyphens = [] then take [']'] else pure false
    let first : CharSet :=
      .union (.ofList hyphens) (if bracket then .single ']' else .none)
    let items ← classItems dialect fuel none .none first
    return if negated then .compl items else items

end

/-- The bounds of a repetition, from after its opening brace on. -/
def bounds (dialect : Dialect) : Reader (Nat × Option Nat) := do
  let pad : Reader Unit := do
    if dialect = .plain ∨ (← flags).verbose then let _ ← takeWhile (· = ' ')
  pad
  let least ← takeWhile Decimal.isDigit
  pad
  if ← take ['\x7d'] then
    if least = [] then failure
    else return (Decimal.natOf least, some (Decimal.natOf least))
  else
    need ','
    pad
    let most ← takeWhile Decimal.isDigit
    pad
    need '\x7d'
    if least = [] ∧ dialect = .plain then failure
    else
      return (Decimal.natOf least, if most = [] then none else some (Decimal.natOf most))

/-- Whether the wide dialect repeats a pattern. -/
def repeatable : Pattern → Bool
  | .empty | .look .. => false
  | .anchor a => a = .wordEdge || a = .noWordEdge
  | _ => true

/-- The repetitions after an atom. -/
def suffixes (dialect : Dialect) : Nat → Pattern → Reader Pattern
  | 0, p => return p
  | fuel + 1, p => do
    skipIgnored
    let found : Option (Nat × Option Nat) ←
      match (← get).rest with
      | '?' :: _ => do eat; pure (some (0, some 1))
      | '*' :: _ => do eat; pure (some (0, none))
      | '+' :: _ => do eat; pure (some (1, none))
      | '\x7b' :: _ =>
        if dialect = .plain then do eat; some <$> bounds dialect
        else (do eat; some <$> bounds dialect) <|> pure none
      | _ => pure none
    match found with
    | none => return p
    | some (least, most) =>
      if dialect = .wide ∧ !repeatable p then failure
      else if most.any (· < least) then failure
      else
        skipIgnored
        let flipped ← take ['?']
        skipIgnored
        let q := Pattern.repeated p least most (flipped == (← flags).lazy)
        if dialect = .plain then suffixes dialect fuel q
        else if ← take ['+'] then return .atomic q
        else return q

def setFlag (dialect : Dialect) (c : Char) (on : Bool) (f : Flags) : Option Flags :=
  match c with
  | 'i' => some { f with ignoreCase := on }
  | 'm' => some { f with multiLine := on }
  | 's' => some { f with dotAll := on }
  | 'x' => some { f with verbose := on }
  | 'u' => if on then some f else none
  | 'U' => if dialect = .plain then some { f with lazy := on } else none
  | 'R' => if dialect = .plain then some f else none
  | _ => none

/-- The letters of a flag group with the mark that ends them, a colon or a parenthesis. -/
def readFlags (dialect : Dialect) : Nat → Bool → Bool → Flags → Reader (Flags × Char)
  | 0, _, _, _ => failure
  | fuel + 1, on, fresh, f => do
    let c ← next
    if c = ')' ∨ c = ':' then
      if fresh ∧ (c = ')' ∨ !on) then failure else return (f, c)
    else if c = '-' then
      if on then readFlags dialect fuel false true f else failure
    else
      match setFlag dialect c on f with
      | some f => readFlags dialect fuel on false f
      | none => failure

def isNameStart (c : Char) : Bool := c = '_' || Text.isAlphabetic c

def isNamePart (c : Char) : Bool :=
  CharSet.isWord c || c = '.' || c = '[' || c = ']'

def groupName (close : Char) : Reader String := do
  let name ← takeWhile isNamePart
  need close
  match name with
  | c :: _ => if isNameStart c then return String.ofList name else failure
  | [] => failure

def backTo (name : String) : Reader Pattern := do
  let s ← get
  match s.names.lookup name with
  | some index => return .back index s.flags.ignoreCase
  | none => failure

/-- An escape outside a class, from after the backslash on. -/
def escapeAtom (dialect : Dialect) : Reader Pattern := do
  let c ← next
  let f ← flags
  if c = 'A' then return .anchor .textStart
  else if c = 'z' then return .anchor .textEnd
  else if c = 'b' then return .anchor .wordEdge
  else if c = 'B' then return .anchor .noWordEdge
  else if dialect = .wide ∧ Decimal.isDigit c then
    let more ← takeWhile Decimal.isDigit
    let index := Decimal.natOf (c :: more)
    if index = 0 ∨ (← get).groups < index then failure else return .back index f.ignoreCase
  else if dialect = .wide ∧ c = 'k' then
    need '<'
    backTo (← groupName '>')
  else if dialect = .wide ∧ c = 'K' then return .empty
  else if dialect = .wide ∧ c = 'G' then return .anchor .textStart
  else
    match ← classEscape dialect c with
    | .char c => return .chars (.single c) f.ignoreCase
    | .chars s => return .chars s f.ignoreCase

/-- What a group is for. -/
inductive Opening where
  | look (ahead wanted : Bool)
  | atomic
  /-- A reference back to a group by its name. -/
  | named
  | capture (name : Option String)
  | flagged

/-- What only the wide dialect has. -/
def wideOpening : Reader (Option Opening) := do
  if ← take ['?', '='] then return some (.look true true)
  else if ← take ['?', '!'] then return some (.look true false)
  else if ← take ['?', '<', '='] then return some (.look false true)
  else if ← take ['?', '<', '!'] then return some (.look false false)
  else if ← take ['?', '>'] then return some .atomic
  else if ← take ['?', 'P', '='] then return some .named
  else return none

def opening (dialect : Dialect) : Reader Opening := do
  if let some special := ← (if dialect = .wide then wideOpening else pure none) then
    return special
  else if ← take ['?', '<'] then return .capture (some (← groupName '>'))
  else if ← take ['?', 'P', '<'] then return .capture (some (← groupName '>'))
  else if ← take ['?'] then return .flagged
  else return .capture none

mutual

def readAlternatives (dialect : Dialect) : Nat → Reader Pattern
  | 0 => failure
  | fuel + 1 => do
    let first ← readBranch dialect fuel .empty
    if ← take ['|'] then return .alt first (← readAlternatives dialect fuel) else return first

def readBranch (dialect : Dialect) : Nat → Pattern → Reader Pattern
  | 0, _ => failure
  | fuel + 1, before => do
    skipIgnored
    match ← peek with
    | none => return before
    | some '|' => return before
    | some ')' => return before
    | some _ =>
      let start := (← get).rest.length
      let p ← readAtom dialect fuel
      let p ← suffixes dialect (start + 1) p
      readBranch dialect fuel (match before with | .empty => p | q => .seq q p)

def readAtom (dialect : Dialect) : Nat → Reader Pattern
  | 0 => failure
  | fuel + 1 => do
    let f ← flags
    let c ← next
    match c with
    | '.' => return .chars (if f.dotAll then .any else .compl (.single '\n')) false
    | '^' => return .anchor (if f.multiLine then .lineStart else .textStart)
    | '$' => return .anchor (if f.multiLine then .lineEnd else .textEnd)
    | '\\' => escapeAtom dialect
    | '[' => return .chars (← classBody dialect fuel) f.ignoreCase
    | '(' => readGroup dialect fuel
    | '*' => failure
    | '+' => failure
    | '?' => failure
    | '\x7b' => if dialect = .plain then failure else return .chars (.single c) f.ignoreCase
    | c => return .chars (.single c) f.ignoreCase

/-- A group, from after its opening parenthesis on. Flags set inside it end with it. -/
def readGroup (dialect : Dialect) : Nat → Reader Pattern
  | 0 => failure
  | fuel + 1 => do
    let f ← flags
    let close (p : Pattern) : Reader Pattern := do
      need ')'
      setFlags f
      return p
    match ← opening dialect with
    | .look ahead wanted =>
      let p ← readAlternatives dialect fuel
      if !ahead ∧ !p.fixedWidth then failure else close (.look ahead wanted p)
    | .atomic => close (.atomic (← readAlternatives dialect fuel))
    | .capture name =>
      let index ← addGroup name
      close (.group index (← readAlternatives dialect fuel))
    | .named => backTo (← groupName ')')
    | .flagged =>
      let (changed, ending) ← readFlags dialect fuel true true f
      setFlags changed
      if ending = ')' then
        if (← peek).any fun c => c = '*' || c = '+' || c = '?' then failure else return .empty
      else close (← readAlternatives dialect fuel)

end

/-- The pattern that a text spells, none if it spells none. -/
def read? (dialect : Dialect) (text : String) : Option Pattern := do
  let source : Source := ⟨text.toList, .default, 0, []⟩
  let (p, left) ← (readAlternatives dialect (4 * text.length + 4)).run source
  if left.rest = [] then some p else none

end RpcContract.Pattern
