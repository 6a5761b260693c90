import RpcContract.Text.Address
import RpcContract.Text.Percent

/-!
Which texts are absolute URLs, and what is wrong with the others.
-/

namespace RpcContract.Text.Url

inductive Fault where
  | relative
  | emptyHost
  | badPort
  | badAddress4
  | badAddress6
  | badDomain
  | badHostCharacter
deriving DecidableEq, Repr

def Fault.text : Fault → String
  | .relative => "relative URL without a base"
  | .emptyHost => "empty host"
  | .badPort => "invalid port number"
  | .badAddress4 => "invalid IPv4 address"
  | .badAddress6 => "invalid IPv6 address"
  | .badDomain => "invalid international domain name"
  | .badHostCharacter => "invalid domain character"

/-- Surrounding control characters and blanks do not count, nor do line breaks and tabs anywhere. -/
def cleaned (text : String) : List Char :=
  let outer (c : Char) : Bool := c.toNat ≤ 32
  let inner := ((text.toList.dropWhile outer).reverse.dropWhile outer).reverse
  inner.filter fun c => c ≠ '\t' ∧ c ≠ '\n' ∧ c ≠ '\r'

def isSchemePart (c : Char) : Bool := c.isAlphanum || c = '+' || c = '-' || c = '.'

/-- The scheme in lower case and what follows its colon. -/
def scheme? (cs : List Char) : Option (String × List Char) :=
  match cs.head?, cs.dropWhile isSchemePart with
  | some first, ':' :: rest =>
    if first.isAlpha then
      some (String.ofList ((cs.takeWhile isSchemePart).map Char.toLower), rest)
    else none
  | _, _ => none

def isSpecial (scheme : String) : Bool :=
  scheme ∈ ["http", "https", "ws", "wss", "ftp", "file"]

def isForbidden (c : Char) : Bool :=
  c = '\x00' || c ∈ " #/:<>?@[\\]^|".toList || c ∈ ['\t', '\n', '\r']

def isForbiddenInDomain (c : Char) : Bool := isForbidden c || c.toNat < 32 || c = '%' || c = '\x7f'

/-- A part of a dotted number: decimal, octal after a zero, hexadecimal after `0x`. -/
def part4? (cs : List Char) : Option Nat :=
  let digits (base : Nat) (ds : List Char) : Option Nat :=
    ds.foldlM (fun n c => do
      let d ← Json.Cursor.hexDigit? c
      if d < base then some (base * n + d) else none) 0
  match cs with
  | [] => none
  | '0' :: 'x' :: ds => digits 16 ds
  | '0' :: 'X' :: ds => digits 16 ds
  | '0' :: ds => digits 8 ds
  | ds => digits 10 ds

def withoutTrailingEmpty (parts : List (List Char)) : List (List Char) :=
  if parts.getLast? = some [] ∧ 1 < parts.length then parts.dropLast else parts

def endsInNumber (parts : List (List Char)) : Bool :=
  match (withoutTrailingEmpty parts).getLast? with
  | some part =>
    (part ≠ [] && part.all Decimal.isDigit) ||
      (match part with
        | '0' :: 'x' :: _ => (part4? part).isSome
        | '0' :: 'X' :: _ => (part4? part).isSome
        | _ => false)
  | none => false

def isNumber4 (parts : List (List Char)) : Bool :=
  let parts := withoutTrailingEmpty parts
  match parts.mapM part4? with
  | some ns =>
    ns.length ≤ 4 && ns.dropLast.all (· < 256) && (ns.getLast?.getD 0) < Nat.pow 256 (5 - ns.length)
  | none => false

def checkHost (special : Bool) (host : List Char) : Except Fault Unit :=
  match host with
  | '[' :: rest =>
    if rest.getLast? = some ']' ∧ isAddress6 rest.dropLast then .ok () else .error .badAddress6
  | host =>
    if special then
      match percentDecoded host with
      | [] => .error .emptyHost
      | domain =>
        let parts := splitOn '.' domain
        if domain.any isForbiddenInDomain then .error .badDomain
        else if endsInNumber parts ∧ !isNumber4 parts then .error .badAddress4
        else .ok ()
    else if host.any isForbidden then .error .badHostCharacter
    else .ok ()

/-- The host and what follows it; a colon inside brackets belongs to the host. -/
def splitHost : Bool → List Char → List Char × List Char
  | _, [] => ([], [])
  | inside, c :: cs =>
    if c = ':' ∧ !inside then ([], c :: cs)
    else
      let inside := if c = '[' then true else if c = ']' then false else inside
      let (host, rest) := splitHost inside cs
      (c :: host, rest)

def checkPort (cs : List Char) : Except Fault Unit :=
  if cs.all Decimal.isDigit ∧ Decimal.natOf cs < 65536 then .ok () else .error .badPort

def checkAuthority (special : Bool) (cs : List Char) : Except Fault Unit :=
  let ends (c : Char) : Bool := c = '/' || c = '?' || c = '#' || (special && c = '\\')
  let authority := cs.takeWhile fun c => !ends c
  let afterUser := (authority.reverse.takeWhile (· ≠ '@')).reverse
  let hasUser := afterUser.length < authority.length
  let (host, rest) := splitHost false afterUser
  if hasUser ∧ afterUser = [] then .error .emptyHost
  else if host = [] ∧ (special ∨ rest ≠ []) then .error .emptyHost
  else do
    if host ≠ [] then checkHost special host
    match rest with
    | ':' :: port => checkPort port
    | _ => return ()

def checkFile (cs : List Char) : Except Fault Unit :=
  let isSlash (c : Char) : Bool := c = '/' || c = '\\'
  match cs with
  | a :: b :: rest =>
    if isSlash a && isSlash b then
      let host := rest.takeWhile fun c => !(isSlash c || c = '?' || c = '#')
      match host with
      | [] => .ok ()
      | [c, d] => if c.isAlpha ∧ (d = ':' ∨ d = '|') then .ok () else checkHost true host
      | _ => checkHost true host
    else .ok ()
  | _ => .ok ()

def check (text : String) : Except Fault Unit :=
  match scheme? (cleaned text) with
  | none => .error .relative
  | some (scheme, rest) =>
    if scheme = "file" then checkFile rest
    else if isSpecial scheme then
      checkAuthority true (rest.dropWhile fun c => c = '/' || c = '\\')
    else
      match rest with
      | '/' :: '/' :: rest => checkAuthority false rest
      | _ => .ok ()

def isValid (text : String) : Bool := (check text).isOk

end RpcContract.Text.Url
