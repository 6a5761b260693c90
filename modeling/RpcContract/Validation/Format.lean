import RpcContract.Pattern.Ecma
import RpcContract.Pattern.Search
import RpcContract.Text.Moment
import RpcContract.Text.Url

/-!
The formats that a text can be asked to have. A format that is not listed here asks for nothing.
-/

namespace RpcContract.Validation

def matchesPlain (pattern : String) (text : String) : Bool :=
  (Pattern.read? .plain pattern).any (·.occursIn text)

def timePattern : String :=
  "^([01][0-9]|2[0-3]):([0-5][0-9]):([0-5][0-9])(\\.[0-9]\x7b6\x7d)?" ++
    "(([Zz])|([+|\\-]([01][0-9]|2[0-3]):[0-5][0-9]))\\z"

def referencePattern : String := "^(\\w+:(/?/?))?[^#\\\\\\s]*(#[^\\\\\\s]*)?\\z"

def pointerPattern : String := "^(/(([^/~])|(~[01]))*)*\\z"

def relativePointerPattern : String :=
  "^(?:0|[1-9][0-9]*)(?:#|(?:/(?:[^/~]|~0|~1)*)*)\\z"

/-- Text outside braces, and in braces a list of variables with their modifiers. -/
def templatePattern : String :=
  let names := "(?:[a-z0-9_]|%[0-9a-f]\x7b2\x7d)+(?::[1-9][0-9]\x7b0,3\x7d|\\*)?"
  "^(?:(?:[^\\x00-\\x20\"'<>%\\\\^`\x7b|\x7d]|%[0-9a-f]\x7b2\x7d)|\\\x7b[+#./;?&=,!@|]?" ++
    names ++ "(?:," ++ names ++ ")*\\\x7d)*\\z"

/-- Looks at the characters up to the first `@` that follows another one. -/
def isMailbox : List Char → Bool
  | a :: b :: cs =>
    if a = '.' ∧ (b = '.' ∨ b = '@') then false
    else if b = '@' then true
    else isMailbox (b :: cs)
  | _ => false

def isMail (text : String) : Bool :=
  text.toList.head? ≠ some '.' && isMailbox text.toList

def isHostname (text : String) : Bool :=
  let cs := text.toList
  cs ≠ [] && cs.head? ≠ some '-' && cs.getLast? ≠ some '-' && cs.length ≤ 255 &&
    (cs.all fun c => Text.isAlphanumeric c || c = '-' || c = '.') &&
    (Text.splitOn '.' cs).all fun part => part.length ≤ 63

/-- Whether a text has a format. -/
def hasFormat (format text : String) : Bool :=
  match format with
  | "date" => Text.Moment.isDate text
  | "date-time" => Text.Moment.isMoment text
  | "time" => matchesPlain timePattern text
  | "email" => isMail text
  | "idn-email" => isMail text
  | "hostname" => isHostname text
  | "idn-hostname" => isHostname text
  | "ipv4" => text.toList.head? ≠ some '0' && Text.isAddress4 text.toList
  | "ipv6" => Text.isAddress6 text.toList
  | "uri" => Text.Url.isValid text
  | "iri" => Text.Url.isValid text
  | "uri-reference" => matchesPlain referencePattern text
  | "iri-reference" => matchesPlain referencePattern text
  | "uri-template" => matchesPlain templatePattern text
  | "json-pointer" => matchesPlain pointerPattern text
  | "relative-json-pointer" => matchesPlain relativePointerPattern text
  | "regex" => (Pattern.ofSchema? text).isSome
  | _ => true

end RpcContract.Validation
