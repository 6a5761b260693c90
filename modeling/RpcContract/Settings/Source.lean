import RpcContract.Files.Disk
import RpcContract.Settings.Format
import RpcContract.Settings.Key
import RpcContract.Text.Utf8

/-!
Where settings come from: files, which need not be named with their extension, and variables of the
environment. Later sources are laid over earlier ones.
-/

namespace RpcContract.Settings

inductive SourceFault where
  | notFound (name : String)
  | unknownFormat (path : String)
  | text (path : String) (fault : TextFault)
deriving DecidableEq, Repr

def SourceFault.message : SourceFault → String
  | .notFound name => "configuration file \"" ++ name ++ "\" not found"
  | .unknownFormat path =>
    "configuration file \"" ++ path ++ "\" is not of a registered file format"
  | .text path fault => fault.text ++ " in " ++ path

/-! Files -/

/-- A file that holds settings. -/
structure Found where
  path : String
  format : Format
deriving DecidableEq, Repr

/-- The file that has a name but for its extension. -/
def completed? (disk : Disk) (name : String) : Option Found :=
  match Path.fileName? name with
  | none => none
  | some _ =>
    let stem := "/".intercalate ((if Path.isAbsolute name then [""] else []) ++ Path.names name)
    (Format.all.flatMap fun f => f.extensions.map fun e => Found.mk (stem ++ "." ++ e) f).find?
      fun found => disk.isFile found.path

/-- The file of a name, which may lack the extension. -/
def find (disk : Disk) (name : String) : Except SourceFault Found :=
  if disk.isFile name then
    match (Path.extension? name).bind Format.ofExtension? with
    | some format => .ok ⟨name, format⟩
    | none =>
      .error (.unknownFormat (Path.join ("/" ++ "/".intercalate disk.directory) name))
  else
    match completed? disk name with
    | some found => .ok found
    | none => .error (.notFound name)

/-- How a file is called from the working directory. -/
def originOfPath (disk : Disk) (path : String) : String :=
  "/".intercalate (Path.between disk.directory ((disk.partsOf path).filter fun part =>
    part != "" && part != "."))

/-- The text of a file without a mark of the byte order. -/
def textOf (content : Content) : String :=
  let text := match content with
    | .text s => s
    | .bytes b => Text.Utf8.repair b
  match text.toList with
  | '\uFEFF' :: cs => String.ofList cs
  | _ => text

/-- The settings of a file. -/
def ofFile (disk : Disk) (name : String) : Except SourceFault (List (String × Setting)) := do
  let found ← find disk name
  let origin := originOfPath disk found.path
  match disk.content found.path with
  | .ok content => (entriesOfText origin found.format (textOf content)).mapError (.text origin)
  | .error _ => .error (.notFound name)

/-- The settings of a file that may be missing, or of no known format. -/
def ofOptionalFile (disk : Disk) (name : String) :
    Except SourceFault (List (String × Setting)) :=
  match ofFile disk name with
  | .error (.text path fault) => .error (.text path fault)
  | .error _ => .ok []
  | .ok entries => .ok entries

/-! Variables -/

def variableOrigin : String := "the environment"

def isTruthWord (s : String) : Option Bool :=
  if s = "true" then some true else if s = "false" then some false else none

/-- The value of a variable: a truth value in any case, a number, or else its text. -/
def scalarOf (text : String) : Scalar :=
  match isTruthWord (Text.lowercase text) with
  | some b => .bool b
  | none =>
    match (Decimal.int? text).bind int64? with
    | some n => n
    | none =>
      match Decimal.bits? text with
      | some bits => .float bits
      | none => .text text

/-- Double underscores, from the left, become points. -/
def withPoints : List Char → List Char
  | '_' :: '_' :: cs => '.' :: withPoints cs
  | c :: cs => c :: withPoints cs
  | [] => []

def variableStem : List Char := "openrpc__".toList

/-- The setting of a variable of the environment, if it is one for this program. -/
def ofVariable? (name text : String) : Option (String × Setting) :=
  let cs := (Text.lowercase name).toList
  if variableStem.isPrefixOf cs then
    some (String.ofList (withPoints (cs.drop variableStem.length)),
      .scalar variableOrigin (scalarOf text))
  else none

def ofVariables (environment : List (String × String)) : List (String × Setting) :=
  environment.filterMap fun v => ofVariable? v.1 v.2

end RpcContract.Settings
