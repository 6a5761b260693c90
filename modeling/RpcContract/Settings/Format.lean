import RpcContract.Decimal.Layout
import RpcContract.Json.Reader
import RpcContract.Settings.Basic
import RpcContract.Settings.Ini
import RpcContract.Text.Quoted
import RpcContract.Toml.Reader
import RpcContract.Yaml.Value

/-!
The formats of configuration files: how the text of a file is read as a table of settings.
-/

namespace RpcContract.Settings

inductive Format where
  | toml
  | json
  | yaml
  | ini
deriving DecidableEq, Repr

def Format.extensions : Format → List String
  | .toml => ["toml"]
  | .json => ["json"]
  | .yaml => ["yaml", "yml"]
  | .ini => ["ini"]

def Format.all : List Format := [.toml, .json, .yaml, .ini]

def Format.ofExtension? (extension : String) : Option Format :=
  Format.all.find? (·.extensions.contains extension)

inductive TextFault where
  | toml
  | json (error : Json.ReadError)
  | yaml
  | ini
  /-- The text stands for something else than a table. -/
  | root (origin found : String)
deriving DecidableEq, Repr

def TextFault.text : TextFault → String
  | .toml => "<toml error>"
  | .json error => error.message
  | .yaml => "<yaml error>"
  | .ini => "<ini error>"
  | .root origin found => "invalid type: " ++ found ++ ", expected a map in " ++ origin

def boolText (b : Bool) : String := if b then "true" else "false"

/-- What a setting is, for a reader of the file. -/
def found : Setting → String
  | .scalar _ .nil => "unit value"
  | .scalar _ (.bool b) => "boolean `" ++ boolText b ++ "`"
  | .scalar _ (.int n) => "64-bit integer `" ++ toString n ++ "`"
  | .scalar _ (.float bits) => "floating point `" ++ Decimal.plain.writeBits bits ++ "`"
  | .scalar _ (.text s) => "string " ++ Text.quoted s
  | .list .. => "sequence"
  | .table .. => "map"

section

variable (origin : String)

mutual

def ofToml : Toml.Value → Setting
  | .text s => .scalar origin (.text s)
  | .int n => .scalar origin (.int n)
  | .float bits => .scalar origin (.float bits)
  | .bool b => .scalar origin (.bool b)
  | .moment s => .scalar origin (.text s)
  | .array items => .list origin (ofTomlItems items)
  | .table entries => .table origin (ofTomlEntries entries)

def ofTomlItems : List Toml.Value → List Setting
  | [] => []
  | v :: vs => ofToml v :: ofTomlItems vs

def ofTomlEntries : List (String × Toml.Value) → List (String × Setting)
  | [] => []
  | (name, v) :: vs => (name, ofToml v) :: ofTomlEntries vs

end

/-- An integer of more than 63 bits becomes a floating-point number. -/
def ofNumber : Number → Scalar
  | .int n => if n < Nat.pow 2 63 then .int n else .float (Decimal.nearest n.toNat 0)
  | .float bits => .float bits

mutual

def ofJson : Json → Setting
  | .null => .scalar origin .nil
  | .bool b => .scalar origin (.bool b)
  | .num x => .scalar origin (ofNumber x)
  | .str s => .scalar origin (.text s)
  | .arr items => .list origin (ofJsonItems items)
  | .obj members => .table origin (ofJsonMembers members)

def ofJsonItems : List Json → List Setting
  | [] => []
  | v :: vs => ofJson v :: ofJsonItems vs

def ofJsonMembers : List (String × Json) → List (String × Setting)
  | [] => []
  | (name, v) :: vs => (name, ofJson v) :: ofJsonMembers vs

end

/-! In YAML files of settings plain text is a number where it reads as one, zeros at its start
included. -/

def int64? (n : Int) : Option Scalar :=
  if -(Nat.pow 2 63 : Int) ≤ n ∧ n < Nat.pow 2 63 then some (.int n) else none

def yamlRadix? (cs : List Char) : Option Scalar :=
  match cs with
  | '0' :: 'x' :: ds => (Yaml.natOf? 16 ds).bind fun n => int64? n
  | '0' :: 'o' :: ds => (Yaml.natOf? 8 ds).bind fun n => int64? n
  | _ => none

def yamlPlain? (text : String) : Option Scalar :=
  if text = "" ∨ text = "~" ∨ text = "null" then some .nil
  else if text = "true" then some (.bool true)
  else if text = "false" then some (.bool false)
  else
    match (yamlRadix? text.toList).or ((Decimal.int? text).bind int64?) with
    | some scalar => some scalar
    | none =>
      if [".inf", ".Inf", ".INF", "+.inf", "+.Inf", "+.INF", "-.inf", "-.Inf", "-.INF", ".nan",
          ".NAN"].contains text then none
      else some (((Decimal.bits? text).map .float).getD (.text text))

def yamlConstruct : Yaml.Construct Setting where
  scalar tag text plain :=
    if plain ∧ tag.isNone then (yamlPlain? text).map (.scalar (some origin))
    else some (.scalar origin (.text text))
  sequence _ items := some (.list origin items)
  mapping _ entries := some (.table origin (Dict.ofList entries))

/-- The tables of the sections beside what stands before the first; of two sections of one name
the later counts. -/
def ofIni (sections : List Ini.Section) : List (String × Setting) :=
  sections.foldl (fun root part =>
    let entries := part.entries.map fun (key, text) =>
      (key, Setting.scalar (some origin) (.text text))
    match part.heading with
    | none => Dict.ofList entries
    | some name => Dict.insert root name (.table origin (Dict.ofList entries))) []

def read? (format : Format) (text : String) : Except TextFault Setting :=
  match format with
  | .toml =>
    match Toml.read? text with
    | some entries => .ok (.table origin (ofTomlEntries origin entries))
    | none => .error .toml
  | .json => (Json.read text).mapError .json |>.map (ofJson origin)
  | .yaml =>
    match (yamlConstruct origin).ofText? text with
    | some (some setting) => .ok setting
    | some none => .ok (.table origin [])
    | none => .error .yaml
  | .ini =>
    match Ini.read? text with
    | some sections => .ok (.table origin (ofIni origin sections))
    | none => .error .ini

/-- The entries of the table that the text of a file stands for. -/
def entriesOfText (format : Format) (text : String) :
    Except TextFault (List (String × Setting)) := do
  match ← read? origin format text with
  | .table _ entries => .ok entries
  | other => .error (.root origin (found other))

end

end RpcContract.Settings
