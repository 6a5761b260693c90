import RpcContract.Settings.Format
import RpcContract.Settings.Key

/-!
Taking typed values out of settings. Numbers and truth values pass for texts, and some texts and
all numbers for truth values.
-/

namespace RpcContract.Settings

inductive DecodeFault where
  /-- A single value of the wrong type, with the place of the setting. -/
  | wrongType (found expected : String) (path : List Step) (origin : Option String)
  /-- A value of the wrong shape. -/
  | wrongShape (found expected : String)
  | noSingleChoice (type : String)
  | noChoice (type choice : String)
deriving DecidableEq, Repr

/-- Names are parted by points, and indices stand in brackets. -/
def pathText : List Step → String
  | [] => ""
  | .index i :: rest => "[" ++ toString i ++ "]" ++ pathText rest
  | [.child name] => name
  | .child name :: .index i :: rest => name ++ pathText (.index i :: rest)
  | .child name :: rest => name ++ "." ++ pathText rest

def DecodeFault.message : DecodeFault → String
  | .wrongType found expected path origin =>
    "invalid type: " ++ found ++ ", expected " ++ expected ++
      (if path = [] then "" else " for key `" ++ pathText path ++ "`") ++
      match origin with
      | some origin => " in " ++ origin
      | none => ""
  | .wrongShape found expected => "invalid type: " ++ found ++ ", expected " ++ expected
  | .noSingleChoice type =>
    "value of enum " ++ type ++
      " should be represented by either string or table with exactly one key"
  | .noChoice type choice => "enum " ++ type ++ " does not have variant constructor " ++ choice

abbrev Decoded (α : Type) := Except DecodeFault α

/-- Tells at which step of a path a value failed. -/
def within (step : Step) (r : Decoded α) : Decoded α :=
  r.mapError fun
    | .wrongType found expected path origin => .wrongType found expected (step :: path) origin
    | fault => fault

/-- Positional, with a point in any case. -/
def pointed : Decimal.Layout := ⟨fun _ => true, true⟩

/-- What a setting is, where its shape counts. -/
def shape : Setting → String
  | .scalar _ (.int n) => "integer `" ++ toString n ++ "`"
  | .scalar _ (.float bits) => "floating point `" ++ pointed.writeBits bits ++ "`"
  | setting => found setting

def refuse (setting : Setting) (expected : String) : Decoded α :=
  .error (.wrongType (found setting) expected [] (originOf setting))

def decodeText (setting : Setting) : Decoded String :=
  match setting with
  | .scalar _ (.text s) => .ok s
  | .scalar _ (.bool b) => .ok (boolText b)
  | .scalar _ (.int n) => .ok (toString n)
  | .scalar _ (.float bits) => .ok (Decimal.plain.writeBits bits)
  | setting => refuse setting "a string"

def isZero (bits : UInt64) : Bool := bits = 0 || bits = 0x8000000000000000

def truthOf? (s : String) : Option Bool :=
  if ["1", "true", "on", "yes"].contains s then some true
  else if ["0", "false", "off", "no"].contains s then some false
  else none

def decodeBool (setting : Setting) : Decoded Bool :=
  match setting with
  | .scalar _ (.bool b) => .ok b
  | .scalar _ (.int n) => .ok (n != 0)
  | .scalar _ (.float bits) => .ok (!isZero bits)
  | .scalar origin (.text s) =>
    let s := Text.lowercase s
    match truthOf? s with
    | some b => .ok b
    | none => refuse (.scalar origin (.text s)) "a boolean"
  | setting => refuse setting "a boolean"

def decodeOption (decode : Setting → Decoded α) (setting : Setting) : Decoded (Option α) :=
  match setting with
  | .scalar _ .nil => .ok none
  | setting => (decode setting).map some

def eachFrom (i : Nat) (f : Nat → α → Decoded β) : List α → Decoded (List β)
  | [] => .ok []
  | a :: as => do
    let b ← f i a
    return b :: (← eachFrom (i + 1) f as)

def decodeList (decode : Setting → Decoded α) (setting : Setting) : Decoded (List α) :=
  match setting with
  | .list _ items => eachFrom 0 (fun i item => within (.index i) (decode item)) items
  | setting => .error (.wrongShape (shape setting) "a sequence")

/-- A choice of a type, by name in any case; a table with a single entry is named by its key. -/
def decodeChoice (type : String) (ofName? : String → Option α) (setting : Setting) : Decoded α :=
  let named (name : String) : Decoded α :=
    match ofName? (Text.lowercase name) with
    | some a => .ok a
    | none => .error (.noChoice type name)
  match setting with
  | .scalar _ (.text name) => named name
  | .table _ [(name, _)] => named name
  | _ => .error (.noSingleChoice type)

/-- A record, from a table or a list of its fields in order; other names of a table are passed
over. -/
def decodeRecord (type : String) (fields : List String) (initial : α)
    (set : α → String → Setting → Decoded α) (setting : Setting) : Decoded α :=
  match setting with
  | .table _ entries =>
    (entries.filter fun e => fields.contains e.1).foldlM
      (fun a e => within (.child e.1) (set a e.1 e.2)) initial
  | .list _ items =>
    (fields.zip items).zipIdx.foldlM
      (fun a e => within (.index e.2) (set a e.1.1 e.1.2)) initial
  | setting => .error (.wrongShape (shape setting) ("struct " ++ type))

end RpcContract.Settings
