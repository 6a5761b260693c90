import RpcContract.Config.Basic
import RpcContract.Json.Decode

/-!
Taking a configuration out of a JSON value. What is missing keeps its default.
-/

namespace RpcContract.Config

open Json (Decoded Form)

def decodePath : Json → Decoded String
  | .str s => .ok s
  | value => value.refuse "path string"

def layoutNamed (name : String) : Decoded OpenRpc.Layout :=
  match OpenRpc.Layout.ofName? name with
  | some layout => .ok layout
  | none => .error (.unknownVariant name OpenRpc.Layout.names)

def decodeLayout : Json → Decoded OpenRpc.Layout
  | .str name => layoutNamed name
  | .obj [(name, value)] => do
    let layout ← layoutNamed name
    match value with
    | .null => .ok layout
    | value => value.refuse "unit"
  | .obj _ => .error .notSingleKey
  | value => value.refuse "string or map"

def infoForm : Form := ⟨"InfoConfig", infoFields, [], []⟩

def setInfo (info : OpenRpc.Info) (field : String) (value : Json) : Decoded OpenRpc.Info := do
  let text ← Json.decodeOption Json.decodeString value
  return match field with
    | "title" => { info with title := text }
    | "version" => { info with version := text }
    | "description" => { info with description := text }
    | "license_name" => { info with licenseName := text }
    | "license_url" => { info with licenseUrl := text }
    | _ => { info with openrpc := text }

def generateForm : Form := ⟨"GenerateConfig", generateFields, [], []⟩

def setGenerate (g : Generation) (field : String) (value : Json) : Decoded Generation :=
  match field with
  | "methods" => do return { g with methods := ← Json.decodeList decodePath value }
  | "schemas" => do return { g with schemas := ← Json.decodeList decodePath value }
  | "output" => do return { g with output := ← Json.decodeOption decodePath value }
  | "output_format" => do return { g with layout := ← decodeLayout value }
  | "inline" => do return { g with inlined := ← Json.decodeBool value }
  | "write_checksum" => do return { g with writeChecksum := ← Json.decodeBool value }
  | _ => do return { g with dumpDir := ← Json.decodeOption decodePath value }

def checkForm : Form := ⟨"CheckConfig", checkFields, [], []⟩

def setCheck (c : Checking) (field : String) (value : Json) : Decoded Checking :=
  match field with
  | "spec" => do return { c with spec := ← decodePath value }
  | "tests" => do return { c with tests := ← decodePath value }
  | "regexp" => do return { c with regexp := ← Json.decodeString value }
  | _ => do return { c with skipMarker := ← Json.decodeString value }

def form : Form := ⟨"SpecConfig", sections, [], []⟩

def setSection (c : Config) (field : String) (value : Json) : Decoded Config :=
  match field with
  | "info" => do return { c with info := ← infoForm.decode .none setInfo value }
  | "generate" => do return { c with generate := ← generateForm.decode .default setGenerate value }
  | _ => do return { c with check := ← checkForm.decode .default setCheck value }

def ofJson (value : Json) : Decoded Config := form.decode .default setSection value

end RpcContract.Config
