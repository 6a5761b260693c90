import RpcContract.Config.Basic
import RpcContract.Settings.Decode

/-!
Taking a configuration out of settings. What is not set keeps its default.
-/

namespace RpcContract.Config

open Settings (Decoded decodeText decodeBool decodeOption decodeList decodeChoice decodeRecord)

def infoFrom (info : OpenRpc.Info) (field : String) (value : Setting) : Decoded OpenRpc.Info := do
  let text ← decodeOption decodeText value
  return match field with
    | "title" => { info with title := text }
    | "version" => { info with version := text }
    | "description" => { info with description := text }
    | "license_name" => { info with licenseName := text }
    | "license_url" => { info with licenseUrl := text }
    | _ => { info with openrpc := text }

def generateFrom (g : Generation) (field : String) (value : Setting) : Decoded Generation :=
  match field with
  | "methods" => do return { g with methods := ← decodeList decodeText value }
  | "schemas" => do return { g with schemas := ← decodeList decodeText value }
  | "output" => do return { g with output := ← decodeOption decodeText value }
  | "output_format" => do
    return { g with layout := ← decodeChoice "OutputFormat" OpenRpc.Layout.ofName? value }
  | "inline" => do return { g with inlined := ← decodeBool value }
  | "write_checksum" => do return { g with writeChecksum := ← decodeBool value }
  | _ => do return { g with dumpDir := ← decodeOption decodeText value }

def checkFrom (c : Checking) (field : String) (value : Setting) : Decoded Checking :=
  match field with
  | "spec" => do return { c with spec := ← decodeText value }
  | "tests" => do return { c with tests := ← decodeText value }
  | "regexp" => do return { c with regexp := ← decodeText value }
  | _ => do return { c with skipMarker := ← decodeText value }

def sectionFrom (c : Config) (field : String) (value : Setting) : Decoded Config :=
  match field with
  | "info" => do
    return { c with info := ← decodeRecord "InfoConfig" infoFields .none infoFrom value }
  | "generate" => do
    return { c with
      generate := ← decodeRecord "GenerateConfig" generateFields .default generateFrom value }
  | _ => do
    return { c with check := ← decodeRecord "CheckConfig" checkFields .default checkFrom value }

def ofSettings (settings : Settings) : Decoded Config :=
  decodeRecord "SpecConfig" sections .default sectionFrom (.table none settings)

end RpcContract.Config
