import RpcContract.CommandLine.Outcome
import RpcContract.CommandLine.Options
import RpcContract.Config.Loading
import RpcContract.Config.Saving
import RpcContract.OpenRpc.Emission

/-!
The program that generates a document. What its options say counts before the configuration; asked
to write the configuration, it does only that.
-/

namespace RpcContract.CommandLine.Generate

def forms : List OptionForm := [
  ⟨"methods", none, .path, true⟩,
  ⟨"schemas", none, .path, true⟩,
  ⟨"output", some 'o', .path, false⟩,
  ⟨"inline", none, .nothing, false⟩,
  ⟨"config", none, .text, false⟩,
  ⟨"write-config", none, .path, false⟩,
  ⟨"verbose", some 'v', .nothing, false⟩]

structure Request where
  methods : List String
  schemas : List String
  output : Option String
  inlined : Bool
  config : Option String
  writeConfig : Option String
deriving DecidableEq, Repr

def Request.ofGiven (given : Given) : Request where
  methods := given.all "methods"
  schemas := given.all "schemas"
  output := given.first? "output"
  inlined := given.has "inline"
  config := given.first? "config"
  writeConfig := given.first? "write-config"

/-- The configuration with what was asked for in its place. -/
def Request.override (r : Request) (c : Config) : Config :=
  let g := c.generate
  { c with generate := { g with
      methods := if r.methods = [] then g.methods else r.methods
      schemas := if r.schemas = [] then g.schemas else r.schemas
      output := r.output.or g.output
      inlined := g.inlined || r.inlined } }

inductive Fault where
  | config (fault : Config.LoadFault)
  | saving (path : String) (fault : FileFault)
  | emission (fault : OpenRpc.EmissionFault)
deriving DecidableEq, Repr

def Fault.message : Fault → String
  | .config fault => "failed to load config: " ++ fault.message
  | .saving path fault => "failed to write config to " ++ path ++ ": " ++ fault.text
  | .emission fault => fault.message

def saveConfig (disk : Disk) (c : Config) (path : String) :
    Disk × Except Fault OpenRpc.Emitted :=
  match c.save disk path with
  | .error fault => (disk, .error (.saving path fault))
  | .ok disk => (disk, .ok (.wrote path))

def answer (s : Config.Surroundings) (stamp : String) (r : Request) :
    Disk × Except Fault OpenRpc.Emitted :=
  match Config.load s r.config with
  | .error fault => (s.disk, .error (.config fault))
  | .ok c =>
    let c := r.override c
    match r.writeConfig with
    | some path => saveConfig s.disk c path
    | none =>
      let (disk, made) := OpenRpc.emit s.disk (c.dumpDir s) stamp c
      (disk, made.mapError .emission)

/-- The line that tells what has been made. -/
def line : OpenRpc.Emitted → String
  | .valid methods schemas =>
    "✅ spec is valid (" ++ toString methods ++ " methods, " ++ toString schemas ++ " schemas)"
  | .wrote path => "✅ wrote " ++ path

def usage : String := "Usage: specgen [OPTIONS]"

def help : String :=
  "Assemble and validate an OpenRPC spec from fragments

" ++ usage ++ "

Options:
      --methods <METHODS>    Method fragment files or directories
      --schemas <SCHEMAS>    Schema fragment files or directories
  -o, --output <OUTPUT>      Write the spec here instead of only validating it
      --inline               Emit schemas with every $ref and allOf resolved
      --config <CONFIG>      Config file (defaults to openrpc.toml lookup)
      --write-config <PATH>  Write the effective configuration to this file and exit
  -v, --verbose              Verbose output
  -h, --help                 Print help"

def run (s : Config.Surroundings) (stamp : String) (words : List String) : Outcome :=
  match readOptions forms words with
  | .error .help => .success s.disk help
  | .error .misuse => ⟨.misuse, "", usage ++ "\n", s.disk⟩
  | .ok given =>
    match answer s stamp (.ofGiven given) with
    | (disk, .ok made) => .success disk (line made)
    | (disk, .error fault) => .failure disk fault.message

end RpcContract.CommandLine.Generate
