import RpcContract.OpenRpc.Assembly

/-!
The configuration: what describes the document, how it is generated, and how exchanges are checked.
-/

namespace RpcContract

structure Generation where
  methods : List String
  schemas : List String
  output : Option String
  layout : OpenRpc.Layout
  inlined : Bool
  writeChecksum : Bool
  dumpDir : Option String
deriving DecidableEq, Repr

def Generation.default : Generation :=
  ⟨["src/methods"], ["src/schemas"], none, .pretty, false, false, none⟩

structure Checking where
  spec : String
  tests : String
  regexp : String
  skipMarker : String
deriving DecidableEq, Repr

def Checking.default : Checking := ⟨"openrpc.json", "tests", ".*", "invalid"⟩

structure Config where
  info : OpenRpc.Info
  generate : Generation
  check : Checking
deriving DecidableEq, Repr

def Config.default : Config := ⟨.none, .default, .default⟩

/-- Every path that a configuration names. -/
def Config.paths (c : Config) : List String :=
  c.generate.methods ++ c.generate.schemas ++ c.generate.output.toList ++
    c.generate.dumpDir.toList ++ [c.check.spec, c.check.tests]

namespace OpenRpc.Layout

def name : Layout → String
  | .pretty => "pretty"
  | .compact => "compact"

def names : List String := ["pretty", "compact"]

def ofName? (s : String) : Option Layout :=
  if s = "pretty" then some .pretty else if s = "compact" then some .compact else none

end OpenRpc.Layout

/-! The names of the sections and of their fields. -/

namespace Config

def sections : List String := ["info", "generate", "check"]

def infoFields : List String :=
  ["title", "version", "description", "license_name", "license_url", "openrpc"]

def generateFields : List String :=
  ["methods", "schemas", "output", "output_format", "inline", "write_checksum", "dump_dir"]

def checkFields : List String := ["spec", "tests", "regexp", "skip_marker"]

end Config

end RpcContract
