import RpcContract.Config.Basic
import RpcContract.Files.Disk
import RpcContract.Toml.Printer

/-!
Saving the configuration as a TOML document. Options that are not set are left out.
-/

namespace RpcContract.Config

def textEntry (name : String) (text : Option String) : List (String × Toml.Item) :=
  match text with
  | some text => [(name, .text text)]
  | none => []

def infoEntries (info : OpenRpc.Info) : List (String × Toml.Item) :=
  textEntry "title" info.title ++ textEntry "version" info.version ++
    textEntry "description" info.description ++ textEntry "license_name" info.licenseName ++
    textEntry "license_url" info.licenseUrl ++ textEntry "openrpc" info.openrpc

def generateEntries (g : Generation) : List (String × Toml.Item) :=
  [("methods", .texts g.methods), ("schemas", .texts g.schemas)] ++ textEntry "output" g.output ++
    [("output_format", .text g.layout.name), ("inline", .flag g.inlined),
      ("write_checksum", .flag g.writeChecksum)] ++ textEntry "dump_dir" g.dumpDir

def checkEntries (c : Checking) : List (String × Toml.Item) :=
  [("spec", .text c.spec), ("tests", .text c.tests), ("regexp", .text c.regexp),
    ("skip_marker", .text c.skipMarker)]

def saved (c : Config) : String :=
  Toml.document [⟨"info", infoEntries c.info⟩, ⟨"generate", generateEntries c.generate⟩,
    ⟨"check", checkEntries c.check⟩]

/-- Saves the configuration to a file; directories that lack are made. -/
def save (c : Config) (disk : Disk) (path : String) : Except FileFault Disk := do
  (← disk.makeParents path).write path c.saved

end RpcContract.Config
