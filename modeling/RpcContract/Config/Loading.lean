import RpcContract.Config.OfSettings
import RpcContract.Settings.Source

/-!
Loading the configuration. Settings come, later ones over earlier ones, from three files in the
working directory, the user's own file, a file that is asked for, and the environment.
-/

namespace RpcContract.Config

/-- What a program finds around it. `userFile` is the path of the user's configuration file and
`temporary` the directory for what nobody asked for. -/
structure Surroundings where
  disk : Disk
  environment : List (String × String)
  userFile : String
  temporary : String

inductive LoadFault where
  | source (fault : Settings.SourceFault)
  | value (fault : Settings.DecodeFault)
deriving DecidableEq, Repr

def LoadFault.message : LoadFault → String
  | .source fault => fault.message
  | .value fault => fault.message

def commonFiles : List String := ["openrpc.toml", ".openrpc.toml", "config/openrpc.toml"]

/-- The settings of all sources together. -/
def settings (s : Surroundings) (path : Option String) : Except Settings.SourceFault Settings := do
  let files := commonFiles ++ if (s.disk.at? s.userFile).isSome then [s.userFile] else []
  let common ← files.mapM (Settings.ofOptionalFile s.disk)
  let asked ← match path with
    | some path => Settings.ofFile s.disk path
    | none => .ok []
  let sources := common ++ [asked, Settings.ofVariables s.environment]
  return sources.foldl Settings.assignAll []

def load (s : Surroundings) (path : Option String) : Except LoadFault Config := do
  let settings ← (settings s path).mapError .source
  (ofSettings settings).mapError .value

/-- The directory for documents that fail validation. -/
def dumpDir (c : Config) (s : Surroundings) : String := c.generate.dumpDir.getD s.temporary

end RpcContract.Config
