import RpcContract.CommandLine.Outcome
import RpcContract.CommandLine.Options
import RpcContract.Config.Loading
import RpcContract.Exchange.Check
import RpcContract.Exchange.Reading
import RpcContract.Method.Reading
import RpcContract.Pattern.Reader
import RpcContract.Pattern.Search

/-!
The program that checks recorded exchanges against a document. What its options say counts before
the configuration.
-/

namespace RpcContract.CommandLine.Check

def forms : List OptionForm := [
  ⟨"spec", none, .path, false⟩,
  ⟨"tests", none, .path, false⟩,
  ⟨"regexp", none, .text, false⟩,
  ⟨"report", none, .path, false⟩,
  ⟨"config", none, .text, false⟩,
  ⟨"verbose", some 'v', .nothing, false⟩]

structure Request where
  spec : Option String
  tests : Option String
  regexp : Option String
  report : Option String
  config : Option String
deriving DecidableEq, Repr

def Request.ofGiven (given : Given) : Request where
  spec := given.first? "spec"
  tests := given.first? "tests"
  regexp := given.first? "regexp"
  report := given.first? "report"
  config := given.first? "config"

/-- How exchanges are checked, with what was asked for in its place. -/
def Request.override (r : Request) (c : Checking) : Checking :=
  ⟨r.spec.getD c.spec, r.tests.getD c.tests, r.regexp.getD c.regexp, c.skipMarker⟩

inductive Fault where
  | config (fault : Config.LoadFault)
  | pattern (text : String)
  | spec (path : String) (error : Error)
  | fixtures (root : String) (error : Error)
  | exchange (error : Error)
  | report (path : String) (fault : FileFault)
deriving DecidableEq, Repr

def Fault.message : Fault → String
  | .config fault => "failed to load config: " ++ fault.message
  | .pattern text => "invalid --regexp " ++ Text.quoted text ++ ": <regex error>"
  | .spec path error => "unable to read spec " ++ path ++ ": " ++ error.report
  | .fixtures root error => "unable to read fixtures under " ++ root ++ ": " ++ error.report
  | .exchange error => error.report
  | .report path fault => "failed to write report " ++ path ++ ": " ++ fault.text

/-- Checks the exchanges under a root whose fixtures are selected. -/
def conform (disk : Disk) (c : Checking) : Except Fault Report := do
  let pattern ← match Pattern.read? .plain c.regexp with
    | some pattern => .ok pattern
    | none => .error (.pattern c.regexp)
  let methods ← (Methods.read disk c.spec).mapError (.spec c.spec)
  let exchanges ←
    (Fixture.readAll disk c.tests pattern.occursIn).mapError (.fixtures c.tests)
  (checkAll methods c.skipMarker exchanges).mapError .exchange

/-- A report as a document that says what was checked and when. -/
def summary (c : Checking) (now : String) (r : Report) : Json :=
  .obj [("checked", .ofNat r.checked), ("generated_at", .str now), ("regexp", .str c.regexp),
    ("skipped", .ofNat r.skipped), ("spec", .str c.spec), ("tests", .str c.tests)]

def answer (s : Config.Surroundings) (now : String) (r : Request) : Disk × Except Fault Report :=
  match Config.load s r.config with
  | .error fault => (s.disk, .error (.config fault))
  | .ok c =>
    let checking := r.override c.check
    match conform s.disk checking, r.report with
    | .error fault, _ => (s.disk, .error fault)
    | .ok report, none => (s.disk, .ok report)
    | .ok report, some path =>
      match s.disk.write path (summary checking now report).pretty with
      | .error fault => (s.disk, .error (.report path fault))
      | .ok disk => (disk, .ok report)

def line (r : Report) : String :=
  "✅ all passing (" ++ toString r.checked ++ " checked, " ++ toString r.skipped ++ " skipped)"

def usage : String := "Usage: speccheck [OPTIONS]"

def help : String :=
  "Check recorded exchanges against an OpenRPC spec

" ++ usage ++ "

Options:
      --spec <SPEC>      Spec document
      --tests <TESTS>    Fixture root directory
      --regexp <REGEXP>  Only check fixtures whose name matches
      --report <REPORT>  Write a JSON summary here
      --config <CONFIG>  Config file (defaults to openrpc.toml lookup)
  -v, --verbose          Verbose output
  -h, --help             Print help"

def run (s : Config.Surroundings) (now : String) (words : List String) : Outcome :=
  match readOptions forms words with
  | .error .help => .success s.disk help
  | .error .misuse => ⟨.misuse, "", usage ++ "\n", s.disk⟩
  | .ok given =>
    match answer s now (.ofGiven given) with
    | (disk, .ok report) => .success disk (line report)
    | (disk, .error fault) => .failure disk fault.message

end RpcContract.CommandLine.Check
