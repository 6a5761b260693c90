import RpcContract.Checksum.SumFile
import RpcContract.Config.Basic
import RpcContract.OpenRpc.Dump
import RpcContract.OpenRpc.Loading

/-!
Making the document of a configuration: its fragments are loaded, the document is validated and, if
the configuration names an output, written there. A document that fails validation is kept for
inspection and no output is touched.
-/

namespace RpcContract.OpenRpc

inductive EmissionFault where
  | methods (error : Error)
  | schemas (error : Error)
  | document (error : Error)
  | output (path : String) (fault : FileFault)
  | readBack (path : String) (fault : FileFault)
  /-- The file does not hold what was written to it. -/
  | mismatch (path : String)
  | checksum (path : String) (fault : FileFault)
deriving DecidableEq, Repr

def EmissionFault.message : EmissionFault → String
  | .methods error => "failed to load methods: " ++ error.report
  | .schemas error => "failed to load schemas: " ++ error.report
  | .document error => error.report
  | .output path fault => "failed to write " ++ path ++ ": " ++ fault.text
  | .readBack path fault => "failed to read back " ++ path ++ ": " ++ fault.text
  | .mismatch path => path ++ " does not match the generated spec"
  | .checksum path fault => "failed to write checksum for " ++ path ++ ": " ++ fault.text

/-- What has been made. -/
inductive Emitted where
  | valid (methods schemas : Nat)
  | wrote (path : String)
deriving DecidableEq, Repr

/-- An assembly of the fragments that a configuration names. -/
structure Loaded where
  assembly : Assembly
  methods : Nat
  schemas : Nat
deriving DecidableEq, Repr

def loadFragments (disk : Disk) (c : Config) : Except EmissionFault Loaded :=
  match loadMethods disk (Assembly.empty.withInfo c.info) c.generate.methods with
  | (_, .error e) => .error (.methods e)
  | (a, .ok methods) =>
    match loadSchemas disk a c.generate.schemas with
    | (_, .error e) => .error (.schemas e)
    | (a, .ok schemas) => .ok ⟨a, methods, schemas⟩

/-- Validates the document that would be written. -/
def Assembly.confirm (a : Assembly) (inlined : Bool) : Except Error Unit :=
  if inlined then a.sorted.validateExpanded else a.sorted.validate

/-- The text of the document that is written. -/
def Assembly.text (a : Assembly) (inlined : Bool) (layout : Layout) : Except Error String :=
  if inlined then a.serializeExpanded layout else a.serialize layout

/-- Writes the text of a document and, where it is asked for, its checksum beside it. -/
def writeOutput (disk : Disk) (path text : String) (withChecksum : Bool) :
    Disk × Except EmissionFault Emitted :=
  match disk.write path text with
  | .error fault => (disk, .error (.output path fault))
  | .ok disk =>
    match disk.read path with
    | .error fault => (disk, .error (.readBack path fault))
    | .ok written =>
      let checksum := Checksum.ofText text
      if !Checksum.verify checksum written then (disk, .error (.mismatch path))
      else if withChecksum then
        match Checksum.writeFor checksum path disk with
        | .error fault => (disk, .error (.checksum path fault))
        | .ok disk => (disk, .ok (.wrote path))
      else (disk, .ok (.wrote path))

/-- Makes the document of a configuration. A document that fails goes to `dumpDir`, where `stamp`
tells it from others. -/
def emit (disk : Disk) (dumpDir stamp : String) (c : Config) :
    Disk × Except EmissionFault Emitted :=
  match loadFragments disk c with
  | .error fault => (disk, .error fault)
  | .ok loaded =>
    let g := c.generate
    match g.output with
    | none =>
      match loaded.assembly.confirm g.inlined with
      | .error e => (dump disk dumpDir stamp e, .error (.document e))
      | .ok () => (disk, .ok (.valid loaded.methods loaded.schemas))
    | some path =>
      match loaded.assembly.text g.inlined g.layout with
      | .error e => (dump disk dumpDir stamp e, .error (.document e))
      | .ok text => writeOutput disk path text g.writeChecksum

end RpcContract.OpenRpc
