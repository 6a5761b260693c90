import RpcContract.Exchange.Fixture
import RpcContract.Method
import RpcContract.Validation.Schema

/-!
Checking exchanges against methods: parameters by their position, then the result. A run stops at
its first failure; exchanges of marked fixtures are skipped.
-/

namespace RpcContract

def checkValue (target fixture : String) (schema value : Json) : Except Error Unit :=
  match Validation.compile (Validation.withDraft schema) with
  | .error reason => .error (.schemaCompile target reason)
  | .ok document =>
    match Validation.violations document value with
    | [] => .ok ()
    | violations =>
      .error (.validationFailed target fixture schema value (violations.map (·.text)))

namespace Exchange

def checkParams (method fixture : String) : Nat → List Descriptor → List Json → Except Error Unit
  | _, [], _ => .ok ()
  | i, param :: params, value :: values => do
    checkValue (method ++ ".param[" ++ toString i ++ "]") fixture param.schema value
    checkParams method fixture (i + 1) params values
  | i, param :: params, [] =>
    if param.required then .error (.missingParameter method fixture i param.name)
    else checkParams method fixture (i + 1) params []

def check (method : Method) (x : Exchange) : Except Error Unit := do
  if method.params.length < x.params.length then
    .error (.tooManyParameters method.name x.fixture method.params.length x.params.length)
  else
    checkParams method.name x.fixture 0 method.params x.params
    match x.result? with
    | some value => checkValue (method.name ++ ".result") x.fixture method.result.schema value
    | none => return ()

end Exchange

structure Report where
  checked : Nat
  skipped : Nat
deriving DecidableEq, Repr

namespace Report

def add (a b : Report) : Report := ⟨a.checked + b.checked, a.skipped + b.skipped⟩

end Report

/-- Whether a list occurs in another one as a piece. -/
def occursIn (part : List Char) : List Char → Bool
  | [] => part.isEmpty
  | c :: cs => part.isPrefixOf (c :: cs) || occursIn part cs

/-- A marker that is not empty marks the fixtures whose names contain it. -/
def isMarked (marker fixture : String) : Bool :=
  marker ≠ "" && occursIn marker.toList fixture.toList

def defaultMarker : String := "invalid"

def checkOne (methods : Methods) (marker : String) (x : Exchange) : Except Error Report :=
  match Dict.get? methods x.method with
  | none => .error (.undefinedMethod x.method)
  | some method =>
    if isMarked marker x.fixture then .ok ⟨0, 1⟩
    else (x.check method).map fun _ => ⟨1, 0⟩

def checkAll (methods : Methods) (marker : String) : List Exchange → Except Error Report
  | [] => .ok ⟨0, 0⟩
  | x :: xs => do
    let first ← checkOne methods marker x
    let rest ← checkAll methods marker xs
    return first.add rest

end RpcContract
