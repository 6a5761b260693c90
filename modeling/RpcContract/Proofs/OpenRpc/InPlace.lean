import RpcContract.OpenRpc.Assembly

/-! Additions in place. Nothing is undone when one fails; so a refused fragment leaves no trace only
because it is looked through before the first addition. -/

namespace RpcContract.OpenRpc

/-- A fragment as it is handed over. -/
inductive Source where
  | value (fragment : Json)
  | text (text : String)

def Source.read? : Source → Option Json
  | value fragment => some fragment
  | text content => Json.ofYaml? content

/-- A fragment of methods or one of schemas. -/
inductive Delivery where
  | methods (source : Source)
  | schemas (source : Source)

def Delivery.isMethods : Delivery → Bool
  | methods _ => true
  | schemas _ => false

/-- What is done to an assembler in place. A failure undoes nothing. -/
abbrev InPlace := EStateM Error Assembly

namespace InPlace

/-- Adds one after another and counts them, if there is no fault. -/
def addEach {α : Type} (fault? : Option Fragment.Fault) (add : Assembly → α → Assembly)
    (xs : List α) : InPlace Nat :=
  match fault? with
  | some fault => throw (.invalidFragment fault)
  | none => do
    xs.forM fun x => modify (add · x)
    return xs.length

def addMethods : Json → InPlace Nat
  | .arr definitions =>
    addEach ((Assembly.badMethod? 0 definitions).map fun bad => .notMethodObject bad.1 bad.2.kind)
      (fun a d => { a with methods := a.methods ++ [d] }) definitions
  | other => throw (.invalidFragment (.notMethodSequence other.kind))

def addSchemas : Json → InPlace Nat
  | .obj members =>
    addEach ((members.find? fun m => !m.2.isObject).map fun m => .notSchemaObject m.1 m.2.kind)
      (fun a m => { a with schemas := Dict.insert a.schemas m.1 m.2 }) members
  | other => throw (.invalidFragment (.notSchemaMapping other.kind))

def read (source : Source) : InPlace Json :=
  match source.read? with
  | some fragment => return fragment
  | none => throw .yaml

end InPlace

def Delivery.perform : Delivery → InPlace Nat
  | methods source => do InPlace.addMethods (← InPlace.read source)
  | schemas source => do InPlace.addSchemas (← InPlace.read source)

namespace Assembly

/-- The answer to a delivery, with the assembler that it leads to. -/
def answer (a : Assembly) : Delivery → Except Error (Assembly × Nat)
  | .methods (.value fragment) => (a.addMethods fragment).mapError .invalidFragment
  | .methods (.text text) => a.addMethodsText text
  | .schemas (.value fragment) => (a.addSchemas fragment).mapError .invalidFragment
  | .schemas (.text text) => a.addSchemasText text

/-- An answer as it is given in place. -/
def settle (a : Assembly) : Except Error (Assembly × Nat) → EStateM.Result Error Assembly Nat
  | .ok (a', n) => .ok n a'
  | .error e => .error e a

theorem run_forM_modify {α : Type} (add : Assembly → α → Assembly) (xs : List α) (a : Assembly) :
    (xs.forM fun x => (modify (add · x) : InPlace PUnit)).run a = .ok ⟨⟩ (xs.foldl add a) := by
  induction xs generalizing a with
  | nil => rfl
  | cons x xs ih => exact ih (add a x)

theorem run_addEach {α : Type} (fault? : Option Fragment.Fault) (add : Assembly → α → Assembly)
    (xs : List α) (a : Assembly) :
    (InPlace.addEach fault? add xs).run a = match fault? with
      | some fault => .error (.invalidFragment fault) a
      | none => .ok xs.length (xs.foldl add a) := by
  cases fault? with
  | some fault => rfl
  | none =>
    rw [InPlace.addEach, EStateM.run_bind, run_forM_modify]
    rfl

theorem foldl_addMethod (definitions : List Json) (a : Assembly) :
    definitions.foldl (fun a d => { a with methods := a.methods ++ [d] }) a =
      { a with methods := a.methods ++ definitions } := by
  induction definitions generalizing a with
  | nil => simp
  | cons d definitions ih => rw [List.foldl_cons, ih, List.append_assoc, List.singleton_append]

theorem foldl_addSchema (members : Json.Members) (a : Assembly) :
    members.foldl (fun a m => { a with schemas := Dict.insert a.schemas m.1 m.2 }) a =
      { a with schemas := members.foldl (fun d m => Dict.insert d m.1 m.2) a.schemas } := by
  induction members generalizing a with
  | nil => rfl
  | cons m members ih => rw [List.foldl_cons, ih, List.foldl_cons]

theorem run_addMethods (fragment : Json) (a : Assembly) :
    (InPlace.addMethods fragment).run a =
      a.settle ((a.addMethods fragment).mapError .invalidFragment) := by
  cases fragment with
  | arr definitions =>
    rw [InPlace.addMethods, run_addEach, foldl_addMethod, addMethods]
    cases badMethod? 0 definitions <;> rfl
  | null | bool | num | str | obj => rfl

theorem run_addSchemas (fragment : Json) (a : Assembly) :
    (InPlace.addSchemas fragment).run a =
      a.settle ((a.addSchemas fragment).mapError .invalidFragment) := by
  cases fragment with
  | obj members =>
    rw [InPlace.addSchemas, run_addEach, foldl_addSchema, addSchemas]
    cases members.find? fun m => !m.2.isObject <;> rfl
  | null | bool | num | str | arr => rfl

theorem run_addText {a : Assembly} {add : Json → Except Fragment.Fault (Assembly × Nat)}
    {perform : Json → InPlace Nat}
    (h : ∀ fragment, (perform fragment).run a =
      a.settle ((add fragment).mapError .invalidFragment)) (content : String) :
    (InPlace.read (.text content) >>= perform).run a = a.settle (addText add content) := by
  rw [EStateM.run_bind, InPlace.read, Source.read?, addText]
  cases Json.ofYaml? content with
  | none => rfl
  | some fragment => exact h fragment

/-- In place, a delivery is answered as before, and what fails leaves the assembler as it was. -/
theorem run_perform (d : Delivery) (a : Assembly) : d.perform.run a = a.settle (a.answer d) := by
  cases d with
  | methods source =>
    cases source with
    | value fragment => exact run_addMethods fragment a
    | text content => exact run_addText (run_addMethods · a) content
  | schemas source =>
    cases source with
    | value fragment => exact run_addSchemas fragment a
    | text content => exact run_addText (run_addSchemas · a) content

end Assembly

end RpcContract.OpenRpc
