import RpcContract.Proofs.Methods
import RpcContract.Proofs.OpenRpc.Frame
import RpcContract.Proofs.Schema.RepositoryRun

/-! The repository of an assembler. It is made from the schemas or from the document with the same
result, so that expanding and reading the methods resolve against one repository. -/

namespace RpcContract.OpenRpc.Assembly

variable {a : Assembly}

theorem WellFormed.ofDocument_document (h : a.WellFormed) :
    Repository.ofDocument a.document = .ok ⟨a.schemas⟩ := by
  have hsorted := (Json.every_obj.mp h.ordered).1
  rw [Repository.ofDocument, document, atPointer?_documentOf]
  exact (Repository.ofFragment_of_isObject h.schemas).trans
    (congrArg (Except.ok ∘ Repository.mk) (Dict.ofList_of_sorted hsorted))

theorem expand_eq {r : Repository} (hr : a.repository = .ok r) :
    a.expand = (expandSchemas r a.schemas).bind fun schemas =>
      (expandMethods r a.methods).map fun methods => documentOf a.base methods schemas := by
  rw [expand, hr]
  show (expandSchemas r a.schemas).bind _ = _
  cases expandSchemas r a.schemas with
  | error e => rfl
  | ok schemas => cases expandMethods r a.methods <;> rfl

theorem methodSchemas_eq {r : Repository} (hr : Repository.ofDocument a.document = .ok r) :
    a.methodSchemas = Methods.ofDefinitions r [] a.methods :=
  Methods.ofDocument_eq hr (get?_documentOf_methods a.base a.methods a.schemas)

/-- However a repository was made, and whatever failed on the way, no reference is found to lead to
a schema that is no object. An assembler always has its repository, made from the schemas or from
the document; expanding and reading the methods both resolve against it. -/
theorem repository_holds_objects :
    (∀ calls, let r := Repository.run calls
      (∀ m ∈ r.schemas, m.2.isObject) ∧ ∀ schema e text,
        (Schema.dereference schema r = .error e ∨ Schema.resolve schema r = .error e) →
          e.fault ≠ .invalidReference text .schemaNotObject) ∧
    ∀ ops, let a := run ops
      ∃ r, a.repository = .ok r ∧ Repository.ofDocument a.document = .ok r ∧
        (∀ name, r.get? name = Dict.get? a.schemas name) ∧
        (a.expand = (expandSchemas r a.schemas).bind fun schemas =>
          (expandMethods r a.methods).map fun methods => documentOf a.base methods schemas) ∧
        a.methodSchemas = Methods.ofDefinitions r [] a.methods := by
  refine ⟨fun calls => ?_, fun ops => ?_⟩
  · have hr := Repository.holdsObjects_run calls
    refine ⟨hr, fun schema e text h => ?_⟩
    rcases h with h | h
    · exact Schema.dereference_ne_schemaNotObject hr h text
    · exact Schema.resolve_ne_schemaNotObject hr h text
  · have hwf := wellFormed_run ops
    exact ⟨_, hwf.repository_eq, hwf.ofDocument_document, fun _ => rfl, expand_eq hwf.repository_eq,
      methodSchemas_eq hwf.ofDocument_document⟩

end RpcContract.OpenRpc.Assembly
