import RpcContract.OpenRpc.Assembly
import RpcContract.Proofs.Schema.Resolved

/-! How reading the methods of a document and expanding a document fail: for the shape of what they
were given, or as resolving one of the schemas fails. -/

namespace RpcContract

/-- What may stand behind a failure where schemas are resolved. -/
inductive Error.OfResolving : Error → Prop where
  | fragment (fault : Fragment.Fault) : OfResolving (.invalidFragment fault)
  | method (fault : MethodFault) : OfResolving (.invalidMethod fault)
  | schema {schema : Json} {r : Repository} {e : Schema.Error}
      (h : Schema.resolve schema r = .error e) : OfResolving (.schema e)
  | inMethod (method : String) (slot : Slot) {e : Error} (h : OfResolving e) :
      OfResolving (.inMethod method slot e)
  | inSchema (name : String) {e : Error} (h : OfResolving e) : OfResolving (.inSchema name e)

open Error (OfResolving)

theorem Error.OfResolving.kind_ne {e : Error} (h : e.OfResolving) :
    e.kind ≠ .contractViolation := by
  induction h with
  | fragment | method => simp [Error.kind]
  | schema h => exact Schema.resolve_error_kind h
  | inMethod _ _ _ ih | inSchema _ _ ih => simpa [Error.kind] using ih

theorem lift_error {schema : Json} {r : Repository} {e : Error}
    (h : Schema.Error.lift (Schema.resolve schema r) = .error e) : e.OfResolving := by
  obtain ⟨e', he, rfl⟩ := Except.mapError_eq_error_iff.mp h
  exact .schema he

theorem within_error {α : Type} {method : String} {slot : Slot} {x : Except Error α} {e : Error}
    (hx : ∀ e, x = .error e → e.OfResolving) (h : Error.within method slot x = .error e) :
    e.OfResolving := by
  obtain ⟨e', he, rfl⟩ := Except.mapError_eq_error_iff.mp h
  exact .inMethod method slot (hx e' he)

/-! Methods -/

theorem RawDescriptor.resolve_error {d : RawDescriptor} {r : Repository} {e : Error}
    (h : d.resolve r = .error e) : e.OfResolving := by
  unfold resolve at h
  split at h
  · cases h
    exact .method _
  · split at h
    · cases h
      exact .method _
    · split at h
      · cases h
        exact .method _
      · simp only [Except.monadBind_eq_bind, Except.bind_eq_error_iff, Except.pure_eq_ok,
          reduceCtorEq, and_false, exists_false, or_false] at h
        exact lift_error h

namespace Method

theorem resolveParams_error {r : Repository} {method : String} {i : Nat} {ds : List RawDescriptor}
    {e : Error} (h : resolveParams r method i ds = .error e) : e.OfResolving := by
  induction ds generalizing i with
  | nil => simp [resolveParams] at h
  | cons d ds ih =>
    rw [resolveParams] at h
    rcases Except.both_eq_error_iff.mp h with h | ⟨-, h⟩
    · exact within_error (fun _ => RawDescriptor.resolve_error) h
    · exact ih h

theorem resolveResult_error {r : Repository} {method : String} {d : Option RawDescriptor}
    {e : Error} (h : resolveResult r method d = .error e) : e.OfResolving := by
  refine within_error (fun e he => ?_) h
  split at he
  · cases he
    exact .method _
  · exact RawDescriptor.resolve_error he

theorem ofDefinition_error {definition : Json} {r : Repository} {e : Error}
    (h : ofDefinition definition r = .error e) : e.OfResolving := by
  simp only [ofDefinition, Except.monadBind_eq_bind, Except.bind_eq_error_iff,
    Except.mapError_eq_error_iff, Except.pure_eq_ok, reduceCtorEq, and_false, exists_false,
    or_false] at h
  rcases h with ⟨fault, -, rfl⟩ | ⟨raw, -, h | ⟨-, -, h⟩⟩
  · exact .method _
  · exact resolveParams_error h
  · exact resolveResult_error h

end Method

namespace Methods

theorem ofDefinitions_error {r : Repository} {methods : Methods} {definitions : List Json}
    {e : Error} (h : ofDefinitions r methods definitions = .error e) : e.OfResolving := by
  induction definitions generalizing methods with
  | nil => simp [ofDefinitions] at h
  | cons definition definitions ih =>
    simp only [ofDefinitions, Except.monadBind_eq_bind, Except.bind_eq_error_iff] at h
    rcases h with h | ⟨method, -, h⟩
    · exact Method.ofDefinition_error h
    · exact ih h

theorem ofDocument_error {document : Json} {e : Error} (h : ofDocument document = .error e) :
    e.OfResolving := by
  simp only [ofDocument, Except.monadBind_eq_bind, Except.bind_eq_error_iff,
    Except.mapError_eq_error_iff] at h
  rcases h with ⟨fault, -, rfl⟩ | ⟨r, -, h⟩
  · exact .fragment fault
  · split at h
    · exact ofDefinitions_error h
    · cases h
      exact .method _

end Methods

/-! Expanding -/

namespace OpenRpc.Assembly

theorem alter_error {members : Json.Members} {key : String} {f : Json → Except Error Json}
    {e : Error} (h : alter members key f = .error e) : ∃ value, f value = .error e := by
  unfold alter at h
  split at h
  · next value _ =>
    simp only [Except.monadBind_eq_bind, Except.bind_eq_error_iff, Except.pure_eq_ok, reduceCtorEq,
      and_false, exists_false, or_false] at h
    exact ⟨value, h⟩
  · cases h

theorem resolveIn_error {r : Repository} {key : String} {holder : Json} {e : Error}
    (h : resolveIn r key holder = .error e) : e.OfResolving := by
  unfold resolveIn at h
  split at h
  · simp only [Except.monadBind_eq_bind, Except.bind_eq_error_iff, Except.pure_eq_ok, reduceCtorEq,
      and_false, exists_false, or_false] at h
    obtain ⟨schema, h⟩ := alter_error h
    split at h
    · exact lift_error h
    · cases h
  · cases h

theorem eachFrom_error {f : Nat → Json → Except Error Json} {i : Nat} {items : List Json}
    {e : Error} (h : eachFrom i f items = .error e) : ∃ j item, f j item = .error e := by
  induction items generalizing i with
  | nil => simp [eachFrom] at h
  | cons item items ih =>
    rw [eachFrom] at h
    rcases Except.both_eq_error_iff.mp h with h | ⟨-, h⟩
    · exact ⟨i, item, h⟩
    · exact ih h

theorem each_error {f : Nat → Json → Except Error Json} {value : Json} {e : Error}
    (h : each f value = .error e) : ∃ j item, f j item = .error e := by
  unfold each at h
  split at h
  · simp only [Except.monadBind_eq_bind, Except.bind_eq_error_iff, Except.pure_eq_ok, reduceCtorEq,
      and_false, exists_false, or_false] at h
    exact eachFrom_error h
  · cases h

theorem expandMethod_error {r : Repository} {definition : Json} {e : Error}
    (h : expandMethod r definition = .error e) : e.OfResolving := by
  have hslot : ∀ {name slot key holder},
      Error.within name slot (resolveIn r key holder) = .error e → e.OfResolving :=
    within_error fun _ => resolveIn_error
  unfold expandMethod at h
  split at h
  · simp only [Except.monadBind_eq_bind, Except.bind_eq_error_iff, Except.pure_eq_ok, reduceCtorEq,
      and_false, exists_false, or_false] at h
    rcases h with h | ⟨_, -, h | ⟨_, -, h⟩⟩
    · obtain ⟨params, h⟩ := alter_error h
      obtain ⟨i, param, h⟩ := each_error h
      exact hslot h
    · obtain ⟨result, h⟩ := alter_error h
      exact hslot h
    · obtain ⟨errors, h⟩ := alter_error h
      obtain ⟨i, error, h⟩ := each_error h
      exact hslot h
  · cases h

theorem expandMethods_error {r : Repository} {definitions : List Json} {e : Error}
    (h : expandMethods r definitions = .error e) : e.OfResolving := by
  induction definitions with
  | nil => simp [expandMethods] at h
  | cons definition definitions ih =>
    rw [expandMethods] at h
    rcases Except.both_eq_error_iff.mp h with h | ⟨-, h⟩
    · exact expandMethod_error h
    · exact ih h

theorem expandSchemas_error {r : Repository} {schemas : Dict Json} {e : Error}
    (h : expandSchemas r schemas = .error e) : e.OfResolving := by
  induction schemas with
  | nil => simp [expandSchemas] at h
  | cons m schemas ih =>
    rw [expandSchemas] at h
    rcases Except.both_eq_error_iff.mp h with h | ⟨-, h⟩
    · obtain ⟨e', he, rfl⟩ := Except.mapError_eq_error_iff.mp h
      exact .inSchema m.1 (lift_error he)
    · exact ih h

theorem expand_error {a : Assembly} {e : Error} (h : a.expand = .error e) : e.OfResolving := by
  simp only [expand, repository, Except.monadBind_eq_bind, Except.bind_eq_error_iff,
    Except.mapError_eq_error_iff, Except.pure_eq_ok, reduceCtorEq, and_false, exists_false,
    or_false] at h
  rcases h with ⟨fault, -, rfl⟩ | ⟨r, -, h | ⟨-, -, h⟩⟩
  · exact .fragment fault
  · exact expandSchemas_error h
  · exact expandMethods_error h

end OpenRpc.Assembly

/-- Resolving fails as expanding the references does or for a composition, never for a reference
that is left; a result has neither references nor compositions and resolves to itself in every
repository. So no document and no assembly makes merging meet a reference. -/
theorem resolve_closed :
    (∀ schema r e, Schema.resolve schema r = .error e →
      (∀ text, e.fault ≠ .unresolvedReference text) ∧
        (Schema.dereference schema r = .error e ∨ ∃ reason, e.fault = .invalidComposition reason)) ∧
    (∀ schema r result, Schema.resolve schema r = .ok result →
      result.Lacks Reference.key ∧ result.Lacks Schema.allOfKey ∧
        ∀ r', Schema.resolve result r' = .ok result) ∧
    (∀ document e, Methods.ofDocument document = .error e → e.kind ≠ .contractViolation) ∧
    ∀ (a : OpenRpc.Assembly) e, a.expand = .error e → e.kind ≠ .contractViolation := by
  refine ⟨fun schema r e h => ⟨?_, ?_⟩, fun schema r result h => ?_, ?_, ?_⟩
  · intro text hf
    exact Schema.resolve_error_kind h (by rw [hf]; rfl)
  · exact (Schema.resolve_error h).imp_right fun ⟨_, _, hf⟩ => hf
  · exact ⟨Schema.resolve_lacks_reference h, Schema.resolve_lacks_allOf h,
      Schema.resolve_resolved h⟩
  · exact fun document e h => (Methods.ofDocument_error h).kind_ne
  · exact fun a e h => (OpenRpc.Assembly.expand_error h).kind_ne

end RpcContract
