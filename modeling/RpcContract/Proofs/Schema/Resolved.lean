import RpcContract.Proofs.Schema.Cause
import RpcContract.Proofs.Schema.Dereferenced
import RpcContract.Proofs.Schema.Merged
import RpcContract.Schema.Resolve

/-! The outcomes of resolving. Merging meets no references, as expanding left none, and folding
brings none back; a resolved schema resolves to itself in every repository. -/

namespace RpcContract.Schema

variable {schema result : Json} {r : Repository} {e : Error}

theorem resolve_eq_ok_iff :
    resolve schema r = .ok result ↔
      ∃ expanded, dereference schema r = .ok expanded ∧ merge expanded = .ok result := by
  simp [resolve]

theorem resolve_lacks_reference (h : resolve schema r = .ok result) :
    result.Lacks Reference.key := by
  obtain ⟨expanded, hd, hm⟩ := resolve_eq_ok_iff.mp h
  exact merge_lacks_reference (dereference_lacks hd) hm

theorem resolve_lacks_allOf (h : resolve schema r = .ok result) : result.Lacks allOfKey := by
  obtain ⟨expanded, -, hm⟩ := resolve_eq_ok_iff.mp h
  exact merge_lacks_allOf hm

theorem resolve_ordered (hs : schema.Ordered) (hr : r.Ordered) (h : resolve schema r = .ok result) :
    result.Ordered := by
  obtain ⟨expanded, hd, hm⟩ := resolve_eq_ok_iff.mp h
  exact merge_ordered (dereference_ordered hs hr hd) hm

theorem resolve_of_lacks (hr : schema.Lacks Reference.key) (ha : schema.Lacks allOfKey)
    (r : Repository) : resolve schema r = .ok schema :=
  resolve_eq_ok_iff.mpr ⟨schema, dereference_of_lacks hr r, mergeValue_of_lacks hr ha []⟩

/-- What is resolved stays as it is, whatever it is resolved against. -/
theorem resolve_resolved (h : resolve schema r = .ok result) (r' : Repository) :
    resolve result r' = .ok result :=
  resolve_of_lacks (resolve_lacks_reference h) (resolve_lacks_allOf h) r'

theorem resolve_error (h : resolve schema r = .error e) :
    dereference schema r = .error e ∨ ∃ expanded, dereference schema r = .ok expanded ∧
      ∃ reason, e.fault = .invalidComposition reason := by
  simp only [resolve, Except.monadBind_eq_bind, Except.bind_eq_error_iff] at h
  refine h.imp_right ?_
  rintro ⟨expanded, hd, hm⟩
  exact ⟨expanded, hd, mergeValue_error (dereference_lacks hd) hm⟩

theorem resolve_error_kind (h : resolve schema r = .error e) :
    e.fault.kind ≠ .contractViolation := by
  rcases resolve_error h with h | ⟨-, -, reason, hf⟩
  · have hf := dereference_error h
    cases hc : e.fault <;> simp [hc, Fault.ofReference, Fault.kind] at hf ⊢
  · simp [hf, Fault.kind]

end RpcContract.Schema
