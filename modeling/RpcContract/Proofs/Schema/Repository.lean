import RpcContract.Proofs.Json.Tree
import RpcContract.Proofs.Outcome

/-! Repositories made of fragments: they are made exactly of objects, and from names in order they
are in order. -/

namespace RpcContract.Repository

variable {r : Repository} {members : Json.Members}

theorem extendMembers_eq_none_iff :
    (r.extendMembers members).2 = none ↔ ∀ m ∈ members, m.2.isObject := by
  induction members generalizing r with
  | nil => simp [extendMembers]
  | cons m members ih =>
    obtain ⟨name, schema⟩ := m
    unfold extendMembers insert
    by_cases hs : schema.isObject <;> simp [hs, ih]

/-- Objects under their names make a repository, and nothing else does. -/
theorem exists_ofFragment_iff :
    (∃ r, ofFragment (.obj members) = .ok r) ↔ ∀ m ∈ members, m.2.isObject := by
  rw [← extendMembers_eq_none_iff (r := empty)]
  unfold ofFragment extend
  cases he : empty.extendMembers members with
  | mk r fault => cases fault <;> simp [he]

theorem extendMembers_of_isObject (h : ∀ m ∈ members, m.2.isObject) :
    r.extendMembers members =
      (⟨members.foldl (fun d m => Dict.insert d m.1 m.2) r.schemas⟩, none) := by
  induction members generalizing r with
  | nil => rfl
  | cons m members ih =>
    obtain ⟨hm, h⟩ := List.forall_mem_cons.mp h
    rw [extendMembers, insert, if_pos hm]
    exact ih h

theorem ofFragment_of_isObject (h : ∀ m ∈ members, m.2.isObject) :
    ofFragment (.obj members) = .ok ⟨Dict.ofList members⟩ := by
  rw [ofFragment, extend, extendMembers_of_isObject h]
  rfl

/-- A document makes a repository if its component schemas are absent or a mapping to objects. -/
theorem exists_ofDocument {document : Json}
    (h : ∀ schemas, document.atPointer? "/components/schemas" = some schemas →
      ∃ members, schemas = .obj members ∧ ∀ m ∈ members, m.2.isObject) :
    ∃ r, ofDocument document = .ok r := by
  unfold ofDocument
  cases hs : document.atPointer? "/components/schemas" with
  | none => exact ⟨_, rfl⟩
  | some schemas =>
    obtain ⟨members, rfl, hobj⟩ := h schemas hs
    exact exists_ofFragment_iff.mpr hobj

theorem ordered_extendMembers (hr : r.Ordered) (hm : ∀ m ∈ members, m.2.Ordered) :
    (r.extendMembers members).1.Ordered := by
  induction members generalizing r with
  | nil => exact hr
  | cons m members ih =>
    obtain ⟨hv, hm⟩ := List.forall_mem_cons.mp hm
    unfold extendMembers insert
    by_cases hs : m.2.isObject
    · simp only [hs, reduceIte]
      exact ih (Json.ordered_insert hr m.1 hv) hm
    · simp only [hs]
      exact hr

theorem ordered_ofFragment {fragment : Json} (hf : fragment.Ordered)
    (h : ofFragment fragment = .ok r) : r.Ordered := by
  cases fragment with
  | obj members =>
    have hempty : empty.Ordered := by decide
    have hr := ordered_extendMembers hempty (Json.every_obj.mp hf).2
    unfold ofFragment extend at h
    cases he : empty.extendMembers members with
    | mk r' fault =>
      rw [he] at hr
      cases fault with
      | none =>
        obtain rfl : r' = r := by simpa [he] using h
        exact hr
      | some fault => simp [he] at h
  | null | bool | num | str | arr => cases h

theorem ordered_ofDocument {document : Json} (hd : document.Ordered)
    (h : ofDocument document = .ok r) : r.Ordered := by
  unfold ofDocument at h
  split at h
  · next schemas hs => exact ordered_ofFragment (hd.atPointer hs) h
  · obtain rfl := Except.ok.inj h
    decide

end RpcContract.Repository
