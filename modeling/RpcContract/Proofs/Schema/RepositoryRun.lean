import RpcContract.Proofs.Schema.Cause
import RpcContract.Proofs.Schema.Repository
import RpcContract.Proofs.Schema.Resolved

/-! Repositories as calls make them, whichever of the calls fail. All they hold are objects, so that
no reference to a whole schema fails for want of one. -/

namespace RpcContract

namespace Repository

/-- What makes a repository or adds to one. -/
inductive Call where
  | new
  | ofFragment (fragment : Json)
  | ofDocument (document : Json)
  | insert (name : String) (schema : Json)
  | extend (fragment : Json)

/-- Where no repository can be made, the one before stays. -/
def call (r : Repository) : Call → Repository
  | .new => empty
  | .ofFragment fragment => (Repository.ofFragment fragment).toOption.getD r
  | .ofDocument document => (Repository.ofDocument document).toOption.getD r
  | .insert name schema =>
    match r.insert name schema with
    | .ok (r', _) => r'
    | .error _ => r
  | .extend fragment => (r.extend fragment).1

def run (calls : List Call) : Repository := calls.foldl call empty

/-- Every schema is an object. -/
def HoldsObjects (r : Repository) : Prop := ∀ m ∈ r.schemas, m.2.isObject

theorem holdsObjects_empty : empty.HoldsObjects := by
  intro m hm
  cases hm

namespace HoldsObjects

variable {r r' : Repository}

theorem insert (h : r.HoldsObjects) {name : String} {schema : Json} {old : Option Json}
    (hi : r.insert name schema = .ok (r', old)) : r'.HoldsObjects := by
  unfold Repository.insert at hi
  split at hi
  · next hs =>
    obtain ⟨rfl, -⟩ := Prod.mk.inj (Except.ok.inj hi)
    intro m hm
    rcases Dict.mem_insert hm with rfl | hm
    · exact hs
    · exact h m hm
  · cases hi

theorem extendMembers (h : r.HoldsObjects) (members : Json.Members) :
    (r.extendMembers members).1.HoldsObjects := by
  induction members generalizing r with
  | nil => exact h
  | cons m members ih =>
    rw [Repository.extendMembers]
    split
    · next hi => exact ih (h.insert hi)
    · exact h

/-- An extension that fails halfway has added objects only. -/
theorem extend (h : r.HoldsObjects) (fragment : Json) : (r.extend fragment).1.HoldsObjects := by
  cases fragment with
  | obj members =>
    have hm := h.extendMembers members
    rw [Repository.extend]
    split
    · next he => rwa [he] at hm
    · next he => rwa [he] at hm
  | null | bool | num | str | arr => exact h

theorem ofFragment {fragment : Json} (ho : Repository.ofFragment fragment = .ok r) :
    r.HoldsObjects := by
  have h := holdsObjects_empty.extend fragment
  unfold Repository.ofFragment at ho
  split at ho
  · next he =>
    obtain rfl := Except.ok.inj ho
    rwa [he] at h
  · cases ho

theorem ofDocument {document : Json} (ho : Repository.ofDocument document = .ok r) :
    r.HoldsObjects := by
  unfold Repository.ofDocument at ho
  split at ho
  · exact ofFragment ho
  · exact Except.ok.inj ho ▸ holdsObjects_empty

theorem made {x : Except Fragment.Fault Repository} (h : r.HoldsObjects)
    (hx : ∀ {r'}, x = .ok r' → r'.HoldsObjects) : (x.toOption.getD r).HoldsObjects := by
  cases x with
  | ok r' => exact hx rfl
  | error fault => exact h

theorem call (h : r.HoldsObjects) (c : Call) : (r.call c).HoldsObjects := by
  cases c with
  | new => exact holdsObjects_empty
  | ofFragment fragment => exact h.made ofFragment
  | ofDocument document => exact h.made ofDocument
  | insert name schema =>
    rw [Repository.call]
    split
    · next hi => exact h.insert hi
    · exact h
  | extend fragment => exact h.extend fragment

end HoldsObjects

theorem holdsObjects_run (calls : List Call) : (run calls).HoldsObjects :=
  List.foldlRecOn calls call (motive := HoldsObjects) holdsObjects_empty fun _ h c _ => h.call c

end Repository

namespace Schema

variable {r : Repository} {schema : Json} {e : Error}

theorem dereference_ne_schemaNotObject (hr : r.HoldsObjects)
    (h : dereference schema r = .error e) (text : String) :
    e.fault ≠ .invalidReference text .schemaNotObject := by
  obtain ⟨jumps, members, -, hcause⟩ := blamed_of_dereference h
  intro hf
  rw [hf] at hcause
  cases hcause with
  | unreadable _ hp => exact parse_ne_schemaNotObject hp
  | noObjectSchema _ _ hs ho => exact ho (hr _ (Dict.mem_of_get? hs))

theorem resolve_ne_schemaNotObject (hr : r.HoldsObjects)
    (h : resolve schema r = .error e) (text : String) :
    e.fault ≠ .invalidReference text .schemaNotObject := by
  rcases resolve_error h with hd | ⟨-, -, reason, hf⟩
  · exact dereference_ne_schemaNotObject hr hd text
  · simp [hf]

/-- A repository that no calls make. -/
example :
    dereference (.obj [("$ref", .str "#/components/schemas/A")]) ⟨[("A", .null)]⟩ =
      .error ⟨[], .invalidReference "#/components/schemas/A" .schemaNotObject⟩ := by
  decide +kernel

end Schema

end RpcContract
