import RpcContract.Proofs.Json.Tree
import RpcContract.Proofs.Outcome
import RpcContract.Schema.Dereference

/-! Following one reference. A reference denotes an object of the repository and takes up an entry
of the room; it is followed exactly if both are there, and then with that entry gone. -/

namespace RpcContract

/-- The object that the text of a reference denotes. -/
def Repository.denoted? (r : Repository) (text : String) : Option Json.Members :=
  match Reference.parse text with
  | .error _ => none
  | .ok reference =>
    (r.get? reference.name).bind fun schema =>
      match reference.pointer with
      | some pointer => (schema.atPointer? pointer).bind Json.asObject?
      | none => schema.asObject?

/-- A property that the schemas have, and that values hand down to their members and elements, holds
of whatever is denoted. -/
theorem Repository.denoted?_of_child {r : Repository} {C : Json → Prop}
    (hr : ∀ {name schema}, r.get? name = some schema → C schema)
    (hobj : ∀ {members key w}, C (.obj members) → Dict.get? members key = some w → C w)
    (harr : ∀ {items w}, C (.arr items) → w ∈ items → C w)
    {text : String} {target : Json.Members} (h : r.denoted? text = some target) :
    C (.obj target) := by
  unfold denoted? at h
  split at h
  · simp at h
  · next reference _ =>
    obtain ⟨schema, hs, h⟩ := Option.bind_eq_some_iff.mp h
    split at h
    · obtain ⟨v, hv, h⟩ := Option.bind_eq_some_iff.mp h
      rw [← Json.asObject?_eq_some h]
      exact Json.atPointer?_of_child hobj harr (hr hs) hv
    · rw [← Json.asObject?_eq_some h]
      exact hr hs

/-- What is entered: a schema under its name, a place inside a schema under the whole reference. -/
inductive Reference.Entry where
  | schema (name : String)
  | place (text : String)
deriving DecidableEq, Repr

def Reference.entry? (text : String) : Option Entry :=
  match parse text with
  | .error _ => none
  | .ok reference => some (if reference.pointer.isSome then .place text else .schema reference.name)

/-- References to one entry denote the same object. -/
theorem Repository.denoted?_congr (r : Repository) {text text' : String}
    (h : Reference.entry? text = Reference.entry? text') : r.denoted? text = r.denoted? text' := by
  unfold Reference.entry? at h
  unfold Repository.denoted?
  cases hp : Reference.parse text <;> cases hp' : Reference.parse text' <;>
    simp only [hp, hp', Option.some.injEq, reduceCtorEq] at h ⊢
  next reference reference' =>
    obtain ⟨name, pointer⟩ := reference
    obtain ⟨name', pointer'⟩ := reference'
    cases pointer <;> cases pointer' <;> simp at h ⊢
    · rw [h]
    · subst h
      simp_all

namespace Schema

namespace Room

open Reference (Entry)

def Admits (room : Room) : Entry → Prop
  | .schema name => name ∈ room.names
  | .place text => text ∈ room.places

def without (room : Room) : Entry → Room
  | .schema name => room.withoutName name
  | .place text => room.withoutPlace text

theorem size_without {room : Room} {entry : Entry} (h : room.Admits entry) :
    (room.without entry).size < room.size := by
  cases entry with
  | schema name => exact size_withoutName h
  | place text => exact size_withoutPlace h

theorem admits_without_iff {room : Room} {entry entry' : Entry} :
    (room.without entry).Admits entry' ↔ room.Admits entry' ∧ entry' ≠ entry := by
  cases entry <;> cases entry' <;> simp [without, withoutName, withoutPlace, Admits]

end Room

/-- A reference is followed exactly if it denotes an object and the room admits its entry. -/
theorem follow_eq_ok_iff {r : Repository} {room : Room} {path : Json.Path} {text : String}
    {out : Json.Members} :
    follow r room path text = .ok out ↔
      ∃ entry target, Reference.entry? text = some entry ∧ r.denoted? text = some target ∧
        room.Admits entry ∧ expandObject (follow r (room.without entry)) path target = .ok out := by
  rw [follow]
  unfold Reference.entry? Repository.denoted?
  cases Reference.parse text with
  | error fault => simp
  | ok reference =>
    obtain ⟨name, pointer⟩ := reference
    cases hg : r.get? name with
    | none => simp [hg]
    | some schema =>
      cases pointer with
      | none =>
        by_cases hn : name ∈ room.names <;>
          cases schema <;> simp [hg, hn, Json.asObject?, Room.Admits, Room.without]
      | some pointer =>
        cases hp : schema.atPointer? pointer with
        | none => simp [hg, hp]
        | some target =>
          by_cases ht : text ∈ room.places <;>
            cases target <;> simp [hg, hp, ht, Json.asObject?, Room.Admits, Room.without]

/-- What expanding an object hands on from the references in it to the object that denotes it
holds of everything that is followed. -/
theorem follow_induction {r : Repository} {C : String → Json.Members → Prop}
    (step : ∀ {f : Follow} {path : Json.Path} {text : String} {target base : Json.Members},
      r.denoted? text = some target → (∀ path text base, f path text = .ok base → C text base) →
      expandObject f path target = .ok base → C text base)
    {room : Room} {path : Json.Path} {text : String} {base : Json.Members}
    (h : follow r room path text = .ok base) : C text base := by
  induction hn : room.size using Nat.strongRecOn generalizing room path text base with
  | ind n ih =>
    obtain ⟨entry, target, -, ht, ha, ho⟩ := follow_eq_ok_iff.mp h
    refine step ht (fun path text base hf => ih _ ?_ hf rfl) ho
    rw [← hn]
    exact Room.size_without ha

end Schema

end RpcContract
