import RpcContract.Proofs.Schema.Dereferenced
import RpcContract.Proofs.Schema.Machine

/-! What an error of expansion is about. The machine is always at the end of a walk from the schema,
whose jumps are those of the targets under expansion; so where it fails stands a reference that is
at fault, and a cycle is reported only where the walk has taken the same jump before. -/

namespace RpcContract.Schema

open Reference (Entry)

/-- The ways from a schema down into members and elements, which the path tells, and on from a
reference to the object that it denotes, which it does not. The jumps are listed by the texts of
the references, the last one first. -/
inductive Walk (r : Repository) (schema : Json) : Json.Path → List String → Json → Prop where
  | start : Walk r schema [] [] schema
  | member {path : Json.Path} {jumps : List String} {members : Json.Members} {key : String}
      {v : Json} (h : Walk r schema path jumps (.obj members)) (hm : (key, v) ∈ members)
      (hk : key ≠ Reference.key) : Walk r schema (path ++ [.key key]) jumps v
  | item {path : Json.Path} {jumps : List String} {items : List Json} {i : Nat} {v : Json}
      (h : Walk r schema path jumps (.arr items)) (hi : items[i]? = some v) :
      Walk r schema (path ++ [.index i]) jumps v
  | jump {path : Json.Path} {jumps : List String} {members target : Json.Members} {text : String}
      (h : Walk r schema path jumps (.obj members))
      (hr : Dict.get? members Reference.key = some (.str text))
      (ht : r.denoted? text = some target) : Walk r schema path (text :: jumps) (.obj target)

/-- What is wrong with the reference of an object that is reached after the given jumps. -/
inductive Cause (r : Repository) (members : Json.Members) (jumps : List String) :
    Fault → Prop where
  | noText {v : Json} (hr : Dict.get? members Reference.key = some v)
      (hv : ∀ text, v ≠ .str text) : Cause r members jumps (.invalidReference v.compact .notAString)
  | unreadable {text : String} {fault : Reference.Fault}
      (hr : Dict.get? members Reference.key = some (.str text))
      (hp : Reference.parse text = .error fault) :
      Cause r members jumps (.invalidReference text fault)
  | noSchema {text : String} {reference : Reference}
      (hr : Dict.get? members Reference.key = some (.str text))
      (hp : Reference.parse text = .ok reference) (hs : r.get? reference.name = none) :
      Cause r members jumps (.schemaNotFound text)
  | noValue {text name pointer : String} {schema : Json}
      (hr : Dict.get? members Reference.key = some (.str text))
      (hp : Reference.parse text = .ok ⟨name, some pointer⟩) (hs : r.get? name = some schema)
      (hv : schema.atPointer? pointer = none) :
      Cause r members jumps (.pointerNotFound text pointer)
  | noObject {text name pointer : String} {schema v : Json}
      (hr : Dict.get? members Reference.key = some (.str text))
      (hp : Reference.parse text = .ok ⟨name, some pointer⟩) (hs : r.get? name = some schema)
      (hv : schema.atPointer? pointer = some v) (ho : ¬ v.isObject) :
      Cause r members jumps (.invalidReference text (.targetNotObject pointer))
  | noObjectSchema {text name : String} {schema : Json}
      (hr : Dict.get? members Reference.key = some (.str text))
      (hp : Reference.parse text = .ok ⟨name, none⟩) (hs : r.get? name = some schema)
      (ho : ¬ schema.isObject) : Cause r members jumps (.invalidReference text .schemaNotObject)
  | schemaAgain {text text' name : String}
      (hr : Dict.get? members Reference.key = some (.str text))
      (hp : Reference.parse text = .ok ⟨name, none⟩) (hj : text' ∈ jumps)
      (hp' : Reference.parse text' = .ok ⟨name, none⟩) : Cause r members jumps (.cycle text)
  | placeAgain {text name pointer : String}
      (hr : Dict.get? members Reference.key = some (.str text))
      (hp : Reference.parse text = .ok ⟨name, some pointer⟩) (hj : text ∈ jumps) :
      Cause r members jumps (.cycle text)

/-- A stack under which the values that wait are reached by walks, with a jump for each target. -/
inductive Traced (r : Repository) (schema : Json) : List Frame → List String → Prop where
  | nil : Traced r schema [] []
  | items {path : Json.Path} {i : Nat} {whole done : List Json} {frames : List Frame}
      {jumps : List String} (hw : Walk r schema path jumps (.arr whole))
      (h : Traced r schema frames jumps) :
      Traced r schema (.items path i done (whole.drop (i + 1)) :: frames) jumps
  | member {path : Json.Path} {whole done rest : Json.Members} {key : String}
      {frames : List Frame} {jumps : List String} (hw : Walk r schema path jumps (.obj whole))
      (hr : rest ⊆ whole) (h : Traced r schema frames jumps) :
      Traced r schema (.member path whole done key rest :: frames) jumps
  | target {entry : Entry} {own : Json.Members} {text : String} {frames : List Frame}
      {jumps : List String} (he : Reference.entry? text = some entry)
      (h : Traced r schema frames jumps) :
      Traced r schema (.target entry own :: frames) (text :: jumps)

/-- A reference at the end of a walk with the given path is at fault. -/
def Blamed (r : Repository) (schema : Json) (e : Error) : Prop :=
  ∃ jumps members, Walk r schema e.path jumps (.obj members) ∧ Cause r members jumps e.fault

def State.Traced (r : Repository) (schema : Json) : State → Prop
  | expand path v frames =>
    ∃ jumps, Walk r schema path jumps v ∧ Schema.Traced r schema frames jumps
  | give _ frames => ∃ jumps, Schema.Traced r schema frames jumps
  | halt (.error e) => Blamed r schema e
  | halt (.ok _) => True

variable {r : Repository} {schema : Json}

/-- The targets under expansion are what the jumps entered. -/
theorem Traced.map_entry? {frames : List Frame} {jumps : List String}
    (h : Traced r schema frames jumps) :
    jumps.map Reference.entry? = (opened frames).map some := by
  induction h with
  | nil => rfl
  | items _ _ ih | member _ _ _ ih => exact ih
  | target he _ ih => rw [List.map_cons, opened, List.map_cons, he, ih]

theorem Traced.exists_jump {frames : List Frame} {jumps : List String}
    (h : Traced r schema frames jumps) {entry : Entry} (he : entry ∈ opened frames) :
    ∃ text ∈ jumps, Reference.entry? text = some entry := by
  have hm : some entry ∈ jumps.map Reference.entry? :=
    h.map_entry? ▸ List.mem_map_of_mem he
  exact List.mem_map.mp hm

theorem parse_ne_schemaNotObject {text : String} :
    Reference.parse text ≠ .error .schemaNotObject := by
  intro h
  unfold Reference.parse at h
  split at h
  · cases h
  · dsimp only at h
    split at h <;> cases h

theorem parse_of_entry?_schema {text name : String}
    (h : Reference.entry? text = some (.schema name)) :
    Reference.parse text = .ok ⟨name, none⟩ := by
  unfold Reference.entry? at h
  split at h
  · cases h
  · next reference hp =>
    obtain ⟨name', pointer⟩ := reference
    cases pointer <;> simp at h
    rw [hp, h]

theorem eq_of_entry?_place {text text' : String}
    (h : Reference.entry? text = some (.place text')) : text = text' := by
  unfold Reference.entry? at h
  split at h
  · cases h
  · split at h <;> simp_all

/-! One step -/

namespace Traced

variable {frames : List Frame} {jumps : List String}

/-- A reference that cannot be entered is at fault. -/
theorem blamed_of_enter (h : Traced r schema frames jumps) {path : Json.Path}
    {members : Json.Members} (hw : Walk r schema path jumps (.obj members)) {text : String}
    (hr : Dict.get? members Reference.key = some (.str text)) {e : Error}
    (he : enter r (· ∉ opened frames) path text = .error e) : Blamed r schema e := by
  unfold enter at he
  split at he
  · next fault hp =>
    cases he
    exact ⟨jumps, members, hw, .unreadable hr hp⟩
  · next reference hp =>
    obtain ⟨name, pointer⟩ := reference
    split at he
    · next hs =>
      cases he
      exact ⟨jumps, members, hw, .noSchema hr hp hs⟩
    · next target hs =>
      cases pointer with
      | some pointer =>
        simp only at he
        split at he
        · next hv =>
          cases he
          exact ⟨jumps, members, hw, .noValue hr hp hs hv⟩
        · next object hv =>
          split at he
          · cases he
          · next hopen =>
            cases he
            obtain ⟨text', hj, he'⟩ := h.exists_jump (not_not.mp hopen)
            obtain rfl := eq_of_entry?_place he'
            exact ⟨jumps, members, hw, .placeAgain hr hp hj⟩
        · next v hno hv =>
          cases he
          refine ⟨jumps, members, hw, .noObject hr hp hs hv fun ho => ?_⟩
          obtain ⟨object, rfl⟩ := Json.isObject_iff.mp ho
          exact hno object rfl
      | none =>
        simp only at he
        split at he
        · split at he
          · cases he
          · next hno =>
            cases he
            refine ⟨jumps, members, hw, .noObjectSchema hr hp hs fun ho => ?_⟩
            obtain ⟨object, rfl⟩ := Json.isObject_iff.mp ho
            exact hno object rfl
        · next hopen =>
          cases he
          obtain ⟨text', hj, he'⟩ := h.exists_jump (not_not.mp hopen)
          exact ⟨jumps, members, hw, .schemaAgain hr hp hj (parse_of_entry?_schema he')⟩

/-- A target is reached by a jump from the object that refers to it. -/
theorem reference (h : Traced r schema frames jumps) {path : Json.Path} {whole : Json.Members}
    (hw : Walk r schema path jumps (.obj whole)) (own : Json.Members) :
    (State.reference r path whole own frames).Traced r schema := by
  unfold State.reference
  split
  · exact ⟨jumps, h⟩
  · next text hr =>
    split
    · next e he => exact h.blamed_of_enter hw hr he
    · next entry target he =>
      obtain ⟨-, -, ht, hentry⟩ := of_enter (List.mem_singleton_self text) he
      exact ⟨text :: jumps, .jump hw hr ht, .target hentry h⟩
  · next v hno hr => exact ⟨jumps, whole, hw, .noText hr hno⟩

theorem items_next (h : Traced r schema frames jumps) {path : Json.Path} {whole : List Json}
    (hw : Walk r schema path jumps (.arr whole)) (i : Nat) (done : List Json) :
    (State.items path i done frames (whole.drop i)).Traced r schema := by
  cases hd : whole.drop i with
  | nil => exact ⟨jumps, h⟩
  | cons item rest =>
    have hi : whole[i]? = some item := by
      rw [← List.head?_drop, hd, List.head?_cons]
    have hrest : whole.drop (i + 1) = rest := by
      rw [← List.tail_drop, hd, List.tail_cons]
    exact ⟨jumps, hw.item hi, hrest ▸ .items hw h⟩

theorem members_next (h : Traced r schema frames jumps) {path : Json.Path}
    {whole rest : Json.Members} (hw : Walk r schema path jumps (.obj whole)) (hr : rest ⊆ whole)
    (done : Json.Members) : (State.members r path whole done frames rest).Traced r schema := by
  induction rest with
  | nil => exact h.reference hw done
  | cons m rest ih =>
    obtain ⟨key, v⟩ := m
    obtain ⟨hm, hr⟩ := List.cons_subset.mp hr
    unfold State.members
    split
    · exact ih hr
    · next hk => exact ⟨jumps, hw.member hm hk, .member hw hr h⟩

theorem resume (h : Traced r schema frames jumps) (v : Json) :
    (State.resume r v frames).Traced r schema := by
  cases h with
  | nil => trivial
  | items hw h => exact h.items_next hw _ _
  | member hw hr h => exact h.members_next hw hr _
  | target _ h => cases v <;> exact ⟨_, h⟩

end Traced

namespace State

theorem traced_step {s : State} (h : s.Traced r schema) : (step r s).Traced r schema := by
  cases s with
  | expand path v frames =>
    obtain ⟨jumps, hw, h⟩ := h
    cases v with
    | null | bool | num | str => exact ⟨jumps, h⟩
    | arr whole => exact h.items_next hw 0 []
    | obj whole => exact h.members_next hw (List.Subset.refl whole) []
  | give v frames =>
    obtain ⟨jumps, h⟩ := h
    exact h.resume v
  | halt result => exact h

/-- The stack stays traced however long the machine runs. -/
theorem traced_run {s : State} (h : s.Traced r schema) (n : Nat) :
    ((step r)^[n] s).Traced r schema := by
  induction n with
  | zero => exact h
  | succ n ih =>
    rw [Function.iterate_succ_apply']
    exact traced_step ih

end State

theorem blamed_of_dereference {e : Error} (h : dereference schema r = .error e) :
    Blamed r schema e := by
  obtain ⟨n, hn⟩ := leads_dereference schema r
  have hstart : (State.start schema).Traced r schema := ⟨[], .start, .nil⟩
  have hhalt := State.traced_run hstart n
  rwa [hn, h] at hhalt

theorem Cause.ofReference {members : Json.Members} {jumps : List String} {fault : Fault}
    (h : Cause r members jumps fault) : fault.ofReference := by
  cases h <;> rfl

theorem dereference_error {e : Error} (h : dereference schema r = .error e) :
    e.fault.ofReference := by
  obtain ⟨_, _, _, hc⟩ := blamed_of_dereference h
  exact hc.ofReference

/-- Where expanding fails, its path leads to a reference, through the objects that references on the
way denote, and what is reported is the matter with it. As the schemas of a repository are objects,
that is never that one is not. -/
theorem dereference_error_has_cause {e : Error} (h : dereference schema r = .error e) :
    (∃ jumps members, Walk r schema e.path jumps (.obj members) ∧
      Cause r members jumps e.fault) ∧
    ((∀ m ∈ r.schemas, m.2.isObject) →
      ∀ text, e.fault ≠ .invalidReference text .schemaNotObject) := by
  obtain ⟨jumps, members, hw, hc⟩ := blamed_of_dereference h
  refine ⟨⟨jumps, members, hw, hc⟩, fun hobjects text hf => ?_⟩
  rw [hf] at hc
  cases hc with
  | unreadable _ hp => exact parse_ne_schemaNotObject hp
  | noObjectSchema _ _ hs ho => exact ho (hobjects _ (Dict.mem_of_get? hs))

/-- A schema may be entered again once it has been left; the second jump into it on one way is at
fault. The path tells the members on the way and not the jumps. -/
theorem dereference_error_has_cause_second_jump :
    let text := "#/components/schemas/Node"
    let leaf := Json.obj [("$ref", .str "#/components/schemas/Leaf")]
    let node := Json.obj [("$ref", .str text)]
    let r : Repository := ⟨[
      ("Leaf", .obj [("type", .str "string")]), ("Node", .obj [("items", .arr [leaf, node])])]⟩
    let schema := Json.obj [("first", leaf), ("second", node)]
    let path : Json.Path := [.key "second", .key "items", .index 1]
    dereference schema r = .error ⟨path, .cycle text⟩ ∧
      (∃ jumps members, Walk r schema path jumps (.obj members) ∧
        Cause r members jumps (.cycle text)) ∧
      ∀ text', Fault.cycle text ≠ .invalidReference text' .schemaNotObject := by
  intro text leaf node r schema path
  have he : dereference schema r = .error ⟨path, .cycle text⟩ := by decide +kernel +zetaReduce
  have hobjects : ∀ m ∈ r.schemas, m.2.isObject := by decide +zetaReduce
  have hcause := dereference_error_has_cause he
  exact ⟨he, hcause.1, hcause.2 hobjects⟩

end RpcContract.Schema
