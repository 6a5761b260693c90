import RpcContract.Proofs.Schema.Merged

/-! Which schemas can be merged: those without references whose compositions all are arrays of
objects. Whatever stands in a schema is merged for itself, also where another value counts in the
end, so a fault is found wherever it is. -/

namespace RpcContract

def Json.isArrayOfObjects : Json → Bool
  | .arr items => items.all isObject
  | _ => false

namespace Schema

def Composable (members : Json.Members) : Prop :=
  ∀ v ∈ Dict.get? members allOfKey, v.isArrayOfObjects

instance : DecidablePred Composable := fun members =>
  inferInstanceAs (Decidable (∀ v ∈ Dict.get? members allOfKey, v.isArrayOfObjects = true))

def Mergeable (v : Json) : Prop := ∃ result, merge v = .ok result

theorem mergeable_of_mergeValue {path : Json.Path} {v w : Json} (h : mergeValue path v = .ok w) :
    Mergeable v :=
  ⟨w, mergeValue_ok_anywhere h []⟩

theorem mergeable_arr_iff {items : List Json} :
    Mergeable (.arr items) ↔ ∀ v ∈ items, Mergeable v := by
  constructor
  · rintro ⟨result, h⟩ v hv
    rw [merge, mergeValue, Except.map_eq_ok_iff] at h
    obtain ⟨outs, h, rfl⟩ := h
    obtain ⟨w, -, place, hw⟩ := exists_right_of_forall₂ (forall₂_of_mergeItems h) hv
    exact mergeable_of_mergeValue hw
  · intro h
    obtain ⟨outs, houts⟩ := exists_forall₂ h
    have hitems := mergeItems_of_forall₂ (houts.imp fun v w hw => mergeValue_ok_anywhere hw) [] 0
    exact ⟨.arr outs, mergeValue_arr_eq_ok_iff.mpr hitems⟩

/-- An array merges to objects only if it is made of objects. -/
theorem isArrayOfObjects_of_mergeValue {path : Json.Path} {v : Json} {outs : List Json.Members}
    (h : mergeValue path v = .ok (.arr (outs.map .obj))) : v.isArrayOfObjects := by
  cases v with
  | arr items =>
    refine List.all_eq_true.mpr fun item hm => ?_
    obtain ⟨w, hw, place, hx⟩ :=
      exists_right_of_forall₂ (forall₂_of_mergeItems (mergeValue_arr_eq_ok_iff.mp h)) hm
    obtain ⟨out, -, rfl⟩ := List.mem_map.mp hw
    obtain ⟨members, rfl, -⟩ := mergeValue_eq_ok_obj hx
    rfl
  | obj members => simp [mergeValue_obj] at h
  | null | bool | num | str => simp [mergeValue] at h

theorem exists_obj_of_mergeable {v : Json} (h : Mergeable v) (hv : v.isObject) :
    ∃ out, merge v = .ok (.obj out) := by
  obtain ⟨result, h⟩ := h
  obtain ⟨members, rfl⟩ := Json.isObject_iff.mp hv
  rw [merge, mergeValue_obj, Except.map_eq_ok_iff] at h
  obtain ⟨out, h, -⟩ := h
  exact ⟨out, mergeValue_obj_eq_ok_iff.mpr h⟩

theorem exists_outs_of_isArrayOfObjects {v : Json} (h : Mergeable v) (hv : v.isArrayOfObjects)
    (path : Json.Path) :
    ∃ (entries : List Json) (outs : List Json.Members), v = .arr entries ∧
      mergeValue path (.arr entries) = .ok (.arr (outs.map .obj)) := by
  cases v with
  | arr entries =>
    have hentries : ∀ entry ∈ entries, ∃ out, merge entry = .ok (.obj out) := fun entry hm =>
      exists_obj_of_mergeable (mergeable_arr_iff.mp h entry hm) (List.all_eq_true.mp hv entry hm)
    obtain ⟨outs, houts⟩ := exists_forall₂ hentries
    refine ⟨entries, outs, rfl, mergeValue_arr_eq_ok_iff.mpr (mergeItems_of_forall₂ ?_ path 0)⟩
    exact List.forall₂_map_right_iff.mpr (houts.imp fun v out hx => mergeValue_ok_anywhere hx)
  | null | bool | num | str | obj => simp [Json.isArrayOfObjects] at hv

theorem mergeable_members_iff {path : Json.Path} {members : Json.Members} :
    (∃ own, mergeMembers path members = .ok own) ↔
      ∀ m ∈ Dict.erase members allOfKey, Mergeable m.2 := by
  constructor
  · rintro ⟨own, h⟩ m hm
    obtain ⟨w, -, -, place, hx⟩ := exists_right_of_forall₂ (related_of_mergeMembers h) hm
    exact mergeable_of_mergeValue hx
  · intro h
    obtain ⟨own, hown⟩ := Dict.Related.exists_of_mem (R := fun _ v w => merge v = .ok w) h
    exact ⟨own, mergeMembers_of_related (hown.imp fun p _ w hw => mergeValue_ok_anywhere hw) path⟩

theorem mergeable_composition_iff {path : Json.Path} {members : Json.Members} :
    (∃ outs, mergeCompositions path members = .ok outs) ↔
      Composable members ∧ ∀ v ∈ Dict.get? members allOfKey, Mergeable v := by
  simp only [mergeCompositions_eq_ok_iff, Composable]
  cases hg : Dict.get? members allOfKey with
  | none => simp
  | some v =>
    constructor
    · rintro ⟨outs, ⟨hn, -⟩ | ⟨entries, he, hx⟩⟩
      · cases hn
      · obtain rfl := Option.some.inj he
        simpa using And.intro (isArrayOfObjects_of_mergeValue hx) (mergeable_of_mergeValue hx)
    · rintro ⟨hc, hm⟩
      obtain ⟨entries, outs, rfl, hx⟩ := exists_outs_of_isArrayOfObjects (hm v rfl) (hc v rfl)
        (path ++ [.key allOfKey])
      exact ⟨outs, .inr ⟨entries, rfl, hx⟩⟩

theorem mergeable_obj_iff {members : Json.Members} (hnd : (Dict.keys members).Nodup) :
    Mergeable (.obj members) ↔
      (Reference.key ∉ Dict.keys members ∧ Composable members) ∧
        ∀ m ∈ members, Mergeable m.2 := by
  have hparts : Mergeable (.obj members) ↔ Dict.get? members Reference.key = none ∧
      (∃ own, mergeMembers [] members = .ok own) ∧
        ∃ outs, mergeCompositions [] members = .ok outs := by
    simp [Mergeable, merge, mergeValue_obj, mergeObject_eq_ok_iff]
  -- the composition and the other members together are all members
  rw [hparts, mergeable_members_iff, mergeable_composition_iff, Dict.get?_eq_none_iff,
    Dict.forall_mem_iff_erase hnd allOfKey]
  tauto

theorem mergeable_iff {v : Json} (hv : v.Ordered) :
    Mergeable v ↔
      v.Every fun members => Reference.key ∉ Dict.keys members ∧ Composable members := by
  induction hv with
  | null => exact ⟨fun _ => .null, fun _ => ⟨.null, rfl⟩⟩
  | bool b => exact ⟨fun _ => .bool b, fun _ => ⟨.bool b, rfl⟩⟩
  | num n => exact ⟨fun _ => .num n, fun _ => ⟨.num n, rfl⟩⟩
  | str s => exact ⟨fun _ => .str s, fun _ => ⟨.str s, rfl⟩⟩
  | arr _ ih =>
    rw [mergeable_arr_iff, Json.every_arr]
    exact forall₂_congr ih
  | obj hs _ ih =>
    rw [mergeable_obj_iff hs.nodup, Json.every_obj]
    exact and_congr_right fun _ => forall₂_congr ih

/-- Exactly the schemas without references whose compositions are arrays of objects are merged, at
all depths. The result has no compositions and no references; it is its own result, as is every
schema that has none to begin with. -/
theorem merge_accepts_iff {schema : Json} (hs : schema.Ordered) :
    ((∃ result, merge schema = .ok result) ↔
      schema.Lacks Reference.key ∧ schema.Every Composable) ∧
    ∀ result, merge schema = .ok result →
      result.Lacks allOfKey ∧ result.Lacks Reference.key ∧ merge result = .ok result ∧
        (schema.Lacks allOfKey → result = schema) := by
  have haccepts := (mergeable_iff hs).trans Json.every_and_iff
  refine ⟨haccepts, fun result h => ?_⟩
  have hr := (haccepts.mp ⟨result, h⟩).1
  have hresult := merge_lacks_reference hr h
  have hallOf := merge_lacks_allOf h
  refine ⟨hallOf, hresult, mergeValue_of_lacks hresult hallOf [], fun hno => ?_⟩
  exact Except.ok.inj (h.symm.trans (mergeValue_of_lacks hr hno []))

/-- A reference in an entry is found where the value it stands in does not count, and a composition
that is no array among the properties of an element. -/
theorem merge_accepts_iff_overridden :
    let schema := fun inner : Json => Json.obj [
      ("allOf", .arr [.obj [("items", .arr [inner]), ("title", .str "entry")]]),
      ("items", .bool true), ("title", .str "own")]
    let composed := Json.obj [("allOf", .arr [.obj [("type", .str "string")]])]
    let reference := Json.obj [("properties", .obj [("$ref", .null)])]
    let misplaced := Json.obj [("properties", .obj [("allOf", composed)])]
    let result := Json.obj [("items", .bool true), ("title", .str "own")]
    (∀ inner ∈ [composed, reference, misplaced], (schema inner).Ordered) ∧
      merge (schema composed) = .ok result ∧ merge result = .ok result ∧
      (schema composed).Lacks Reference.key ∧ (schema composed).Every Composable ∧
      (¬ ∃ result, merge (schema reference) = .ok result) ∧
      ¬ ∃ result, merge (schema misplaced) = .ok result := by
  intro schema composed reference misplaced result
  have hs : ∀ inner ∈ [composed, reference, misplaced], (schema inner).Ordered := by
    decide +zetaReduce
  have hm : merge (schema composed) = .ok result := by rfl
  obtain ⟨hcomposed, hresult⟩ := merge_accepts_iff (hs composed (by simp))
  obtain ⟨hlacks, hcomposable⟩ := hcomposed.mp ⟨result, hm⟩
  have hreference : ¬ (schema reference).Lacks Reference.key := by decide +zetaReduce
  have hmisplaced : ¬ (schema misplaced).Every Composable := by decide +zetaReduce
  refine ⟨hs, hm, (hresult result hm).2.2.1, hlacks, hcomposable, fun h => ?_, fun h => ?_⟩
  · exact hreference ((merge_accepts_iff (hs reference (by simp))).1.mp h).1
  · exact hmisplaced ((merge_accepts_iff (hs misplaced (by simp))).1.mp h).2

end Schema

end RpcContract
