import RpcContract.Error
import RpcContract.Proofs.Schema.Expansion

/-! The outcomes of expanding. A result has no references left, and a value without references is
its own result. -/

namespace RpcContract

namespace Json

theorem countItems_eq_zero_iff {items : List Json} :
    countItems items = 0 ↔ ∀ v ∈ items, v.countReferences = 0 := by
  induction items with
  | nil => simp [countItems]
  | cons v items ih => simp [countItems, ih]

theorem countMembers_eq_zero_iff {members : Members} :
    countMembers members = 0 ↔ ∀ m ∈ members, m.2.countReferences = 0 := by
  induction members with
  | nil => simp [countMembers]
  | cons m members ih => simp [countMembers, ih]

theorem countReferences_eq_zero_iff {v : Json} :
    v.countReferences = 0 ↔ v.Lacks Reference.key := by
  induction every_true v with
  | null | bool | num | str => simp [countReferences]
  | arr _ ih =>
    rw [countReferences, countItems_eq_zero_iff, Lacks, every_arr]
    exact forall₂_congr ih
  | @obj members _ _ ih =>
    have hown : (if Dict.contains members Reference.key then 1 else 0) = 0 ↔
        Reference.key ∉ Dict.keys members := by
      simp [Dict.contains_iff_mem_keys]
    rw [countReferences, Nat.add_eq_zero_iff, hown, countMembers_eq_zero_iff, Lacks, every_obj]
    exact and_congr_right fun _ => forall₂_congr ih

end Json

namespace Schema

variable {P Q : Json.Members → Prop}

/-- If the members of an object keep a property when their values change and the reference goes,
and filling keeps it as well, then all objects of a result have it. -/
theorem expandValue_every (hQ : Json.Growing Q)
    (hown : ∀ {members own}, P members →
      Dict.keys own = Dict.keys (Dict.erase members Reference.key) → Q own)
    {f : Follow} (hf : ∀ path text base, f path text = .ok base → (Json.obj base).Every Q)
    {v : Json} (hv : v.Every P) {path : Json.Path} {w : Json}
    (h : expandValue f path v = .ok w) : w.Every Q := by
  induction hv generalizing path w with
  | null | bool | num | str =>
    rw [expandValue, Except.ok.injEq] at h
    · simp [← h]
    all_goals simp
  | arr _ ih =>
    rw [expandValue, Except.map_eq_ok_iff] at h
    obtain ⟨out, h, rfl⟩ := h
    refine .arr fun w hw => ?_
    obtain ⟨v, hv, place, hx⟩ := exists_left_of_forall₂ (forall₂_of_expandItems h) hw
    exact ih v hv hx
  | obj hP _ ih =>
    rw [expandValue_obj, Except.map_eq_ok_iff] at h
    obtain ⟨out, h, rfl⟩ := h
    obtain ⟨own, hm, hr⟩ := expandObject_eq_ok_iff.mp h
    have hrel := related_of_expandMembers hm
    have hevery : (Json.obj own).Every Q := by
      refine .obj (hown hP hrel.keys_eq) fun q hq => ?_
      obtain ⟨p, hp, -, place, hx⟩ := hrel.exists_left hq
      exact ih p (Dict.mem_erase.mp hp).1 hx
    rcases withReference_eq_ok_iff.mp hr with ⟨-, rfl⟩ | ⟨text, base, -, hb, rfl⟩
    · exact hevery
    · exact hevery.fill hQ (hf _ _ _ hb)

theorem dereference_every (hQ : Json.Growing Q)
    (hown : ∀ {members own}, P members →
      Dict.keys own = Dict.keys (Dict.erase members Reference.key) → Q own)
    {schema result : Json} {r : Repository} (hs : schema.Every P)
    (hr : ∀ text target, r.denoted? text = some target → (Json.obj target).Every P)
    (h : dereference schema r = .ok result) : result.Every Q := by
  refine expandValue_every hQ hown (fun path text base hb => ?_) hs h
  refine follow_induction (C := fun _ base => (Json.obj base).Every Q) ?_ hb
  intro f path text target base ht hf ho
  exact expandValue_every hQ hown hf (hr text target ht) (expandValue_obj_eq_ok_iff.mpr ho)

theorem dereference_ordered {schema result : Json} {r : Repository} (hs : schema.Ordered)
    (hr : r.Ordered) (h : dereference schema r = .ok result) : result.Ordered :=
  dereference_every Json.growing_sorted (fun hm hk => (Dict.sorted_erase hm _).of_keys_eq hk) hs
    (fun _ _ ht => ordered_denoted hr ht) h

/-- No reference is left at any depth, also where a schema was filled in. -/
theorem dereference_lacks {schema result : Json} {r : Repository}
    (h : dereference schema r = .ok result) : result.Lacks Reference.key :=
  dereference_every (P := fun _ => True) (Json.growing_lacks Reference.key)
    (fun _ hk => Dict.not_mem_of_keys_eq hk) (Json.every_true schema)
    (fun _ target _ => Json.every_true (.obj target)) h

theorem expandValue_of_lacks {v : Json} (hv : v.Lacks Reference.key) (f : Follow)
    (path : Json.Path) : expandValue f path v = .ok v := by
  induction hv generalizing path with
  | null | bool | num | str => simp [expandValue]
  | arr _ ih =>
    rw [expandValue, expandItems_of_forall₂ (List.forall₂_same.mpr ih) path 0]
    rfl
  | @obj members hm _ ih =>
    have hown : expandMembers f path members = .ok members := by
      refine expandMembers_of_related ?_ path
      rw [Dict.erase_of_not_mem hm]
      exact .refl fun p hp place => ih p hp place
    exact expandValue_obj_eq_ok_iff.mpr (expandObject_eq_ok_iff.mpr ⟨_, hown,
      withReference_eq_ok_iff.mpr (.inl ⟨Dict.get?_eq_none_iff.mpr hm, rfl⟩)⟩)

theorem dereference_of_lacks {schema : Json} (hs : schema.Lacks Reference.key) (r : Repository) :
    dereference schema r = .ok schema :=
  expandValue_of_lacks hs _ []

/-- Expanding leaves no reference at any depth, and leaves alone what has none: a result is its own
expansion in every repository. -/
theorem dereference_normalizes (schema : Json) (r : Repository) :
    (schema.countReferences = 0 → dereference schema r = .ok schema) ∧
      ∀ result, dereference schema r = .ok result →
        result.countReferences = 0 ∧ result.Lacks Reference.key ∧
          ∀ r', dereference result r' = .ok result := by
  refine ⟨fun hc => ?_, fun result h => ?_⟩
  · exact dereference_of_lacks (Json.countReferences_eq_zero_iff.mp hc) r
  · have hl := dereference_lacks h
    exact ⟨Json.countReferences_eq_zero_iff.mpr hl, hl, dereference_of_lacks hl⟩

/-- A chain of references whose targets have references among the members that are filled in. -/
theorem dereference_normalizes_chain :
    let reference := fun (text : String) (members : Json.Members) =>
      Json.obj (("$ref", .str text) :: members)
    let leaf := Json.obj [("type", .str "string")]
    let r : Repository := ⟨[
      ("Inner", .obj [("anyOf", .arr [reference "#/components/schemas/Leaf" [], .null])]),
      ("Leaf", leaf),
      ("Outer", reference "#/components/schemas/Inner"
        [("items", reference "#/components/schemas/Inner/anyOf/0" [])])]⟩
    let schema := reference "#/components/schemas/Outer" [("title", .str "own")]
    let result := Json.obj [
      ("anyOf", .arr [leaf, .null]), ("items", leaf), ("title", .str "own")]
    schema.countReferences = 1 ∧ dereference schema r = .ok result ∧
      result.countReferences = 0 ∧ result.Lacks Reference.key ∧
      ∀ r', dereference result r' = .ok result := by
  intro reference leaf r schema result
  have hc : schema.countReferences = 1 := by decide +zetaReduce
  have hd : dereference schema r = .ok result := by decide +kernel +zetaReduce
  obtain ⟨hzero, hlacks, -⟩ := (dereference_normalizes schema r).2 result hd
  exact ⟨hc, hd, hzero, hlacks, fun r' => (dereference_normalizes result r').1 hzero⟩

/-! Failures -/

/-- What can be wrong with a reference. -/
def Fault.ofReference : Fault → Bool
  | .invalidReference .. | .schemaNotFound _ | .pointerNotFound .. | .cycle _ => true
  | .unresolvedReference _ | .invalidComposition _ => false

end Schema

end RpcContract
