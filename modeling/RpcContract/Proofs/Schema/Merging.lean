import RpcContract.Proofs.Json.Tree
import RpcContract.Proofs.Outcome
import RpcContract.Schema.Merge

/-! What merging returns for an array and for an object, by their parts. The entries of a
composition are merged like the elements of any array, and each must be an object. -/

namespace RpcContract.Schema

theorem mergeValue_obj (path : Json.Path) (members : Json.Members) :
    mergeValue path (.obj members) = (mergeObject path members).map .obj := by
  rw [mergeValue, mergeObject]
  cases checkResolved path members with
  | error e => rfl
  | ok u =>
    cases mergeMembers path members with
    | error e => rfl
    | ok own => cases mergeCompositions path members <;> rfl

theorem mergeValue_obj_eq_ok_iff {path : Json.Path} {members out : Json.Members} :
    mergeValue path (.obj members) = .ok (.obj out) ↔ mergeObject path members = .ok out := by
  simp [mergeValue_obj]

theorem mergeValue_arr_eq_ok_iff {path : Json.Path} {items outs : List Json} :
    mergeValue path (.arr items) = .ok (.arr outs) ↔ mergeItems path 0 items = .ok outs := by
  simp [mergeValue]

theorem checkResolved_eq_ok_iff {path : Json.Path} {members : Json.Members} {u : Unit} :
    checkResolved path members = .ok u ↔ Dict.get? members Reference.key = none := by
  unfold checkResolved
  split <;> simp_all

theorem mergeObject_eq_ok_iff {path : Json.Path} {members out : Json.Members} :
    mergeObject path members = .ok out ↔
      Dict.get? members Reference.key = none ∧
        ∃ own, mergeMembers path members = .ok own ∧
          ∃ entries, mergeCompositions path members = .ok entries ∧
            entries.foldl absorb own = out := by
  simp [mergeObject, checkResolved_eq_ok_iff]

/-! Elements and members -/

theorem forall₂_of_mergeItems {path : Json.Path} {i : Nat} {items out : List Json}
    (h : mergeItems path i items = .ok out) :
    List.Forall₂ (fun v w => ∃ place, mergeValue place v = .ok w) items out := by
  induction items generalizing i out with
  | nil =>
    obtain rfl : [] = out := by simpa [mergeItems] using h
    exact .nil
  | cons item items ih =>
    rw [mergeItems] at h
    obtain ⟨w, rest, hw, hs, rfl⟩ := Except.both_eq_ok_iff.mp h
    exact .cons ⟨_, hw⟩ (ih hs)

theorem mergeItems_of_forall₂ {items out : List Json}
    (h : List.Forall₂ (fun v w => ∀ place, mergeValue place v = .ok w) items out)
    (path : Json.Path) (i : Nat) : mergeItems path i items = .ok out := by
  induction h generalizing i with
  | nil => simp [mergeItems]
  | cons hw _ ih => simp [mergeItems, hw, ih, Except.bind]

theorem related_of_mergeMembers {path : Json.Path} {members own : Json.Members}
    (h : mergeMembers path members = .ok own) :
    Dict.Related (fun _ v w => ∃ place, mergeValue place v = .ok w)
      (Dict.erase members allOfKey) own := by
  induction members generalizing own with
  | nil =>
    obtain rfl : [] = own := by simpa [mergeMembers] using h
    exact .nil
  | cons m members ih =>
    obtain ⟨key, v⟩ := m
    unfold mergeMembers at h
    split at h
    · next hk =>
      rw [Dict.erase, if_pos hk]
      exact ih h
    · next hk =>
      obtain ⟨w, rest, hw, hs, rfl⟩ := Except.both_eq_ok_iff.mp h
      rw [Dict.erase, if_neg hk]
      exact .cons ⟨rfl, _, hw⟩ (ih hs)

theorem mergeMembers_of_related {members own : Json.Members}
    (h : Dict.Related (fun _ v w => ∀ place, mergeValue place v = .ok w)
      (Dict.erase members allOfKey) own)
    (path : Json.Path) : mergeMembers path members = .ok own := by
  induction members generalizing own with
  | nil =>
    obtain rfl : own = [] := List.forall₂_nil_left_iff.mp h
    simp [mergeMembers]
  | cons m members ih =>
    obtain ⟨key, v⟩ := m
    unfold mergeMembers
    split
    · next hk =>
      rw [Dict.erase, if_pos hk] at h
      exact ih h
    · next hk =>
      rw [Dict.erase, if_neg hk] at h
      cases h with
      | @cons _ n _ own hw hs =>
        obtain ⟨key', w⟩ := n
        obtain ⟨rfl, hw⟩ := hw
        simp [hw, ih hs, Except.bind]

/-! Compositions -/

theorem mergeCompositions_eq (path : Json.Path) (members : Json.Members) :
    mergeCompositions path members =
      match Dict.get? members allOfKey with
      | none => .ok []
      | some (.arr entries) => mergeEntries (path ++ [.key allOfKey]) 0 entries
      | some _ =>
        .error ⟨path ++ [.key allOfKey], .invalidComposition "expected an array of schemas"⟩ := by
  induction members with
  | nil => simp [mergeCompositions]
  | cons m members ih =>
    obtain ⟨key, v⟩ := m
    rw [Dict.get?_cons]
    unfold mergeCompositions
    split
    · cases v <;> rfl
    · exact ih

theorem mergeEntries_cons_obj (path : Json.Path) (i : Nat) (members : Json.Members)
    (entries : List Json) :
    mergeEntries path i (.obj members :: entries) =
      (mergeObject (path ++ [.index i]) members).bind fun out =>
        (mergeEntries path (i + 1) entries).map (out :: ·) := by
  rw [mergeEntries, mergeObject]
  cases checkResolved (path ++ [.index i]) members with
  | error e => rfl
  | ok u =>
    cases mergeMembers (path ++ [.index i]) members with
    | error e => rfl
    | ok own =>
      cases mergeCompositions (path ++ [.index i]) members with
      | error e => rfl
      | ok inner => cases mergeEntries path (i + 1) entries <;> rfl

/-- Only an object is merged to an object. -/
theorem mergeValue_eq_ok_obj {path : Json.Path} {v : Json} {out : Json.Members}
    (h : mergeValue path v = .ok (.obj out)) :
    ∃ members, v = .obj members ∧ mergeObject path members = .ok out := by
  cases v with
  | obj members => exact ⟨members, rfl, mergeValue_obj_eq_ok_iff.mp h⟩
  | arr items => simp [mergeValue] at h
  | null | bool | num | str => simp [mergeValue] at h

theorem mergeEntries_eq_ok_iff {path : Json.Path} {i : Nat} {entries : List Json}
    {outs : List Json.Members} :
    mergeEntries path i entries = .ok outs ↔ mergeItems path i entries = .ok (outs.map .obj) := by
  induction entries generalizing i outs with
  | nil => simp [mergeEntries, mergeItems, eq_comm]
  | cons entry entries ih =>
    rw [mergeItems, Except.both_eq_ok_iff]
    constructor
    · intro h
      cases entry with
      | obj members =>
        rw [mergeEntries_cons_obj] at h
        simp only [Except.bind_eq_ok_iff, Except.map_eq_ok_iff] at h
        obtain ⟨out, ho, rest, hs, rfl⟩ := h
        exact ⟨.obj out, rest.map .obj, mergeValue_obj_eq_ok_iff.mpr ho, ih.mp hs, rfl⟩
      | null | bool | num | str | arr => simp [mergeEntries] at h
    · rintro ⟨w, rest, hw, hs, he⟩
      cases outs with
      | nil => simp at he
      | cons out outs =>
        obtain ⟨rfl, rfl⟩ := List.cons.inj he
        obtain ⟨members, rfl, ho⟩ := mergeValue_eq_ok_obj hw
        rw [mergeEntries_cons_obj, ho]
        simp [Except.bind, ih.mpr hs, Except.map]

/-- The composition of an object merges to an array of objects. -/
theorem mergeCompositions_eq_ok_iff {path : Json.Path} {members : Json.Members}
    {outs : List Json.Members} :
    mergeCompositions path members = .ok outs ↔
      (Dict.get? members allOfKey = none ∧ outs = []) ∨
      ∃ entries, Dict.get? members allOfKey = some (.arr entries) ∧
        mergeValue (path ++ [.key allOfKey]) (.arr entries) = .ok (.arr (outs.map .obj)) := by
  simp only [mergeValue_arr_eq_ok_iff]
  rw [mergeCompositions_eq]
  split
  · next h => simp [h, eq_comm]
  · next entries h => simp [h, mergeEntries_eq_ok_iff]
  · next v hne h =>
    simp [h]
    exact fun entries he => (hne entries he).elim

/-- An object without a composition merges to its merged members. -/
theorem mergeObject_of_not_mem_iff {path : Json.Path} {members own : Json.Members}
    (ha : allOfKey ∉ Dict.keys members) :
    mergeObject path members = .ok own ↔
      Dict.get? members Reference.key = none ∧ mergeMembers path members = .ok own := by
  have hn : Dict.get? members allOfKey = none := Dict.get?_eq_none_iff.mpr ha
  simp [mergeObject_eq_ok_iff, mergeCompositions_eq, hn]

end RpcContract.Schema
