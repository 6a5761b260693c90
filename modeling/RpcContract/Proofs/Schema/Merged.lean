import RpcContract.Proofs.Schema.Merging

/-! The outcomes of merging. A result has no compositions left, a value with neither compositions
nor references is its own result, and what fails where there are no references is a composition. -/

namespace RpcContract.Schema

variable {P Q : Json.Members → Prop}

/-! Folding keeps what both objects have at all depths. -/

theorem mem_withoutRepeats {seen : List String} {items : List Json} {v : Json} :
    v ∈ withoutRepeats seen items ↔ v ∈ items ∧ ∀ s ∈ seen, v ≠ .str s := by
  induction items generalizing seen with
  | nil => simp [withoutRepeats]
  | cons item items ih =>
    cases item with
    | str t =>
      by_cases ht : t ∈ seen
      · rw [withoutRepeats, if_pos ht, ih, List.mem_cons]
        exact ⟨fun h => ⟨.inr h.1, h.2⟩, fun h => ⟨h.1.resolve_left (h.2 t ht), h.2⟩⟩
      · rw [withoutRepeats, if_neg ht, List.mem_cons, ih, List.forall_mem_cons, List.mem_cons]
        by_cases hv : v = .str t
        · subst hv
          simpa using fun s hs (he : t = s) => ht (he ▸ hs)
        · simp [hv]
    | null | bool | num | arr | obj =>
      rw [withoutRepeats, List.mem_cons, List.mem_cons, ih]
      · refine ⟨?_, fun h => h.1.imp_right fun hv => ⟨hv, h.2⟩⟩
        rintro (rfl | h)
        · simp
        · exact ⟨.inr h.1, h.2⟩
      all_goals simp

section

variable {acc entry : Json.Members}

theorem absorbProperties_every (hQ : Json.Growing Q) (hacc : (Json.obj acc).Every Q)
    (hentry : (Json.obj entry).Every Q) (hk : propertiesKey ∈ Dict.keys entry) {value : Json}
    (hv : value.Every Q) : (Json.obj (absorbProperties acc value)).Every Q := by
  unfold absorbProperties
  split
  · split
    · exact hacc.insert hQ hentry hk hv
    · next existing hg => exact hacc.insert hQ hentry hk ((hacc.get? hg).fill hQ hv)
    · exact hacc
  · exact hacc.insertNew hQ hentry hk hv

theorem setRequired_every (hQ : Json.Growing Q) (hacc : (Json.obj acc).Every Q)
    (hentry : (Json.obj entry).Every Q) (hk : requiredKey ∈ Dict.keys entry) {items : List Json}
    (hv : (Json.arr items).Every Q) :
    (Json.obj (setRequired acc (withoutRepeats [] items))).Every Q := by
  unfold setRequired
  split
  · exact hacc
  · refine hacc.insert hQ hentry hk (.arr fun item hm => ?_)
    exact Json.every_arr.mp hv item (mem_withoutRepeats.mp hm).1

theorem absorbRequired_every (hQ : Json.Growing Q) (hacc : (Json.obj acc).Every Q)
    (hentry : (Json.obj entry).Every Q) (hk : requiredKey ∈ Dict.keys entry) {value : Json}
    (hv : value.Every Q) : (Json.obj (absorbRequired acc value)).Every Q := by
  unfold absorbRequired
  split
  · next incoming =>
    split
    · exact setRequired_every hQ hacc hentry hk hv
    · next current hg =>
      refine setRequired_every hQ hacc hentry hk (.arr fun item hm => ?_)
      rcases List.mem_append.mp hm with hm | hm
      · exact Json.every_arr.mp (hacc.get? hg) item hm
      · exact Json.every_arr.mp hv item hm
    · exact hacc
  · exact hacc.insertNew hQ hentry hk hv

theorem absorbMember_every (hQ : Json.Growing Q) (hacc : (Json.obj acc).Every Q)
    (hentry : (Json.obj entry).Every Q) {m : String × Json} (hm : m ∈ entry) :
    (Json.obj (absorbMember acc m)).Every Q := by
  have hk := Dict.mem_keys_of_mem hm
  have hv := (Json.every_obj.mp hentry).2 m hm
  unfold absorbMember
  split
  · next he => exact absorbProperties_every hQ hacc hentry (he ▸ hk) hv
  · split
    · next he => exact absorbRequired_every hQ hacc hentry (he ▸ hk) hv
    · exact hacc.insertNew hQ hentry hk hv

theorem absorb_every (hQ : Json.Growing Q) (hacc : (Json.obj acc).Every Q)
    (hentry : (Json.obj entry).Every Q) : (Json.obj (absorb acc entry)).Every Q :=
  List.foldlRecOn entry absorbMember (motive := fun acc => (Json.obj acc).Every Q) hacc
    fun _ hacc _ hm => absorbMember_every hQ hacc hentry hm

theorem foldl_absorb_every (hQ : Json.Growing Q) (hacc : (Json.obj acc).Every Q)
    {entries : List Json.Members} (hentries : ∀ entry ∈ entries, (Json.obj entry).Every Q) :
    (Json.obj (entries.foldl absorb acc)).Every Q :=
  List.foldlRecOn entries absorb (motive := fun acc => (Json.obj acc).Every Q) hacc
    fun _ hacc entry hm => absorb_every hQ hacc (hentries entry hm)

end

/-- If the members of an object keep a property when their values change and the composition goes,
and folding keeps it as well, then all objects of a result have it. -/
theorem mergeValue_every (hQ : Json.Growing Q)
    (hown : ∀ {members own}, P members →
      Dict.keys own = Dict.keys (Dict.erase members allOfKey) → Q own)
    {v : Json} (hv : v.Every P) {path : Json.Path} {w : Json} (h : mergeValue path v = .ok w) :
    w.Every Q := by
  induction hv generalizing path w with
  | null | bool | num | str =>
    rw [mergeValue, Except.ok.injEq] at h
    · simp [← h]
    all_goals simp
  | arr _ ih =>
    rw [mergeValue, Except.map_eq_ok_iff] at h
    obtain ⟨out, h, rfl⟩ := h
    refine .arr fun w hw => ?_
    obtain ⟨v, hv, place, hx⟩ := exists_left_of_forall₂ (forall₂_of_mergeItems h) hw
    exact ih v hv hx
  | obj hP _ ih =>
    rw [mergeValue_obj, Except.map_eq_ok_iff] at h
    obtain ⟨out, h, rfl⟩ := h
    obtain ⟨-, own, hm, entries, hc, rfl⟩ := mergeObject_eq_ok_iff.mp h
    have hrel := related_of_mergeMembers hm
    refine foldl_absorb_every hQ (.obj (hown hP hrel.keys_eq) fun q hq => ?_) ?_
    · obtain ⟨p, hp, -, place, hx⟩ := hrel.exists_left hq
      exact ih p (Dict.mem_erase.mp hp).1 hx
    · rcases mergeCompositions_eq_ok_iff.mp hc with ⟨-, rfl⟩ | ⟨items, hg, hi⟩
      · simp
      · have harr : (Json.arr (entries.map .obj)).Every Q := ih _ (Dict.mem_of_get? hg) hi
        exact fun entry he => Json.every_arr.mp harr _ (List.mem_map_of_mem he)

theorem merge_ordered {schema result : Json} (hs : schema.Ordered)
    (h : merge schema = .ok result) : result.Ordered :=
  mergeValue_every Json.growing_sorted (fun hm hk => (Dict.sorted_erase hm _).of_keys_eq hk) hs h

/-- No composition is left at any depth. -/
theorem merge_lacks_allOf {schema result : Json} (h : merge schema = .ok result) :
    result.Lacks allOfKey :=
  mergeValue_every (P := fun _ => True) (Json.growing_lacks allOfKey)
    (fun _ hk => Dict.not_mem_of_keys_eq hk) (Json.every_true schema) h

/-- Merging brings no references in. -/
theorem merge_lacks_reference {schema result : Json} (hs : schema.Lacks Reference.key)
    (h : merge schema = .ok result) : result.Lacks Reference.key := by
  refine mergeValue_every (Json.growing_lacks Reference.key) ?_ hs h
  intro members own hmem hk hown
  rw [hk, Dict.keys_erase] at hown
  exact hmem (List.mem_filter.mp hown).1

/-- The place of a value only shows in errors. -/
theorem mergeValue_ok_anywhere {v w : Json} {path : Json.Path} (h : mergeValue path v = .ok w)
    (place : Json.Path) : mergeValue place v = .ok w := by
  induction Json.every_true v generalizing path place w with
  | null | bool | num | str => simpa [mergeValue] using h
  | arr _ ih =>
    rw [mergeValue, Except.map_eq_ok_iff] at h
    obtain ⟨out, h, rfl⟩ := h
    have hitem := (List.forall₂_and_left _ _).mpr ⟨ih, forall₂_of_mergeItems h⟩
    refine mergeValue_arr_eq_ok_iff.mpr (mergeItems_of_forall₂ (hitem.imp ?_) place 0)
    rintro v w ⟨hv, _, hx⟩
    exact hv hx
  | @obj members _ _ ih =>
    rw [mergeValue_obj, Except.map_eq_ok_iff] at h
    obtain ⟨out, h, rfl⟩ := h
    obtain ⟨hr, own, hm, entries, hc, rfl⟩ := mergeObject_eq_ok_iff.mp h
    have hown : mergeMembers place members = .ok own := by
      refine mergeMembers_of_related ((related_of_mergeMembers hm).imp ?_) place
      rintro p hp w ⟨_, hx⟩
      exact ih p (Dict.mem_erase.mp hp).1 hx
    have hentries : mergeCompositions place members = .ok entries := by
      rcases mergeCompositions_eq_ok_iff.mp hc with ⟨hn, rfl⟩ | ⟨items, hg, hi⟩
      · exact mergeCompositions_eq_ok_iff.mpr (.inl ⟨hn, rfl⟩)
      · have harr := ih _ (Dict.mem_of_get? hg) hi (place ++ [.key allOfKey])
        exact mergeCompositions_eq_ok_iff.mpr (.inr ⟨items, hg, harr⟩)
    exact mergeValue_obj_eq_ok_iff.mpr
      (mergeObject_eq_ok_iff.mpr ⟨hr, own, hown, entries, hentries, rfl⟩)

theorem mergeValue_of_lacks {v : Json} (hr : v.Lacks Reference.key) (ha : v.Lacks allOfKey)
    (path : Json.Path) : mergeValue path v = .ok v := by
  induction ha generalizing path with
  | null | bool | num | str => simp [mergeValue]
  | arr _ ih =>
    have hitem := fun v hv => ih v hv (Json.every_arr.mp hr v hv)
    exact mergeValue_arr_eq_ok_iff.mpr
      (mergeItems_of_forall₂ (List.forall₂_same.mpr hitem) path 0)
  | @obj members hm _ ih =>
    obtain ⟨hk, hr⟩ := Json.every_obj.mp hr
    have hown : mergeMembers path members = .ok members := by
      refine mergeMembers_of_related ?_ path
      rw [Dict.erase_of_not_mem hm]
      exact .refl fun p hp place => ih p hp (hr p hp) place
    exact mergeValue_obj_eq_ok_iff.mpr
      ((mergeObject_of_not_mem_iff hm).mpr ⟨Dict.get?_eq_none_iff.mpr hk, hown⟩)

/-! Failures -/

theorem mergeItems_error {path : Json.Path} {i : Nat} {items : List Json} {e : Error}
    (h : mergeItems path i items = .error e) :
    ∃ v ∈ items, ∃ place, mergeValue place v = .error e := by
  induction items generalizing i with
  | nil => simp [mergeItems] at h
  | cons item items ih =>
    rw [mergeItems] at h
    rcases Except.both_eq_error_iff.mp h with h | ⟨-, h⟩
    · exact ⟨item, List.mem_cons_self, _, h⟩
    · obtain ⟨v, hv, hx⟩ := ih h
      exact ⟨v, List.mem_cons_of_mem _ hv, hx⟩

theorem mergeMembers_error {path : Json.Path} {members : Json.Members} {e : Error}
    (h : mergeMembers path members = .error e) :
    ∃ m ∈ members, ∃ place, mergeValue place m.2 = .error e := by
  induction members with
  | nil => simp [mergeMembers] at h
  | cons m members ih =>
    obtain ⟨key, v⟩ := m
    have hrest : mergeMembers path members = .error e →
        ∃ m ∈ (key, v) :: members, ∃ place, mergeValue place m.2 = .error e := by
      intro h
      obtain ⟨m, hm, hx⟩ := ih h
      exact ⟨m, List.mem_cons_of_mem _ hm, hx⟩
    unfold mergeMembers at h
    split at h
    · exact hrest h
    · rcases Except.both_eq_error_iff.mp h with h | ⟨-, h⟩
      · exact ⟨(key, v), List.mem_cons_self, _, h⟩
      · exact hrest h

/-- A composition fails to merge if one of its entries is no object, or like an array. -/
theorem mergeEntries_error {path : Json.Path} {i : Nat} {entries : List Json} {e : Error}
    (h : mergeEntries path i entries = .error e) :
    (∃ reason, e.fault = .invalidComposition reason) ∨
      mergeItems path i entries = .error e := by
  induction entries generalizing i with
  | nil => simp [mergeEntries] at h
  | cons entry entries ih =>
    cases entry with
    | obj members =>
      rw [mergeEntries_cons_obj, Except.bind_eq_error_iff] at h
      rw [mergeItems, Except.both_eq_error_iff, mergeValue_obj, Except.map_eq_error_iff]
      rcases h with h | ⟨out, ho, h⟩
      · exact .inr (.inl h)
      · have hout : ∃ w, (mergeObject (path ++ [.index i]) members).map Json.obj = .ok w :=
          ⟨.obj out, Except.map_eq_ok_iff.mpr ⟨out, ho, rfl⟩⟩
        exact (ih (Except.map_eq_error_iff.mp h)).imp_right fun h => .inr ⟨hout, h⟩
    | null | bool | num | str | arr =>
      simp only [mergeEntries, Except.error.injEq] at h
      subst h
      exact .inl ⟨_, rfl⟩

theorem mergeCompositions_error {path : Json.Path} {members : Json.Members} {e : Error}
    (h : mergeCompositions path members = .error e) :
    (∃ reason, e.fault = .invalidComposition reason) ∨
      ∃ items, Dict.get? members allOfKey = some (.arr items) ∧
        mergeValue (path ++ [.key allOfKey]) (.arr items) = .error e := by
  rw [mergeCompositions_eq] at h
  split at h
  · simp at h
  · next items hg =>
    refine (mergeEntries_error h).imp_right fun h => ⟨items, hg, ?_⟩
    rw [mergeValue, h]
    rfl
  · obtain rfl := Except.error.inj h
    exact .inl ⟨_, rfl⟩

theorem mergeObject_error {path : Json.Path} {members : Json.Members} {e : Error}
    (hr : Dict.get? members Reference.key = none) (h : mergeObject path members = .error e) :
    mergeMembers path members = .error e ∨ mergeCompositions path members = .error e := by
  have hcheck : checkResolved path members = .ok () := checkResolved_eq_ok_iff.mpr hr
  simp only [mergeObject, hcheck, Except.monadBind_eq_bind, Except.bind_eq_error_iff,
    Except.pure_eq_ok, reduceCtorEq, and_false, exists_false, or_false, false_or] at h
  rcases h with ⟨-, -, h | ⟨-, -, h⟩⟩
  · exact .inl h
  · exact .inr h

theorem mergeValue_error {v : Json} (hr : v.Lacks Reference.key) {path : Json.Path} {e : Error}
    (h : mergeValue path v = .error e) : ∃ reason, e.fault = .invalidComposition reason := by
  induction hr generalizing path with
  | null | bool | num | str => simp [mergeValue] at h
  | arr _ ih =>
    rw [mergeValue, Except.map_eq_error_iff] at h
    obtain ⟨v, hv, place, hx⟩ := mergeItems_error h
    exact ih v hv hx
  | @obj members hk _ ih =>
    rw [mergeValue_obj, Except.map_eq_error_iff] at h
    rcases mergeObject_error (Dict.get?_eq_none_iff.mpr hk) h with h | h
    · obtain ⟨m, hm, place, hx⟩ := mergeMembers_error h
      exact ih m hm hx
    · rcases mergeCompositions_error h with h | ⟨items, hg, h⟩
      · exact h
      · exact ih _ (Dict.mem_of_get? hg) h

end RpcContract.Schema
