import RpcContract.Proofs.Schema.Flattening

/-! Which names a merged object requires. Where all that is folded holds lists, the lists are put
one after another and each name is kept where it occurs first; and what is required in the end is
what some entry requires, however deep compositions are nested, if nothing covers its list. -/

namespace RpcContract.Schema

/-! Lists of names -/

/-- The values are equal texts; what is no text is the same as nothing. -/
def sameText : Json → Json → Bool
  | .str s, .str t => s == t
  | _, _ => false

def unseen (seen : List String) : Json → Bool
  | .str s => s ∉ seen
  | _ => true

theorem unseen_cons (t : String) (seen : List String) (v : Json) :
    unseen (t :: seen) v = (unseen seen v && !sameText v (.str t)) := by
  cases v <;> simp [unseen, sameText, Bool.and_comm, beq_eq_decide]

theorem withoutRepeats_eq_eraseDupsBy (seen : List String) (xs : List Json) :
    withoutRepeats seen xs = (xs.filter (unseen seen)).eraseDupsBy sameText := by
  induction xs generalizing seen with
  | nil => rfl
  | cons x xs ih =>
    cases x with
    | str t =>
      by_cases ht : t ∈ seen
      · rw [withoutRepeats, if_pos ht, ih, List.filter_cons_of_neg (by simpa [unseen])]
      · have hrest : xs.filter (unseen (t :: seen)) =
            (xs.filter (unseen seen)).filter fun v => sameText v (.str t) = false := by
          rw [List.filter_filter]
          refine List.filter_congr fun v _ => ?_
          rw [unseen_cons]
          cases sameText v (.str t) <;> simp
        rw [withoutRepeats, if_neg ht, ih, List.filter_cons_of_pos (by simpa [unseen]),
          List.eraseDupsBy_cons, hrest]
    | null | bool | num | arr | obj =>
      rw [withoutRepeats, ih, List.filter_cons_of_pos (by rfl), List.eraseDupsBy_cons]
      · congr 2
        refine (List.filter_eq_self.mpr fun v _ => ?_).symm
        cases v <;> rfl
      all_goals simp

theorem withoutRepeats_nil_eq (xs : List Json) :
    withoutRepeats [] xs = xs.eraseDupsBy sameText := by
  rw [withoutRepeats_eq_eraseDupsBy, List.filter_eq_self.mpr]
  intro v _
  cases v <;> rfl

theorem nodup_withoutRepeats (seen : List String) (xs : List Json) :
    ((withoutRepeats seen xs).filterMap Json.asString?).Nodup := by
  induction xs generalizing seen with
  | nil => exact .nil
  | cons x xs ih =>
    cases x with
    | str t =>
      by_cases ht : t ∈ seen
      · rw [withoutRepeats, if_pos ht]
        exact ih seen
      · rw [withoutRepeats, if_neg ht]
        refine List.nodup_cons.mpr ⟨fun hm => ?_, ih _⟩
        obtain ⟨v, hv, he⟩ := List.mem_filterMap.mp hm
        cases v <;> simp [Json.asString?] at he
        subst he
        exact (mem_withoutRepeats.mp hv).2 _ List.mem_cons_self rfl
    | null | bool | num | arr | obj =>
      rw [withoutRepeats]
      · exact ih seen
      all_goals simp

/-! What entries hold, folded -/

theorem joinedRequired_eq_ite {held : Option Json} (h : HoldsNames held) (names : List Json) :
    joinedRequired held (.arr names) =
      if held = none ∧ namesIn held ++ names = [] then none
      else some (.arr ((namesIn held ++ names).eraseDupsBy sameText)) := by
  cases held with
  | none =>
    by_cases hn : names = []
    · subst hn
      rfl
    · simp [joinedRequired_none hn, withoutRepeats_nil_eq, namesIn, hn]
  | some v =>
    obtain ⟨current, rfl⟩ := h v rfl
    simp [joinedRequired_some, withoutRepeats_nil_eq, namesIn, Json.asArray?]

theorem nodup_namesIn_joinedRequired {held : Option Json} (h : HoldsNames held)
    (names : List Json) :
    ((namesIn (joinedRequired held (.arr names))).filterMap Json.asString?).Nodup := by
  rw [joinedRequired_eq_listed h, listed]
  split
  · next he =>
    have hnone := List.append_eq_nil_iff.mp (withoutRepeats_nil_eq_nil_iff.mp he)
    rw [hnone.1]
    exact .nil
  · exact nodup_withoutRepeats [] _

/-- Lists that are folded in one by one count as one list. -/
theorem foldl_joined_required {held : Option Json} (h : HoldsNames held) {vs : List Json}
    (hvs : ∀ v ∈ vs, HoldsNames (some v)) (hne : vs ≠ []) :
    vs.foldl (joined requiredKey) held =
      joinedRequired held (.arr (vs.flatMap fun v => namesIn (some v))) := by
  induction vs generalizing held with
  | nil => exact absurd rfl hne
  | cons v vs ih =>
    obtain ⟨hv, hrest⟩ := List.forall_mem_cons.mp hvs
    obtain ⟨names, rfl⟩ := hv v rfl
    rw [List.foldl_cons, joined_eq_joinedRequired]
    by_cases hlast : vs = []
    · subst hlast
      simp [namesIn, Json.asArray?]
    · rw [ih (holdsNames_joinedRequired h names) hrest hlast, joinedRequired_joinedRequired h]
      rfl

theorem mem_namesIn_joinedRequired {held : Option Json} {v : Json}
    (h : HoldsNames (joinedRequired held v)) :
    HoldsNames held ∧ ∀ name, name ∈ namesIn (joinedRequired held v) ↔
      name ∈ namesIn held ∨ name ∈ namesIn (some v) := by
  by_cases hh : HoldsNames held
  · refine ⟨hh, fun name => ?_⟩
    cases v with
    | arr names =>
      have hnames : namesIn (some (.arr names)) = names := rfl
      rw [joinedRequired_eq_listed hh, hnames, listed]
      split
      · next he =>
        obtain ⟨hnone, rfl⟩ := List.append_eq_nil_iff.mp (withoutRepeats_nil_eq_nil_iff.mp he)
        simp
      · simp [namesIn, Json.asArray?, mem_withoutRepeats]
    | null | bool | num | str | obj =>
      cases held with
      | none =>
        obtain ⟨names, he⟩ := h _ rfl
        cases he
      | some w => simp [joinedRequired, namesIn, Json.asArray?]
  · rw [joinedRequired_of_not_holdsNames hh] at h
    exact absurd h hh

/-- Where a list comes out in the end, it has what was held and all that the lists folded in have;
what is no list was left out. -/
theorem mem_namesIn_foldl_joined {held : Option Json} {vs : List Json}
    (h : HoldsNames (vs.foldl (joined requiredKey) held)) :
    HoldsNames held ∧ ∀ name, name ∈ namesIn (vs.foldl (joined requiredKey) held) ↔
      name ∈ namesIn held ∨ ∃ v ∈ vs, name ∈ namesIn (some v) := by
  induction vs generalizing held with
  | nil => exact ⟨h, by simp⟩
  | cons v vs ih =>
    rw [List.foldl_cons, joined_eq_joinedRequired] at h ⊢
    obtain ⟨hstep, hrest⟩ := ih h
    obtain ⟨hheld, hmem⟩ := mem_namesIn_joinedRequired hstep
    exact ⟨hheld, fun name => by simp [hrest, hmem, or_assoc]⟩

/-! Merged objects -/

/-- The names that an object requires, where it has a list of them. -/
def requiredNames (members : Json.Members) : List Json := namesIn (Dict.get? members requiredKey)

/-- What an object that is folded from parts requires. -/
structure UnitesNames (own : Json.Members) (entries : List Json.Members) (out : Json.Members) :
    Prop where
  kept : (∀ entry ∈ entries, requiredKey ∉ Dict.keys entry) →
    Dict.get? out requiredKey = Dict.get? own requiredKey
  united : (∃ entry ∈ entries, requiredKey ∈ Dict.keys entry) →
    Dict.get? out requiredKey =
      if requiredKey ∉ Dict.keys own ∧ (own :: entries).flatMap requiredNames = [] then none
      else some (.arr (((own :: entries).flatMap requiredNames).eraseDupsBy sameText))
  once : (∃ entry ∈ entries, requiredKey ∈ Dict.keys entry) →
    ((requiredNames out).filterMap Json.asString?).Nodup

theorem flatMap_valuesAt (entries : List Json.Members) :
    (valuesAt requiredKey entries).flatMap (fun v => namesIn (some v)) =
      entries.flatMap requiredNames := by
  induction entries with
  | nil => rfl
  | cons entry entries ih =>
    cases hv : Dict.get? entry requiredKey with
    | none => simpa [valuesAt, requiredNames, hv, namesIn] using ih
    | some v => simpa [valuesAt, requiredNames, hv] using ih

theorem mem_valuesAt_iff {key : String} {parts : List Json.Members} {v : Json} :
    v ∈ valuesAt key parts ↔ ∃ part ∈ parts, Dict.get? part key = some v :=
  List.mem_filterMap

theorem unitesNames_foldl_absorb {own : Json.Members} {entries : List Json.Members}
    (hnd : ∀ entry ∈ entries, (Dict.keys entry).Nodup)
    (hlists : ∀ part ∈ own :: entries, HoldsNames (Dict.get? part requiredKey)) :
    UnitesNames own entries (entries.foldl absorb own) := by
  have hown := hlists own List.mem_cons_self
  have hvs : ∀ v ∈ valuesAt requiredKey entries, HoldsNames (some v) := by
    intro v hv
    obtain ⟨entry, hm, hg⟩ := mem_valuesAt_iff.mp hv
    exact hg ▸ hlists entry (List.mem_cons_of_mem _ hm)
  -- some entry has a list: all lists of entries count as one
  have hunited : (∃ entry ∈ entries, requiredKey ∈ Dict.keys entry) →
      Dict.get? (entries.foldl absorb own) requiredKey =
        joinedRequired (Dict.get? own requiredKey) (.arr (entries.flatMap requiredNames)) := by
    rintro ⟨entry, hm, hk⟩
    obtain ⟨v, hv⟩ := Dict.mem_keys_iff.mp hk
    have hne := List.ne_nil_of_mem (mem_valuesAt_iff.mpr ⟨entry, hm, hv⟩)
    rw [get?_foldl_absorb hnd, foldl_joined_required hown hvs hne, flatMap_valuesAt]
  refine ⟨fun hno => ?_, fun h => ?_, fun h => ?_⟩
  · have hnil : valuesAt requiredKey entries = [] :=
      List.filterMap_eq_nil_iff.mpr fun entry hm => Dict.get?_eq_none_iff.mpr (hno entry hm)
    rw [get?_foldl_absorb hnd, hnil, List.foldl_nil]
  · rw [hunited h, joinedRequired_eq_ite hown]
    exact if_congr (and_congr Dict.get?_eq_none_iff Iff.rfl) rfl rfl
  · rw [requiredNames, hunited h]
    exact nodup_namesIn_joinedRequired hown _

theorem UnitesNames.holdsNames {own out : Json.Members} {entries : List Json.Members}
    (h : UnitesNames own entries out) (hown : HoldsNames (Dict.get? own requiredKey)) :
    HoldsNames (Dict.get? out requiredKey) := by
  by_cases hsome : ∃ entry ∈ entries, requiredKey ∈ Dict.keys entry
  · rw [h.united hsome]
    split <;> simp [HoldsNames]
  · rw [h.kept fun entry hm hk => hsome ⟨entry, hm, hk⟩]
    exact hown

/-! Nested compositions -/

/-- A name that an object requires, itself or in an entry of its composition. What an entry requires
counts if there is a list of required names in what the entry is merged to, or nothing. -/
inductive Requires (name : String) : Json.Members → Prop where
  | own {members : Json.Members} (h : .str name ∈ requiredNames members) : Requires name members
  | entry {members inner out : Json.Members} (hi : .obj inner ∈ composition members)
      (hm : MergesTo (.obj inner) out) (hl : HoldsNames (Dict.get? out requiredKey))
      (h : Requires name inner) : Requires name members

/-- Compositions are nested only finitely deep. -/
theorem composition_induction {P : Json.Members → Prop}
    (step : ∀ members, (∀ inner, .obj inner ∈ composition members → P inner) → P members)
    (members : Json.Members) : P members := by
  -- the entries of an object are two levels down: in the array that it has under the key
  have hall : ∀ v : Json, (∀ m, v = .obj m → P m) ∧
      ∀ items, v = .arr items → ∀ m, .obj m ∈ items → P m := by
    intro v
    induction Json.every_true v with
    | null | bool | num | str => simp
    | arr _ ih =>
      refine ⟨by simp, ?_⟩
      rintro _ ⟨⟩ m hm
      exact (ih _ hm).1 m rfl
    | obj _ _ ih =>
      refine ⟨?_, by simp⟩
      rintro _ ⟨⟩
      refine step _ fun inner hi => ?_
      obtain ⟨items, hg, hm⟩ := mem_composition_iff.mp hi
      exact (ih _ (Dict.mem_of_get? hg)).2 items rfl inner hm
  exact (hall (.obj members)).1 members rfl

theorem holdsNames_of_mem {held : Option Json} {v : Json} (h : v ∈ namesIn held) :
    HoldsNames held := by
  cases held with
  | none => simp [namesIn] at h
  | some w => cases w <;> simp [namesIn, Json.asArray?, HoldsNames] at h ⊢

theorem str_mem_iff {name : String} {xs : List Json} :
    .str name ∈ xs ↔ name ∈ xs.filterMap Json.asString? := by
  rw [List.mem_filterMap]
  refine ⟨fun h => ⟨_, h, rfl⟩, ?_⟩
  rintro ⟨v, hv, he⟩
  cases v <;> simp [Json.asString?] at he
  exact he ▸ hv

theorem mergesTo_unique : Relator.RightUnique MergesTo := fun _ _ _ h h' =>
  Json.obj.inj (Except.ok.inj (h.symm.trans h'))

theorem mem_requiredNames_iff_parts {members out : Json.Members}
    (hs : (Json.obj members).Ordered) (h : MergesTo (.obj members) out)
    (hl : HoldsNames (Dict.get? out requiredKey)) (name : String) :
    .str name ∈ requiredNames out ↔ .str name ∈ requiredNames members ∨
      ∃ inner part, .obj inner ∈ composition members ∧ MergesTo (.obj inner) part ∧
        .str name ∈ requiredNames part := by
  obtain ⟨own, entries, hown, hentries, he⟩ := merge_parts h
  obtain rfl := Json.obj.inj he
  have hordered := ordered_of_merged (ordered_composition hs) hentries
  have hnd : ∀ entry ∈ entries, (Dict.keys entry).Nodup :=
    fun entry hm => (Json.every_obj.mp (hordered entry hm)).1.nodup
  have hparts : (∃ v ∈ valuesAt requiredKey entries, .str name ∈ namesIn (some v)) ↔
      ∃ inner part, .obj inner ∈ composition members ∧ MergesTo (.obj inner) part ∧
        .str name ∈ requiredNames part := by
    constructor
    · rintro ⟨v, hv, hn⟩
      obtain ⟨part, hm, hg⟩ := mem_valuesAt_iff.mp hv
      obtain ⟨w, hw, hx⟩ := exists_left_of_forall₂ hentries hm
      obtain ⟨inner, rfl, -⟩ := mergeValue_eq_ok_obj hx
      exact ⟨inner, part, hw, hx, by rwa [requiredNames, hg]⟩
    · rintro ⟨inner, part, hi, hm, hn⟩
      obtain ⟨part', hp, hm'⟩ := exists_right_of_forall₂ hentries hi
      obtain rfl := mergesTo_unique hm' hm
      obtain ⟨v, hv⟩ : ∃ v, Dict.get? part' requiredKey = some v := by
        cases hg : Dict.get? part' requiredKey with
        | none => simp [requiredNames, hg, namesIn] at hn
        | some v => exact ⟨v, rfl⟩
      exact ⟨v, mem_valuesAt_iff.mpr ⟨part', hp, hv⟩, by rwa [requiredNames, hv] at hn⟩
  rw [get?_foldl_absorb hnd] at hl
  rw [requiredNames, get?_foldl_absorb hnd, (mem_namesIn_foldl_joined hl).2, hparts, str_mem_iff,
    filterMap_namesIn_of_merge hown, ← str_mem_iff, requiredNames]

theorem mem_requiredNames_iff {members out : Json.Members} (hs : (Json.obj members).Ordered)
    (h : MergesTo (.obj members) out) (hl : HoldsNames (Dict.get? out requiredKey))
    (name : String) : .str name ∈ requiredNames out ↔ Requires name members := by
  induction members using composition_induction generalizing out with
  | step members ih =>
    have hordered := ordered_composition hs
    rw [mem_requiredNames_iff_parts hs h hl]
    constructor
    · rintro (hn | ⟨inner, part, hi, hm, hn⟩)
      · exact .own hn
      · have hpart := holdsNames_of_mem hn
        exact .entry hi hm hpart ((ih inner hi (hordered _ hi) hm hpart).mp hn)
    · intro hr
      cases hr with
      | own hn => exact .inl hn
      | @entry _ inner part hi hm hpart hn =>
        exact .inr ⟨inner, part, hi, hm, (ih inner hi (hordered _ hi) hm hpart).mpr hn⟩

/-- Where the parts of a merged object have lists of required names, if any, the object has the
names of all parts, each where it occurs first; a name is among them exactly if the object requires
it, itself or in an entry at any depth that is not covered by something that is no list. -/
theorem merge_unites_names {members : Json.Members} {merged : Json}
    (hs : (Json.obj members).Ordered) (h : merge (.obj members) = .ok merged) :
    ∃ own entries out, MergesTo (.obj (Dict.erase members allOfKey)) own ∧
      List.Forall₂ MergesTo (composition members) entries ∧ merged = .obj out ∧
      ((∀ part ∈ own :: entries, HoldsNames (Dict.get? part requiredKey)) →
        UnitesNames own entries out ∧
          ∀ name, .str name ∈ requiredNames out ↔ Requires name members) := by
  obtain ⟨own, entries, hown, hentries, rfl⟩ := merge_parts h
  have hordered := ordered_of_merged (ordered_composition hs) hentries
  have hnd : ∀ entry ∈ entries, (Dict.keys entry).Nodup :=
    fun entry hm => (Json.every_obj.mp (hordered entry hm)).1.nodup
  refine ⟨own, entries, _, hown, hentries, rfl, fun hlists => ?_⟩
  have hunites := unitesNames_foldl_absorb hnd hlists
  have hl := hunites.holdsNames (hlists own List.mem_cons_self)
  exact ⟨hunites, mem_requiredNames_iff hs h hl⟩

/-- Lists on three levels, with names that are repeated between them and a value that is no name. -/
theorem merge_unites_names_nested :
    let required := fun items : List Json => [("required", Json.arr items)]
    let own := required [.str "b", .null, .str "b"]
    let middle := ("allOf", Json.arr [.obj (required [.str "c", .str "b"])]) :: required [.str "a"]
    let last := required [.null, .str "a"]
    let members := ("allOf", Json.arr [.obj middle, .obj [], .obj last]) :: own
    let entries := [required [.str "a", .str "c", .str "b"], [], last]
    let out := required [.str "b", .null, .str "a", .str "c", .null]
    (Json.obj members).Ordered ∧ merge (.obj members) = .ok (.obj out) ∧
      (∀ part ∈ own :: entries, HoldsNames (Dict.get? part requiredKey)) ∧
      UnitesNames own entries out ∧
        ∀ name, .str name ∈ requiredNames out ↔ Requires name members := by
  intro required own middle last members entries out
  have hs : (Json.obj members).Ordered := by decide +zetaReduce
  have hm : merge (.obj members) = .ok (.obj out) := by rfl
  have hlists : ∀ part ∈ own :: entries, HoldsNames (Dict.get? part requiredKey) := by
    simp [own, entries, last, required, HoldsNames, Dict.get?, requiredKey]
  obtain ⟨own', entries', out', hown, hentries, he, hunites⟩ := merge_unites_names hs hm
  obtain rfl : own = own' := mergesTo_unique rfl hown
  obtain rfl : entries = entries' := by
    have hparts : List.Forall₂ MergesTo (composition members) entries :=
      .cons rfl (.cons rfl (.cons rfl .nil))
    exact List.right_unique_forall₂' mergesTo_unique hparts hentries
  obtain rfl := Json.obj.inj he
  exact ⟨hs, hm, hlists, hunites hlists⟩

/-- A name is lost, although the parts of the merged object have lists only: between the entry that
requires it and the one it is nested in stands a value that is no list. -/
theorem merge_loses_covered_name :
    let names := fun texts : List String => ("required", Json.arr (texts.map .str))
    let inner := [names ["a"]]
    let middle := [("allOf", Json.arr [.obj inner]), ("required", Json.ofNat 5)]
    let outer := [("allOf", Json.arr [.obj middle]), names ["b"]]
    let members := [("allOf", Json.arr [.obj outer])]
    let out := [names ["b"]]
    (Json.obj members).Ordered ∧ merge (.obj members) = .ok (.obj out) ∧
      MergesTo (.obj (Dict.erase members allOfKey)) [] ∧
      List.Forall₂ MergesTo (composition members) [out] ∧
      (∀ part ∈ [[], out], HoldsNames (Dict.get? part requiredKey)) ∧
      .obj outer ∈ composition members ∧ .obj middle ∈ composition outer ∧
      .obj inner ∈ composition middle ∧
      .str "a" ∈ requiredNames inner ∧ .str "a" ∉ requiredNames out := by
  intro names inner middle outer members out
  have hs : (Json.obj members).Ordered := by decide +zetaReduce
  have hlists : ∀ part ∈ [[], out], HoldsNames (Dict.get? part requiredKey) := by
    simp [out, names, HoldsNames, Dict.get?, requiredKey]
  refine ⟨hs, rfl, rfl, .cons rfl .nil, hlists, ?_, ?_, ?_, ?_, ?_⟩ <;> decide +zetaReduce

end RpcContract.Schema
