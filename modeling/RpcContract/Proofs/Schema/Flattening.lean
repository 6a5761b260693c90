import RpcContract.Proofs.Schema.Precedence

/-! How compositions are nested. What entries hold under a key is joined alike whether an entry is
joined with its own entries first or all of them are joined one after another; so an entry with a
composition may be replaced by itself without it, followed by the entries of that composition. -/

namespace RpcContract.Schema

/-! Lists of names -/

theorem withoutRepeats_withoutRepeats {seen seen' : List String} (h : seen' ⊆ seen)
    (xs : List Json) : withoutRepeats seen (withoutRepeats seen' xs) = withoutRepeats seen xs := by
  induction xs generalizing seen seen' with
  | nil => rfl
  | cons x xs ih =>
    cases x with
    | str s =>
      by_cases hm : s ∈ seen
      · by_cases hm' : s ∈ seen'
        · simpa [withoutRepeats, hm, hm'] using ih h
        · have hsub : s :: seen' ⊆ seen := List.cons_subset.mpr ⟨hm, h⟩
          simpa [withoutRepeats, hm, hm'] using ih hsub
      · have hm' : s ∉ seen' := fun hx => hm (h hx)
        have hsub : s :: seen' ⊆ s :: seen := List.cons_subset_cons s h
        simpa [withoutRepeats, hm, hm'] using ih hsub
    | null | bool | num | arr | obj => simpa [withoutRepeats] using ih h

theorem withoutRepeats_append_withoutRepeats {seen seen' : List String} (h : seen' ⊆ seen)
    (xs ys : List Json) :
    withoutRepeats seen (xs ++ withoutRepeats seen' ys) = withoutRepeats seen (xs ++ ys) := by
  induction xs generalizing seen with
  | nil => exact withoutRepeats_withoutRepeats h ys
  | cons x xs ih =>
    cases x with
    | str s =>
      by_cases hm : s ∈ seen
      · simpa [withoutRepeats, hm] using ih h
      · have hsub : seen' ⊆ s :: seen := List.subset_cons_of_subset s h
        simpa [withoutRepeats, hm] using ih hsub
    | null | bool | num | arr | obj => simpa [withoutRepeats] using ih h

theorem withoutRepeats_withoutRepeats_append (seen : List String) (xs ys : List Json) :
    withoutRepeats seen (withoutRepeats seen xs ++ ys) = withoutRepeats seen (xs ++ ys) := by
  induction xs generalizing seen with
  | nil => rfl
  | cons x xs ih =>
    cases x with
    | str s => by_cases hm : s ∈ seen <;> simp [withoutRepeats, hm, ih]
    | null | bool | num | arr | obj => simp [withoutRepeats, ih]

theorem withoutRepeats_nil_eq_nil_iff {xs : List Json} : withoutRepeats [] xs = [] ↔ xs = [] := by
  cases xs with
  | nil => simp [withoutRepeats]
  | cons x xs => cases x <;> simp [withoutRepeats]

/-- A list of which no text occurs twice stays as it is. -/
theorem withoutRepeats_eq_self {seen : List String} {xs : List Json}
    (h : (xs.filterMap Json.asString?).Nodup) (hs : ∀ s ∈ seen, .str s ∉ xs) :
    withoutRepeats seen xs = xs := by
  induction xs generalizing seen with
  | nil => rfl
  | cons x xs ih =>
    have hrest : ∀ s ∈ seen, .str s ∉ xs := fun s hm hx => hs s hm (List.mem_cons_of_mem _ hx)
    cases x with
    | str s =>
      have hm : s ∉ seen := fun hm => hs s hm List.mem_cons_self
      obtain ⟨hn, hnd⟩ := List.nodup_cons.mp h
      have hfresh : .str s ∉ xs := fun hx => hn (List.mem_filterMap.mpr ⟨_, hx, rfl⟩)
      rw [withoutRepeats, if_neg hm, ih hnd]
      exact List.forall_mem_cons.mpr ⟨hfresh, hrest⟩
    | null | bool | num | arr | obj =>
      rw [withoutRepeats, ih h hrest]
      simp

/-! One value -/

/-- What is held under a key after an entry was folded in that may have no value there. -/
def joinedWith (key : String) (held v : Option Json) : Option Json := v.elim held (joined key held)

theorem joined_eq_joinedRequired (held : Option Json) (v : Json) :
    joined requiredKey held v = joinedRequired held v := by
  simp [joined, propertiesKey_ne_requiredKey.symm]

/-- The names that are held, where a list is. -/
def namesIn (held : Option Json) : List Json := (held.bind Json.asArray?).getD []

def HoldsNames (held : Option Json) : Prop := ∀ v ∈ held, ∃ names, v = .arr names

/-- No name is held twice. -/
def HoldsOnce (held : Option Json) : Prop := withoutRepeats [] (namesIn held) = namesIn held

theorem listed_namesIn {held : Option Json} (h : HoldsNames held) :
    listed held (namesIn held) = held := by
  cases held with
  | none => rfl
  | some v =>
    obtain ⟨names, rfl⟩ := h v rfl
    by_cases hn : names = [] <;> simp [listed, namesIn, Json.asArray?, hn]

theorem joinedRequired_eq_listed {held : Option Json} (h : HoldsNames held) (names : List Json) :
    joinedRequired held (.arr names) =
      listed held (withoutRepeats [] (namesIn held ++ names)) := by
  cases held with
  | none => rfl
  | some v =>
    obtain ⟨current, rfl⟩ := h v rfl
    rfl

theorem joinedRequired_of_not_holdsNames {held : Option Json} (h : ¬ HoldsNames held) (v : Json) :
    joinedRequired held v = held := by
  cases held with
  | none => exact absurd (by simp [HoldsNames]) h
  | some w =>
    cases w with
    | arr names => exact absurd (by simp [HoldsNames]) h
    | null | bool | num | str | obj => cases v <;> rfl

theorem joinedRequired_withoutRepeats {held : Option Json} (h : HoldsNames held)
    (names : List Json) :
    joinedRequired held (.arr (withoutRepeats [] names)) = joinedRequired held (.arr names) := by
  rw [joinedRequired_eq_listed h, joinedRequired_eq_listed h,
    withoutRepeats_append_withoutRepeats (List.Subset.refl _)]

theorem joinedRequired_none {names : List Json} (h : names ≠ []) :
    joinedRequired none (.arr names) = some (.arr (withoutRepeats [] names)) := by
  have hne := mt withoutRepeats_nil_eq_nil_iff.mp h
  simp only [joinedRequired, listed, hne, if_false]

theorem joinedRequired_some (current names : List Json) :
    joinedRequired (some (.arr current)) (.arr names) =
      some (.arr (withoutRepeats [] (current ++ names))) := by
  by_cases hn : current ++ names = []
  · obtain ⟨rfl, rfl⟩ := List.append_eq_nil_iff.mp hn
    rfl
  · have hne := mt withoutRepeats_nil_eq_nil_iff.mp hn
    simp only [joinedRequired, listed, hne, if_false]

theorem joinedRequired_joinedRequired {held : Option Json} (h : HoldsNames held)
    (xs ys : List Json) :
    joinedRequired (joinedRequired held (.arr xs)) (.arr ys) =
      joinedRequired held (.arr (xs ++ ys)) := by
  cases held with
  | none =>
    by_cases hx : xs = []
    · subst hx
      rfl
    · have hboth : xs ++ ys ≠ [] := by simp [hx]
      rw [joinedRequired_none hx, joinedRequired_none hboth, joinedRequired_some,
        withoutRepeats_withoutRepeats_append]
  | some v =>
    obtain ⟨current, rfl⟩ := h v rfl
    simp only [joinedRequired_some, withoutRepeats_withoutRepeats_append, List.append_assoc]

/-- Joining an empty list leaves what is held, if no name is held twice. -/
theorem joinedRequired_nil {held : Option Json} (h : HoldsNames held) (hheld : HoldsOnce held) :
    joinedRequired held (.arr []) = held := by
  rw [joinedRequired_eq_listed h, List.append_nil, hheld, listed_namesIn h]

/-- Whether an entry holds names before more are joined to it makes no difference in the end. -/
theorem joinedWith_joinedRequired {held own : Option Json} (hheld : HoldsOnce held)
    (hown : HoldsNames own) (names : List Json) :
    joinedWith requiredKey held (joinedRequired own (.arr names)) =
      joinedRequired (joinedWith requiredKey held own) (.arr names) := by
  have hjoined : joined requiredKey held = joinedRequired held :=
    funext (joined_eq_joinedRequired held)
  simp only [joinedWith, hjoined]
  by_cases hh : HoldsNames held
  · cases own with
    | none =>
      by_cases hn : names = []
      · subst hn
        exact (joinedRequired_nil hh hheld).symm
      · rw [joinedRequired_none hn]
        exact joinedRequired_withoutRepeats hh names
    | some v =>
      obtain ⟨current, rfl⟩ := hown v rfl
      rw [joinedRequired_some]
      simp only [Option.elim_some]
      rw [joinedRequired_withoutRepeats hh, joinedRequired_joinedRequired hh]
  · have hsame := joinedRequired_of_not_holdsNames hh
    cases own <;> cases joinedRequired _ (.arr names) <;> simp [hsame]

theorem joinedWith_joinedProperties {held own : Option Json}
    (hheld : ∀ v ∈ held, v.Ordered) (hown : ∀ v ∈ own, v.isObject) (properties : Json.Members) :
    joinedWith propertiesKey held (joined propertiesKey own (.obj properties)) =
      joined propertiesKey (joinedWith propertiesKey held own) (.obj properties) := by
  cases own with
  | none => simp [joinedWith, joined, joinedProperties]
  | some v =>
    obtain ⟨inner, rfl⟩ := Json.isObject_iff.mp (hown v rfl)
    cases held with
    | none => simp [joinedWith, joined, joinedProperties]
    | some w =>
      cases w with
      | obj outer =>
        have hs := (Json.every_obj.mp (hheld _ rfl)).1
        simp [joinedWith, joined, joinedProperties, Dict.fill_fill hs]
      | null | bool | num | str | arr => simp [joinedWith, joined, joinedProperties]

/-! Whole objects -/

/-- The properties of an object are an object and its required names a list, if it has any. -/
structure Regular (members : Json.Members) : Prop where
  properties : ∀ v ∈ Dict.get? members propertiesKey, v.isObject
  required : HoldsNames (Dict.get? members requiredKey)

theorem joinedWith_joinedWith {acc own entry : Json.Members} (hacc : (Json.obj acc).Ordered)
    (hheld : HoldsOnce (Dict.get? acc requiredKey)) (hown : Regular own) (hentry : Regular entry)
    (key : String) :
    joinedWith key (Dict.get? acc key) (joinedWith key (Dict.get? own key) (Dict.get? entry key)) =
      joinedWith key (joinedWith key (Dict.get? acc key) (Dict.get? own key))
        (Dict.get? entry key) := by
  cases hv : Dict.get? entry key with
  | none => rfl
  | some v =>
    simp only [joinedWith, Option.elim_some]
    by_cases hp : key = propertiesKey
    · subst hp
      obtain ⟨properties, rfl⟩ := Json.isObject_iff.mp (hentry.properties v hv)
      exact joinedWith_joinedProperties (fun w hw => hacc.get? hw) hown.properties properties
    · by_cases hr : key = requiredKey
      · subst hr
        obtain ⟨names, rfl⟩ := hentry.required v hv
        simp only [joined_eq_joinedRequired]
        exact joinedWith_joinedRequired hheld hown.required names
      · cases Dict.get? own key <;> cases Dict.get? acc key <;> simp [joined, hp, hr]

/-- Folding an entry into an object that is folded into another is folding both one by one. -/
theorem absorb_absorb {acc own entry : Json.Members} (hacc : (Json.obj acc).Ordered)
    (hown : (Json.obj own).Ordered) (hentry : (Json.obj entry).Ordered)
    (hheld : HoldsOnce (Dict.get? acc requiredKey)) (hro : Regular own) (hre : Regular entry) :
    absorb acc (absorb own entry) = absorb (absorb acc own) entry := by
  have hinner := absorb_every Json.growing_sorted hown hentry
  have houter := absorb_every Json.growing_sorted hacc hown
  have hl := (Json.every_obj.mp (absorb_every Json.growing_sorted hacc hinner)).1
  have hr := (Json.every_obj.mp (absorb_every Json.growing_sorted houter hentry)).1
  have hso := (Json.every_obj.mp hown).1.nodup
  have hse := (Json.every_obj.mp hentry).1.nodup
  have hsi := (Json.every_obj.mp hinner).1.nodup
  refine hl.ext hr fun key => ?_
  rw [get?_absorb hsi, get?_absorb hse, get?_absorb hse, get?_absorb hso]
  exact joinedWith_joinedWith hacc hheld hro hre key

theorem holdsNames_joinedRequired {held : Option Json} (h : HoldsNames held) (names : List Json) :
    HoldsNames (joinedRequired held (.arr names)) := by
  rw [joinedRequired_eq_listed h, listed]
  split
  · exact h
  · simp [HoldsNames]

theorem Regular.absorb {own entry : Json.Members} (hown : Regular own) (hentry : Regular entry)
    (hnd : (Dict.keys entry).Nodup) : Regular (absorb own entry) := by
  constructor
  · rw [get?_absorb hnd]
    cases hv : Dict.get? entry propertiesKey with
    | none => exact hown.properties
    | some v => exact (joined_properties hown.properties (hentry.properties v hv)).1
  · rw [get?_absorb hnd]
    cases hv : Dict.get? entry requiredKey with
    | none => exact hown.required
    | some v =>
      obtain ⟨names, rfl⟩ := hentry.required v hv
      rw [Option.elim_some, joined_eq_joinedRequired]
      exact holdsNames_joinedRequired hown.required names

theorem holdsOnce_listed {held : Option Json} (h : HoldsOnce held) (names : List Json) :
    HoldsOnce (listed held (withoutRepeats [] names)) := by
  unfold listed
  split
  · exact h
  · exact withoutRepeats_withoutRepeats (List.Subset.refl _) names

/-- Folding repeats no name, whatever is folded in. -/
theorem holdsOnce_joinedRequired {held : Option Json} (h : HoldsOnce held) (v : Json) :
    HoldsOnce (joinedRequired held v) := by
  by_cases hh : HoldsNames held
  · cases v with
    | arr names =>
      rw [joinedRequired_eq_listed hh]
      exact holdsOnce_listed h _
    | null | bool | num | str | obj =>
      cases held with
      | none => rfl
      | some w => cases w <;> exact h
  · rwa [joinedRequired_of_not_holdsNames hh]

theorem holdsOnce_absorb {acc entry : Json.Members} (h : HoldsOnce (Dict.get? acc requiredKey))
    (hnd : (Dict.keys entry).Nodup) : HoldsOnce (Dict.get? (absorb acc entry) requiredKey) := by
  rw [get?_absorb hnd]
  cases Dict.get? entry requiredKey with
  | none => exact h
  | some v =>
    rw [Option.elim_some, joined_eq_joinedRequired]
    exact holdsOnce_joinedRequired h v

theorem holdsOnce_foldl_absorb {acc : Json.Members} {entries : List Json.Members}
    (h : HoldsOnce (Dict.get? acc requiredKey))
    (hnd : ∀ entry ∈ entries, (Dict.keys entry).Nodup) :
    HoldsOnce (Dict.get? (entries.foldl absorb acc) requiredKey) :=
  List.foldlRecOn entries absorb (motive := fun acc => HoldsOnce (Dict.get? acc requiredKey)) h
    fun _ h entry hm => holdsOnce_absorb h (hnd entry hm)

/-- Folding entries into an object that is folded into another is folding them all one by one. -/
theorem absorb_foldl_absorb {acc own : Json.Members} {entries : List Json.Members}
    (hacc : (Json.obj acc).Ordered) (hown : (Json.obj own).Ordered)
    (hentries : ∀ entry ∈ entries, (Json.obj entry).Ordered)
    (hheld : HoldsOnce (Dict.get? acc requiredKey)) (hro : Regular own)
    (hre : ∀ entry ∈ entries, Regular entry) :
    absorb acc (entries.foldl absorb own) = entries.foldl absorb (absorb acc own) := by
  induction entries generalizing own with
  | nil => rfl
  | cons entry entries ih =>
    obtain ⟨hentry, hentries⟩ := List.forall_mem_cons.mp hentries
    obtain ⟨hr, hre⟩ := List.forall_mem_cons.mp hre
    have hinner := absorb_every Json.growing_sorted hown hentry
    have hnd := (Json.every_obj.mp hentry).1.nodup
    rw [List.foldl_cons, List.foldl_cons, ih hinner hentries (hro.absorb hr hnd) hre,
      absorb_absorb hacc hown hentry hheld hro hr]

/-- An entry into which entries are folded counts as all of them one by one, wherever it stands. -/
theorem foldl_absorb_splice {acc own : Json.Members} {pres entries : List Json.Members}
    (hacc : (Json.obj acc).Ordered) (hheld : HoldsOnce (Dict.get? acc requiredKey))
    (hpres : ∀ entry ∈ pres, (Json.obj entry).Ordered) (hown : (Json.obj own).Ordered)
    (hro : Regular own) (hentries : ∀ entry ∈ entries, (Json.obj entry).Ordered)
    (hre : ∀ entry ∈ entries, Regular entry) (posts : List Json.Members) :
    (pres ++ entries.foldl absorb own :: posts).foldl absorb acc =
      (pres ++ own :: (entries ++ posts)).foldl absorb acc := by
  have hbefore := foldl_absorb_every Json.growing_sorted hacc hpres
  have honce := holdsOnce_foldl_absorb hheld
    fun entry hm => (Json.every_obj.mp (hpres entry hm)).1.nodup
  simp only [List.foldl_append, List.foldl_cons,
    absorb_foldl_absorb hbefore hown hentries honce hro hre]

/-! Compositions -/

abbrev MergesTo (v : Json) (out : Json.Members) : Prop := merge v = .ok (.obj out)

/-- What an object with a composition merges to. -/
theorem merge_composed_iff {members : Json.Members} {entries : List Json}
    (hc : Dict.get? members allOfKey = some (.arr entries)) {merged : Json} :
    merge (.obj members) = .ok merged ↔
      ∃ own outs, MergesTo (.obj (Dict.erase members allOfKey)) own ∧
        List.Forall₂ MergesTo entries outs ∧ merged = .obj (outs.foldl absorb own) := by
  constructor
  · intro hm
    have hcomposition : composition members = entries := by simp [composition, hc, Json.asArray?]
    have hparts := merge_parts hm
    rwa [hcomposition] at hparts
  · rintro ⟨own, outs, hown, houts, rfl⟩
    have hrest := Dict.not_mem_keys_erase members allOfKey
    obtain ⟨hr, hm⟩ :=
      (mergeObject_of_not_mem_iff hrest).mp (mergeValue_obj_eq_ok_iff.mp hown)
    have hr' : Dict.get? members Reference.key = none := by
      rwa [Dict.get?_erase, if_neg (by decide)] at hr
    have hmembers : mergeMembers [] members = .ok own := by
      refine mergeMembers_of_related ?_ []
      have hrel := related_of_mergeMembers hm
      rw [Dict.erase_of_not_mem hrest] at hrel
      refine hrel.imp ?_
      rintro p - w ⟨place, hx⟩
      exact mergeValue_ok_anywhere hx
    have hentries : mergeCompositions [] members = .ok outs := by
      refine mergeCompositions_eq_ok_iff.mpr (.inr ⟨entries, hc, ?_⟩)
      refine mergeValue_arr_eq_ok_iff.mpr (mergeItems_of_forall₂ ?_ _ 0)
      exact List.forall₂_map_right_iff.mpr (houts.imp fun v out hx => mergeValue_ok_anywhere hx)
    exact mergeValue_obj_eq_ok_iff.mpr
      (mergeObject_eq_ok_iff.mpr ⟨hr', own, hmembers, outs, hentries, rfl⟩)

theorem asString?_of_mergeValue {path : Json.Path} {v w : Json} (h : mergeValue path v = .ok w) :
    w.asString? = v.asString? := by
  cases v with
  | arr items =>
    rw [mergeValue, Except.map_eq_ok_iff] at h
    obtain ⟨out, -, rfl⟩ := h
    rfl
  | obj members =>
    rw [mergeValue_obj, Except.map_eq_ok_iff] at h
    obtain ⟨out, -, rfl⟩ := h
    rfl
  | null | bool | num | str =>
    rw [mergeValue, Except.ok.injEq] at h
    · rw [← h]
    all_goals simp

theorem filterMap_asString?_of_mergeItems {path : Json.Path} {i : Nat} {items outs : List Json}
    (h : mergeItems path i items = .ok outs) :
    outs.filterMap Json.asString? = items.filterMap Json.asString? := by
  have hitem := forall₂_of_mergeItems h
  clear h
  induction hitem with
  | nil => rfl
  | cons hw _ ih =>
    obtain ⟨place, hw⟩ := hw
    rw [List.filterMap_cons, List.filterMap_cons, asString?_of_mergeValue hw, ih]

theorem filterMap_namesIn_of_mergeValue {path : Json.Path} {v w : Json}
    (h : mergeValue path v = .ok w) :
    (namesIn (some w)).filterMap Json.asString? = (namesIn (some v)).filterMap Json.asString? := by
  cases v with
  | arr items =>
    rw [mergeValue, Except.map_eq_ok_iff] at h
    obtain ⟨outs, h, rfl⟩ := h
    exact filterMap_asString?_of_mergeItems h
  | obj members =>
    rw [mergeValue_obj, Except.map_eq_ok_iff] at h
    obtain ⟨out, -, rfl⟩ := h
    rfl
  | null | bool | num | str =>
    rw [mergeValue, Except.ok.injEq] at h
    · rw [h]
    all_goals simp

/-- Merging keeps the names that an object requires itself. -/
theorem filterMap_namesIn_of_merge {members own : Json.Members}
    (h : MergesTo (.obj (Dict.erase members allOfKey)) own) :
    (namesIn (Dict.get? own requiredKey)).filterMap Json.asString? =
      (namesIn (Dict.get? members requiredKey)).filterMap Json.asString? := by
  have hrest := Dict.not_mem_keys_erase members allOfKey
  obtain ⟨-, hm⟩ := (mergeObject_of_not_mem_iff hrest).mp (mergeValue_obj_eq_ok_iff.mp h)
  have hrel := related_of_mergeMembers hm
  have hsame : Dict.get? (Dict.erase members allOfKey) requiredKey =
      Dict.get? members requiredKey := by
    rw [Dict.get?_erase, if_neg (by decide)]
  rw [Dict.erase_of_not_mem hrest] at hrel
  rw [← hsame]
  cases hv : Dict.get? (Dict.erase members allOfKey) requiredKey with
  | none => rw [Dict.get?_eq_none_iff.mpr (hrel.keys_eq ▸ Dict.get?_eq_none_iff.mp hv)]
  | some v =>
    obtain ⟨w, hw, place, hx⟩ := hrel.exists_right_get? hv
    rw [hw]
    exact filterMap_namesIn_of_mergeValue hx

/-- Where an object requires no name twice it does not when it is merged. -/
theorem holdsOnce_of_merge {members own : Json.Members}
    (h : MergesTo (.obj (Dict.erase members allOfKey)) own)
    (hnames : ∀ names, Dict.get? members requiredKey = some (.arr names) →
      (names.filterMap Json.asString?).Nodup) : HoldsOnce (Dict.get? own requiredKey) := by
  refine withoutRepeats_eq_self ?_ (by simp)
  rw [filterMap_namesIn_of_merge h]
  cases hv : Dict.get? members requiredKey with
  | none => exact .nil
  | some v =>
    cases v with
    | arr names => exact hnames names hv
    | null | bool | num | str | obj => exact .nil

/-! The parts of a composition -/

/-- What an entry and the entries of its composition merge to, and those before and after it. -/
structure MergesParts (pre : List Json) (entry : Json) (entries post : List Json)
    (pres : List Json.Members) (out : Json.Members) (outs posts : List Json.Members) : Prop where
  pre : List.Forall₂ MergesTo pre pres
  entry : MergesTo entry out
  entries : List.Forall₂ MergesTo entries outs
  post : List.Forall₂ MergesTo post posts

section

variable {pre entries post : List Json} {inner : Json.Members}

theorem forall₂_nested_iff (hi : Dict.get? inner allOfKey = some (.arr entries))
    {merged : List Json.Members} :
    List.Forall₂ MergesTo (pre ++ .obj inner :: post) merged ↔
      ∃ pres out outs posts,
        MergesParts pre (.obj (Dict.erase inner allOfKey)) entries post pres out outs posts ∧
        merged = pres ++ outs.foldl absorb out :: posts := by
  rw [forall₂_append_left_iff]
  constructor
  · rintro ⟨pres, rest, hpre, hrest, rfl⟩
    obtain ⟨whole, posts, hwhole, hpost, rfl⟩ := List.forall₂_cons_left_iff.mp hrest
    obtain ⟨out, outs, hout, houts, he⟩ := (merge_composed_iff hi).mp hwhole
    obtain rfl := Json.obj.inj he
    exact ⟨pres, out, outs, posts, ⟨hpre, hout, houts, hpost⟩, rfl⟩
  · rintro ⟨pres, out, outs, posts, h, rfl⟩
    have hwhole := (merge_composed_iff hi).mpr ⟨out, outs, h.entry, h.entries, rfl⟩
    exact ⟨pres, _, h.pre, .cons hwhole h.post, rfl⟩

theorem forall₂_spliced_iff {entry : Json} {merged : List Json.Members} :
    List.Forall₂ MergesTo (pre ++ entry :: (entries ++ post)) merged ↔
      ∃ pres out outs posts, MergesParts pre entry entries post pres out outs posts ∧
        merged = pres ++ out :: (outs ++ posts) := by
  rw [forall₂_append_left_iff]
  constructor
  · rintro ⟨pres, rest, hpre, hrest, rfl⟩
    obtain ⟨out, after, hout, hafter, rfl⟩ := List.forall₂_cons_left_iff.mp hrest
    obtain ⟨outs, posts, houts, hpost, rfl⟩ := forall₂_append_left_iff.mp hafter
    exact ⟨pres, out, outs, posts, ⟨hpre, hout, houts, hpost⟩, rfl⟩
  · rintro ⟨pres, out, outs, posts, h, rfl⟩
    exact ⟨pres, _, h.pre, .cons h.entry (List.rel_append h.entries h.post), rfl⟩

end

/-- An entry with a composition of its own may be replaced by itself without the composition,
followed by the entries of that: how compositions are nested makes no difference, only the order in
which the entries stand. -/
theorem merge_splice {members inner : Json.Members} {pre entries post : List Json}
    (hs : (Json.obj members).Ordered)
    (hc : Dict.get? members allOfKey = some (.arr (pre ++ .obj inner :: post)))
    (hi : Dict.get? inner allOfKey = some (.arr entries))
    (hregular : ∀ v ∈ .obj (Dict.erase inner allOfKey) :: entries,
      ∀ out, MergesTo v out → Regular out)
    (hnames : ∀ names, Dict.get? members requiredKey = some (.arr names) →
      (names.filterMap Json.asString?).Nodup) (merged : Json) :
    merge (.obj members) = .ok merged ↔
      merge (.obj (Dict.insert members allOfKey
        (.arr (pre ++ .obj (Dict.erase inner allOfKey) :: (entries ++ post))))) = .ok merged := by
  have hlist := Json.every_arr.mp (hs.get? hc)
  have hinner : (Json.obj inner).Ordered := hlist _ (by simp)
  -- whatever the parts merge to, folding them in comes to the same
  have hfold : ∀ {own pres out outs posts}, MergesTo (.obj (Dict.erase members allOfKey)) own →
      MergesParts pre (.obj (Dict.erase inner allOfKey)) entries post pres out outs posts →
      (pres ++ outs.foldl absorb out :: posts).foldl absorb own =
        (pres ++ out :: (outs ++ posts)).foldl absorb own := by
    intro own pres out outs posts hown h
    have hopres := ordered_of_merged (fun v hv => hlist v (by simp [hv])) h.pre
    have hoouts := ordered_of_merged (Json.every_arr.mp (hinner.get? hi)) h.entries
    have hoout := merge_ordered (Json.ordered_erase hinner allOfKey) h.entry
    have hoown := merge_ordered (Json.ordered_erase hs allOfKey) hown
    have hrout := hregular _ List.mem_cons_self out h.entry
    have hrouts : ∀ b ∈ outs, Regular b := by
      intro b hb
      obtain ⟨v, hv, hx⟩ := exists_left_of_forall₂ h.entries hb
      exact hregular v (List.mem_cons_of_mem _ hv) b hx
    exact foldl_absorb_splice hoown (holdsOnce_of_merge hown hnames) hopres hoout hrout hoouts
      hrouts posts
  have hc' := Dict.get?_insert_self members allOfKey
    (.arr (pre ++ .obj (Dict.erase inner allOfKey) :: (entries ++ post)))
  rw [merge_composed_iff hc, merge_composed_iff hc', Dict.erase_insert (Json.every_obj.mp hs).1]
  simp only [forall₂_nested_iff hi, forall₂_spliced_iff]
  constructor
  · rintro ⟨own, _, hown, ⟨pres, out, outs, posts, h, rfl⟩, rfl⟩
    exact ⟨own, _, hown, ⟨pres, out, outs, posts, h, rfl⟩, by rw [hfold hown h]⟩
  · rintro ⟨own, _, hown, ⟨pres, out, outs, posts, h, rfl⟩, rfl⟩
    exact ⟨own, _, hown, ⟨pres, out, outs, posts, h, rfl⟩, by rw [hfold hown h]⟩

/-- A composition inside an entry, with properties and required names on both levels. -/
theorem merge_splice_between_entries :
    let required := fun names : List String => Json.arr (names.map .str)
    let base := Json.obj [
      ("properties", .obj [("a", .obj [("title", .str "base")]), ("b", .obj [])]),
      ("required", required ["a", "b"])]
    let none := Json.obj [("required", required [])]
    let inner := [("allOf", Json.arr [base, none]),
      ("properties", .obj [("a", .obj [("title", .str "inner")])])]
    let first := Json.obj [("title", .str "first")]
    let last := Json.obj [("required", required ["c", "a"]), ("title", .str "last")]
    let members := [("allOf", Json.arr [first, .obj inner, last]), ("required", required ["b"])]
    let flat := Dict.insert members allOfKey
      (.arr [first, .obj (Dict.erase inner allOfKey), base, none, last])
    let merged := Json.obj [
      ("properties", .obj [("a", .obj [("title", .str "inner")]), ("b", .obj [])]),
      ("required", required ["b", "a", "c"]), ("title", .str "first")]
    (Json.obj members).Ordered ∧ merge (.obj members) = .ok merged ∧
      merge (.obj flat) = .ok merged := by
  intro required base none inner first last members flat merged
  have hs : (Json.obj members).Ordered := by decide +zetaReduce
  have hm : merge (.obj members) = .ok merged := by rfl
  have hregular : ∀ v ∈ .obj (Dict.erase inner allOfKey) :: [base, none],
      ∀ out, MergesTo v out → Regular out := by
    -- each of them is merged already
    have hmerged : ∀ v ∈ .obj (Dict.erase inner allOfKey) :: [base, none], merge v = .ok v := by
      decide +zetaReduce
    intro v hv out hout
    obtain rfl := Except.ok.inj ((hmerged v hv).symm.trans hout)
    simp only [List.mem_cons, List.not_mem_nil, or_false] at hv
    rcases hv with hv | hv | hv <;> obtain rfl := Json.obj.inj hv <;> constructor <;>
      simp [HoldsNames, Dict.get?, Dict.erase, inner, required, allOfKey, propertiesKey,
        requiredKey, Json.isObject_iff]
  have hnames : ∀ names, Dict.get? members requiredKey = some (.arr names) →
      (names.filterMap Json.asString?).Nodup := by
    intro names hg
    obtain rfl := Json.arr.inj (Option.some.inj hg)
    decide
  have hc : Dict.get? members allOfKey = some (.arr ([first] ++ .obj inner :: [last])) := rfl
  exact ⟨hs, hm, (merge_splice hs hc rfl hregular hnames merged).mp hm⟩

/-- A name that the object itself requires twice is dropped by any list that is folded in, also by
an empty one that an entry would not have kept. -/
example :
    let twice := Json.arr [.str "a", .str "a"]
    let inner := [("allOf", Json.arr [.obj [("required", .arr [])]])]
    merge (.obj [("allOf", .arr [.obj inner]), ("required", twice)]) =
        .ok (.obj [("required", twice)]) ∧
      merge (.obj [("allOf", .arr [.obj [], .obj [("required", .arr [])]]), ("required", twice)]) =
        .ok (.obj [("required", .arr [.str "a"])]) := by
  decide +zetaReduce

end RpcContract.Schema
