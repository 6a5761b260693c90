import RpcContract.Proofs.Schema.Merged

/-! Which value counts where objects are folded into one. What one folded value does to the one
held under its key is a function of the two; a fold is this function taken over the values that
the entries have under the key. -/

namespace RpcContract.Schema

/-! One value -/

def joinedProperties : Option Json → Json → Json
  | some (.obj existing), .obj incoming => .obj (Dict.fill existing incoming)
  | some held, _ => held
  | none, v => v

/-- An empty list of names leaves what is held. -/
def listed (held : Option Json) (names : List Json) : Option Json :=
  if names = [] then held else some (.arr names)

def joinedRequired : Option Json → Json → Option Json
  | none, .arr incoming => listed none (withoutRepeats [] incoming)
  | some (.arr current), .arr incoming =>
    listed (some (.arr current)) (withoutRepeats [] (current ++ incoming))
  | none, v => some v
  | some held, _ => some held

/-- What is held under a key after the value of an entry was folded in. -/
def joined (key : String) (held : Option Json) (v : Json) : Option Json :=
  if key = propertiesKey then some (joinedProperties held v)
  else if key = requiredKey then joinedRequired held v
  else held.or (some v)

theorem propertiesKey_ne_requiredKey : propertiesKey ≠ requiredKey := by decide

theorem get?_insertNew_eq_or (d : Json.Members) (key : String) (v : Json) (q : String) :
    Dict.get? (Dict.insertNew d key v) q =
      if key = q then (Dict.get? d key).or (some v) else Dict.get? d q := by
  rw [Dict.get?_insertNew]
  split
  · next hq => rw [hq]
  · simp

theorem get?_absorbProperties (acc : Json.Members) (v : Json) (q : String) :
    Dict.get? (absorbProperties acc v) q =
      if propertiesKey = q then some (joinedProperties (Dict.get? acc propertiesKey) v)
      else Dict.get? acc q := by
  unfold absorbProperties joinedProperties
  by_cases hq : propertiesKey = q
  · subst hq
    cases v <;> simp only [get?_insertNew_eq_or, if_pos]
    case obj incoming =>
      cases hg : Dict.get? acc propertiesKey with
      | none => simp [Dict.get?_insert]
      | some held => cases held <;> simp [Dict.get?_insert, hg]
    all_goals cases Dict.get? acc propertiesKey <;> simp
  · simp only [if_neg hq]
    split
    · split <;> simp [Dict.get?_insert, hq]
    · simp [get?_insertNew_eq_or, hq]

theorem get?_setRequired (acc : Json.Members) (names : List Json) (q : String) :
    Dict.get? (setRequired acc names) q =
      if requiredKey = q then listed (Dict.get? acc requiredKey) names else Dict.get? acc q := by
  unfold setRequired listed
  by_cases hq : requiredKey = q
  · subst hq
    split <;> simp [Dict.get?_insert]
  · split <;> simp [Dict.get?_insert, hq]

theorem get?_absorbRequired (acc : Json.Members) (v : Json) (q : String) :
    Dict.get? (absorbRequired acc v) q =
      if requiredKey = q then joinedRequired (Dict.get? acc requiredKey) v
      else Dict.get? acc q := by
  unfold absorbRequired joinedRequired
  by_cases hq : requiredKey = q
  · subst hq
    cases v <;> simp only [get?_insertNew_eq_or, if_pos]
    case arr incoming =>
      cases hg : Dict.get? acc requiredKey with
      | none => simp [get?_setRequired, hg]
      | some held => cases held <;> simp [get?_setRequired, hg]
    all_goals cases Dict.get? acc requiredKey <;> simp
  · simp only [if_neg hq]
    split
    · split <;> simp [get?_setRequired, hq]
    · simp [get?_insertNew_eq_or, hq]

theorem get?_absorbMember (acc : Json.Members) (key : String) (v : Json) (q : String) :
    Dict.get? (absorbMember acc (key, v)) q =
      if key = q then joined key (Dict.get? acc key) v else Dict.get? acc q := by
  unfold absorbMember joined
  by_cases hp : key = propertiesKey
  · simp [hp, get?_absorbProperties]
  · by_cases hr : key = requiredKey
    · simp [hr, propertiesKey_ne_requiredKey.symm, get?_absorbRequired]
    · simp [hp, hr, get?_insertNew_eq_or]

/-! All values -/

theorem get?_absorb {entry : Json.Members} (hnd : (Dict.keys entry).Nodup) (acc : Json.Members)
    (key : String) :
    Dict.get? (absorb acc entry) key =
      (Dict.get? entry key).elim (Dict.get? acc key) (joined key (Dict.get? acc key)) := by
  induction entry generalizing acc with
  | nil => rfl
  | cons m entry ih =>
    obtain ⟨k, v⟩ := m
    obtain ⟨hk, hnd⟩ := List.nodup_cons.mp hnd
    have hcons : absorb acc ((k, v) :: entry) = absorb (absorbMember acc (k, v)) entry := rfl
    rw [hcons, ih hnd, get?_absorbMember, Dict.get?_cons]
    by_cases hq : k = key
    · subst hq
      rw [Dict.get?_eq_none_iff.mpr hk]
      simp
    · simp [hq]

/-- What objects hold under a key, in their order. -/
def valuesAt (key : String) (parts : List Json.Members) : List Json :=
  parts.filterMap (Dict.get? · key)

theorem isEmpty_valuesAt (key : String) (parts : List Json.Members) :
    (valuesAt key parts).isEmpty = !parts.any (Dict.contains · key) := by
  induction parts with
  | nil => rfl
  | cons part parts ih =>
    cases hg : Dict.get? part key with
    | none => simpa [valuesAt, Dict.contains, hg] using ih
    | some v => simp [valuesAt, Dict.contains, hg]

theorem findSome?_valuesAt (key : String) (parts : List Json.Members) (f : Json → Option Json) :
    (valuesAt key parts).findSome? f = parts.findSome? fun part =>
      (Dict.get? part key).bind f := by
  induction parts with
  | nil => rfl
  | cons part parts ih =>
    rw [List.findSome?_cons, ← ih]
    cases hg : Dict.get? part key <;> simp [valuesAt, hg, List.findSome?_cons]

theorem get?_foldl_absorb {entries : List Json.Members}
    (hnd : ∀ entry ∈ entries, (Dict.keys entry).Nodup) (own : Json.Members) (key : String) :
    Dict.get? (entries.foldl absorb own) key =
      (valuesAt key entries).foldl (joined key) (Dict.get? own key) := by
  induction entries generalizing own with
  | nil => rfl
  | cons entry entries ih =>
    rw [List.foldl_cons, ih fun e he => hnd e (List.mem_cons_of_mem _ he),
      get?_absorb (hnd entry List.mem_cons_self)]
    cases hg : Dict.get? entry key <;> simp [valuesAt, hg]

theorem foldl_joined_eq_or {key : String} (hp : key ≠ propertiesKey) (hr : key ≠ requiredKey)
    (held : Option Json) (vs : List Json) : vs.foldl (joined key) held = held.or vs.head? := by
  induction vs generalizing held with
  | nil => simp
  | cons v vs ih =>
    rw [List.foldl_cons, ih]
    cases held <;> simp [joined, hp, hr]

theorem isSome_foldl_joined {key : String} (hr : key ≠ requiredKey) (held : Option Json)
    (vs : List Json) : (vs.foldl (joined key) held).isSome = (held.isSome || !vs.isEmpty) := by
  induction vs generalizing held with
  | nil => simp
  | cons v vs ih =>
    have hv : (joined key held v).isSome := by
      unfold joined
      split <;> simp
    rw [List.foldl_cons, ih, hv]
    simp

/-! Properties -/

/-- The property of a name among the properties that are held. -/
def propertyIn (held : Option Json) (name : String) : Option Json :=
  (held.bind Json.asObject?).bind (Dict.get? · name)

def property? (members : Json.Members) (name : String) : Option Json :=
  propertyIn (Dict.get? members propertiesKey) name

theorem property?_eq_bind (members : Json.Members) (name : String) :
    property? members name =
      (Dict.get? members propertiesKey).bind fun v => propertyIn (some v) name := by
  unfold property?
  cases Dict.get? members propertiesKey <;> rfl

theorem joined_properties {held : Option Json} (hheld : ∀ v ∈ held, v.isObject) {v : Json}
    (hv : v.isObject) :
    (∀ w ∈ joined propertiesKey held v, w.isObject) ∧ ∀ name,
      propertyIn (joined propertiesKey held v) name =
        (propertyIn held name).or (propertyIn (some v) name) := by
  obtain ⟨incoming, rfl⟩ := Json.isObject_iff.mp hv
  cases held with
  | none => simp [joined, joinedProperties, propertyIn, Json.isObject_iff]
  | some held =>
    obtain ⟨existing, rfl⟩ := Json.isObject_iff.mp (hheld held rfl)
    simp [joined, joinedProperties, propertyIn, Json.isObject_iff, Json.asObject?, Dict.get?_fill]

theorem foldl_joined_properties {held : Option Json} (hheld : ∀ v ∈ held, v.isObject)
    {vs : List Json} (hvs : ∀ v ∈ vs, v.isObject) :
    (∀ w ∈ vs.foldl (joined propertiesKey) held, w.isObject) ∧ ∀ name,
      propertyIn (vs.foldl (joined propertiesKey) held) name =
        (propertyIn held name).or (vs.findSome? fun v => propertyIn (some v) name) := by
  induction vs generalizing held with
  | nil => exact ⟨hheld, by simp⟩
  | cons v vs ih =>
    have hstep := joined_properties hheld (hvs v List.mem_cons_self)
    have hrest := ih hstep.1 fun w hw => hvs w (List.mem_cons_of_mem _ hw)
    refine ⟨hrest.1, fun name => ?_⟩
    rw [List.foldl_cons, hrest.2, hstep.2, Option.or_assoc, List.findSome?_cons]
    cases propertyIn (some v) name <;> simp

/-! Merged objects -/

/-- The entries of the composition of an object. -/
def composition (members : Json.Members) : List Json :=
  ((Dict.get? members allOfKey).bind Json.asArray?).getD []

theorem mem_composition_iff {members : Json.Members} {v : Json} :
    v ∈ composition members ↔
      ∃ items, Dict.get? members allOfKey = some (.arr items) ∧ v ∈ items := by
  unfold composition
  cases hg : Dict.get? members allOfKey with
  | none => simp
  | some composed => cases composed <;> simp [Json.asArray?]

/-- A merged object is folded from the merged object without its composition and from the merged
entries. -/
theorem merge_parts {members : Json.Members} {merged : Json}
    (h : merge (.obj members) = .ok merged) :
    ∃ own entries, merge (.obj (Dict.erase members allOfKey)) = .ok (.obj own) ∧
      List.Forall₂ (fun entry out => merge entry = .ok (.obj out)) (composition members) entries ∧
      merged = .obj (entries.foldl absorb own) := by
  rw [merge, mergeValue_obj, Except.map_eq_ok_iff] at h
  obtain ⟨out, h, rfl⟩ := h
  obtain ⟨hr, own, hm, entries, hc, rfl⟩ := mergeObject_eq_ok_iff.mp h
  have hrest := Dict.not_mem_keys_erase members allOfKey
  have hown : mergeMembers [] (Dict.erase members allOfKey) = .ok own := by
    refine mergeMembers_of_related ?_ []
    rw [Dict.erase_of_not_mem hrest]
    exact (related_of_mergeMembers hm).imp fun p _ w ⟨_, hx⟩ => mergeValue_ok_anywhere hx
  refine ⟨own, entries, ?_, ?_, rfl⟩
  · have hr' : Dict.get? (Dict.erase members allOfKey) Reference.key = none := by
      rw [Dict.get?_erase, hr, ite_self]
    exact mergeValue_obj_eq_ok_iff.mpr ((mergeObject_of_not_mem_iff hrest).mpr ⟨hr', hown⟩)
  · rcases mergeCompositions_eq_ok_iff.mp hc with ⟨hn, rfl⟩ | ⟨items, hg, hi⟩
    · simp [composition, hn]
    · have hentries := List.forall₂_map_right_iff.mp
        (forall₂_of_mergeItems (mergeValue_arr_eq_ok_iff.mp hi))
      have hcomp : composition members = items := by simp [composition, hg, Json.asArray?]
      rw [hcomp]
      exact hentries.imp fun v out ⟨_, hx⟩ => mergeValue_ok_anywhere hx []

theorem ordered_of_merged {values : List Json} (hv : ∀ v ∈ values, v.Ordered)
    {outs : List Json.Members}
    (h : List.Forall₂ (fun v out => merge v = .ok (.obj out)) values outs) :
    ∀ out ∈ outs, (Json.obj out).Ordered := by
  intro out hm
  obtain ⟨v, hmem, hx⟩ := exists_left_of_forall₂ h hm
  exact merge_ordered (hv v hmem) hx

theorem ordered_composition {members : Json.Members} (hs : (Json.obj members).Ordered) :
    ∀ v ∈ composition members, v.Ordered := by
  intro v hv
  obtain ⟨items, hg, hm⟩ := mem_composition_iff.mp hv
  exact Json.every_arr.mp (hs.get? hg) v hm

/-- Which value counts in an object that is folded from parts: the first one in their order. Only
lists of required names are united, and properties, of which each for itself is the first one. No
name is lost or made up. -/
structure TakesFirst (parts : List Json.Members) (out : Json.Members) : Prop where
  names : ∀ key, key ≠ requiredKey → Dict.contains out key = parts.any (Dict.contains · key)
  first : ∀ key, key ≠ propertiesKey → key ≠ requiredKey →
    Dict.get? out key = parts.findSome? (Dict.get? · key)
  properties : (∀ part ∈ parts, ∀ v ∈ Dict.get? part propertiesKey, v.isObject) →
    (∀ v ∈ Dict.get? out propertiesKey, v.isObject) ∧
      ∀ name, property? out name = parts.findSome? (property? · name)

theorem takesFirst_foldl_absorb {entries : List Json.Members}
    (hnd : ∀ entry ∈ entries, (Dict.keys entry).Nodup) (own : Json.Members) :
    TakesFirst (own :: entries) (entries.foldl absorb own) where
  names key hr := by
    rw [Dict.contains, get?_foldl_absorb hnd, isSome_foldl_joined hr, isEmpty_valuesAt,
      Bool.not_not, List.any_cons, Dict.contains]
  first key hp hr := by
    rw [get?_foldl_absorb hnd, foldl_joined_eq_or hp hr, valuesAt, List.head?_filterMap,
      List.findSome?_cons]
    cases Dict.get? own key <;> simp
  properties hobj := by
    have hvs : ∀ v ∈ valuesAt propertiesKey entries, v.isObject := by
      intro v hv
      obtain ⟨entry, hm, hg⟩ := List.mem_filterMap.mp hv
      exact hobj entry (List.mem_cons_of_mem _ hm) v hg
    have hfold := foldl_joined_properties (hobj own List.mem_cons_self) hvs
    rw [← get?_foldl_absorb hnd] at hfold
    refine ⟨hfold.1, fun name => ?_⟩
    rw [property?, hfold.2, findSome?_valuesAt, List.findSome?_cons, property?]
    simp only [property?_eq_bind]
    cases propertyIn (Dict.get? own propertiesKey) name <;> simp

/-- A merged object takes every value from the object itself first, and then from the entries of
its composition in their order. -/
theorem merge_takes_first {members : Json.Members} {merged : Json}
    (hs : (Json.obj members).Ordered) (h : merge (.obj members) = .ok merged) :
    ∃ own entries out, merge (.obj (Dict.erase members allOfKey)) = .ok (.obj own) ∧
      List.Forall₂ (fun entry out => merge entry = .ok (.obj out)) (composition members) entries ∧
      merged = .obj out ∧ TakesFirst (own :: entries) out := by
  obtain ⟨own, entries, hown, hentries, rfl⟩ := merge_parts h
  refine ⟨own, entries, _, hown, hentries, rfl, takesFirst_foldl_absorb ?_ own⟩
  have hordered := ordered_of_merged (ordered_composition hs) hentries
  exact fun entry hm => (Json.every_obj.mp (hordered entry hm)).1.nodup

/-- A nested composition, with properties and titles at all depths. -/
theorem merge_takes_first_nested :
    let field := fun text : String => Json.obj [("title", .str text)]
    let inner := Json.obj [
      ("properties", .obj [("a", field "inner"), ("c", field "inner")]), ("title", .str "inner")]
    let entry := Json.obj [("allOf", .arr [inner]),
      ("properties", .obj [("a", field "entry"), ("b", field "entry")])]
    let members := [("allOf", Json.arr [entry, .obj [("title", .str "last")]]),
      ("properties", .obj [("a", field "own")])]
    let merged := [
      ("properties", Json.obj [("a", field "own"), ("b", field "entry"), ("c", field "inner")]),
      ("title", .str "inner")]
    (Json.obj members).Ordered ∧ merge (.obj members) = .ok (.obj merged) ∧
      ∃ own entries, merge (.obj (Dict.erase members allOfKey)) = .ok (.obj own) ∧
        List.Forall₂ (fun entry out => merge entry = .ok (.obj out)) (composition members)
          entries ∧ TakesFirst (own :: entries) merged := by
  intro field inner entry members merged
  have hs : (Json.obj members).Ordered := by decide +zetaReduce
  have hm : merge (.obj members) = .ok (.obj merged) := by rfl
  obtain ⟨own, entries, out, hown, hentries, he, hfirst⟩ := merge_takes_first hs hm
  obtain rfl := Json.obj.inj he
  exact ⟨hs, hm, own, entries, hown, hentries, hfirst⟩

end RpcContract.Schema
