import Mathlib.Data.List.Permutation
import Mathlib.Logic.Relation
import RpcContract.Proofs.Schema.Expansion

/-! The guard refuses nothing that has an expansion. An entry that is gone from the room is one that
is being expanded; if it were met again, its object would stand below itself, and the derivation of
its expansion would contain itself. -/

namespace RpcContract

namespace Json

theorem mem_itemReferences {items : List Json} {v : Json} (hv : v ∈ items) {text : String}
    (h : text ∈ v.references) : text ∈ itemReferences items := by
  induction items with
  | nil => simp at hv
  | cons item items ih =>
    rw [itemReferences, List.mem_append]
    rcases List.mem_cons.mp hv with rfl | hv
    · exact .inl h
    · exact .inr (ih hv)

theorem mem_memberReferences {members : Members} {m : String × Json} (hm : m ∈ members)
    {text : String} (h : text ∈ m.2.references) : text ∈ memberReferences members := by
  induction members with
  | nil => simp at hm
  | cons n members ih =>
    simp only [memberReferences, List.mem_append]
    rcases List.mem_cons.mp hm with rfl | hm
    · exact .inl (.inr h)
    · exact .inr (ih hm)

theorem mem_memberReferences_of_get? {members : Members} {text : String}
    (h : Dict.get? members Reference.key = some (.str text)) :
    text ∈ memberReferences members := by
  induction members with
  | nil => simp at h
  | cons n members ih =>
    obtain ⟨key, v⟩ := n
    simp only [memberReferences, List.mem_append]
    rw [Dict.get?_cons] at h
    split at h
    · next hk =>
      obtain rfl : v = .str text := by simpa using h
      simp [hk]
    · exact .inr (ih h)

/-- Expanding a value meets a reference. What stands beside a reference is expanded as well, what
stands inside one is not. -/
inductive Meets (text : String) : Json → Prop where
  | here {members : Members} (h : Dict.get? members Reference.key = some (.str text)) :
      Meets text (.obj members)
  | member {members : Members} {key : String} {v : Json} (hm : Dict.get? members key = some v)
      (hk : key ≠ Reference.key) (h : Meets text v) : Meets text (.obj members)
  | item {items : List Json} {v : Json} (hm : v ∈ items) (h : Meets text v) :
      Meets text (.arr items)

theorem Meets.mem_references {text : String} {v : Json} (h : Meets text v) :
    text ∈ v.references := by
  induction h with
  | here h => exact mem_memberReferences_of_get? h
  | member hm _ _ ih => exact mem_memberReferences (Dict.mem_of_get? hm) ih
  | item hm _ ih => exact mem_itemReferences hm ih

end Json

open Json (Meets)

/-- Expanding `object` follows a reference to `target`. -/
def Repository.Below (r : Repository) (target object : Json.Members) : Prop :=
  ∃ text, Meets text (.obj object) ∧ r.denoted? text = some target

namespace Schema

/-! Finite expansions do not go round in circles. -/

theorem exists_get?_of_keys {members own : Json.Members}
    (hk : Dict.keys own = Dict.keys (Dict.erase members Reference.key)) {key : String} {v : Json}
    (hv : Dict.get? members key = some v) (hne : key ≠ Reference.key) :
    ∃ w, Dict.get? own key = some w := by
  have hm : key ∈ Dict.keys own := by
    rw [hk, Dict.keys_erase]
    simp [Dict.mem_keys_of_get? hv, hne]
  exact Dict.mem_keys_iff.mp hm

/-- The references met inside a finite expansion start finite expansions themselves. -/
theorem acc_of_expands {r : Repository} {v w : Json} (h : Expands r v w) {text : String}
    {target : Json.Members} (hv : Meets text v) (ht : r.denoted? text = some target) :
    Acc r.Below target := by
  induction h generalizing text target with
  | null | bool | num | str => cases hv
  | arr hl _ ih =>
    cases hv with
    | item hm hv =>
      obtain ⟨i, hi, rfl⟩ := List.mem_iff_getElem.mp hm
      exact ih i hi (hl ▸ hi) hv ht
  | plain hr hk _ ih =>
    cases hv with
    | here hr' => simp [hr] at hr'
    | member hm hne hv =>
      obtain ⟨w, hw⟩ := exists_get?_of_keys hk hm hne
      exact ih _ _ _ hm hw hv ht
  | reference hr hk _ ht' _ _ ih ihb =>
    cases hv with
    | here hr' =>
      obtain rfl := Json.str.inj (Option.some.inj (hr.symm.trans hr'))
      obtain rfl := Option.some.inj (ht'.symm.trans ht)
      exact ⟨_, fun _ ⟨_, hv, ht⟩ => ihb hv ht⟩
    | member hm hne hv =>
      obtain ⟨w, hw⟩ := exists_get?_of_keys hk hm hne
      exact ih _ _ _ hm hw hv ht

theorem not_below_self {r : Repository} {members : Json.Members} (h : Acc r.Below members) :
    ¬ Relation.TransGen r.Below members members := by
  have ht : Acc (Relation.TransGen r.Below) members := h.transGen
  clear h
  induction ht with
  | intro members _ ih => exact fun hm => ih members hm hm

/-! The guard lets finite expansions through. -/

/-- References that the objects denoted by references meet again. -/
def Closed (r : Repository) (texts : List String) : Prop :=
  ∀ {text target}, r.denoted? text = some target → ∀ {next}, Meets next (.obj target) → next ∈ texts

/-- The way through a value is clear: of the references that may be met, the room admits all but
those on the way to the value. Whatever the value refers to stands below the objects of these. -/
structure Clear (r : Repository) (texts : List String) (room : Room) (v : Json) : Prop where
  met : ∀ {text}, Meets text v → text ∈ texts
  below : ∀ {text}, text ∈ texts → ∀ {entry}, Reference.entry? text = some entry →
    ¬ room.Admits entry → ∀ {object}, r.denoted? text = some object →
      ∀ {next target}, Meets next v → r.denoted? next = some target →
        Relation.TransGen r.Below target object

namespace Clear

variable {r : Repository} {texts : List String} {room : Room} {v : Json}

theorem mono (h : Clear r texts room v) {u : Json} (hu : ∀ {text}, Meets text u → Meets text v) :
    Clear r texts room u :=
  ⟨fun hx => h.met (hu hx), fun hm _ he ha _ ho _ _ hx ht => h.below hm he ha ho (hu hx) ht⟩

/-- Entering the object of a reference keeps the way clear. -/
theorem enter (h : Clear r texts room v) (hclosed : Closed r texts) {text : String}
    {entry : Reference.Entry} {target : Json.Members} (hv : Meets text v)
    (he : Reference.entry? text = some entry) (ht : r.denoted? text = some target) :
    Clear r texts (room.without entry) (.obj target) := by
  refine ⟨hclosed ht, ?_⟩
  intro text' hm entry' he' ha object ho next target' hn ht'
  have hb : r.Below target' target := ⟨next, hn, ht'⟩
  by_cases heq : entry' = entry
  · have hot : r.denoted? text' = r.denoted? text := r.denoted?_congr (by rw [he', he, heq])
    obtain rfl := Option.some.inj ((ho.symm.trans hot).trans ht)
    exact .single hb
  · have ha' : ¬ room.Admits entry' := fun hx => ha (Room.admits_without_iff.mpr ⟨hx, heq⟩)
    exact .head hb (h.below hm he' ha' ho hv ht)

/-- What starts a finite expansion is admitted: otherwise it would stand below itself. -/
theorem admits (h : Clear r texts room v) {text : String} {entry : Reference.Entry}
    {target : Json.Members} (hv : Meets text v) (he : Reference.entry? text = some entry)
    (ht : r.denoted? text = some target) (hacc : Acc r.Below target) : room.Admits entry := by
  by_contra ha
  exact not_below_self hacc (h.below (h.met hv) he ha ht hv ht)

end Clear

theorem entry?_of_denoted {r : Repository} {text : String} {target : Json.Members}
    (h : r.denoted? text = some target) : ∃ entry, Reference.entry? text = some entry := by
  unfold Reference.entry?
  unfold Repository.denoted? at h
  split at h
  · simp at h
  · exact ⟨_, rfl⟩

theorem expandMembers_of_expands {r : Repository} {texts : List String} {room : Room}
    {members own : Json.Members} (hv : (Json.obj members).Ordered)
    (hc : Clear r texts room (.obj members))
    (hk : Dict.keys own = Dict.keys (Dict.erase members Reference.key))
    (ih : ∀ key v w, Dict.get? members key = some v → Dict.get? own key = some w → v.Ordered →
      ∀ {room : Room}, Clear r texts room v → ∀ path, expandValue (follow r room) path v = .ok w)
    (path : Json.Path) : expandMembers (follow r room) path members = .ok own := by
  obtain ⟨hs, hv⟩ := Json.every_obj.mp hv
  refine expandMembers_of_related (.of_get? (Dict.sorted_erase hs _).nodup hk ?_) path
  intro key v w hm hw
  rw [Dict.get?_erase, if_neg (ne_of_keys hk hw)] at hm
  exact ih key v w hm hw (hv _ (Dict.mem_of_get? hm)) (hc.mono (.member hm (ne_of_keys hk hw)))

/-- Along a clear way the guarded expansion returns every finite expansion. -/
theorem expandValue_of_expands {r : Repository} (hr : r.Ordered) {texts : List String}
    (hclosed : Closed r texts) {v w : Json} (h : Expands r v w) (hv : v.Ordered) {room : Room}
    (hc : Clear r texts room v) (path : Json.Path) :
    expandValue (follow r room) path v = .ok w := by
  induction h generalizing room path with
  | null | bool | num | str => simp [expandValue]
  | arr hl _ ih =>
    rw [expandValue, expandItems_of_forall₂ (List.forall₂_iff_get.mpr ⟨hl, ?_⟩) path 0]
    · rfl
    · intro i hi ho place
      have hm := List.getElem_mem hi
      exact ih i hi ho (Json.every_arr.mp hv _ hm) (hc.mono (.item hm)) place
  | plain hn hk _ ih =>
    have hown := expandMembers_of_expands hv hc hk ih path
    exact expandValue_obj_eq_ok_iff.mpr (expandObject_eq_ok_iff.mpr
      ⟨_, hown, withReference_eq_ok_iff.mpr (.inl ⟨hn, rfl⟩)⟩)
  | reference hn hk hx ht hb ho ih ihb =>
    have hown := expandMembers_of_expands hv hc hk ih path
    obtain ⟨entry, he⟩ := entry?_of_denoted ht
    have hacc := acc_of_expands (.reference hn hk hx ht hb ho) (.here hn) ht
    have hbase := ihb (ordered_denoted hr ht) (hc.enter hclosed (.here hn) he ht) path
    have hfollow := follow_eq_ok_iff.mpr
      ⟨entry, _, he, ht, hc.admits (.here hn) he ht hacc, expandValue_obj_eq_ok_iff.mp hbase⟩
    have hsown := (Dict.sorted_erase (Json.every_obj.mp hv).1 Reference.key).of_keys_eq hk
    rw [ho.eq_fill hsown]
    exact expandValue_obj_eq_ok_iff.mpr (expandObject_eq_ok_iff.mpr
      ⟨_, hown, withReference_eq_ok_iff.mpr (.inr ⟨_, _, hn, hfollow, rfl⟩)⟩)

/-! At the outset every schema and every place may be entered. -/

theorem mem_references_of_denoted {r : Repository} {text : String} {target : Json.Members}
    (h : r.denoted? text = some target) {next : String} (hn : next ∈ (Json.obj target).references) :
    next ∈ Json.memberReferences r.schemas :=
  Repository.denoted?_of_child (C := fun v => ∀ next ∈ v.references,
      next ∈ Json.memberReferences r.schemas)
    (fun hs _ hx => Json.mem_memberReferences (Dict.mem_of_get? hs) hx)
    (fun hv hk _ hx => hv _ (Json.mem_memberReferences (Dict.mem_of_get? hk) hx))
    (fun hv hm _ hx => hv _ (Json.mem_itemReferences hm hx)) h next hn

theorem admits_all {r : Repository} {schema : Json} {text : String} {entry : Reference.Entry}
    {object : Json.Members} (hm : text ∈ schema.references ++ Json.memberReferences r.schemas)
    (he : Reference.entry? text = some entry) (ho : r.denoted? text = some object) :
    (Room.all r schema).Admits entry := by
  unfold Reference.entry? at he
  unfold Repository.denoted? at ho
  split at he
  · simp at he
  · next reference hp =>
    rw [hp] at ho
    obtain ⟨target, hg, -⟩ := Option.bind_eq_some_iff.mp ho
    obtain rfl := Option.some.inj he
    split
    · next hpointer =>
      have hplace : Room.isPlace text = true := by rw [Room.isPlace, hp]; exact hpointer
      exact List.mem_eraseDups.mpr (List.mem_filter.mpr ⟨hm, hplace⟩)
    · exact Dict.mem_keys_of_get? hg

theorem clear_all (r : Repository) (schema : Json) :
    Clear r (schema.references ++ Json.memberReferences r.schemas) (Room.all r schema) schema :=
  ⟨fun hv => List.mem_append_left _ hv.mem_references,
    fun hm _ he ha _ ho => absurd (admits_all hm he ho) ha⟩

/-- The guarded expansion returns what is an expansion, and nothing else. -/
theorem dereference_eq_ok_iff {schema result : Json} {r : Repository} (hs : schema.Ordered)
    (hr : r.Ordered) : dereference schema r = .ok result ↔ Expands r schema result := by
  constructor
  · exact expands_of_expandValue (faithful_follow hr _) hs
  · intro h
    exact expandValue_of_expands hr
      (fun ht _ hx => List.mem_append_right _ (mem_references_of_denoted ht hx.mem_references))
      h hs (clear_all r schema) []

/-- Expanding the references of a schema succeeds exactly if the schema has a finite expansion, and
returns it; a cycle is reported only where there is none. -/
theorem dereference_eq_ok_iff_expands {schema : Json} {r : Repository} (hs : schema.Ordered)
    (hr : r.Ordered) :
    (∀ result, dereference schema r = .ok result ↔ Expands r schema result) ∧
      ∀ path text, dereference schema r = .error ⟨path, .cycle text⟩ →
        ¬ ∃ result, Expands r schema result := by
  refine ⟨fun result => dereference_eq_ok_iff hs hr, ?_⟩
  rintro path text he ⟨result, hx⟩
  rw [(dereference_eq_ok_iff hs hr).mpr hx] at he
  cases he

/-- A place inside a schema may be entered while the schema is being expanded; the place of a
reference to itself may not be entered again. -/
theorem expands_place_in_open_schema :
    let tx := fun target => Json.obj [("properties", .obj [
      ("from", .obj [("type", .str "string")]), ("to", target)])]
    let r : Repository := ⟨[
      ("Loop", .obj [("items", .obj [("$ref", .str "#/components/schemas/Loop/items")])]),
      ("Tx", tx (.obj [
        ("$ref", .str "#/components/schemas/Tx/properties/from"), ("title", .str "to")]))]⟩
    let schema := Json.obj [("$ref", .str "#/components/schemas/Tx")]
    let loop := Json.obj [("$ref", .str "#/components/schemas/Loop")]
    r.Ordered ∧ schema.Ordered ∧ loop.Ordered ∧
      Expands r schema (tx (.obj [("title", .str "to"), ("type", .str "string")])) ∧
      ¬ ∃ result, Expands r loop result := by
  intro tx r schema loop
  have hr : r.Ordered := by decide +zetaReduce
  have hs : schema.Ordered := by decide +zetaReduce
  have hl : loop.Ordered := by decide +zetaReduce
  have hout := ((dereference_eq_ok_iff_expands hs hr).1 _).mp (by cbv)
  have hloop := (dereference_eq_ok_iff_expands hl hr).2
    [.key "items"] "#/components/schemas/Loop/items" (by cbv)
  exact ⟨hr, hs, hl, hout, hloop⟩

end Schema

end RpcContract
