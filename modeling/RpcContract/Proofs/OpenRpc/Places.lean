import RpcContract.Proofs.Json.Place
import RpcContract.Proofs.OpenRpc.Run

/-! The places of a document where schemas stand: the components and, in the methods, the slots that
hold objects. All of them stand apart. -/

namespace RpcContract

/-- Where the schema of a slot stands in the definition of a method. -/
def Slot.path : Slot → Json.Path
  | .param i => [.key "params", .index i, .key "schema"]
  | .result => [.key "result", .key "schema"]
  | .error i => [.key "errors", .index i, .key "data"]

/-- The elements of a member that is an array, none where there is no array. -/
def Json.elements (v : Json) (key : String) : List Json :=
  match v.get? key with
  | some (.arr items) => items
  | _ => []

namespace OpenRpc

/-- The slots that a method has, whatever stands in them. -/
def allSlots (definition : Json) : List Slot :=
  (definition.elements "params").zipIdx.map (.param ·.2) ++ [.result] ++
    (definition.elements "errors").zipIdx.map (.error ·.2)

/-- The slots of a method that hold objects. -/
def slots (definition : Json) : List Slot :=
  (allSlots definition).filter fun slot => (definition.at? slot.path).any Json.isObject

/-- A schema of a document: a component, or in a slot of the method at a position. -/
inductive Place where
  | component (name : String)
  | slot (position : Nat) (method : String) (slot : Slot)
deriving DecidableEq, Repr

namespace Place

def path : Place → Json.Path
  | component name => [.key "components", .key "schemas", .key name]
  | slot position _ s => .key "methods" :: .index position :: s.path

/-- What is told where the schema at a place does not resolve. -/
def report : Place → Schema.Error → Error
  | component name, e => .inSchema name (.schema e)
  | slot _ method s, e => .inMethod method s (.schema e)

end Place

namespace Assembly

/-- The places of the document that are put anew, in order. -/
def places (a : Assembly) : List Place :=
  a.schemas.map (.component ·.1) ++
    a.methods.zipIdx.flatMap fun d => (slots d.1).map (.slot d.2 (nameOf d.1))

def schemaAt (a : Assembly) (p : Place) : Json := (a.document.at? p.path).getD .null

/-- The document of members, the array of the methods and the object of the schemas. -/
def documentWith (base : Json.Members) (methods schemas : Json) : Json :=
  .obj (Dict.insert (Dict.insert base "methods" methods) "components" (.obj [("schemas", schemas)]))

section

variable {base : Json.Members} {methods schemas : Json}

theorem step?_documentWith_components :
    (documentWith base methods schemas).step? (.key "components") =
      some (.obj [("schemas", schemas)]) :=
  Dict.get?_insert_self _ _ _

theorem step?_documentWith_methods :
    (documentWith base methods schemas).step? (.key "methods") = some methods := by
  simp [documentWith, Json.step?, Dict.get?_insert]

theorem step?_schemas :
    (Json.obj [("schemas", schemas)]).step? (.key "schemas") = some schemas := by
  simp [Json.step?, Dict.get?_cons]

end

theorem document_eq (a : Assembly) :
    a.document = documentWith a.base (.arr a.methods) (.obj a.schemas) := rfl

variable {a : Assembly}

theorem at?_component (a : Assembly) (name : String) :
    a.document.at? (Place.component name).path = Dict.get? a.schemas name := by
  rw [Place.path, document_eq, Json.at?_cons step?_documentWith_components,
    Json.at?_cons step?_schemas, Json.at?, Json.step?]
  exact Option.bind_fun_some _

theorem at?_slot (a : Assembly) (i : Nat) (method : String) (slot : Slot) :
    a.document.at? (Place.slot i method slot).path = a.methods[i]?.bind (·.at? slot.path) := by
  rw [Place.path, document_eq, Json.at?_cons step?_documentWith_methods, Json.at?, Json.step?]

theorem schemaAt_component (h : Dict.Sorted a.schemas) {m : String × Json} (hm : m ∈ a.schemas) :
    a.schemaAt (.component m.1) = m.2 := by
  rw [schemaAt, at?_component, Dict.get?_of_mem h.nodup hm, Option.getD_some]

theorem schemaAt_slot {i : Nat} {d : Json} (hd : a.methods[i]? = some d) (method : String)
    (slot : Slot) : a.schemaAt (.slot i method slot) = (d.at? slot.path).getD .null := by
  rw [schemaAt, at?_slot, hd, Option.bind_some]

/-! Which places there are -/

theorem mem_allSlots {definition v : Json} {slot : Slot} (h : definition.at? slot.path = some v) :
    slot ∈ allSlots definition := by
  have helement : ∀ {key inner : String} {i : Nat},
      definition.at? [.key key, .index i, .key inner] = some v →
      ∃ x, (x, i) ∈ (definition.elements key).zipIdx := by
    intro key inner i h
    obtain ⟨u, hu, h⟩ := Json.at?_cons_eq_some.mp h
    obtain ⟨x, hx, -⟩ := Json.at?_cons_eq_some.mp h
    cases u with
    | arr items =>
      have helements : definition.elements key = items := by
        cases definition with
        | obj members =>
          have hu : Dict.get? members key = some (.arr items) := hu
          simp [Json.elements, Json.get?, hu]
        | null | bool | num | str | arr => cases hu
      exact ⟨x, List.mem_zipIdx_iff_getElem?.mpr (helements ▸ hx)⟩
    | null | bool | num | str | obj => cases hx
  cases slot with
  | param i =>
    obtain ⟨x, hx⟩ := helement h
    exact List.mem_append_left _ (List.mem_append_left _ (List.mem_map_of_mem hx))
  | result => simp [allSlots]
  | error i =>
    obtain ⟨x, hx⟩ := helement h
    exact List.mem_append_right _ (List.mem_map_of_mem hx)

theorem mem_slots_iff {definition : Json} {slot : Slot} :
    slot ∈ slots definition ↔ ∃ members, definition.at? slot.path = some (.obj members) := by
  rw [slots, List.mem_filter, Option.any_eq_true]
  constructor
  · rintro ⟨-, v, hv, hobj⟩
    obtain ⟨members, rfl⟩ := Json.isObject_iff.mp hobj
    exact ⟨members, hv⟩
  · rintro ⟨members, h⟩
    exact ⟨mem_allSlots h, .obj members, h, rfl⟩

/-- The places are where there are objects, and a slot is one of the method at its position. -/
theorem mem_places_iff (h : a.WellFormed) {p : Place} :
    p ∈ a.places ↔ (∃ members, a.document.at? p.path = some (.obj members)) ∧
      ∀ i method slot, p = .slot i method slot → a.methods[i]?.map nameOf = some method := by
  rw [places, List.mem_append, List.mem_map, List.mem_flatMap]
  cases p with
  | component name =>
    rw [at?_component]
    constructor
    · rintro (⟨m, hm, hname⟩ | ⟨d, -, hd⟩)
      · obtain rfl := Place.component.inj hname
        obtain ⟨members, hmembers⟩ := Json.isObject_iff.mp (h.schemas m hm)
        have hs := (Json.every_obj.mp h.ordered).1
        exact ⟨⟨members, hmembers ▸ Dict.get?_of_mem hs.nodup hm⟩, nofun⟩
      · simp at hd
    · rintro ⟨⟨members, hg⟩, -⟩
      exact .inl ⟨_, Dict.mem_of_get? hg, rfl⟩
  | slot i method slot =>
    rw [at?_slot]
    constructor
    · rintro (⟨m, -, hm⟩ | ⟨⟨d, j⟩, hd, hslot⟩)
      · cases hm
      · obtain ⟨s, hs, heq⟩ := List.mem_map.mp hslot
        obtain ⟨rfl, rfl, rfl⟩ := Place.slot.inj heq
        have hd : a.methods[j]? = some d := List.mem_zipIdx_iff_getElem?.mp hd
        obtain ⟨members, hmembers⟩ := mem_slots_iff.mp hs
        refine ⟨⟨members, by rw [hd, Option.bind_some, hmembers]⟩, ?_⟩
        rintro _ _ _ ⟨⟩
        rw [hd, Option.map_some]
    · rintro ⟨⟨members, hat⟩, hname⟩
      obtain ⟨d, hd, hat⟩ := Option.bind_eq_some_iff.mp hat
      have hname := hname i method slot rfl
      rw [hd, Option.map_some, Option.some.injEq] at hname
      exact .inr ⟨(d, i), List.mem_zipIdx_iff_getElem?.mpr hd,
        List.mem_map.mpr ⟨slot, mem_slots_iff.mpr ⟨members, hat⟩, by rw [hname]⟩⟩

/-! Places apart -/

theorem apart_slot {s t : Slot} (h : s ≠ t) : Json.Apart s.path t.path := by
  cases s <;> cases t <;> simp_all [Slot.path, Json.apart_cons_iff]

theorem nodup_zipIdx_map {α β : Type} (l : List α) {f : Nat → β} (hf : f.Injective) :
    (l.zipIdx.map fun x => f x.2).Nodup := by
  have hsnd : (l.zipIdx.map Prod.snd).Nodup := by
    rw [List.zipIdx_map_snd]
    exact List.nodup_range'
  have h := hsnd.map hf
  rwa [List.map_map] at h

theorem nodup_slots (definition : Json) : (slots definition).Nodup := by
  refine List.Nodup.filter _ ?_
  have hparams := nodup_zipIdx_map (definition.elements "params") (f := Slot.param)
    fun _ _ => Slot.param.inj
  have herrors := nodup_zipIdx_map (definition.elements "errors") (f := Slot.error)
    fun _ _ => Slot.error.inj
  rw [allSlots, List.nodup_append, List.nodup_append]
  refine ⟨⟨hparams, List.nodup_singleton _, ?_⟩, herrors, ?_⟩
  · intro s hs t ht
    obtain ⟨x, -, rfl⟩ := List.mem_map.mp hs
    obtain rfl := List.mem_singleton.mp ht
    exact nofun
  · intro s hs t ht
    obtain ⟨y, -, rfl⟩ := List.mem_map.mp ht
    rcases List.mem_append.mp hs with hs | hs
    · obtain ⟨x, -, rfl⟩ := List.mem_map.mp hs
      exact nofun
    · obtain rfl := List.mem_singleton.mp hs
      exact nofun

theorem apart_places {p q : Place} (h : p.path ≠ q.path) : Json.Apart p.path q.path := by
  cases p <;> cases q
  · simp_all [Place.path, Json.apart_cons_iff]
  · simp [Place.path, Json.apart_cons_iff]
  · simp [Place.path, Json.apart_cons_iff]
  · simp only [Place.path, Json.apart_cons_iff, List.cons.injEq, not_and, true_and,
      Json.Step.index.injEq, forall_const, ne_eq] at h ⊢
    exact fun hi => apart_slot fun hs => h hi (congrArg _ hs)

theorem pairwise_places (h : Dict.Sorted a.schemas) :
    a.places.Pairwise fun p q => Json.Apart p.path q.path := by
  have hmethods : a.methods.zipIdx.Pairwise fun d e => d.2 ≠ e.2 :=
    List.pairwise_map.mp (nodup_zipIdx_map a.methods Function.injective_id)
  suffices h : a.places.Pairwise fun p q => p.path ≠ q.path from h.imp apart_places
  rw [places, List.pairwise_append, List.pairwise_flatMap, List.pairwise_map]
  refine ⟨?_, ⟨fun d _ => ?_, ?_⟩, ?_⟩
  · refine (List.pairwise_map.mp h).imp fun {m n} hlt => ?_
    have hne : m.1 ≠ n.1 := fun he => String.lt_irrefl _ (he ▸ hlt)
    simp [Place.path, hne]
  · refine List.pairwise_map.mpr ((nodup_slots d.1).imp fun hne => ?_)
    simp [Place.path, (apart_slot hne).ne]
  · refine hmethods.imp fun {d e} hne p hp q hq => ?_
    obtain ⟨s, -, rfl⟩ := List.mem_map.mp hp
    obtain ⟨t, -, rfl⟩ := List.mem_map.mp hq
    simp [Place.path, hne]
  · intro p hp q hq
    obtain ⟨m, -, rfl⟩ := List.mem_map.mp hp
    obtain ⟨d, -, hq⟩ := List.mem_flatMap.mp hq
    obtain ⟨t, -, rfl⟩ := List.mem_map.mp hq
    simp [Place.path]

end Assembly

end OpenRpc

end RpcContract
