import RpcContract.Proofs.OpenRpc.Frame

/-! Expanding what has been expanded. The places of an expanded document that hold objects are
places of the document it was made from, so that what stands there is resolved already; an assembler
with such places expands to its own document. -/

namespace RpcContract

namespace OpenRpc.Assembly

variable {a b : Assembly} {expanded : Json}

/-- There is nothing left to resolve. -/
def Settled (a : Assembly) : Prop :=
  ∀ p ∈ a.places, (a.schemaAt p).Lacks Reference.key ∧ (a.schemaAt p).Lacks Schema.allOfKey

theorem ordered_document (h : a.WellFormed) (hb : (Json.obj a.base).Ordered) :
    a.document.Ordered := by
  have hmethods : (Json.arr a.methods).Ordered := .arr fun d hd => (h.methods d hd).2
  have hschemas : (Json.obj [("schemas", .obj a.schemas)]).Ordered :=
    Json.every_obj.mpr ⟨by simp [Dict.Sorted], by simpa using h.ordered⟩
  exact Json.ordered_insert (Json.ordered_insert hb _ hmethods) _ hschemas

theorem at?_place (h : a.WellFormed) {p : Place} (hp : p ∈ a.places) :
    a.document.at? p.path = some (a.schemaAt p) := by
  obtain ⟨⟨members, hat⟩, -⟩ := (mem_places_iff h).mp hp
  rw [schemaAt, hat, Option.getD_some]

theorem expand_of_settled (h : a.WellFormed) (hb : (Json.obj a.base).Ordered) (hs : a.Settled) :
    a.expand = .ok a.document := by
  rw [expand_eq_carryOut h (Json.every_obj.mp hb).1]
  refine Json.carryOut_self (ordered_document h hb) fun change hc => ?_
  obtain ⟨p, hp, rfl⟩ := List.mem_map.mp hc
  obtain ⟨hr, ha⟩ := hs p hp
  exact ⟨_, Except.mapError_eq_ok_iff.mpr (Schema.resolve_of_lacks hr ha _), at?_place h hp⟩

theorem exists_place (h : a.WellFormed) {p : Place} {members : Json.Members}
    (hat : a.document.at? p.path = some (.obj members)) : ∃ q ∈ a.places, q.path = p.path := by
  cases p with
  | component name => exact ⟨_, (mem_places_iff h).mpr ⟨⟨members, hat⟩, nofun⟩, rfl⟩
  | slot i method slot =>
    have hat' := hat
    rw [at?_slot, Option.bind_eq_some_iff] at hat'
    obtain ⟨d, hd, -⟩ := hat'
    refine ⟨.slot i (nameOf d) slot, (mem_places_iff h).mpr ⟨⟨members, hat⟩, ?_⟩, rfl⟩
    rintro _ _ _ ⟨⟩
    rw [hd, Option.map_some]

/-- Nothing is left to resolve in the document of what was expanded. -/
theorem Replaces.settled (ha : a.WellFormed) (hb : b.WellFormed) (h : a.Replaces b.document) :
    b.Settled := by
  intro p hp
  have hat := at?_place hb hp
  by_cases hq : ∃ q ∈ a.places, q.path = p.path
  · obtain ⟨q, hq, hpath⟩ := hq
    obtain ⟨w, -, hw, hr, hl⟩ := h.place q hq
    obtain rfl : w = b.schemaAt p := Option.some.inj ((hpath ▸ hw).symm.trans hat)
    exact ⟨hr, hl⟩
  · -- what stands apart from the places is from the document itself
    obtain ⟨⟨members, hmembers⟩, -⟩ := (mem_places_iff hb).mp hp
    rw [h.apart p.path fun q hqa => apart_places fun he => hq ⟨q, hqa, he⟩] at hmembers
    exact (hq (exists_place ha hmembers)).elim

theorem Replaces.ordered (ha : a.WellFormed) (hb : (Json.obj a.base).Ordered)
    (h : a.Replaces expanded) : expanded.Ordered := by
  have hdocument := ordered_document ha hb
  obtain ⟨done, hdone, rfl⟩ := h.put
  refine Json.ordered_putAll hdocument fun d hd => ?_
  obtain ⟨p, hp, -, hres⟩ := exists_left_of_forall₂ hdone hd
  exact Schema.resolve_ordered (hdocument.at? (at?_place ha hp)) ha.ordered hres

/-- What an assembler expanded to is accepted by a new one with the same information about the
document, methods and components apart, and expands to itself. -/
theorem expand_expanded {ops : List Operation} {expanded : Json}
    (h : (run ops).expand = .ok expanded) :
    ∃ methods schemas, expanded.get? "methods" = some methods ∧
      expanded.atPointer? "/components/schemas" = some schemas ∧
      ∃ a n b m, (⟨(run ops).base, [], []⟩ : Assembly).addMethods methods = .ok (a, n) ∧
        a.addSchemas schemas = .ok (b, m) ∧ b.expand = .ok expanded := by
  have hwf := wellFormed_run ops
  have hbase := ordered_base ops
  have hreplaces := replaces_of_expand hwf (Json.every_obj.mp hbase).1 h
  have hordered := hreplaces.ordered hwf hbase
  obtain ⟨r, -, schemas, methods, hschemas, hmethods, rfl⟩ := expand_eq_ok h
  have hmethod : ∀ d ∈ methods, d.isObject := by
    intro d hd
    obtain ⟨d', hd', he⟩ := exists_left_of_forall₂ hmethods hd
    exact isObject_of_expandMethod (hwf.methods d' hd').1 (hwf.methods d' hd').2 he
  have hschema : ∀ m ∈ schemas, m.2.isObject := isObject_of_resolved hwf.schemas hschemas
  have horderedMethods : (Json.arr methods).Ordered := hordered.child step?_documentWith_methods
  have horderedSchemas : (Json.obj schemas).Ordered :=
    (hordered.child step?_documentWith_components).child step?_schemas
  have hagain : WellFormed ⟨(run ops).base, methods, schemas⟩ :=
    ⟨fun d hd => ⟨hmethod d hd, Json.every_arr.mp horderedMethods d hd⟩, hschema, horderedSchemas⟩
  refine ⟨.arr methods, .obj schemas, get?_documentOf_methods _ _ _, atPointer?_documentOf _ _ _,
    ⟨(run ops).base, methods, []⟩, methods.length, ⟨(run ops).base, methods, schemas⟩,
    schemas.length, ?_, ?_, expand_of_settled hagain hbase (hreplaces.settled hwf hagain)⟩
  · rw [addMethods, badMethod?_eq_none_iff.mpr hmethod]
    rfl
  · have hnone : schemas.find? (fun m => !m.2.isObject) = none := by simpa using hschema
    have hfold := Dict.ofList_of_sorted (Json.every_obj.mp horderedSchemas).1
    rw [Dict.ofList] at hfold
    simp only [addSchemas, hnone, hfold]

/-- A component that composes another one, a parameter that refers to it, and data of an error that
is no object. -/
theorem expand_expanded_lookup :
    let reference := fun name : String =>
      Json.obj [("$ref", .str ("#/components/schemas/" ++ name))]
    let text := Json.obj [("type", .str "string")]
    let lookup := fun schema : Json => Json.obj [("errors", .arr [.obj [("data", .null)]]),
      ("name", .str "lookup"), ("params", .arr [.obj [("schema", schema)]])]
    let schemas := [("Address", Json.obj [("allOf", .arr [reference "Text"])]), ("Text", text)]
    let expanded := documentOf template [lookup text] [("Address", text), ("Text", text)]
    ∃ (hm : (Json.arr [lookup (reference "Address")]).Ordered) (hs : (Json.obj schemas).Ordered),
      (run [.addMethods (.arr [lookup (reference "Address")]) hm,
        .addSchemas (.obj schemas) hs]).expand = .ok expanded ∧
      ∃ methods schemas, expanded.get? "methods" = some methods ∧
        expanded.atPointer? "/components/schemas" = some schemas ∧
        ∃ a n b m, empty.addMethods methods = .ok (a, n) ∧
          a.addSchemas schemas = .ok (b, m) ∧ b.expand = .ok expanded := by
  intro reference text lookup schemas expanded
  have hm : (Json.arr [lookup (reference "Address")]).Ordered := by decide +zetaReduce
  have hs : (Json.obj schemas).Ordered := by decide +zetaReduce
  have he : (run [.addMethods (.arr [lookup (reference "Address")]) hm,
      .addSchemas (.obj schemas) hs]).expand = .ok expanded := by cbv
  exact ⟨hm, hs, he, expand_expanded he⟩

end OpenRpc.Assembly

end RpcContract
