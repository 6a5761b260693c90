import RpcContract.Proofs.OpenRpc.Idempotent
import RpcContract.Proofs.OpenRpc.Order
import RpcContract.Proofs.OpenRpc.Repository

/-! Sorting the methods. Methods with one name keep their order, and the name by which they are
sorted is the one under which they are read; so the methods are the same before and after, and only
their order in the expanded document changes. -/

namespace RpcContract.OpenRpc

/-- In order of their names, and in the order they had where the names are equal. -/
structure SortsByName (definitions sorted : List Json) : Prop where
  perm : sorted.Perm definitions
  ordered : sorted.Pairwise fun d e => nameOf d ≤ nameOf e
  stable : ∀ name, sorted.filter (nameOf · = name) = definitions.filter (nameOf · = name)

theorem sortsByName_mergeSort (definitions : List Json) :
    SortsByName definitions (definitions.mergeSort fun d e => nameOf d ≤ nameOf e) :=
  ⟨List.mergeSort_perm _ _, pairwise_mergeSort_name _, filter_mergeSort_name _⟩

theorem nameOf_of_nameIn? {definition : Json} {name : String} (hobj : definition.isObject)
    (h : RawMethod.nameIn? definition = some name) : nameOf definition = name := by
  obtain ⟨members, rfl⟩ := Json.isObject_iff.mp hobj
  have hname : (Dict.get? members "name").bind Json.asString? = some name := h
  rw [nameOf, Json.get?, hname, Option.getD_some]

namespace Assembly

@[simp] theorem base_sorted (a : Assembly) : a.sorted.base = a.base := rfl

@[simp] theorem schemas_sorted (a : Assembly) : a.sorted.schemas = a.schemas := rfl

variable {r : Repository}

/-! Reading the methods -/

theorem filter_nameIn? {definitions : List Json} (hobj : ∀ d ∈ definitions, d.isObject)
    (name : String) : definitions.filter (RawMethod.nameIn? · = some name) =
      (definitions.filter (nameOf · = name)).filter (RawMethod.nameIn? · = some name) := by
  rw [List.filter_filter]
  refine List.filter_congr fun d hd => ?_
  by_cases hn : RawMethod.nameIn? d = some name
  · simp [hn, nameOf_of_nameIn? (hobj d hd) hn]
  · simp [hn]

theorem filter_nameIn?_sorted {a : Assembly} (h : a.WellFormed) (name : String) :
    a.sorted.methods.filter (RawMethod.nameIn? · = some name) =
      a.methods.filter (RawMethod.nameIn? · = some name) := by
  rw [filter_nameIn? fun d hd => (h.sorted.methods d hd).1, filter_sorted,
    ← filter_nameIn? fun d hd => (h.methods d hd).1]

theorem methodSchemas_eq_ok_iff {a : Assembly} (h : a.WellFormed) {methods : Methods} :
    a.methodSchemas = .ok methods ↔
      (∀ d ∈ a.methods, ∃ m, Method.ofDefinition d ⟨a.schemas⟩ = .ok m) ∧
        Methods.HoldsLast ⟨a.schemas⟩ a.methods methods := by
  rw [methodSchemas_eq h.ofDocument_document]
  exact Methods.ofDefinitions_eq_ok_iff fun d hd => (h.methods d hd).2

theorem methodSchemas_sorted {a : Assembly} (h : a.WellFormed) {methods : Methods} :
    a.sorted.methodSchemas = .ok methods ↔ a.methodSchemas = .ok methods := by
  rw [methodSchemas_eq_ok_iff h.sorted, methodSchemas_eq_ok_iff h]
  have hmem : ∀ d, d ∈ a.sorted.methods ↔ d ∈ a.methods := fun _ => List.mem_mergeSort
  simp only [hmem, schemas_sorted, Methods.HoldsLast.congr (filter_nameIn?_sorted h)]

/-! Expanding -/

theorem nameOf_expandMethod {definition out : Json} (hobj : definition.isObject)
    (ho : definition.Ordered) (h : expandMethod r definition = .ok out) :
    nameOf out = nameOf definition := by
  obtain ⟨members, rfl⟩ := Json.isObject_iff.mp hobj
  have hs := (Json.every_obj.mp ho).1
  simp only [expandMethod, Except.monadBind_eq_bind, Except.bind_eq_ok_iff, Except.pure_eq_ok,
    Except.ok.injEq] at h
  obtain ⟨params, hparams, result, hresult, errors, herrors, rfl⟩ := h
  obtain ⟨hsp, hkp⟩ := alter_keeps hs hparams
  obtain ⟨hsr, hkr⟩ := alter_keeps hsp hresult
  obtain ⟨-, hke⟩ := alter_keeps hsr herrors
  have hname : Dict.get? errors "name" = Dict.get? members "name" := by
    rw [hke _ (by decide), hkr _ (by decide), hkp _ (by decide)]
  rw [nameOf, nameOf, Json.get?, Json.get?, hname]

/-- A definition expanded; itself where that fails. -/
def expanded (r : Repository) (definition : Json) : Json :=
  (expandMethod r definition).toOption.getD definition

theorem nameOf_expanded {definition : Json} (hobj : definition.isObject)
    (ho : definition.Ordered) : nameOf (expanded r definition) = nameOf definition := by
  unfold expanded
  cases h : expandMethod r definition with
  | error e => rfl
  | ok out => exact nameOf_expandMethod hobj ho h

theorem expandMethods_eq_ok_iff {definitions outs : List Json} :
    expandMethods r definitions = .ok outs ↔
      (∀ d ∈ definitions, ∃ out, expandMethod r d = .ok out) ∧
        definitions.map (expanded r) = outs := by
  induction definitions generalizing outs with
  | nil => simp [expandMethods]
  | cons d definitions ih =>
    rw [expandMethods, Except.both_eq_ok_iff, List.forall_mem_cons, List.map_cons]
    constructor
    · rintro ⟨out, rest, hd, hrest, rfl⟩
      obtain ⟨hall, rfl⟩ := ih.mp hrest
      refine ⟨⟨⟨out, hd⟩, hall⟩, ?_⟩
      rw [expanded, hd]
      rfl
    · rintro ⟨⟨⟨out, hd⟩, hall⟩, rfl⟩
      refine ⟨out, _, hd, ih.mpr ⟨hall, rfl⟩, ?_⟩
      rw [expanded, hd]
      rfl

theorem expandMethods_mergeSort {definitions outs : List Json}
    (hdefs : ∀ d ∈ definitions, d.isObject ∧ d.Ordered)
    (h : expandMethods r definitions = .ok outs) :
    expandMethods r (definitions.mergeSort fun d e => nameOf d ≤ nameOf e) =
      .ok (outs.mergeSort fun d e => nameOf d ≤ nameOf e) := by
  obtain ⟨hall, rfl⟩ := expandMethods_eq_ok_iff.mp h
  have hname : ∀ d ∈ definitions, nameOf (expanded r d) = nameOf d := fun d hd =>
    nameOf_expanded (hdefs d hd).1 (hdefs d hd).2
  refine expandMethods_eq_ok_iff.mpr ⟨fun d hd => hall d (List.mem_mergeSort.mp hd), ?_⟩
  refine List.map_mergeSort fun d hd e he => ?_
  rw [hname d hd, hname e he]

theorem expand_sorted {a : Assembly} (h : a.WellFormed) (hb : Dict.Sorted a.base)
    {document : Json} (he : a.expand = .ok document) :
    ∃ methods sorted, document.get? "methods" = some (.arr methods) ∧
      SortsByName methods sorted ∧
      a.sorted.expand = .ok (document.putStep (.key "methods") (.arr sorted)) := by
  rw [expand_eq h.repository_eq, Except.bind_eq_ok_iff] at he
  obtain ⟨schemas, hschemas, he⟩ := he
  obtain ⟨methods, hmethods, rfl⟩ := Except.map_eq_ok_iff.mp he
  refine ⟨methods, _, get?_documentOf_methods _ _ _, sortsByName_mergeSort methods, ?_⟩
  have hsorted : expandMethods ⟨a.schemas⟩ a.sorted.methods = .ok _ :=
    expandMethods_mergeSort h.methods hmethods
  have hput : ∀ out, (documentOf a.base methods schemas).putStep (.key "methods") (.arr out) =
      documentOf a.base out schemas := fun _ => putStep_methods hb _
  rw [expand_eq h.sorted.repository_eq, schemas_sorted, base_sorted, hschemas, Except.bind, hsorted,
    Except.map, hput]

/-- The methods of a document are read if every definition resolves, shadowed ones included, and of
definitions with one name the last is read. So sorting the methods of an assembler, whatever was
done to it, changes neither whether they are read nor which is read under a name; and where the
document expands, it expands to the same with the methods in order. -/
theorem sorting_keeps_methods :
    (∀ document definitions, document.Ordered →
      document.get? "methods" = some (.arr definitions) →
      (∀ schemas, document.atPointer? "/components/schemas" = some schemas →
        ∃ members, schemas = .obj members ∧ ∀ m ∈ members, m.2.isObject) →
      ∃ r, Repository.ofDocument document = .ok r ∧
        ((∃ methods, Methods.ofDocument document = .ok methods) ↔
          ∀ d ∈ definitions, ∃ m, Method.ofDefinition d r = .ok m) ∧
        ∀ methods, Methods.ofDocument document = .ok methods →
          Methods.HoldsLast r definitions methods) ∧
    ∀ ops, let a := run ops
      (∀ methods, a.methodSchemas = .ok methods ↔ a.sorted.methodSchemas = .ok methods) ∧
        ∀ document, a.expand = .ok document → ∃ methods sorted,
          document.get? "methods" = some (.arr methods) ∧ SortsByName methods sorted ∧
            a.sorted.expand = .ok (document.putStep (.key "methods") (.arr sorted)) := by
  constructor
  · intro document definitions ho hd hs
    obtain ⟨r, hr⟩ := Repository.exists_ofDocument hs
    have hdefs : ∀ d ∈ definitions, d.Ordered := by
      cases document with
      | obj members => exact Json.every_arr.mp (ho.get? hd)
      | null | bool | num | str | arr => cases hd
    rw [Methods.ofDocument_eq hr hd]
    refine ⟨r, hr, Methods.exists_ofDefinitions_iff, fun methods h => ?_⟩
    exact ((Methods.ofDefinitions_eq_ok_iff hdefs).mp h).2
  · intro ops a
    have h : a.WellFormed := wellFormed_run ops
    have hb : Dict.Sorted a.base := (Json.every_obj.mp (ordered_base ops)).1
    exact ⟨fun _ => (methodSchemas_sorted h).symm, fun _ => expand_sorted h hb⟩

/-- A shadowed definition stays before the one that shadows it. -/
theorem sorting_keeps_methods_shadowed :
    let descriptor := fun name : String => Json.obj [("name", .str name), ("schema", .obj [])]
    let method := fun name result : String =>
      Json.obj [("name", .str name), ("result", descriptor result)]
    let definitions := [method "b" "x", method "a" "y", method "a" "z"]
    let sorted := [method "a" "y", method "a" "z", method "b" "x"]
    let methods : Methods := [("a", ⟨"a", [], ⟨"z", false, .obj []⟩⟩),
      ("b", ⟨"b", [], ⟨"x", false, .obj []⟩⟩)]
    ∃ ordered, let a := run [.addMethods (.arr definitions) ordered]
      a.document.Ordered ∧ a.document.get? "methods" = some (.arr definitions) ∧
        Methods.ofDocument a.document = .ok methods ∧ Methods.HoldsLast ⟨[]⟩ definitions methods ∧
        a.sorted.methods = sorted ∧ a.sorted.methodSchemas = .ok methods ∧
        a.expand = .ok a.document ∧ ∃ out, SortsByName definitions out ∧
          a.sorted.expand = .ok (a.document.putStep (.key "methods") (.arr out)) := by
  intro descriptor method definitions sorted methods
  have ordered : (Json.arr definitions).Ordered := by decide +zetaReduce
  refine ⟨ordered, ?_⟩
  intro a
  obtain ⟨hdocument, hrun⟩ := sorting_keeps_methods
  obtain ⟨hread, hexpand⟩ := hrun [.addMethods (.arr definitions) ordered]
  have hd : a.document.get? "methods" = some (.arr definitions) := by cbv
  have ho : a.document.Ordered := ordered_document (wellFormed_run _) (ordered_base _)
  have hs : a.document.atPointer? "/components/schemas" = some (.obj []) := by cbv
  have hm : Methods.ofDocument a.document = .ok methods := by cbv
  have he : a.expand = .ok a.document := by cbv
  have hr : Repository.ofDocument a.document = .ok ⟨[]⟩ := by cbv
  obtain ⟨r, hr', -, hlast⟩ := hdocument a.document definitions ho hd fun schemas h =>
    ⟨[], Option.some.inj (h.symm.trans hs), by simp⟩
  obtain rfl := Except.ok.inj (hr.symm.trans hr')
  obtain ⟨out, out', hout, hsorts, hput⟩ := hexpand _ he
  obtain rfl : definitions = out := by simpa using hd.symm.trans hout
  exact ⟨ho, hd, hm, hlast methods hm, by cbv, (hread methods).mp hm, he, out', hsorts, hput⟩

end Assembly

end RpcContract.OpenRpc
