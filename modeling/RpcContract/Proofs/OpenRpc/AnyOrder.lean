import RpcContract.Proofs.OpenRpc.Emitted
import RpcContract.Proofs.OpenRpc.Sorting

/-! Methods in any order. The schema of documents looks at the methods one by one, and each is
resolved without the others; so whether a document is valid, and whether it expands, does not depend
on the order of its methods. -/

namespace RpcContract

namespace Json

theorem itemsSize_of_perm {items items' : List Json} (h : items.Perm items') :
    itemsSize items = itemsSize items' := by
  induction h with
  | nil => rfl
  | cons item _ ih => rw [itemsSize, itemsSize, ih]
  | swap a b items => simp only [itemsSize]; omega
  | trans _ _ ih ih' => exact ih.trans ih'

theorem membersSize_of_related {members members' : Members}
    (h : Dict.Related (fun _ v w => v.size = w.size) members members') :
    membersSize members = membersSize members' := by
  induction h with
  | nil => rfl
  | cons hp _ ih => rw [membersSize, membersSize, ih, hp.2]

end Json

/-! What a checker takes -/

namespace Validation

variable {check : Checker} {schema : Json} {schemas : List Json} {parent : Json.Members}

/-- Where the value stands shows in the violations only. -/
theorem checkOneOf_eq_nil_iff_elsewhere {value : Json} (path path' : Json.Path) :
    checkOneOf check schemas value path = [] ↔ checkOneOf check schemas value path' = [] := by
  unfold checkOneOf
  split
  · simp [breach]
  · split <;> simp [breach]

theorem checkItemsFrom_eq_nil_iff {path : Json.Path} {i : Nat} {items : List Json}
    (hpath : ∀ item place place', check schema item place = [] ↔ check schema item place' = []) :
    checkItemsFrom check schema path i items = [] ↔ ∀ item ∈ items, check schema item [] = [] := by
  induction items generalizing i with
  | nil => simp [checkItemsFrom]
  | cons item items ih =>
    rw [checkItemsFrom, List.append_eq_nil_iff, ih, hpath item _ [], List.forall_mem_cons]

/-- Where nothing may be added, every member is declared, and it is taken by each schema that is
declared for it. -/
theorem checkAdditionalProperties_eq_nil_iff {members : Json.Members} {path : Json.Path}
    (h : Dict.contains parent "properties") :
    checkAdditionalProperties check parent (.bool false) (.obj members) path = [] ↔
      ∀ m ∈ members, declared parent m.1 ≠ [] ∧
        ∀ s ∈ declared parent m.1, check s m.2 (path ++ [.key m.1]) = [] := by
  have hchecked : checkAdditionalProperties check parent (.bool false) (.obj members) path =
      (members.flatMap fun m =>
        (declared parent m.1).flatMap fun s => check s m.2 (path ++ [.key m.1])) ++
      (let extra := members.filter fun m => (declared parent m.1).isEmpty
        if extra.isEmpty then [] else breach path (.extraProperties (extra.map (·.1)))) := by
    simp only [checkAdditionalProperties, h, Bool.true_or, if_true]
    congr 2
    funext m
    cases declared parent m.1 <;> rfl
  have hextra : ∀ extra : Json.Members,
      (if extra.isEmpty then [] else breach path (.extraProperties (extra.map (·.1)))) = [] ↔
        extra = [] := by
    intro extra
    cases extra <;> simp [breach]
  rw [hchecked, List.append_eq_nil_iff, hextra, List.filter_eq_nil_iff, List.flatMap_eq_nil_iff]
  simp only [List.flatMap_eq_nil_iff, List.isEmpty_iff, ← forall₂_and, and_comm, ne_eq]

/-- What is required depends on the names only. -/
theorem checkRequired_congr {members members' : Json.Members}
    (h : Dict.keys members' = Dict.keys members) (names : List Json) (path : Json.Path) :
    checkRequired names (.obj members) path = checkRequired names (.obj members') path := by
  have hcontains : ∀ name, Dict.contains members name = Dict.contains members' name := by
    intro name
    rw [Bool.eq_iff_iff, Dict.contains_iff_mem_keys, Dict.contains_iff_mem_keys, h]
  simp only [checkRequired, hcontains]

end Validation

namespace OpenRpc

open Validation

/-! The schema of documents -/

/-- The schema of the items of `methods`. -/
def methodSchema : Json := (methods.get? "items").getD .null

/-- The keywords of the schema of documents. -/
def documentKeywords : Json.Members := schemaOfDocuments.root.asObject?.getD []

section

variable {fuel : Nat} {path path' : Json.Path}

theorem find?_methods : schemaOfDocuments.find? "#/definitions/methods" = some methods := by
  decide +kernel

theorem contains_properties : Dict.contains documentKeywords "properties" := by decide +kernel

theorem declared_methods :
    declared documentKeywords "methods" = [.obj [("$ref", .str "#/definitions/methods")]] := by
  decide +kernel

theorem checkWith_root (members : Json.Members) :
    checkWith schemaOfDocuments (fuel + 1) schemaOfDocuments.root (.obj members) path =
      checkAdditionalProperties (checkWith schemaOfDocuments fuel) documentKeywords (.bool false)
          (.obj members) path ++
        (checkRequired [.str "info", .str "methods", .str "openrpc"] (.obj members) path ++ []) :=
  rfl

theorem checkWith_root_eq_nil_iff {members : Json.Members} :
    checkWith schemaOfDocuments (fuel + 1) schemaOfDocuments.root (.obj members) path = [] ↔
      (∀ m ∈ members, declared documentKeywords m.1 ≠ [] ∧ ∀ s ∈ declared documentKeywords m.1,
        checkWith schemaOfDocuments fuel s m.2 (path ++ [.key m.1]) = []) ∧
      checkRequired [.str "info", .str "methods", .str "openrpc"] (.obj members) path = [] := by
  rw [checkWith_root, List.append_nil, List.append_eq_nil_iff,
    checkAdditionalProperties_eq_nil_iff contains_properties]

theorem checkWith_methods (items : List Json) :
    checkWith schemaOfDocuments (fuel + 1) methods (.arr items) path =
      checkItemsFrom (checkWith schemaOfDocuments fuel) methodSchema path 0 items ++ [] :=
  rfl

theorem checkWith_methodSchema (item : Json) :
    checkWith schemaOfDocuments (fuel + 1) methodSchema item path =
      checkOneOf (checkWith schemaOfDocuments fuel) [
        .obj [("$ref", .str "#/definitions/methodObject")],
        .obj [("$ref", .str "#/definitions/referenceObject")]] item path ++ [] :=
  rfl

theorem checkWith_methodSchema_eq_nil_iff (item : Json) :
    checkWith schemaOfDocuments fuel methodSchema item path = [] ↔
      checkWith schemaOfDocuments fuel methodSchema item path' = [] := by
  cases fuel with
  | zero => exact .rfl
  | succ fuel =>
    rw [checkWith_methodSchema, checkWith_methodSchema, List.append_nil, List.append_nil]
    exact checkOneOf_eq_nil_iff_elsewhere path path'

theorem checkWith_methods_of_perm {items items' : List Json} (h : items.Perm items') :
    checkWith schemaOfDocuments fuel methods (.arr items) path = [] ↔
      checkWith schemaOfDocuments fuel methods (.arr items') path = [] := by
  cases fuel with
  | zero => exact .rfl
  | succ fuel =>
    have hitems : ∀ items, checkItemsFrom (checkWith schemaOfDocuments fuel) methodSchema path 0
        items = [] ↔ ∀ item ∈ items, checkWith schemaOfDocuments fuel methodSchema item [] = [] :=
      fun items => checkItemsFrom_eq_nil_iff fun item _ _ => checkWith_methodSchema_eq_nil_iff item
    rw [checkWith_methods, checkWith_methods, List.append_nil, List.append_nil, hitems, hitems]
    simp only [h.mem_iff]

end

/-- A member of two documents: the same, or methods that differ in their order. -/
inductive Reordered (name : String) : Json → Json → Prop where
  | same (value : Json) : Reordered name value value
  | methods {items items' : List Json} (hname : name = "methods") (h : items.Perm items') :
      Reordered name (.arr items) (.arr items')

theorem Reordered.size_eq {name : String} {v w : Json} (h : Reordered name v w) :
    v.size = w.size := by
  cases h with
  | same => rfl
  | methods _ h => rw [Json.size, Json.size, Json.itemsSize_of_perm h]

theorem Reordered.checkWith_iff {name : String} {v w : Json} (h : Reordered name v w) {s : Json}
    (hs : s ∈ declared documentKeywords name) (fuel : Nat) (path : Json.Path) :
    checkWith schemaOfDocuments fuel s v path = [] ↔
      checkWith schemaOfDocuments fuel s w path = [] := by
  cases h with
  | same => exact .rfl
  | methods hname h =>
    subst hname
    rw [declared_methods, List.mem_singleton] at hs
    subst hs
    cases fuel with
    | zero => exact .rfl
    | succ fuel =>
      have hfollow : ∀ value, checkWith schemaOfDocuments (fuel + 1)
          (.obj [("$ref", .str "#/definitions/methods")]) value path =
            checkWith schemaOfDocuments fuel OpenRpc.methods value path := by
        intro value
        have hkey : Dict.get? [("$ref", Json.str "#/definitions/methods")] Reference.key =
            some (.str "#/definitions/methods") := rfl
        simp only [checkWith, hkey, find?_methods]
      rw [hfollow, hfollow]
      exact checkWith_methods_of_perm h

theorem violations_eq_nil_iff_of_reordered {members members' : Json.Members}
    (h : Dict.Related Reordered members members') :
    violations (.obj members) = [] ↔ violations (.obj members') = [] := by
  -- documents of one size are followed equally far
  have hsize : (Json.obj members).size = (Json.obj members').size := by
    rw [Json.size, Json.size, Json.membersSize_of_related (h.imp fun _ _ _ hvw => hvw.size_eq)]
  have hsteps : stepsFor schemaOfDocuments (.obj members) =
      stepsFor schemaOfDocuments (.obj members') := by
    rw [stepsFor, stepsFor, hsize]
  obtain ⟨fuel, hfuel⟩ : ∃ fuel, stepsFor schemaOfDocuments (.obj members') = fuel + 1 :=
    Nat.exists_eq_succ_of_ne_zero (by simp [stepsFor])
  have hmembers : Dict.Related (fun name v w =>
      (declared documentKeywords name ≠ [] ∧ ∀ s ∈ declared documentKeywords name,
        checkWith schemaOfDocuments fuel s v ([] ++ [.key name]) = []) ↔
      (declared documentKeywords name ≠ [] ∧ ∀ s ∈ declared documentKeywords name,
        checkWith schemaOfDocuments fuel s w ([] ++ [.key name]) = [])) members members' := by
    refine h.imp fun m _ w hvw => and_congr_right fun _ => forall₂_congr fun s hs => ?_
    exact hvw.checkWith_iff hs fuel _
  rw [violations, violations, List.map_eq_nil_iff, List.map_eq_nil_iff, Validation.violations,
    Validation.violations, hsteps, hfuel, checkWith_root_eq_nil_iff, checkWith_root_eq_nil_iff,
    hmembers.forall_iff, checkRequired_congr h.keys_eq]

namespace Assembly

variable {methods methods' : List Json}

theorem violations_documentOf_of_perm (h : methods.Perm methods') (base : Json.Members)
    (schemas : Dict Json) :
    violations (documentOf base methods schemas) = [] ↔
      violations (documentOf base methods' schemas) = [] := by
  have hbase : Dict.Related Reordered base base := .refl fun m _ => .same m.2
  exact violations_eq_nil_iff_of_reordered ((hbase.insert (.methods rfl h)).insert (.same _))

/-! Expanding -/

theorem expandMethods_of_perm {r : Repository} {outs : List Json} (h : methods.Perm methods')
    (he : expandMethods r methods = .ok outs) :
    ∃ outs', expandMethods r methods' = .ok outs' ∧ outs.Perm outs' := by
  obtain ⟨hall, rfl⟩ := expandMethods_eq_ok_iff.mp he
  exact ⟨_, expandMethods_eq_ok_iff.mpr ⟨fun d hd => hall d (h.mem_iff.mpr hd), rfl⟩, h.map _⟩

/-- Assemblers that hold the same but for the order of their methods. -/
structure SameUpToOrder (a b : Assembly) : Prop where
  base : a.base = b.base
  methods : a.methods.Perm b.methods
  schemas : a.schemas = b.schemas

namespace SameUpToOrder

variable {a b : Assembly}

theorem sorted (a : Assembly) : SameUpToOrder a a.sorted :=
  ⟨rfl, (List.mergeSort_perm _ _).symm, rfl⟩

theorem symm (h : SameUpToOrder a b) : SameUpToOrder b a :=
  ⟨h.base.symm, h.methods.symm, h.schemas.symm⟩

theorem violations_document_iff (h : SameUpToOrder a b) :
    violations a.document = [] ↔ violations b.document = [] := by
  rw [document, document, ← h.base, ← h.schemas]
  exact violations_documentOf_of_perm h.methods a.base a.schemas

/-- Where one expands, the other does, to a document that is valid if the first is. -/
theorem exists_expand (h : SameUpToOrder a b) {document : Json} (he : a.expand = .ok document) :
    ∃ document', b.expand = .ok document' ∧
      (violations document = [] ↔ violations document' = []) := by
  have hr : b.repository = a.repository := by
    rw [repository, repository, h.schemas]
  cases hra : a.repository with
  | error e =>
    rw [expand, hra] at he
    cases he
  | ok r =>
    rw [expand_eq hra, Except.bind_eq_ok_iff] at he
    obtain ⟨schemas, hresolved, he⟩ := he
    obtain ⟨outs, houts, rfl⟩ := Except.map_eq_ok_iff.mp he
    obtain ⟨outs', houts', hperm⟩ := expandMethods_of_perm h.methods houts
    refine ⟨documentOf a.base outs' schemas, ?_, violations_documentOf_of_perm hperm a.base schemas⟩
    rw [expand_eq (hr.trans hra), ← h.schemas, hresolved, Except.bind, houts', Except.map, h.base]

theorem expandable_iff (h : SameUpToOrder a b) :
    (∃ document, a.expand = .ok document) ↔ ∃ document, b.expand = .ok document := by
  constructor <;> rintro ⟨document, he⟩
  · exact (h.exists_expand he).imp fun _ => And.left
  · exact (h.symm.exists_expand he).imp fun _ => And.left

theorem valid_expansion_iff (h : SameUpToOrder a b) :
    (∃ document, a.expand = .ok document ∧ violations document = []) ↔
      ∃ document, b.expand = .ok document ∧ violations document = [] := by
  constructor <;> rintro ⟨document, he, hv⟩
  · obtain ⟨document', he', hiff⟩ := h.exists_expand he
    exact ⟨document', he', hiff.mp hv⟩
  · obtain ⟨document', he', hiff⟩ := h.symm.exists_expand he
    exact ⟨document', he', hiff.mp hv⟩

end SameUpToOrder

/-! Validating and writing -/

theorem check_eq_ok_iff {document : Json} : check document = .ok () ↔ violations document = [] := by
  unfold check
  cases violations document <;> simp

theorem validate_eq_ok_iff {a : Assembly} : a.validate = .ok () ↔ violations a.document = [] :=
  check_eq_ok_iff

theorem validateExpanded_eq_ok_iff {a : Assembly} :
    a.validateExpanded = .ok () ↔
      ∃ document, a.expand = .ok document ∧ violations document = [] := by
  rw [validateExpanded, Except.monadBind_eq_bind, Except.bind_eq_ok_iff]
  simp only [check_eq_ok_iff]

theorem exists_serialize_iff {a : Assembly} {layout : Layout} :
    (∃ text, a.serialize layout = .ok text) ↔ violations a.sorted.document = [] :=
  (answers_serialize a layout).exists_text_iff

theorem exists_serializeExpanded_iff {a : Assembly} {layout : Layout} :
    (∃ text, a.serializeExpanded layout = .ok text) ↔
      ∃ document, a.sorted.expand = .ok document ∧ violations document = [] := by
  cases he : a.sorted.expand with
  | error e => simp [serializeExpanded_of_error he]
  | ok document => simp [(answers_serializeExpanded he layout).exists_text_iff]

/-- An assembler validates exactly if it is written, in either layout, and its expansion likewise,
though it is validated with the methods as they were added and written with them in order of their
names: whether a document is valid, whether it expands and whether its expansion is valid is the
same for its methods in any order. -/
theorem validates_iff_written (a : Assembly) :
    (∀ layout, (a.validate = .ok () ↔ ∃ text, a.serialize layout = .ok text) ∧
      (a.validateExpanded = .ok () ↔ ∃ text, a.serializeExpanded layout = .ok text)) ∧
    ∀ b, a.SameUpToOrder b →
      (a.validate = .ok () ↔ b.validate = .ok ()) ∧
      ((∃ document, a.expand = .ok document) ↔ ∃ document, b.expand = .ok document) ∧
      (a.validateExpanded = .ok () ↔ b.validateExpanded = .ok ()) := by
  have hsorted := SameUpToOrder.sorted a
  constructor
  · intro layout
    rw [validate_eq_ok_iff, validateExpanded_eq_ok_iff, exists_serialize_iff,
      exists_serializeExpanded_iff]
    exact ⟨hsorted.violations_document_iff, hsorted.valid_expansion_iff⟩
  · intro b h
    rw [validate_eq_ok_iff, validate_eq_ok_iff, validateExpanded_eq_ok_iff,
      validateExpanded_eq_ok_iff]
    exact ⟨h.violations_document_iff, h.expandable_iff, h.valid_expansion_iff⟩

/-- Methods that are not in order may be valid. -/
example :
    let method := fun name : String => Json.obj [("name", .str name), ("params", .arr [])]
    Assembly.validate ⟨template, [method "b", method "a"], []⟩ = .ok () := by
  decide +kernel

end Assembly

end OpenRpc

end RpcContract
