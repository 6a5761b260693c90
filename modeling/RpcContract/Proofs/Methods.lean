import RpcContract.Method
import RpcContract.Proofs.Schema.Repository

/-! Methods by name. A method is read under the name that its definition gives, and of several
definitions with one name the last stands, although all of them have to resolve. -/

namespace RpcContract

theorem Json.decodeString_eq_ok_iff {value : Json} {text : String} :
    decodeString value = .ok text ↔ value = .str text := by
  cases value <;> simp [decodeString, refuse]

namespace RawMethod

/-- The name that a definition gives. A definition may be an object or a list of its fields. -/
def nameIn? : Json → Option String
  | .obj members => (Dict.get? members "name").bind Json.asString?
  | .arr items => items.head?.bind Json.asString?
  | _ => none

theorem name_setField {m m' : RawMethod} {key : String} {value : Json}
    (h : setField m key value = .ok m') :
    if key = "name" then value = .str m'.name else m'.name = m.name := by
  unfold setField at h
  simp only [Except.monadBind_eq_bind, Except.pure_eq_ok] at h
  split at h
  · next hk =>
    obtain ⟨name, hname, rfl⟩ := by simpa using h
    rw [if_pos hk]
    exact Json.decodeString_eq_ok_iff.mp hname
  · next hk =>
    rw [if_neg hk]
    split at h
    · obtain ⟨params, -, rfl⟩ := by simpa using h
      rfl
    · obtain ⟨result, -, rfl⟩ := by simpa using h
      rfl

/-- The last entry under the key gives the name. -/
theorem name_foldlM {entries : List (String × Json)} {m m' : RawMethod}
    (h : entries.foldlM (fun m e => setField m e.1 e.2) m = .ok m') :
    (Dict.last? entries "name").getD (.str m.name) = .str m'.name := by
  induction entries generalizing m with
  | nil =>
    obtain rfl := Except.ok.inj h
    rfl
  | cons e entries ih =>
    obtain ⟨k, v⟩ := e
    rw [List.foldlM_cons, Except.monadBind_eq_bind, Except.bind_eq_ok_iff] at h
    obtain ⟨m₁, hfield, hrest⟩ := h
    have hname := name_setField hfield
    have hlast := ih hrest
    rw [Dict.last?]
    by_cases hk : k = "name"
    · rw [if_pos hk] at hname ⊢
      rw [← hlast, ← hname]
      cases Dict.last? entries "name" <;> rfl
    · rw [if_neg hk] at hname ⊢
      rw [← hlast, hname]
      cases Dict.last? entries "name" <;> rfl

theorem nameIn?_of_decode {definition : Json} {m : RawMethod} (ho : definition.Ordered)
    (h : decode definition = .ok m) : nameIn? definition = some m.name := by
  simp only [decode, Json.Form.decode, Except.monadBind_eq_bind, Except.bind_eq_ok_iff,
    Except.pure_eq_ok] at h
  obtain ⟨entries, hentries, m', hfold, ⟨⟩, hcomplete, hm⟩ := h
  obtain rfl := Except.ok.inj hm
  have hname := name_foldlM hfold
  cases definition with
  | obj members =>
    obtain rfl := Except.ok.inj hentries
    have hnodup := (Json.every_obj.mp ho).1.nodup
    rw [Dict.last?_filter (p := form.fields.contains) (by decide),
      Dict.last?_eq_get? hnodup] at hname
    cases hg : Dict.get? members "name" with
    | none => simp [Json.Form.complete, form, Dict.contains, hg] at hcomplete
    | some v =>
      rw [hg, Option.getD_some] at hname
      simp [nameIn?, hg, hname, Json.asString?]
  | arr items =>
    obtain rfl := Except.ok.inj hentries
    cases items with
    | nil => simp [Json.Form.complete, form] at hcomplete
    | cons v items =>
      have hlast : Dict.last? (form.fields.zip (v :: items)) "name" = some v := by
        cases items with
        | nil => simp [form, Dict.last?]
        | cons w items => cases items <;> simp [form, Dict.last?]
      rw [hlast, Option.getD_some] at hname
      simp [nameIn?, hname, Json.asString?]
  | null | bool | num | str => cases hentries

end RawMethod

theorem Method.nameIn?_of_ofDefinition {definition : Json} {r : Repository} {m : Method}
    (ho : definition.Ordered) (h : ofDefinition definition r = .ok m) :
    RawMethod.nameIn? definition = some m.name := by
  simp only [ofDefinition, Except.monadBind_eq_bind, Except.bind_eq_ok_iff,
    Except.mapError_eq_ok_iff, Except.pure_eq_ok, Except.ok.injEq] at h
  obtain ⟨raw, hraw, params, -, result, -, rfl⟩ := h
  exact RawMethod.nameIn?_of_decode ho hraw

namespace Methods

variable {r : Repository}

/-- Under each name stands the resolution of the last definition with that name, and nothing where
there is none. -/
structure HoldsLast (r : Repository) (definitions : List Json) (methods : Methods) : Prop where
  sorted : Dict.Sorted methods
  last : ∀ name, Dict.get? methods name =
    (definitions.filter (RawMethod.nameIn? · = some name)).getLast?.bind fun d =>
      (Method.ofDefinition d r).toOption

theorem HoldsLast.unique {definitions : List Json} {methods methods' : Methods}
    (h : HoldsLast r definitions methods) (h' : HoldsLast r definitions methods') :
    methods = methods' :=
  h.sorted.ext h'.sorted fun name => (h.last name).trans (h'.last name).symm

/-- Only the order among definitions of one name counts. -/
theorem HoldsLast.congr {definitions definitions' : List Json} {methods : Methods}
    (hd : ∀ name, definitions.filter (RawMethod.nameIn? · = some name) =
      definitions'.filter (RawMethod.nameIn? · = some name)) :
    HoldsLast r definitions methods ↔ HoldsLast r definitions' methods := by
  constructor
  · intro h
    exact ⟨h.sorted, fun name => by rw [h.last, hd]⟩
  · intro h
    exact ⟨h.sorted, fun name => by rw [h.last, hd]⟩

theorem exists_ofDefinitions_iff {definitions : List Json} {start : Methods} :
    (∃ methods, ofDefinitions r start definitions = .ok methods) ↔
      ∀ d ∈ definitions, ∃ m, Method.ofDefinition d r = .ok m := by
  induction definitions generalizing start with
  | nil => simp [ofDefinitions]
  | cons d definitions ih =>
    rw [List.forall_mem_cons]
    simp only [ofDefinitions, Except.monadBind_eq_bind, Except.bind_eq_ok_iff]
    constructor
    · rintro ⟨methods, m, hm, hrest⟩
      exact ⟨⟨m, hm⟩, ih.mp ⟨methods, hrest⟩⟩
    · rintro ⟨⟨m, hm⟩, hall⟩
      obtain ⟨methods, hrest⟩ := ih.mpr hall
      exact ⟨methods, m, hm, hrest⟩

theorem sorted_ofDefinitions {definitions : List Json} {start methods : Methods}
    (hs : Dict.Sorted start) (h : ofDefinitions r start definitions = .ok methods) :
    Dict.Sorted methods := by
  induction definitions generalizing start with
  | nil => exact Except.ok.inj h ▸ hs
  | cons d definitions ih =>
    simp only [ofDefinitions, Except.monadBind_eq_bind, Except.bind_eq_ok_iff] at h
    obtain ⟨m, -, hrest⟩ := h
    exact ih (Dict.sorted_insert hs m.name m) hrest

theorem get?_ofDefinitions {definitions : List Json} (ho : ∀ d ∈ definitions, d.Ordered)
    {start methods : Methods} (h : ofDefinitions r start definitions = .ok methods)
    (name : String) :
    Dict.get? methods name =
      ((definitions.filter (RawMethod.nameIn? · = some name)).getLast?.bind fun d =>
        (Method.ofDefinition d r).toOption).or (Dict.get? start name) := by
  induction definitions generalizing start with
  | nil =>
    obtain rfl := Except.ok.inj h
    rfl
  | cons d definitions ih =>
    obtain ⟨hod, ho⟩ := List.forall_mem_cons.mp ho
    simp only [ofDefinitions, Except.monadBind_eq_bind, Except.bind_eq_ok_iff] at h
    obtain ⟨m, hm, hrest⟩ := h
    have hname := Method.nameIn?_of_ofDefinition hod hm
    have hresolved := exists_ofDefinitions_iff.mp ⟨methods, hrest⟩
    rw [ih ho hrest, Dict.get?_insert]
    by_cases hn : m.name = name
    · have hd : decide (RawMethod.nameIn? d = some name) = true := by simp [hname, hn]
      rw [if_pos hn, List.filter_cons, if_pos hd, List.getLast?_cons]
      cases hlast : (definitions.filter (RawMethod.nameIn? · = some name)).getLast? with
      | none => simp [hm, Except.toOption]
      | some d' =>
        have hmem := (List.mem_filter.mp (List.mem_of_getLast? hlast)).1
        obtain ⟨m', hm'⟩ := hresolved d' hmem
        simp [hm', Except.toOption]
    · have hd : ¬ decide (RawMethod.nameIn? d = some name) = true := by simp [hname, hn]
      rw [if_neg hn, List.filter_cons, if_neg hd]

theorem ofDefinitions_eq_ok_iff {definitions : List Json} (ho : ∀ d ∈ definitions, d.Ordered)
    {methods : Methods} :
    ofDefinitions r [] definitions = .ok methods ↔
      (∀ d ∈ definitions, ∃ m, Method.ofDefinition d r = .ok m) ∧
        HoldsLast r definitions methods := by
  have hold : ∀ {methods}, ofDefinitions r [] definitions = .ok methods →
      HoldsLast r definitions methods := by
    intro methods h
    refine ⟨sorted_ofDefinitions (by simp [Dict.Sorted]) h, fun name => ?_⟩
    rw [get?_ofDefinitions ho h, Dict.get?_nil, Option.or_none]
  constructor
  · intro h
    exact ⟨exists_ofDefinitions_iff.mp ⟨methods, h⟩, hold h⟩
  · rintro ⟨hall, hlast⟩
    obtain ⟨methods', h⟩ := exists_ofDefinitions_iff.mpr hall
    rwa [hlast.unique (hold h)]

theorem ofDocument_eq {document : Json} {definitions : List Json}
    (hr : Repository.ofDocument document = .ok r)
    (hd : document.get? "methods" = some (.arr definitions)) :
    ofDocument document = ofDefinitions r [] definitions := by
  simp only [ofDocument, hr, hd, Except.mapError, Except.monadBind_eq_bind, Except.bind]

end Methods

end RpcContract
