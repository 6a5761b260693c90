import Mathlib.Data.List.Permutation
import RpcContract.Exchange.Check
import RpcContract.Proofs.OpenRpc.Expanding
import RpcContract.Proofs.OpenRpc.Run

/-! The methods of an expanded document are those of the document itself. Reading a method from
either gives descriptors that resolve alike, as what is resolved already resolves to itself. -/

namespace RpcContract

open Except (Alike)

/-- Members with the same names are read alike if the fields among them are. -/
theorem Json.Form.decode_alike {α β : Type} {form : Form} {S : String → Json → Json → Prop}
    {R : α → β → Prop} {f : α → String → Json → Decoded α} {g : β → String → Json → Decoded β}
    (hfg : ∀ a b key v w, R a b → key ∈ form.fields → S key v w →
      Alike R (f a key v) (g b key w))
    {members outs : Members} (h : Dict.Related S members outs) {a : α} {b : β} (hab : R a b) :
    Alike R (form.decode a f (.obj members)) (form.decode b g (.obj outs)) := by
  have hfilter := List.rel_filter (p := fun m => form.fields.contains m.1)
    (q := fun m => form.fields.contains m.1) (fun _ _ hpq => by simp only [hpq.1]) h
  have hfields := (List.forall₂_and_left _ _).mpr
    ⟨fun m hm => List.contains_iff_mem.mp (List.mem_filter.mp hm).2, hfilter⟩
  have hcomplete : form.complete (.obj outs) = form.complete (.obj members) := by
    have hc : ∀ field, Dict.contains outs field = Dict.contains members field := by
      intro field
      rw [Bool.eq_iff_iff, Dict.contains_iff_mem_keys, Dict.contains_iff_mem_keys, h.keys_eq]
    simp only [complete, hc]
  simp only [decode, entries, Except.monadBind_eq_bind, hcomplete]
  refine (Alike.foldlM ?_ hfields hab).bind fun a b hab => ?_
  · rintro a b ⟨k, v⟩ ⟨l, w⟩ hab ⟨hk, rfl, hS⟩
    exact hfg a b k v w hab hk hS
  · cases form.complete (.obj members) with
    | error e => exact .error e
    | ok u => exact .ok hab

/-! Descriptors -/

namespace RawDescriptor

/-- Two descriptors of which one, against `r`, says what the other says against `r'`. -/
structure Agrees (r r' : Repository) (d d' : RawDescriptor) : Prop where
  reference : d.reference = d'.reference
  name : d.name = d'.name
  required : d.required = d'.required
  schema : d.schema.map (Schema.resolve · r) = d'.schema.map (Schema.resolve · r')

variable {r r' : Repository}

theorem Agrees.resolve_eq {d d' : RawDescriptor} (h : Agrees r r' d d') :
    d.resolve r = d'.resolve r' := by
  have hs := h.schema
  unfold resolve
  rw [h.reference, h.name, h.required]
  cases hd : d.schema <;> cases hd' : d'.schema <;> simp [hd, hd'] at hs
  · rfl
  · simp only [hs]

/-- What the member of a descriptor may become. -/
def MemberAgrees (r r' : Repository) (key : String) (v w : Json) : Prop :=
  if key = "schema" then (v = .null ↔ w = .null) ∧ Schema.resolve v r = Schema.resolve w r'
  else w = v

theorem setField_alike {d d' : RawDescriptor} {key : String} {v w : Json} (hd : Agrees r r' d d')
    (hk : key ∈ form.fields) (h : MemberAgrees r r' key v w) :
    Alike (Agrees r r') (setField d key v) (setField d' key w) := by
  simp only [form, List.mem_cons, List.not_mem_nil, or_false] at hk
  rcases hk with rfl | rfl | rfl | rfl
  · obtain rfl : w = v := h
    simp only [setField, reduceIte]
    exact (Alike.refl (fun _ => rfl) _).bind fun _ _ he => .ok { hd with reference := he }
  · obtain rfl : w = v := h
    simp only [setField, reduceIte, String.reduceEq]
    exact (Alike.refl (fun _ => rfl) _).bind fun _ _ he => .ok { hd with name := he }
  · obtain rfl : w = v := h
    simp only [setField, reduceIte, String.reduceEq]
    exact (Alike.refl (fun _ => rfl) _).bind fun _ _ he => .ok { hd with required := he }
  · obtain ⟨hnull, hr⟩ := h
    simp only [setField, reduceIte, String.reduceEq]
    refine .ok { hd with schema := ?_ }
    by_cases hv : v = .null
    · rw [if_pos hv, if_pos (hnull.mp hv)]
      rfl
    · rw [if_neg hv, if_neg (hnull.not.mp hv)]
      exact congrArg some hr

/-- A descriptor that is an object with a schema, if any, that is no array. -/
def IsPlain (holder : Json) : Prop :=
  ∃ members, holder = .obj members ∧ ∀ items, Dict.get? members "schema" ≠ some (.arr items)

/-- What is no object and no array is its own resolution. -/
theorem resolve_scalar {v : Json} (ho : ¬ v.isObject) (ha : ∀ items, v ≠ .arr items)
    (r : Repository) : Schema.resolve v r = .ok v := by
  cases v with
  | obj members => exact absurd (Json.isObject_iff.mpr ⟨members, rfl⟩) ho
  | arr items => exact absurd rfl (ha items)
  | null | bool | num | str => exact Schema.resolve_of_lacks (by simp) (by simp) r

/-- A descriptor is read like the same descriptor with its schema resolved. -/
theorem decode_alike {holder out : Json} (hplain : IsPlain holder) (ho : holder.Ordered)
    (h : OpenRpc.Assembly.resolveIn r "schema" holder = .ok out) (r' : Repository) :
    Alike (Agrees r r') (decode holder) (decode out) := by
  obtain ⟨members, rfl, harr⟩ := hplain
  have hs := (Json.every_obj.mp ho).1
  obtain ⟨outs, rfl, hrel⟩ := OpenRpc.Assembly.resolveIn_obj hs h
  refine Json.Form.decode_alike (S := MemberAgrees r r') ?_ (hrel.imp ?_) ⟨rfl, rfl, rfl, rfl⟩
  · exact fun _ _ _ _ _ => setField_alike
  · rintro ⟨k, v⟩ hm w hw
    unfold MemberAgrees
    split
    · next hk =>
      have hv : ∀ items, v ≠ .arr items := by
        rintro items rfl
        exact harr items (hk ▸ Dict.get?_of_mem hs.nodup hm)
      by_cases hobj : v.isObject
      · rw [if_pos ⟨hk, hobj⟩] at hw
        obtain ⟨inner, rfl⟩ := Json.isObject_iff.mp hobj
        obtain ⟨resolved, rfl⟩ := Json.isObject_iff.mp (Schema.isObject_of_resolve hw)
        exact ⟨by simp, hw.trans (Schema.resolve_resolved hw r').symm⟩
      · rw [if_neg fun hc => hobj hc.2] at hw
        subst hw
        exact ⟨Iff.rfl, (resolve_scalar hobj hv r).trans (resolve_scalar hobj hv r').symm⟩
    · next hk => rwa [if_neg fun hc => hk hc.1] at hw

end RawDescriptor

/-! Methods -/

namespace RawMethod

/-- Two methods of which one, against `r`, says what the other says against `r'`. -/
structure Agrees (r r' : Repository) (m m' : RawMethod) : Prop where
  name : m.name = m'.name
  params : List.Forall₂ (RawDescriptor.Agrees r r') m.params m'.params
  result : Option.Rel (RawDescriptor.Agrees r r') m.result m'.result

variable {r r' : Repository}

/-- The parameters and the result of a method are plain descriptors. -/
def IsPlain (definition : Json) : Prop :=
  (∀ params, definition.get? "params" = some (.arr params) →
    ∀ d ∈ params, RawDescriptor.IsPlain d) ∧
  ∀ result, definition.get? "result" = some result → RawDescriptor.IsPlain result

/-- What the member of a method may become. -/
structure MemberAgrees (r r' : Repository) (key : String) (v w : Json) : Prop where
  name : key = "name" → w = v
  params : key = "params" → Alike (List.Forall₂ (RawDescriptor.Agrees r r'))
    (Json.decodeList RawDescriptor.decode v) (Json.decodeList RawDescriptor.decode w)
  result : key = "result" → Alike (Option.Rel (RawDescriptor.Agrees r r'))
    (Json.decodeOption RawDescriptor.decode v) (Json.decodeOption RawDescriptor.decode w)

theorem setField_alike {m m' : RawMethod} {key : String} {v w : Json} (hm : Agrees r r' m m')
    (hk : key ∈ form.fields) (h : MemberAgrees r r' key v w) :
    Alike (Agrees r r') (setField m key v) (setField m' key w) := by
  simp only [form, List.mem_cons, List.not_mem_nil, or_false] at hk
  rcases hk with rfl | rfl | rfl
  · obtain rfl := h.name rfl
    simp only [setField, reduceIte]
    exact (Alike.refl (fun _ => rfl) _).bind fun _ _ he => .ok { hm with name := he }
  · simp only [setField, reduceIte, String.reduceEq]
    exact (h.params rfl).bind fun _ _ hp => .ok { hm with params := hp }
  · simp only [setField, reduceIte, String.reduceEq]
    exact (h.result rfl).bind fun _ _ hr => .ok { hm with result := hr }

theorem decodeList_alike {v w : Json}
    (hplain : ∀ items, v = .arr items → ∀ d ∈ items, RawDescriptor.IsPlain d) (hv : v.Ordered)
    (h : OpenRpc.Assembly.EachResolved r "schema" v w) (r' : Repository) :
    Alike (List.Forall₂ (RawDescriptor.Agrees r r'))
      (Json.decodeList RawDescriptor.decode v) (Json.decodeList RawDescriptor.decode w) := by
  cases v with
  | arr items =>
    obtain ⟨outs, rfl, h⟩ := h
    have hitem : ∀ d ∈ items, RawDescriptor.IsPlain d ∧ d.Ordered := fun d hd =>
      ⟨hplain items rfl d hd, Json.every_arr.mp hv d hd⟩
    refine Alike.mapM (((List.forall₂_and_left _ _).mpr ⟨hitem, h⟩).imp ?_)
    rintro d out ⟨⟨hp, ho⟩, hr⟩
    exact RawDescriptor.decode_alike hp ho hr r'
  | null | bool | num | str | obj =>
    obtain rfl := h
    exact .error _

theorem decodeOption_alike {v w : Json} (hplain : RawDescriptor.IsPlain v) (hv : v.Ordered)
    (h : OpenRpc.Assembly.resolveIn r "schema" v = .ok w) (r' : Repository) :
    Alike (Option.Rel (RawDescriptor.Agrees r r'))
      (Json.decodeOption RawDescriptor.decode v) (Json.decodeOption RawDescriptor.decode w) := by
  have hdecode := RawDescriptor.decode_alike hplain hv h r'
  obtain ⟨members, rfl, -⟩ := hplain
  obtain ⟨outs, rfl, -⟩ := OpenRpc.Assembly.resolveIn_obj (Json.every_obj.mp hv).1 h
  exact hdecode.map fun _ _ => .some

/-- A method is read like the same method expanded. -/
theorem decode_alike {definition out : Json} (hobj : definition.isObject)
    (ho : definition.Ordered) (hplain : IsPlain definition)
    (h : OpenRpc.Assembly.expandMethod r definition = .ok out) (r' : Repository) :
    Alike (Agrees r r') (decode definition) (decode out) := by
  obtain ⟨members, rfl⟩ := Json.isObject_iff.mp hobj
  obtain ⟨hs, hmembers⟩ := Json.every_obj.mp ho
  obtain ⟨outs, rfl, hrel⟩ := OpenRpc.Assembly.expandMethod_obj hs h
  refine Json.Form.decode_alike (S := MemberAgrees r r') ?_ (hrel.imp ?_) ⟨rfl, .nil, .none⟩
  · exact fun _ _ _ _ _ => setField_alike
  · rintro ⟨k, v⟩ hm w (hw : OpenRpc.Assembly.MemberExpanded r k v w)
    have hg : Dict.get? members k = some v := Dict.get?_of_mem hs.nodup hm
    unfold OpenRpc.Assembly.MemberExpanded at hw
    show MemberAgrees r r' k v w
    refine ⟨?_, ?_, ?_⟩ <;> rintro rfl
    · simpa using hw
    · rw [if_pos rfl] at hw
      refine decodeList_alike (fun items he => hplain.1 items ?_) (hmembers _ hm) hw r'
      exact hg.trans (congrArg some he)
    · rw [if_neg (by decide), if_pos rfl] at hw
      exact decodeOption_alike (hplain.2 v hg) (hmembers _ hm) hw r'

end RawMethod

namespace Method

variable {r r' : Repository}

theorem resolveParams_eq {ds ds' : List RawDescriptor}
    (h : List.Forall₂ (RawDescriptor.Agrees r r') ds ds') (method : String) (i : Nat) :
    resolveParams r method i ds = resolveParams r' method i ds' := by
  induction h generalizing i with
  | nil => rfl
  | cons hd _ ih => rw [resolveParams, resolveParams, hd.resolve_eq, ih]

theorem resolveResult_eq {d d' : Option RawDescriptor}
    (h : Option.Rel (RawDescriptor.Agrees r r') d d') (method : String) :
    resolveResult r method d = resolveResult r' method d' := by
  cases h with
  | none => rfl
  | some hd => simp only [resolveResult, hd.resolve_eq]

theorem ofDefinition_eq {definition out : Json}
    (h : Alike (RawMethod.Agrees r r') (RawMethod.decode definition) (RawMethod.decode out)) :
    ofDefinition definition r = ofDefinition out r' := by
  refine Alike.eq ((h.mapError _).bind fun m m' hm => ?_)
  rw [hm.name, resolveParams_eq hm.params, resolveResult_eq hm.result]
  exact .refl (fun _ => rfl) _

end Method

theorem Methods.ofDefinitions_eq {r r' : Repository} {definitions outs : List Json}
    (h : List.Forall₂ (fun d out => Method.ofDefinition d r = Method.ofDefinition out r')
      definitions outs) (methods : Methods) :
    ofDefinitions r methods definitions = ofDefinitions r' methods outs := by
  induction h generalizing methods with
  | nil => rfl
  | cons hd _ ih =>
    rw [ofDefinitions, ofDefinitions, hd]
    refine congrArg _ (funext fun method => ?_)
    exact ih _

/-! Documents -/

namespace OpenRpc.Assembly

/-- An assembler whose methods have plain descriptors has the same methods in its document and in
the expanded one, or fails alike; so every exchange is checked alike against either. -/
theorem ofDocument_expand {ops : List Operation}
    (hplain : ∀ d ∈ (run ops).methods, RawMethod.IsPlain d) {expanded : Json}
    (h : (run ops).expand = .ok expanded) :
    Methods.ofDocument expanded = Methods.ofDocument (run ops).document ∧
      ∀ marker xs,
        (Methods.ofDocument expanded).bind (checkAll · marker xs) =
          (Methods.ofDocument (run ops).document).bind (checkAll · marker xs) := by
  have hwf := wellFormed_run ops
  obtain ⟨r, hr, schemas, methods, hschemas, hmethods, rfl⟩ := expand_eq_ok h
  obtain ⟨r', hr'⟩ :=
    Repository.exists_ofFragment_iff.mpr (isObject_of_resolved hwf.schemas hschemas)
  have hdefs : List.Forall₂ (fun d out => Method.ofDefinition d r = Method.ofDefinition out r')
      (run ops).methods methods := by
    have hboth := (List.forall₂_and_left _ _).mpr
      ⟨fun d hd => And.intro (hwf.methods d hd) (hplain d hd), hmethods⟩
    refine hboth.imp ?_
    rintro d out ⟨⟨⟨hobj, ho⟩, hp⟩, he⟩
    exact Method.ofDefinition_eq (RawMethod.decode_alike hobj ho hp he r')
  have heq : Methods.ofDocument (documentOf (run ops).base methods schemas) =
      Methods.ofDocument (run ops).document := by
    rw [document, ofDocument_documentOf, ofDocument_documentOf, hr, hr']
    exact (Methods.ofDefinitions_eq hdefs []).symm
  exact ⟨heq, fun marker xs => by rw [heq]⟩

/-- A parameter that refers to a component, and a result that composes one. -/
theorem ofDocument_expand_lookup :
    let reference := fun name : String =>
      Json.obj [("$ref", .str ("#/components/schemas/" ++ name))]
    let descriptor := fun (name : String) (schema : Json) =>
      Json.obj [("name", .str name), ("schema", schema)]
    let lookup := fun address owner : Json => Json.obj [("name", .str "lookup"),
      ("params", .arr [descriptor "address" address]), ("result", descriptor "owner" owner)]
    let text := Json.obj [("type", .str "string")]
    let schemas := [("Address", text)]
    let raw := lookup (reference "Address")
      (.obj [("allOf", .arr [reference "Address", .obj [("title", .str "owner")]])])
    let resolved := lookup text (.obj [("title", .str "owner"), ("type", .str "string")])
    ∃ (hm : (Json.arr [raw]).Ordered) (hs : (Json.obj schemas).Ordered),
      let a := run [.addMethods (.arr [raw]) hm, .addSchemas (.obj schemas) hs]
      let expanded := documentOf template [resolved] schemas
      (∀ d ∈ a.methods, RawMethod.IsPlain d) ∧ a.expand = .ok expanded ∧
        Methods.ofDocument expanded = Methods.ofDocument a.document := by
  intro reference descriptor lookup text schemas raw resolved
  have hm : (Json.arr [raw]).Ordered := by decide +zetaReduce
  have hs : (Json.obj schemas).Ordered := by decide +zetaReduce
  refine ⟨hm, hs, ?_⟩
  intro a expanded
  have hmethods : a.methods = [raw] := by cbv
  have hplain : ∀ d ∈ a.methods, RawMethod.IsPlain d := by
    simp [hmethods, raw, lookup, descriptor, reference, RawMethod.IsPlain, RawDescriptor.IsPlain,
      Json.get?, Dict.get?_cons]
  have he : a.expand = .ok expanded := by cbv
  exact ⟨hplain, he, (ofDocument_expand hplain he).1⟩

end OpenRpc.Assembly

end RpcContract
