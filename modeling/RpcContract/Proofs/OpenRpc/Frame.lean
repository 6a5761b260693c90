import RpcContract.Proofs.OpenRpc.Expanding
import RpcContract.Proofs.OpenRpc.Order
import RpcContract.Proofs.OpenRpc.Places

/-! Expanding as one walk over the places of a document that hold schemas, components first and then
the slots of the methods: each is put anew, and where there is nothing to put, that is what is
reported. -/

namespace RpcContract

namespace OpenRpc.Assembly

open Json (under)

/-- What is to be put somewhere, or the failure to find it. -/
abbrev Change := Json.Path × Except Error Json

variable {r : Repository}

/-! Objects and arrays -/

theorem alter_keeps {members out : Json.Members} (hs : Dict.Sorted members) {key : String}
    {f : Json → Except Error Json} (h : alter members key f = .ok out) :
    Dict.Sorted out ∧ ∀ k, k ≠ key → Dict.get? out k = Dict.get? members k := by
  unfold alter at h
  split at h
  · simp only [Except.monadBind_eq_bind, Except.bind_eq_ok_iff, Except.pure_eq_ok,
      Except.ok.injEq] at h
    obtain ⟨w, -, rfl⟩ := h
    exact ⟨Dict.sorted_insert hs key w, fun k hk => by rw [Dict.get?_insert, if_neg (Ne.symm hk)]⟩
  · cases h
    exact ⟨hs, fun _ _ => rfl⟩

theorem alter_eq_carryOut {members : Json.Members} (hs : Dict.Sorted members) {key : String}
    {f : Json → Except Error Json} {changes : List Change}
    (hnone : Dict.get? members key = none → changes = [])
    (hsome : ∀ v, Dict.get? members key = some v →
      ∃ inner, f v = v.carryOut inner ∧ changes = inner.map (under (.key key))) :
    (alter members key f).map Json.obj = (Json.obj members).carryOut changes := by
  unfold alter
  split
  · next v hv =>
    obtain ⟨inner, hf, rfl⟩ := hsome v hv
    have hsorted : (Json.obj members).SortedHere := fun _ he => Json.obj.inj he ▸ hs
    have hstep : (Json.obj members).step? (.key key) = some v := hv
    rw [Json.carryOut_under hsorted hstep, ← hf]
    cases f v <;> rfl
  · next hn =>
    rw [hnone hn]
    rfl

/-- The changes of the elements, from the position `pre.length` on. -/
theorem eachFrom_eq_carryOut {f : Nat → Json → Except Error Json} (inner : Nat → Json → List Change)
    (pre items : List Json)
    (h : ∀ i x, (pre ++ items)[i]? = some x → pre.length ≤ i → f i x = x.carryOut (inner i x)) :
    (eachFrom pre.length f items).map (fun out => .arr (pre ++ out)) =
      (Json.arr (pre ++ items)).carryOut ((items.zipIdx pre.length).flatMap fun x =>
        (inner x.2 x.1).map (under (.index x.2))) := by
  -- `pre` holds what has been changed, and the array is always whole
  induction items generalizing pre with
  | nil => rfl
  | cons x items ih =>
    have hx : (pre ++ x :: items)[pre.length]? = some x := by simp
    have hsorted : (Json.arr (pre ++ x :: items)).SortedHere := by simp [Json.SortedHere]
    have hstep : (Json.arr (pre ++ x :: items)).step? (.index pre.length) = some x := hx
    rw [eachFrom, List.zipIdx_cons, List.flatMap_cons, Json.carryOut_append,
      Json.carryOut_under hsorted hstep, h _ _ hx le_rfl]
    cases x.carryOut (inner pre.length x) with
    | error e => rfl
    | ok y =>
      have hput : (Json.arr (pre ++ x :: items)).putStep (.index pre.length) y =
          .arr ((pre ++ [y]) ++ items) := by
        simp [Json.putStep]
      have hrest := ih (pre ++ [y]) fun i z hz hi => by
        refine h i z ?_ (by simp at hi; omega)
        rw [List.length_append, List.length_singleton] at hi
        rw [← hz, List.append_assoc, List.getElem?_append_right (by omega),
          List.getElem?_append_right (by omega)]
        obtain ⟨j, hj⟩ : ∃ j, i - pre.length = j + 1 := ⟨i - pre.length - 1, by omega⟩
        simp [hj]
      rw [List.length_append, List.length_singleton] at hrest
      simp only [Except.map, Except.bind, hput]
      rw [← hrest]
      cases eachFrom (pre.length + 1) f items <;> simp [Except.map, Except.bind]

/-! Methods -/

/-- The change of what stands at a place, none if that is no object. -/
def changeAt (r : Repository) (report : Schema.Error → Error) (v : Json) (path : Json.Path) :
    List Change :=
  if (v.at? path).any Json.isObject then
    [(path, (Schema.resolve ((v.at? path).getD .null) r).mapError report)]
  else []

variable {report : Schema.Error → Error}

theorem changeAt_cons {v u : Json} {step : Json.Step} (hu : v.step? step = some u)
    (path : Json.Path) :
    changeAt r report v (step :: path) = (changeAt r report u path).map (under step) := by
  unfold changeAt
  rw [Json.at?_cons hu]
  split <;> rfl

theorem changeAt_cons_of_none {v : Json} {step : Json.Step} (hu : v.step? step = none)
    (path : Json.Path) : changeAt r report v (step :: path) = [] := by
  unfold changeAt
  rw [Json.at?, hu]
  rfl

theorem resolveIn_eq_carryOut (method : String) (slot : Slot) {holder : Json}
    (hs : holder.SortedHere) (key : String) :
    Error.within method slot (resolveIn r key holder) = holder.carryOut
      (changeAt r (fun e => .inMethod method slot (.schema e)) holder [.key key]) := by
  cases hg : holder.step? (.key key) with
  | none =>
    rw [changeAt_cons_of_none hg]
    cases holder with
    | obj members =>
      have hg : Dict.get? members key = none := hg
      simp only [resolveIn, alter, hg]
      rfl
    | null | bool | num | str | arr => rfl
  | some v =>
    rw [changeAt_cons hg, Json.carryOut_under hs hg]
    cases holder with
    | obj members =>
      have hg : Dict.get? members key = some v := hg
      by_cases hv : v.isObject
      · cases hr : Schema.resolve v r <;>
          simp [resolveIn, alter, hg, hv, hr, changeAt, Json.at?, Error.within, Schema.Error.lift,
            Except.mapError, Except.bind, Except.map, Json.carryOut_cons, Json.put, Json.putStep]
      · simp [resolveIn, alter, hg, hv, changeAt, Json.at?, Error.within, Except.mapError,
          Except.bind, Except.map, Json.putStep]
    | null | bool | num | str | arr => cases hg

def slotChanges (r : Repository) (method : String) (definition : Json) (slot : Slot) :
    List Change :=
  changeAt r (fun e => .inMethod method slot (.schema e)) definition slot.path

theorem alter_each_eq_carryOut {members : Json.Members} (hs : Dict.Sorted members)
    (method key inner : String) (slot : Nat → Slot)
    (hv : ∀ v, Dict.get? members key = some v → v.Ordered)
    (hpath : ∀ i, (slot i).path = [.key key, .index i, .key inner]) :
    (alter members key (each fun i holder =>
        Error.within method (slot i) (resolveIn r inner holder))).map Json.obj =
      (Json.obj members).carryOut (((Json.obj members).elements key).zipIdx.flatMap fun x =>
        slotChanges r method (.obj members) (slot x.2)) := by
  refine alter_eq_carryOut hs (fun hn => by simp [Json.elements, Json.get?, hn]) fun v hg => ?_
  have hstep : (Json.obj members).step? (.key key) = some v := hg
  cases v with
  | arr items =>
    have hitem : ∀ i x, items[i]? = some x →
        Error.within method (slot i) (resolveIn r inner x) = x.carryOut
          (changeAt r (fun e => .inMethod method (slot i) (.schema e)) x [.key inner]) :=
      fun i x hx => resolveIn_eq_carryOut method (slot i)
        (Json.sortedHere_of_ordered (Json.every_arr.mp (hv _ hg) x (List.mem_of_getElem? hx))) inner
    have helements : (Json.obj members).elements key = items := by
      simp [Json.elements, Json.get?, hg]
    refine ⟨_, eachFrom_eq_carryOut _ [] items fun i x hx _ => hitem i x hx, ?_⟩
    rw [helements, List.map_flatMap]
    refine List.flatMap_congr fun x hx => ?_
    have hx : (Json.arr items).step? (.index x.2) = some x.1 := List.mem_zipIdx_iff_getElem?.mp hx
    rw [slotChanges, hpath, changeAt_cons hstep, changeAt_cons hx]
  | null | bool | num | str | obj =>
    exact ⟨[], rfl, by simp [Json.elements, Json.get?, hg]⟩

theorem alter_result_eq_carryOut {members : Json.Members} (hs : Dict.Sorted members)
    (method : String) (hv : ∀ v, Dict.get? members "result" = some v → v.Ordered) :
    (alter members "result" fun result =>
        Error.within method .result (resolveIn r "schema" result)).map Json.obj =
      (Json.obj members).carryOut (slotChanges r method (.obj members) .result) := by
  refine alter_eq_carryOut hs (fun hn => ?_) fun v hg => ?_
  · have hstep : (Json.obj members).step? (.key "result") = none := hn
    exact changeAt_cons_of_none hstep _
  have hstep : (Json.obj members).step? (.key "result") = some v := hg
  exact ⟨_, resolveIn_eq_carryOut method .result (Json.sortedHere_of_ordered (hv v hg)) "schema",
    changeAt_cons hstep _⟩

/-! What is below a key depends on the member under the key only. -/

theorem elements_congr {members out : Json.Members} {key : String}
    (h : Dict.get? out key = Dict.get? members key) :
    (Json.obj out).elements key = (Json.obj members).elements key := by
  simp only [Json.elements, Json.get?, h]

theorem slotChanges_congr {members out : Json.Members} {key : String} {path : Json.Path}
    (slot : Slot) (hp : slot.path = .key key :: path)
    (h : Dict.get? out key = Dict.get? members key) (method : String) :
    slotChanges r method (.obj out) slot = slotChanges r method (.obj members) slot := by
  have hstep : (Json.obj out).step? (.key key) = (Json.obj members).step? (.key key) := h
  have hat : (Json.obj out).at? slot.path = (Json.obj members).at? slot.path := by
    rw [hp, Json.at?, Json.at?, hstep]
  rw [slotChanges, slotChanges, changeAt, changeAt, hat]

/-- The parameters, the result and the errors change one after the other, and none of these changes
what the others see. -/
theorem expandMethod_eq_carryOut {definition : Json} (hobj : definition.isObject)
    (ho : definition.Ordered) :
    expandMethod r definition = definition.carryOut
      ((allSlots definition).flatMap (slotChanges r (nameOf definition) definition)) := by
  obtain ⟨members, rfl⟩ := Json.isObject_iff.mp hobj
  obtain ⟨hs, hmembers⟩ := Json.every_obj.mp ho
  generalize hname : nameOf (.obj members) = name
  have hvalue : ∀ {out : Json.Members} {key}, Dict.get? out key = Dict.get? members key →
      ∀ v, Dict.get? out key = some v → v.Ordered :=
    fun hg v hv => hmembers _ (Dict.mem_of_get? (hg ▸ hv))
  have hsplit : (allSlots (.obj members)).flatMap (slotChanges r name (.obj members)) =
      ((Json.obj members).elements "params").zipIdx.flatMap
          (fun x => slotChanges r name (.obj members) (.param x.2)) ++
        (slotChanges r name (.obj members) .result ++
          ((Json.obj members).elements "errors").zipIdx.flatMap
            (fun x => slotChanges r name (.obj members) (.error x.2))) := by
    simp [allSlots, List.flatMap_map]
  rw [expandMethod, hname, hsplit, Json.carryOut_append,
    ← alter_each_eq_carryOut hs name "params" "schema" .param (hvalue rfl) fun _ => rfl]
  cases hparams : alter members "params" (each fun i param =>
      Error.within name (.param i) (resolveIn r "schema" param)) with
  | error e => rfl
  | ok params =>
    obtain ⟨hsp, hkp⟩ := alter_keeps hs hparams
    have hgr := hkp "result" (by decide)
    simp only [Except.map, Except.bind, Except.monadBind_eq_bind]
    rw [Json.carryOut_append, ← slotChanges_congr .result rfl hgr name,
      ← alter_result_eq_carryOut hsp name (hvalue hgr)]
    cases hresult : alter params "result" fun result =>
        Error.within name .result (resolveIn r "schema" result) with
    | error e => rfl
    | ok result =>
      obtain ⟨hsr, hkr⟩ := alter_keeps hsp hresult
      have hge := (hkr "errors" (by decide)).trans (hkp "errors" (by decide))
      have herrors := @alter_each_eq_carryOut r _ hsr name "errors" "data" .error (hvalue hge)
        fun _ => rfl
      simp only [elements_congr hge, slotChanges_congr (.error _) rfl hge] at herrors
      simp only [Except.map, Except.bind]
      rw [← herrors]
      rfl

theorem map_slots (method : String) (definition : Json) :
    ((slots definition).map fun slot => (slot.path,
        (Schema.resolve ((definition.at? slot.path).getD .null) r).mapError fun e =>
          Error.inMethod method slot (.schema e))) =
      (allSlots definition).flatMap (slotChanges r method definition) := by
  unfold slots
  induction allSlots definition with
  | nil => rfl
  | cons slot rest ih =>
    rw [List.filter_cons, List.flatMap_cons, ← ih, slotChanges, changeAt]
    split <;> rfl

/-! Documents -/

theorem expandMethods_eq_eachFrom (i : Nat) (definitions : List Json) :
    expandMethods r definitions = eachFrom i (fun _ d => expandMethod r d) definitions := by
  induction definitions generalizing i with
  | nil => rfl
  | cons d definitions ih => rw [expandMethods, eachFrom, ih (i + 1)]

theorem expandMethods_eq_carryOut {definitions : List Json}
    (h : ∀ d ∈ definitions, d.isObject ∧ d.Ordered) :
    (expandMethods r definitions).map Json.arr = (Json.arr definitions).carryOut
      (definitions.zipIdx.flatMap fun d =>
        ((allSlots d.1).flatMap (slotChanges r (nameOf d.1) d.1)).map (under (.index d.2))) := by
  rw [expandMethods_eq_eachFrom 0]
  refine eachFrom_eq_carryOut (fun _ d => (allSlots d).flatMap (slotChanges r (nameOf d) d)) []
    definitions fun i d hd _ => ?_
  obtain ⟨hobj, ho⟩ := h d (List.mem_of_getElem? hd)
  exact expandMethod_eq_carryOut hobj ho

theorem expandSchemas_eq_carryOut (pre schemas : Dict Json) (h : Dict.Sorted (pre ++ schemas)) :
    (expandSchemas r schemas).map (fun out => .obj (pre ++ out)) =
      (Json.obj (pre ++ schemas)).carryOut (schemas.map fun m => ([.key m.1],
        (Schema.resolve m.2 r).mapError fun e => Error.inSchema m.1 (.schema e))) := by
  induction schemas generalizing pre with
  | nil => rfl
  | cons m schemas ih =>
    obtain ⟨name, v⟩ := m
    have hg : (Json.obj (pre ++ (name, v) :: schemas)).step? (.key name) = some v :=
      Dict.get?_of_mem h.nodup (by simp)
    rw [List.map_cons, Json.carryOut_cons, expandSchemas]
    cases Schema.resolve v r with
    | error e => rfl
    | ok w =>
      have hput : (Json.obj (pre ++ (name, v) :: schemas)).put [.key name] w =
          .obj ((pre ++ [(name, w)]) ++ schemas) := by
        rw [Json.put_cons hg, Json.putStep, Dict.insert_append h.lt_of_append, Dict.insert,
          if_neg (String.lt_irrefl _), if_pos rfl]
        simp [Json.put]
      have hsorted : Dict.Sorted ((pre ++ [(name, w)]) ++ schemas) :=
        h.of_keys_eq (by simp [Dict.keys])
      simp only [Except.mapError, Except.bind, Schema.Error.lift, Except.monadBind_eq_bind]
      refine Eq.trans ?_ (hput ▸ ih _ hsorted)
      cases expandSchemas r schemas <;> simp [Except.map]

section

variable {base : Json.Members} {methods schemas : Json} (hb : Dict.Sorted base)

include hb

theorem sortedHere_documentWith : (documentWith base methods schemas).SortedHere := by
  intro members h
  rw [← Json.obj.inj h]
  exact Dict.sorted_insert (Dict.sorted_insert hb _ _) _ _

theorem putStep_components (schemas' : Json) :
    (documentWith base methods schemas).putStep (.key "components") (.obj [("schemas", schemas')]) =
      documentWith base methods schemas' := by
  have hsorted : (Json.obj (Dict.insert base "methods" methods)).SortedHere :=
    fun _ h => Json.obj.inj h ▸ Dict.sorted_insert hb _ _
  show ((Json.obj (Dict.insert base "methods" methods)).putStep (.key "components") _).putStep
    (.key "components") _ = _
  rw [Json.putStep_putStep hsorted]
  rfl

theorem putStep_methods (methods' : Json) :
    (documentWith base methods schemas).putStep (.key "methods") methods' =
      documentWith base methods' schemas := by
  have hs := fun methods => Dict.sorted_insert (Dict.sorted_insert hb "methods" methods)
    "components" (.obj [("schemas", schemas)])
  refine congrArg Json.obj ((Dict.sorted_insert (hs methods) _ _).ext (hs methods') fun key => ?_)
  simp only [Dict.get?_insert]
  by_cases hm : "methods" = key
  · subst hm
    simp
  · simp [hm]

theorem carryOut_documentWith (changes changes' : List Change) :
    (documentWith base methods schemas).carryOut
        ((changes.map (under (.key "schemas"))).map (under (.key "components")) ++
          changes'.map (under (.key "methods"))) =
      (schemas.carryOut changes).bind fun s =>
        (methods.carryOut changes').map fun m => documentWith base m s := by
  have hschemas : (Json.obj [("schemas", schemas)]).SortedHere := by
    simp [Json.SortedHere, Dict.Sorted]
  rw [Json.carryOut_append,
    Json.carryOut_under (sortedHere_documentWith hb) step?_documentWith_components,
    Json.carryOut_under hschemas step?_schemas]
  cases schemas.carryOut changes with
  | error e => rfl
  | ok s =>
    have hput : (Json.obj [("schemas", schemas)]).putStep (.key "schemas") s =
        .obj [("schemas", s)] := by
      simp [Json.putStep, Dict.insert]
    simp only [Except.map, Except.bind, hput, putStep_components hb]
    rw [Json.carryOut_under (sortedHere_documentWith hb) step?_documentWith_methods]
    cases methods.carryOut changes' <;> simp [Except.map, putStep_methods hb]

end

/-- In order, the schemas are the repository that is made of them. -/
theorem WellFormed.repository_eq {a : Assembly} (h : a.WellFormed) :
    a.repository = .ok ⟨a.schemas⟩ := by
  rw [Assembly.repository, Repository.ofFragment_of_isObject h.schemas,
    Dict.ofList_of_sorted (Json.every_obj.mp h.ordered).1]
  rfl

/-- What is put at the places of the document. -/
def changes (a : Assembly) : List Change :=
  a.places.map fun p => (p.path, (Schema.resolve (a.schemaAt p) ⟨a.schemas⟩).mapError p.report)

theorem changes_eq {a : Assembly} (h : Dict.Sorted a.schemas) :
    a.changes =
      ((a.schemas.map fun m => ([.key m.1], (Schema.resolve m.2 ⟨a.schemas⟩).mapError fun e =>
          Error.inSchema m.1 (.schema e))).map (under (.key "schemas"))).map
            (under (.key "components")) ++
        (a.methods.zipIdx.flatMap fun d => ((allSlots d.1).flatMap
          (slotChanges ⟨a.schemas⟩ (nameOf d.1) d.1)).map (under (.index d.2))).map
            (under (.key "methods")) := by
  rw [changes, places, List.map_append, List.map_map, List.map_map, List.map_map, List.map_flatMap,
    List.map_flatMap]
  congr 1
  · refine List.map_congr_left fun m hm => ?_
    simp only [Function.comp_apply, schemaAt_component h hm]
    rfl
  · refine List.flatMap_congr fun d hd => ?_
    have hd : a.methods[d.2]? = some d.1 := List.mem_zipIdx_iff_getElem?.mp hd
    rw [← map_slots, List.map_map, List.map_map, List.map_map]
    refine List.map_congr_left fun slot _ => ?_
    simp only [Function.comp_apply, schemaAt_slot hd]
    rfl

/-- Expanding puts the places of the document anew, in their order. -/
theorem expand_eq_carryOut {a : Assembly} (h : a.WellFormed) (hb : Dict.Sorted a.base) :
    a.expand = a.document.carryOut a.changes := by
  have hs := (Json.every_obj.mp h.ordered).1
  rw [expand, h.repository_eq, changes_eq hs, document_eq, carryOut_documentWith hb,
    ← expandMethods_eq_carryOut h.methods]
  have hschemas := expandSchemas_eq_carryOut (r := ⟨a.schemas⟩) [] a.schemas hs
  simp only [List.nil_append] at hschemas
  rw [← hschemas]
  show (expandSchemas ⟨a.schemas⟩ a.schemas).bind _ = _
  cases expandSchemas ⟨a.schemas⟩ a.schemas with
  | error e => rfl
  | ok schemas =>
    show (expandMethods ⟨a.schemas⟩ a.methods).bind _ = _
    cases expandMethods ⟨a.schemas⟩ a.methods <;> rfl

/-- A document with the schemas at all places resolved and everything else as it was. -/
structure Replaces (a : Assembly) (expanded : Json) : Prop where
  put : ∃ done : List (Json.Path × Json),
    List.Forall₂ (fun p d => d.1 = p.path ∧ Schema.resolve (a.schemaAt p) ⟨a.schemas⟩ = .ok d.2)
      a.places done ∧ expanded = a.document.putAll done
  place : ∀ p ∈ a.places, ∃ w, Schema.resolve (a.schemaAt p) ⟨a.schemas⟩ = .ok w ∧
    expanded.at? p.path = some w ∧ w.Lacks Reference.key ∧ w.Lacks Schema.allOfKey
  apart : ∀ path, (∀ p ∈ a.places, Json.Apart p.path path) →
    expanded.at? path = a.document.at? path
  /-- Above the places, there is as much as there was. -/
  above : ∀ path, (∀ p ∈ a.places, ¬ p.path <+: path) →
    (expanded.at? path).isSome = (a.document.at? path).isSome

theorem expand_eq_ok_iff {a : Assembly} (h : a.WellFormed) (hb : Dict.Sorted a.base)
    {expanded : Json} :
    a.expand = .ok expanded ↔ ∃ done : List (Json.Path × Json),
      List.Forall₂ (fun p d => d.1 = p.path ∧ Schema.resolve (a.schemaAt p) ⟨a.schemas⟩ = .ok d.2)
        a.places done ∧ expanded = a.document.putAll done := by
  rw [expand_eq_carryOut h hb, Json.carryOut_eq_ok_iff, changes]
  simp only [List.forall₂_map_left_iff, Except.mapError_eq_ok_iff]

theorem replaces_of_expand {a : Assembly} (h : a.WellFormed) (hb : Dict.Sorted a.base)
    {expanded : Json} (he : a.expand = .ok expanded) : a.Replaces expanded := by
  obtain ⟨done, hdone, rfl⟩ := (expand_eq_ok_iff h hb).mp he
  have hfrom : ∀ d ∈ done, ∃ p ∈ a.places, d.1 = p.path := fun d hd =>
    (exists_left_of_forall₂ hdone hd).imp fun _ hp => ⟨hp.1, hp.2.1⟩
  refine ⟨⟨done, hdone, rfl⟩, fun p hp => ?_, fun path hpath => ?_, fun path hpath => ?_⟩
  · have hpaths : done.map Prod.fst = a.places.map Place.path := by
      refine List.forall₂_eq_eq_eq ▸ ?_
      rw [List.forall₂_map_left_iff, List.forall₂_map_right_iff]
      exact hdone.flip.imp fun _ _ hd => hd.1
    have hapart : done.Pairwise fun c d => Json.Apart c.1 d.1 := by
      have hplaces := pairwise_places (Json.every_obj.mp h.ordered).1
      rw [← List.pairwise_map (f := Place.path), ← hpaths] at hplaces
      exact List.pairwise_map.mp hplaces
    obtain ⟨d, hd, hpath, hres⟩ := exists_right_of_forall₂ hdone hp
    have hat := Json.at?_putAll_of_mem hapart (v := a.document) ?_ hd
    · exact ⟨d.2, hres, hpath ▸ hat, Schema.resolve_lacks_reference hres,
        Schema.resolve_lacks_allOf hres⟩
    · intro c hc
      obtain ⟨q, hq, hcq⟩ := hfrom c hc
      obtain ⟨⟨members, hmembers⟩, -⟩ := (mem_places_iff h).mp hq
      rw [hcq, hmembers]
      rfl
  · refine Json.at?_putAll_of_apart fun d hd => ?_
    obtain ⟨p, hp, hdp⟩ := hfrom d hd
    exact hdp ▸ hpath p hp
  · refine Json.isSome_at?_putAll fun d hd => ?_
    obtain ⟨p, hp, hdp⟩ := hfrom d hd
    exact hdp ▸ hpath p hp

theorem expand_eq_error_iff {a : Assembly} (h : a.WellFormed) (hb : Dict.Sorted a.base)
    {e : Error} :
    a.expand = .error e ↔ ∃ before p after cause, a.places = before ++ p :: after ∧
      (∀ q ∈ before, ∃ w, Schema.resolve (a.schemaAt q) ⟨a.schemas⟩ = .ok w) ∧
      Schema.resolve (a.schemaAt p) ⟨a.schemas⟩ = .error cause ∧ e = p.report cause := by
  rw [expand_eq_carryOut h hb, Json.carryOut_eq_error_iff, changes]
  constructor
  · rintro ⟨before, change, after, hsplit, hbefore, hchange⟩
    obtain ⟨before, rest, hplaces, rfl, hrest⟩ := List.map_eq_append_iff.mp hsplit
    obtain ⟨p, after, rfl, rfl, rfl⟩ := List.map_eq_cons_iff.mp hrest
    obtain ⟨cause, hcause, rfl⟩ := Except.mapError_eq_error_iff.mp hchange
    refine ⟨before, p, after, cause, hplaces, fun q hq => ?_, hcause, rfl⟩
    obtain ⟨w, hw⟩ := hbefore _ (List.mem_map_of_mem hq)
    exact ⟨w, Except.mapError_eq_ok_iff.mp hw⟩
  · rintro ⟨before, p, after, cause, hplaces, hbefore, hcause, rfl⟩
    refine ⟨_, _, _, by rw [hplaces, List.map_append, List.map_cons], fun c hc => ?_, ?_⟩
    · obtain ⟨q, hq, rfl⟩ := List.mem_map.mp hc
      exact (hbefore q hq).imp fun _ hw => Except.mapError_eq_ok_iff.mpr hw
    · exact Except.mapError_eq_error_iff.mpr ⟨cause, hcause, rfl⟩

/-- Whatever was done to an assembler: in its expanded document the components and the objects in
the slots of its methods are resolved against the components, and nothing else differs from the
document. It does not expand where one of them does not resolve, and what is told is about the first
of them, components by name before methods in order. -/
theorem expand_replaces (ops : List Operation) :
    let a := run ops
    Dict.Sorted a.schemas ∧
      (∀ p, p ∈ a.places ↔ (∃ members, a.document.at? p.path = some (.obj members)) ∧
        ∀ i method slot, p = .slot i method slot → a.methods[i]?.map nameOf = some method) ∧
      (∀ expanded, a.expand = .ok expanded → a.Replaces expanded) ∧
      ((∃ e, a.expand = .error e) ↔
        ∃ p ∈ a.places, ∃ cause, Schema.resolve (a.schemaAt p) ⟨a.schemas⟩ = .error cause) ∧
      ∀ e, a.expand = .error e ↔ ∃ before p after cause, a.places = before ++ p :: after ∧
        (∀ q ∈ before, ∃ w, Schema.resolve (a.schemaAt q) ⟨a.schemas⟩ = .ok w) ∧
        Schema.resolve (a.schemaAt p) ⟨a.schemas⟩ = .error cause ∧ e = p.report cause := by
  intro a
  have h : a.WellFormed := wellFormed_run ops
  have hb : Dict.Sorted a.base := (Json.every_obj.mp (ordered_base ops)).1
  refine ⟨(Json.every_obj.mp h.ordered).1, fun p => mem_places_iff h,
    fun expanded => replaces_of_expand h hb, ⟨?_, ?_⟩, fun e => expand_eq_error_iff h hb⟩
  · rintro ⟨e, he⟩
    obtain ⟨before, p, after, cause, hplaces, -, hcause, -⟩ := (expand_eq_error_iff h hb).mp he
    exact ⟨p, by simp [hplaces], cause, hcause⟩
  · rintro ⟨p, hp, cause, hcause⟩
    cases he : a.expand with
    | error e => exact ⟨e, rfl⟩
    | ok expanded =>
      obtain ⟨w, hw, -⟩ := (replaces_of_expand h hb he).place p hp
      cases hcause.symm.trans hw

/-- What is no object is no place. Of a parameter and a result that refer to nothing, the parameter
is told about. -/
example :
    let nowhere := Json.obj [("schema", .obj [("$ref", .str "#/components/schemas/Nowhere")])]
    let lookup := Json.obj [("name", .str "lookup"),
      ("params", .arr [.obj [("schema", .bool true)], nowhere]), ("result", nowhere)]
    let a : Assembly := ⟨template, [.obj [], lookup], [("Text", .obj [("type", .str "string")])]⟩
    a.places = [.component "Text", .slot 1 "lookup" (.param 1), .slot 1 "lookup" .result] ∧
      a.expand = .error (.inMethod "lookup" (.param 1)
        (.schema ⟨[], .schemaNotFound "#/components/schemas/Nowhere"⟩)) := by
  refine ⟨by decide +zetaReduce, ?_⟩
  cbv

end OpenRpc.Assembly

end RpcContract
