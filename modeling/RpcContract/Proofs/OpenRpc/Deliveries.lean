import RpcContract.Proofs.OpenRpc.Accepted
import RpcContract.Proofs.OpenRpc.InPlace

/-! Fragments one after another. A fragment is added as a whole or it changes nothing; in a sequence
of them only the order of the methods counts, and that of the schemas. -/

namespace RpcContract.OpenRpc

namespace Addition

/-- How many definitions there are. -/
def size (x : Addition) : Nat := x.definitions.length + x.schemas.length

theorem of_ofMethods {fragment : Json} {x : Addition} (h : ofMethods fragment = some x) :
    ∃ definitions, fragment = .arr definitions ∧ (∀ d ∈ definitions, d.isObject) ∧
      x = ⟨definitions, []⟩ := by
  unfold ofMethods at h
  split at h
  · next definitions =>
    split at h
    · next hall => exact ⟨definitions, rfl, hall, (Option.some.inj h).symm⟩
    · cases h
  · cases h

theorem of_ofSchemas {fragment : Json} {x : Addition} (h : ofSchemas fragment = some x) :
    ∃ members, fragment = .obj members ∧ (∀ m ∈ members, m.2.isObject) ∧ x = ⟨[], members⟩ := by
  unfold ofSchemas at h
  split at h
  · next members =>
    split at h
    · next hall => exact ⟨members, rfl, hall, (Option.some.inj h).symm⟩
    · cases h
  · cases h

end Addition

namespace Delivery

/-- What is added; none where the text cannot be read, the fragment has not the shape, or something
in it is no object. -/
def accepted? : Delivery → Option Addition
  | methods source => source.read?.bind Addition.ofMethods
  | schemas source => source.read?.bind Addition.ofSchemas

def addition (d : Delivery) : Addition := d.accepted?.getD .empty

end Delivery

namespace Assembly

/-- The assembler after a delivery in place. -/
def receive (a : Assembly) (d : Delivery) : Assembly :=
  match d.perform.run a with
  | .ok _ a' => a'
  | .error _ a' => a'

theorem Grows.mapError {ε ε' : Type} {a : Assembly} {o : Option Addition}
    {result : Except ε (Assembly × Nat)} (h : a.Grows o result) (f : ε → ε') :
    a.Grows o (result.mapError f) := by
  cases h with
  | refused e => exact .refused (f e)
  | grown x n => exact .grown x n

theorem answer_grows (a : Assembly) (d : Delivery) : a.Grows d.accepted? (a.answer d) := by
  cases d with
  | methods source =>
    cases source with
    | value fragment => exact (addMethods_grows a fragment).mapError _
    | text text => exact grows_addText (addMethods_grows a) text
  | schemas source =>
    cases source with
    | value fragment => exact (addSchemas_grows a fragment).mapError _
    | text text => exact grows_addText (addSchemas_grows a) text

theorem receive_eq (a : Assembly) (d : Delivery) : a.receive d = a.grow d.addition := by
  have hafter : a.receive d = a.after (a.answer d) := by
    rw [receive, run_perform]
    cases a.answer d <;> rfl
  exact hafter.trans (answer_grows a d).after

/-! One delivery -/

theorem answer_of_refused {a : Assembly} {d : Delivery} (h : d.accepted? = none) :
    ∃ e, a.answer d = .error e := by
  have hg := answer_grows a d
  rw [h] at hg
  generalize a.answer d = result at hg
  cases hg with
  | refused e => exact ⟨e, rfl⟩

theorem addMethods_of_accepted {fragment : Json} {x : Addition}
    (h : Addition.ofMethods fragment = some x) (a : Assembly) :
    a.addMethods fragment = .ok (a.grow x, x.size) := by
  obtain ⟨definitions, rfl, hall, rfl⟩ := Addition.of_ofMethods h
  have hnone := badMethod?_eq_none_iff (i := 0).mpr hall
  simp [addMethods, hnone, grow, Addition.size]

theorem addSchemas_of_accepted {fragment : Json} {x : Addition}
    (h : Addition.ofSchemas fragment = some x) (a : Assembly) :
    a.addSchemas fragment = .ok (a.grow x, x.size) := by
  obtain ⟨members, rfl, hall, rfl⟩ := Addition.of_ofSchemas h
  have hnone : members.find? (fun m => !m.2.isObject) = none := by simpa using hall
  simp [addSchemas, hnone, grow, Addition.size]

theorem addText_of_read {α : Type} {add : Json → Except Fragment.Fault α} {content : String}
    {fragment : Json} {added : α} (hread : Json.ofYaml? content = some fragment)
    (h : add fragment = .ok added) : addText add content = .ok added := by
  simp only [addText, hread, h, Except.mapError]

theorem answer_of_accepted {d : Delivery} {x : Addition} (h : d.accepted? = some x)
    (a : Assembly) : a.answer d = .ok (a.grow x, x.size) := by
  cases d with
  | methods source =>
    obtain ⟨fragment, hread, hx⟩ := Option.bind_eq_some_iff.mp h
    have ho := addMethods_of_accepted hx a
    cases source with
    | value => exact Except.mapError_eq_ok_iff.mpr (Option.some.inj hread ▸ ho)
    | text content => exact addText_of_read hread ho
  | schemas source =>
    obtain ⟨fragment, hread, hx⟩ := Option.bind_eq_some_iff.mp h
    have ho := addSchemas_of_accepted hx a
    cases source with
    | value => exact Except.mapError_eq_ok_iff.mpr (Option.some.inj hread ▸ ho)
    | text content => exact addText_of_read hread ho

theorem get?_schemas_grow (a : Assembly) (x : Addition) (name : String) :
    Dict.get? (a.grow x).schemas name =
      (Dict.last? x.schemas name).or (Dict.get? a.schemas name) :=
  Dict.get?_foldl_insert a.schemas x.schemas name

/-! One delivery after another -/

theorem foldl_receive (a : Assembly) (ds : List Delivery) :
    ds.foldl receive a = a.grow
      ⟨ds.flatMap (·.addition.definitions), ds.flatMap (·.addition.schemas)⟩ := by
  have hgrow : ds.foldl receive a = (ds.map (·.addition)).foldl grow a := by
    rw [List.foldl_map]
    exact List.foldl_ext _ _ a fun a d _ => receive_eq a d
  rw [hgrow, foldl_grow, List.map_map, List.map_map]
  rfl

theorem definitions_of_schemas {d : Delivery} (h : ¬ d.isMethods) :
    d.addition.definitions = [] := by
  cases d with
  | methods source => exact absurd rfl h
  | schemas source =>
    cases ho : (Delivery.schemas source).accepted? with
    | none => simp [Delivery.addition, ho, Addition.empty]
    | some x =>
      obtain ⟨fragment, -, hx⟩ := Option.bind_eq_some_iff.mp ho
      obtain ⟨members, -, -, rfl⟩ := Addition.of_ofSchemas hx
      simp [Delivery.addition, ho]

theorem schemas_of_methods {d : Delivery} (h : d.isMethods) : d.addition.schemas = [] := by
  cases d with
  | schemas source => cases h
  | methods source =>
    cases ho : (Delivery.methods source).accepted? with
    | none => simp [Delivery.addition, ho, Addition.empty]
    | some x =>
      obtain ⟨fragment, -, hx⟩ := Option.bind_eq_some_iff.mp ho
      obtain ⟨definitions, -, -, rfl⟩ := Addition.of_ofMethods hx
      simp [Delivery.addition, ho]

theorem flatMap_filter_of_nil {α β : Type} {p : α → Bool} {f : α → List β}
    (h : ∀ a, ¬ p a → f a = []) (as : List α) : (as.filter p).flatMap f = as.flatMap f := by
  induction as with
  | nil => rfl
  | cons a as ih =>
    by_cases hp : p a
    · rw [List.filter_cons_of_pos hp, List.flatMap_cons, List.flatMap_cons, ih]
    · rw [List.filter_cons_of_neg hp, List.flatMap_cons, h a hp, ih, List.nil_append]

/-- Deliveries of methods and deliveries of schemas do not get in each other's way. -/
theorem foldl_receive_congr {ds es : List Delivery}
    (hmethods : ds.filter (·.isMethods) = es.filter (·.isMethods))
    (hschemas : ds.filter (!·.isMethods) = es.filter (!·.isMethods)) (a : Assembly) :
    ds.foldl receive a = es.foldl receive a := by
  have hdefinitions := fun cs : List Delivery =>
    flatMap_filter_of_nil (f := (·.addition.definitions))
      (fun d => definitions_of_schemas (d := d)) cs
  have hentries := fun cs : List Delivery =>
    flatMap_filter_of_nil (p := (!·.isMethods)) (f := (·.addition.schemas))
      (fun d hd => schemas_of_methods (d := d) (by simpa using hd)) cs
  rw [foldl_receive, foldl_receive, ← hdefinitions ds, ← hentries ds, hmethods, hschemas,
    hdefinitions, hentries]

/-- A fragment that cannot be read, has not the right shape or holds anything but objects is
answered by an error, and no trace of it is left in the assembler. Any other one is added as a whole
and counted: methods at the end, and schemas under their names. So a sequence of fragments adds what
each of them would, and it ends in the same document however methods and schemas alternate in it. -/
theorem deliveries_add_all_or_nothing :
    (∀ (a : Assembly) d, d.accepted? = none →
      ∃ e, a.answer d = .error e ∧ d.perform.run a = .error e a) ∧
    (∀ (a : Assembly) d x, d.accepted? = some x → ∃ a' : Assembly,
      a.answer d = .ok (a', x.size) ∧ d.perform.run a = .ok x.size a' ∧ a'.base = a.base ∧
        a'.methods = a.methods ++ x.definitions ∧
        ∀ name, Dict.get? a'.schemas name =
          (Dict.last? x.schemas name).or (Dict.get? a.schemas name)) ∧
    (∀ (a : Assembly) (ds : List Delivery),
      (ds.foldl receive a).methods = a.methods ++ ds.flatMap (·.addition.definitions) ∧
        ∀ name, Dict.get? (ds.foldl receive a).schemas name =
          (Dict.last? (ds.flatMap (·.addition.schemas)) name).or (Dict.get? a.schemas name)) ∧
    ∀ (a : Assembly) (ds es : List Delivery),
      ds.filter (·.isMethods) = es.filter (·.isMethods) →
      ds.filter (!·.isMethods) = es.filter (!·.isMethods) →
      (ds.foldl receive a).document = (es.foldl receive a).document := by
  refine ⟨fun a d h => ?_, fun a d x h => ?_, fun a ds => ?_, fun a ds es hmethods hschemas => ?_⟩
  · obtain ⟨e, he⟩ := answer_of_refused (a := a) h
    refine ⟨e, he, ?_⟩
    rw [run_perform, he]
    rfl
  · have hanswer := answer_of_accepted h a
    refine ⟨a.grow x, hanswer, ?_, rfl, rfl, get?_schemas_grow a x⟩
    rw [run_perform, hanswer]
    rfl
  · rw [foldl_receive]
    exact ⟨rfl, get?_schemas_grow a _⟩
  · rw [foldl_receive_congr hmethods hschemas]

/-- Of a fragment with something in it that is no object, what stands before that is not added
either. -/
example :
    let schema := Json.obj [("type", .str "string")]
    let a : Assembly := ⟨template, [], [("A", .obj [])]⟩
    [Delivery.schemas (.value (.obj [("A", schema), ("B", .null)])),
      .methods (.value (.arr [.obj [], .null])),
      .methods (.value (.arr [.obj []]))].foldl receive a =
        ⟨template, [.obj []], [("A", .obj [])]⟩ := by
  decide +kernel

end Assembly

end RpcContract.OpenRpc
