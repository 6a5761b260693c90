import RpcContract.OpenRpc.Loading
import RpcContract.Proofs.Schema.Repository
import RpcContract.Proofs.Yaml.Ordered

/-! Runs of an assembler. Whatever is done to it, and whatever of that fails, it holds objects only,
and their names are in order. -/

namespace RpcContract.OpenRpc

/-- What is done to an assembler. A fragment is given as a value, as a text or in files. -/
inductive Operation where
  | withInfo (info : Info)
  | addMethods (fragment : Json) (ordered : fragment.Ordered)
  | addSchemas (fragment : Json) (ordered : fragment.Ordered)
  | addMethodsText (text : String)
  | addSchemasText (text : String)
  | loadMethods (disk : Disk) (inputs : List String)
  | loadSchemas (disk : Disk) (inputs : List String)
  | sort

namespace Assembly

/-- An addition that fails leaves the assembler as it was. -/
def after {ε : Type} (a : Assembly) : Except ε (Assembly × Nat) → Assembly
  | .ok (a', _) => a'
  | .error _ => a

def apply (a : Assembly) : Operation → Assembly
  | .withInfo info => a.withInfo info
  | .addMethods fragment _ => a.after (a.addMethods fragment)
  | .addSchemas fragment _ => a.after (a.addSchemas fragment)
  | .addMethodsText text => a.after (a.addMethodsText text)
  | .addSchemasText text => a.after (a.addSchemasText text)
  | .loadMethods disk inputs => (OpenRpc.loadMethods disk a inputs).1
  | .loadSchemas disk inputs => (OpenRpc.loadSchemas disk a inputs).1
  | .sort => a.sorted

/-- The assembler after operations on a new one. -/
def run (ops : List Operation) : Assembly := ops.foldl apply empty

structure WellFormed (a : Assembly) : Prop where
  methods : ∀ d ∈ a.methods, d.isObject ∧ d.Ordered
  schemas : ∀ m ∈ a.schemas, m.2.isObject
  ordered : (Json.obj a.schemas).Ordered

theorem wellFormed_empty : empty.WellFormed :=
  ⟨by simp [empty], by simp [empty], by simp [empty, Dict.Sorted]⟩

theorem badMethod?_eq_none_iff {i : Nat} {ds : List Json} :
    badMethod? i ds = none ↔ ∀ d ∈ ds, d.isObject := by
  induction ds generalizing i with
  | nil => simp [badMethod?]
  | cons d ds ih =>
    unfold badMethod?
    by_cases hd : d.isObject <;> simp [hd, ih]

namespace WellFormed

variable {a a' : Assembly} {n : Nat}

theorem addMethods (h : a.WellFormed) {fragment : Json} (hf : fragment.Ordered)
    (ho : a.addMethods fragment = .ok (a', n)) : a'.WellFormed := by
  unfold Assembly.addMethods at ho
  split at ho
  · next ds =>
    split at ho
    · cases ho
    · next hbad =>
      obtain ⟨rfl, -⟩ := Prod.mk.inj (Except.ok.inj ho)
      refine ⟨fun d hd => ?_, h.schemas, h.ordered⟩
      rcases List.mem_append.mp hd with hd | hd
      · exact h.methods d hd
      · exact ⟨badMethod?_eq_none_iff.mp hbad d hd, Json.every_arr.mp hf d hd⟩
  · cases ho

theorem addSchemas (h : a.WellFormed) {fragment : Json} (hf : fragment.Ordered)
    (ho : a.addSchemas fragment = .ok (a', n)) : a'.WellFormed := by
  unfold Assembly.addSchemas at ho
  split at ho
  · next members =>
    split at ho
    · cases ho
    · next hbad =>
      obtain ⟨rfl, -⟩ := Prod.mk.inj (Except.ok.inj ho)
      have hobj : ∀ m ∈ members, m.2.isObject := by simpa using hbad
      have hord := (Json.every_obj.mp hf).2
      have hschemas := Json.every_obj.mp h.ordered
      -- every schema is one from before or one of the fragment
      have hfold : ∀ m ∈ members.foldl (fun d m => Dict.insert d m.1 m.2) a.schemas,
          m ∈ a.schemas ∨ m ∈ members := fun m hm => Dict.mem_foldl_insert hm
      refine ⟨h.methods, fun m hm => ?_, .obj ?_ fun m hm => ?_⟩
      · exact (hfold m hm).elim (h.schemas m) (hobj m)
      · exact Dict.sorted_foldl_insert hschemas.1 members
      · exact (hfold m hm).elim (hschemas.2 m) (hord m)
  · cases ho

theorem sorted (h : a.WellFormed) : a.sorted.WellFormed :=
  ⟨fun d hd => h.methods d (List.mem_mergeSort.mp hd), h.schemas, h.ordered⟩

theorem after {ε : Type} (h : a.WellFormed) {x : Except ε (Assembly × Nat)}
    (hx : ∀ {a' n}, x = .ok (a', n) → a'.WellFormed) : (a.after x).WellFormed := by
  unfold Assembly.after
  split
  · exact hx rfl
  · exact h

theorem addMethodsText (h : a.WellFormed) {text : String}
    (ho : a.addMethodsText text = .ok (a', n)) : a'.WellFormed := by
  unfold Assembly.addMethodsText addText at ho
  split at ho
  · cases ho
  · next fragment hy =>
    exact h.addMethods (Json.ordered_ofYaml hy) (Except.mapError_eq_ok_iff.mp ho)

theorem addSchemasText (h : a.WellFormed) {text : String}
    (ho : a.addSchemasText text = .ok (a', n)) : a'.WellFormed := by
  unfold Assembly.addSchemasText addText at ho
  split at ho
  · cases ho
  · next fragment hy =>
    exact h.addSchemas (Json.ordered_ofYaml hy) (Except.mapError_eq_ok_iff.mp ho)

section

variable {disk : Disk} {add : Assembly → String → Except Error (Assembly × Nat)}
  (hadd : ∀ {a a' text n}, WellFormed a → add a text = .ok (a', n) → WellFormed a')

include hadd

theorem addFiles (h : a.WellFormed) (total : Nat) (paths : List String) :
    (addFiles disk add a total paths).1.WellFormed := by
  induction paths generalizing a total with
  | nil => exact h
  | cons path paths ih =>
    unfold OpenRpc.addFiles
    split
    · exact h
    · split
      · exact h
      · next ho => exact ih (hadd h (Except.mapError_eq_ok_iff.mp ho)) _

theorem load (h : a.WellFormed) (inputs : List String) :
    (load disk add a inputs).1.WellFormed := by
  unfold OpenRpc.load
  split
  · exact h
  · exact h.addFiles hadd 0 _

end

theorem apply (h : a.WellFormed) (op : Operation) : (a.apply op).WellFormed := by
  cases op with
  | withInfo info => exact ⟨h.methods, h.schemas, h.ordered⟩
  | addMethods fragment ordered => exact h.after (h.addMethods ordered)
  | addSchemas fragment ordered => exact h.after (h.addSchemas ordered)
  | addMethodsText text => exact h.after h.addMethodsText
  | addSchemasText text => exact h.after h.addSchemasText
  | loadMethods disk inputs => exact h.load (fun h => h.addMethodsText) inputs
  | loadSchemas disk inputs => exact h.load (fun h => h.addSchemasText) inputs
  | sort => exact h.sorted

end WellFormed

/-- The schemas of an assembler make a repository. -/
theorem WellFormed.repository {a : Assembly} (h : a.WellFormed) :
    ∃ r, a.repository = .ok r ∧ r.Ordered := by
  obtain ⟨r, hr⟩ := Repository.exists_ofFragment_iff.mpr h.schemas
  exact ⟨r, Except.mapError_eq_ok_iff.mpr hr, Repository.ordered_ofFragment h.ordered hr⟩

theorem wellFormed_run (ops : List Operation) : (run ops).WellFormed :=
  List.foldlRecOn ops apply (motive := WellFormed) wellFormed_empty fun _ h op _ => h.apply op

end Assembly

end RpcContract.OpenRpc
