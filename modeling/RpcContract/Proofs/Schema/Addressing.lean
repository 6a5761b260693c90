import RpcContract.Proofs.Json.Pointer
import RpcContract.Proofs.Schema.Dereferenced
import RpcContract.Proofs.Schema.Guard

/-! References to any place of a repository. Every object in a schema is denoted by a reference, but
for one under the empty key of the schema, whose pointer would be a slash alone; and a schema that
is such a reference and nothing else expands to what the object expands to. -/

namespace RpcContract

/-- The reference to what a path leads to in a schema. -/
def Reference.address (name : String) (path : Json.Path) : String := root ++ name ++ path.pointer

namespace Json

theorem escape_eq_nil_iff {cs : List Char} : escape cs = [] ↔ cs = [] := by
  fun_cases escape cs <;> simp

/-- Only a step by the empty key is written without letters after the slash. -/
theorem Step.written_eq_slash_iff {step : Step} : step.written = ['/'] ↔ step = .key "" := by
  rw [written, List.cons.injEq, escape_eq_nil_iff, String.toList_eq_nil_iff]
  cases step with
  | key name => simp [token]
  | index i => simp [token, Nat.repr_ne_empty]

theorem length_written_pos (step : Step) : 0 < step.written.length := by
  simp [Step.written]

theorem length_pointer_le_one_iff {path : Path} :
    (path.flatMap Step.written).length ≤ 1 ↔ path = [] ∨ path = [.key ""] := by
  cases path with
  | nil => simp
  | cons step path =>
    rw [List.flatMap_cons, List.length_append]
    have hpos := length_written_pos step
    have hrest : (path.flatMap Step.written).length = 0 ↔ path = [] := by
      cases path with
      | nil => simp
      | cons next path =>
        have := length_written_pos next
        simp only [List.flatMap_cons, List.length_append, reduceCtorEq, iff_false]
        omega
    have hstep : step.written.length = 1 ↔ step.written = ['/'] := by
      simp [Step.written]
    rw [Step.written_eq_slash_iff] at hstep
    simp only [reduceCtorEq, List.cons.injEq, false_or, ← hstep, ← hrest]
    omega

end Json

namespace Reference

theorem isPrefixOf?_append (p cs : List Char) : p.isPrefixOf? (p ++ cs) = some cs := by
  induction p with
  | nil => rfl
  | cons c p ih => simp [List.isPrefixOf?, ih]

/-- The name goes as far as the pointer. -/
theorem span_name {name : List Char} (hs : '/' ∉ name) (path : Json.Path) :
    (name ++ path.flatMap Json.Step.written).takeWhile (· ≠ '/') = name ∧
      (name ++ path.flatMap Json.Step.written).dropWhile (· ≠ '/') =
        path.flatMap Json.Step.written := by
  have hname : ∀ c ∈ name, decide (c ≠ '/') = true := by
    intro c hc
    simp only [decide_eq_true_eq]
    rintro rfl
    exact hs hc
  rw [List.takeWhile_append_of_pos hname, List.dropWhile_append_of_pos hname]
  cases path <;> simp [Json.Step.written]

theorem parse_address {name : String} (hne : name ≠ "") (hs : '/' ∉ name.toList) {path : Json.Path}
    (hp : path ≠ [.key ""]) :
    parse (address name path) = .ok ⟨name, if path = [] then none else some path.pointer⟩ := by
  obtain ⟨htake, hdrop⟩ := span_name hs path
  have htext : (address name path).toList =
      root.toList ++ (name.toList ++ path.flatMap Json.Step.written) := by
    simp [address, Json.Path.pointer]
  have hname : name.toList ≠ [] := fun h => hne (String.toList_eq_nil_iff.mp h)
  unfold parse
  rw [htext, isPrefixOf?_append]
  simp only [htake, hdrop, hname, reduceIte, Json.length_pointer_le_one_iff, hp, or_false,
    String.ofList_toList, Json.Path.pointer]

end Reference

theorem Repository.denoted?_address {r : Repository} {name : String} (hne : name ≠ "")
    (hs : '/' ∉ name.toList) {schema : Json} (hg : r.get? name = some schema) {path : Json.Path}
    (hp : path ≠ [.key ""]) {target : Json.Members} (ht : schema.at? path = some (.obj target)) :
    r.denoted? (Reference.address name path) = some target := by
  unfold denoted?
  rw [Reference.parse_address hne hs hp]
  simp only [hg, Option.bind_some]
  by_cases hpath : path = []
  · subst hpath
    obtain rfl : schema = .obj target := Option.some.inj ht
    rfl
  · simp only [hpath, reduceIte, Json.atPointer?_of_at? ht]
    rfl

namespace Schema

/-- An object that is nothing but a reference expands to what is denoted. -/
theorem expands_reference_iff {r : Repository} (hr : r.Ordered) {text : String}
    {target : Json.Members} (ht : r.denoted? text = some target) {result : Json} :
    Expands r (.obj [(Reference.key, .str text)]) result ↔ Expands r (.obj target) result := by
  have hget : Dict.get? [(Reference.key, Json.str text)] Reference.key = some (.str text) := by
    simp [Dict.get?_cons]
  have herase : Dict.keys (Dict.erase [(Reference.key, Json.str text)] Reference.key) = [] := by
    simp [Dict.erase]
  have hsorted : ∀ {base}, Expands r (.obj target) (.obj base) → Dict.Sorted base := by
    intro base hb
    have htarget := ordered_denoted hr ht
    have hresult := dereference_ordered htarget hr ((dereference_eq_ok_iff htarget hr).mpr hb)
    exact (Json.every_obj.mp hresult).1
  constructor
  · intro h
    cases h with
    | plain hn => rw [hget] at hn; cases hn
    | @reference _ own target' base out text' hn hk _ ht' hb ho =>
      obtain rfl := Json.str.inj (Option.some.inj (hget.symm.trans hn))
      obtain rfl := Option.some.inj (ht'.symm.trans ht)
      obtain rfl : own = [] := List.map_eq_nil_iff.mp (hk.trans herase)
      obtain rfl : out = base := ho.sorted.ext (hsorted hb) fun key => by simp [ho.get?]
      exact hb
  · intro h
    cases result with
    | obj base =>
      have hnone : Dict.keys ([] : Json.Members) =
          Dict.keys (Dict.erase [(Reference.key, Json.str text)] Reference.key) := herase.symm
      exact .reference hget hnone (by simp) ht h ⟨hsorted h, by simp⟩
    | null | bool | num | str | arr => cases h

/-- A reference to an object inside a schema is read as the name of the schema and the pointer to
the object, and a schema that consists of it expands exactly where the object does, to the same. The
pointer of the empty key alone is read as none, so that its object has no reference. -/
theorem dereference_address {r : Repository} (hr : r.Ordered) {name : String} (hne : name ≠ "")
    (hs : '/' ∉ name.toList) {schema : Json} (hg : r.get? name = some schema) {path : Json.Path}
    (hp : path ≠ [.key ""]) {target : Json.Members} (ht : schema.at? path = some (.obj target)) :
    Reference.parse (Reference.address name path) =
        .ok ⟨name, if path = [] then none else some path.pointer⟩ ∧
      ∀ result,
        dereference (.obj [(Reference.key, .str (Reference.address name path))]) r = .ok result ↔
          dereference (.obj target) r = .ok result := by
  have hdenoted := Repository.denoted?_address hne hs hg hp ht
  have hreference : (Json.obj [(Reference.key, .str (Reference.address name path))]).Ordered := by
    simp [Dict.Sorted]
  refine ⟨Reference.parse_address hne hs hp, fun result => ?_⟩
  rw [dereference_eq_ok_iff hreference hr, dereference_eq_ok_iff (ordered_denoted hr hdenoted) hr]
  exact expands_reference_iff hr hdenoted

/-- The tilde in a name stands for itself; in a key it is escaped, as is a slash. An empty key on a
longer path is a token like others. -/
theorem dereference_address_escaped :
    let leaf := Json.obj [("type", .str "string")]
    let target := [("$ref", Json.str "#/components/schemas/Leaf"), ("title", .str "own")]
    let schema := Json.obj [("anyOf", .arr [.null, .obj [("", .obj [("a/b~1", .obj target)])]])]
    let r : Repository := ⟨[("Leaf", leaf), ("N~1", schema)]⟩
    let path : Json.Path := [.key "anyOf", .index 1, .key "", .key "a/b~1"]
    let text := "#/components/schemas/N~1/anyOf/1//a~1b~01"
    let result := Json.obj [("title", .str "own"), ("type", .str "string")]
    r.Ordered ∧ r.get? "N~1" = some schema ∧ schema.at? path = some (.obj target) ∧
      Reference.address "N~1" path = text ∧
      Reference.parse text = .ok ⟨"N~1", some "/anyOf/1//a~1b~01"⟩ ∧
      dereference (.obj target) r = .ok result ∧
      dereference (.obj [("$ref", .str text)]) r = .ok result := by
  intro leaf target schema r path text result
  have hr : r.Ordered := by decide +zetaReduce
  have hg : r.get? "N~1" = some schema := by decide +zetaReduce
  have ht : schema.at? path = some (.obj target) := by rfl
  have htext : Reference.address "N~1" path = text := by decide +kernel +zetaReduce
  have hpointer : path.pointer = "/anyOf/1//a~1b~01" := by decide +kernel +zetaReduce
  have hresult : dereference (.obj target) r = .ok result := by decide +kernel +zetaReduce
  obtain ⟨hparse, hiff⟩ := dereference_address hr (by decide) (by decide) hg
    (show path ≠ [.key ""] by simp [path]) ht
  rw [htext] at hparse hiff
  rw [hpointer] at hparse
  exact ⟨hr, hg, ht, htext, hparse, hresult, (hiff result).mpr hresult⟩

end Schema

end RpcContract
