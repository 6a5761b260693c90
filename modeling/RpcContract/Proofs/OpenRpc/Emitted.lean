import RpcContract.OpenRpc.Emission
import RpcContract.Proofs.Files.Writing
import RpcContract.Proofs.OpenRpc.Failures
import RpcContract.Proofs.OpenRpc.Order

/-! What is made of an assembler, whatever was done to it before: the text of the one document that
holds what it accepted, with the methods in order, if nothing is wrong with that document. -/

namespace RpcContract.OpenRpc

/-- A call that may change an assembler. -/
inductive Call where
  | operation (op : Operation)
  /-- For the text of the document; it puts the methods in order before anything can fail. -/
  | text (inlined : Bool) (layout : Layout)

/-- What a call does to the assembler. -/
def Call.effect : Call → Operation
  | operation op => op
  | text _ _ => .sort

/-- The methods and the schemas of a document hold an addition and nothing more: every definition,
in order of the names and below one name as they were added, and of every schema the last. -/
structure Addition.Fills (x : Addition) (methods : List Json) (schemas : Dict Json) : Prop where
  perm : methods.Perm x.definitions
  ordered : methods.Pairwise fun d e => nameOf d ≤ nameOf e
  stable : ∀ name, methods.filter (nameOf · = name) = x.definitions.filter (nameOf · = name)
  sorted : Dict.Sorted schemas
  last : ∀ name, Dict.get? schemas name = Dict.last? x.schemas name

/-- An answer to a call for the text of a document, which is the document that was validated. -/
structure Answers (document : Json) (layout : Layout) (answer : Except Error String) : Prop where
  pretty : layout = .pretty → ∀ text,
    answer = .ok text ↔ violations document = [] ∧ text = document.pretty
  compact : layout = .compact → ∀ text,
    answer = .ok text ↔ violations document = [] ∧ text = document.compact
  invalid : violations document ≠ [] →
    answer = .error (.invalidSpec (violations document) document)
  /-- Where the document can be kept, it is. -/
  kept : ∀ e, answer = .error e → ∀ disk dir stamp,
    (∃ fault, disk.write (dumpPath dir stamp) document.pretty = .error fault ∧
      dump disk dir stamp e = disk) ∨
    (dump disk dir stamp e).read (dumpPath dir stamp) = .ok document.pretty

theorem Answers.exists_text_iff {document : Json} {layout : Layout} {answer : Except Error String}
    (h : Answers document layout answer) :
    (∃ text, answer = .ok text) ↔ violations document = [] := by
  cases layout with
  | pretty => simp [h.pretty]
  | compact => simp [h.compact]

theorem dump_invalidSpec (disk : Disk) (dir stamp : String) (vs : List String) (document : Json) :
    (∃ fault, disk.write (dumpPath dir stamp) document.pretty = .error fault ∧
      dump disk dir stamp (.invalidSpec vs document) = disk) ∨
    (dump disk dir stamp (.invalidSpec vs document)).read (dumpPath dir stamp) =
      .ok document.pretty := by
  unfold dump
  cases hw : disk.write (dumpPath dir stamp) document.pretty with
  | error fault => exact .inl ⟨fault, rfl, by simp only [hw]⟩
  | ok disk' =>
    right
    simp only [hw]
    exact Disk.read_write hw

/-- Nothing is kept where no document was made. -/
theorem dump_ofResolving {e : Error} (h : e.OfResolving) (disk : Disk) (dir stamp : String) :
    dump disk dir stamp e = disk := by
  cases h <;> rfl

namespace Assembly

/-- A document that is checked and then rendered is answered for. -/
theorem answers_check (document : Json) (layout : Layout) :
    Answers document layout ((check document).bind fun _ => .ok (layout.render document)) := by
  have hvalid : ∀ text, ((check document).bind fun _ => .ok (layout.render document)) = .ok text ↔
      violations document = [] ∧ text = layout.render document := by
    intro text
    unfold check
    cases violations document <;> simp [Except.bind, eq_comm]
  refine ⟨?_, ?_, fun h => ?_, fun e he => ?_⟩
  · rintro rfl
    exact hvalid
  · rintro rfl
    exact hvalid
  · obtain ⟨v, vs, hv⟩ := List.exists_cons_of_ne_nil h
    rw [check, hv]
    rfl
  · unfold check at he
    cases hv : violations document with
    | nil =>
      rw [hv] at he
      cases he
    | cons v vs =>
      rw [hv] at he
      cases he
      exact fun disk dir stamp => dump_invalidSpec disk dir stamp (v :: vs) document

theorem answers_serialize (a : Assembly) (layout : Layout) :
    Answers a.sorted.document layout (a.serialize layout) :=
  answers_check a.sorted.document layout

theorem serializeExpanded_of_error {a : Assembly} {e : Error} (h : a.sorted.expand = .error e)
    (layout : Layout) : a.serializeExpanded layout = .error e := by
  unfold serializeExpanded
  rw [h]
  rfl

theorem answers_serializeExpanded {a : Assembly} {document : Json}
    (h : a.sorted.expand = .ok document) (layout : Layout) :
    Answers document layout (a.serializeExpanded layout) := by
  unfold serializeExpanded
  rw [h]
  exact answers_check document layout

/-! A run of calls -/

def call (a : Assembly) (c : Call) : Assembly := a.apply c.effect

/-- A call that fails. Loading files is a call for each of them. -/
inductive Fails (a : Assembly) : Call → Prop where
  | methods {fragment : Json} {ordered : fragment.Ordered} {fault : Fragment.Fault}
      (h : a.addMethods fragment = .error fault) :
      Fails a (.operation (.addMethods fragment ordered))
  | schemas {fragment : Json} {ordered : fragment.Ordered} {fault : Fragment.Fault}
      (h : a.addSchemas fragment = .error fault) :
      Fails a (.operation (.addSchemas fragment ordered))
  | methodsText {text : String} {e : Error} (h : a.addMethodsText text = .error e) :
      Fails a (.operation (.addMethodsText text))
  | schemasText {text : String} {e : Error} (h : a.addSchemasText text = .error e) :
      Fails a (.operation (.addSchemasText text))
  | text {inlined : Bool} {layout : Layout} {e : Error} (h : a.text inlined layout = .error e) :
      Fails a (.text inlined layout)

/-- A call that fails changes the order of the methods at most. -/
theorem Fails.unchanged {a : Assembly} {c : Call} (h : a.Fails c) :
    (a.call c).schemas = a.schemas ∧ (a.call c).methods.Perm a.methods := by
  cases h with
  | methods h | schemas h | methodsText h | schemasText h =>
    simp only [call, Call.effect, apply, h, after]
    exact ⟨trivial, .refl _⟩
  | text h => exact ⟨rfl, List.mergeSort_perm _ _⟩

theorem fills_run (ops : List Operation) :
    (accepted ops).Fills (run ops).sorted.methods (run ops).sorted.schemas := by
  have hstable : ∀ name, (run ops).sorted.methods.filter (nameOf · = name) =
      (accepted ops).definitions.filter (nameOf · = name) :=
    fun name => (filter_sorted _ name).trans (methods_run ops name)
  refine ⟨perm_of_filter_name_eq hstable, pairwise_mergeSort_name _, hstable, ?_, fun name => ?_⟩
  · exact (schemas_run ops) ▸ Dict.sorted_ofList _
  · show Dict.get? (run ops).schemas name = _
    rw [schemas_run, Dict.ofList, Dict.get?_foldl_insert, Dict.get?_nil, Option.or_none]

theorem foldl_call (calls : List Call) :
    calls.foldl call empty = run (calls.map Call.effect) := by
  rw [run, List.foldl_map]
  rfl

/-- Whatever was called before, the document holds what was accepted and nothing more. Its text and
that of its expansion are given exactly if the schema of such documents is not violated; otherwise
the violations are reported, and the document that has them is the one that is kept. A call that
fails changes neither the schemas nor, but for their order, the methods. -/
theorem serialize_after_calls (calls : List Call) :
    let ops := calls.map Call.effect
    let a := calls.foldl call empty
    (∃ methods schemas, (accepted ops).Fills methods schemas ∧
      let base := ((ops.filterMap Operation.info?).foldl withInfo empty).base
      let filled : Assembly := ⟨base, methods, schemas⟩
      ∀ layout,
        Answers (documentOf base methods schemas) layout (a.serialize layout) ∧
        (∀ e, filled.expand = .error e → a.serializeExpanded layout = .error e ∧
          ∀ disk dir stamp, dump disk dir stamp e = disk) ∧
        ∀ document, filled.expand = .ok document →
          Answers document layout (a.serializeExpanded layout)) ∧
    ∀ c, a.Fails c → (a.call c).schemas = a.schemas ∧ (a.call c).methods.Perm a.methods := by
  intro ops a
  have ha : a = run ops := foldl_call calls
  refine ⟨⟨a.sorted.methods, a.sorted.schemas, ha ▸ fills_run ops, ?_⟩, fun c h => h.unchanged⟩
  intro base filled layout
  have hfilled : filled = a.sorted := by
    have hbase : base = a.sorted.base := by rw [ha]; exact (base_run ops).symm
    simp only [filled, hbase]
  refine ⟨?_, fun e he => ?_, fun document hd => ?_⟩
  · have hdocument : documentOf base a.sorted.methods a.sorted.schemas = a.sorted.document :=
      congrArg document hfilled
    rw [hdocument]
    exact answers_serialize a layout
  · rw [hfilled] at he
    exact ⟨serializeExpanded_of_error he layout, dump_ofResolving (expand_error he)⟩
  · rw [hfilled] at hd
    exact answers_serializeExpanded hd layout

/-- A method without parameters and result is accepted, and the document with it is not valid. That
the document fails takes the method away as little as a fragment does that is refused. -/
theorem serialize_after_calls_refused :
    let unfinished := Json.obj [("name", .str "b")]
    let add := Call.operation (.addMethods (.arr [unfinished]) (by decide))
    let refused := Call.operation (.addMethods (.arr [unfinished, .null]) (by decide))
    let serialize := Call.text false .compact
    let a := [add, serialize].foldl call empty
    a.Fails refused ∧ a.Fails serialize ∧ a.methods = [unfinished] ∧
      (a.call refused).methods.Perm [unfinished] ∧
      (a.call serialize).methods.Perm [unfinished] := by
  intro unfinished add refused serialize a
  have hmethods : a.methods = [unfinished] := List.mergeSort_singleton _
  have hsorted : a.sorted = ⟨template, [unfinished], []⟩ := by
    have hmethods' : a.sorted.methods = [unfinished] := by
      rw [sorted, hmethods]
      exact List.mergeSort_singleton _
    rw [← hmethods']
    rfl
  have hviolations : violations a.sorted.document ≠ [] := by
    rw [hsorted]
    decide +kernel
  have hrefused : a.Fails refused := .methods rfl
  have hserialize : a.Fails serialize := .text ((answers_serialize a .compact).invalid hviolations)
  have hunchanged := (serialize_after_calls [add, serialize]).2
  exact ⟨hrefused, hserialize, hmethods, hmethods ▸ (hunchanged _ hrefused).2,
    hmethods ▸ (hunchanged _ hserialize).2⟩

end Assembly

end RpcContract.OpenRpc
