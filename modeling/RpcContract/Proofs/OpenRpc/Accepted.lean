import RpcContract.Proofs.OpenRpc.Run

/-! What operations add. Whether a fragment is accepted depends on nothing but the fragment, so a
run adds what its operations add on their own; between names its order counts for nothing. -/

namespace RpcContract.OpenRpc

/-- Method definitions and named schemas in the order in which they are added. -/
structure Addition where
  definitions : List Json
  schemas : List (String × Json)
deriving DecidableEq

namespace Addition

def empty : Addition := ⟨[], []⟩

def append (x y : Addition) : Addition :=
  ⟨x.definitions ++ y.definitions, x.schemas ++ y.schemas⟩

/-- A sequence of objects adds them all, and any other value is refused. -/
def ofMethods : Json → Option Addition
  | .arr definitions => if ∀ d ∈ definitions, d.isObject then some ⟨definitions, []⟩ else none
  | _ => none

/-- A mapping to objects adds them all, and any other value is refused. -/
def ofSchemas : Json → Option Addition
  | .obj members => if ∀ m ∈ members, m.2.isObject then some ⟨[], members⟩ else none
  | _ => none

/-- Files add up to the first that cannot be read or is refused. -/
def ofFiles (disk : Disk) (accept : Json → Option Addition) : List String → Addition
  | [] => empty
  | path :: paths =>
    match disk.read path with
    | .error _ => empty
    | .ok text =>
      match (Json.ofYaml? text).bind accept with
      | none => empty
      | some addition => addition.append (ofFiles disk accept paths)

/-- Inputs add nothing if one of them is missing. -/
def ofInputs (disk : Disk) (accept : Json → Option Addition) (inputs : List String) : Addition :=
  match collectFragments disk inputs with
  | .error _ => empty
  | .ok paths => ofFiles disk accept paths

end Addition

/-- What an operation adds; nothing if it fails. -/
def Operation.addition : Operation → Addition
  | .addMethods fragment _ => (Addition.ofMethods fragment).getD .empty
  | .addSchemas fragment _ => (Addition.ofSchemas fragment).getD .empty
  | .addMethodsText text => ((Json.ofYaml? text).bind Addition.ofMethods).getD .empty
  | .addSchemasText text => ((Json.ofYaml? text).bind Addition.ofSchemas).getD .empty
  | .loadMethods disk inputs => .ofInputs disk Addition.ofMethods inputs
  | .loadSchemas disk inputs => .ofInputs disk Addition.ofSchemas inputs
  | .withInfo _ | .sort => .empty

def Operation.info? : Operation → Option Info
  | .withInfo info => some info
  | _ => none

/-- All that the operations of a run add. -/
def accepted (ops : List Operation) : Addition :=
  ⟨ops.flatMap fun op => op.addition.definitions, ops.flatMap fun op => op.addition.schemas⟩

namespace Assembly

/-- The assembler with an addition to it. -/
def grow (a : Assembly) (x : Addition) : Assembly :=
  { a with
    methods := a.methods ++ x.definitions
    schemas := x.schemas.foldl (fun d m => Dict.insert d m.1 m.2) a.schemas }

@[simp] theorem grow_empty (a : Assembly) : a.grow .empty = a := by
  simp [grow, Addition.empty]

theorem grow_append (a : Assembly) (x y : Addition) :
    a.grow (x.append y) = (a.grow x).grow y := by
  simp [grow, Addition.append, List.foldl_append]

theorem foldl_grow (a : Assembly) (xs : List Addition) :
    xs.foldl grow a =
      a.grow ⟨(xs.map (·.definitions)).flatten, (xs.map (·.schemas)).flatten⟩ := by
  induction xs generalizing a with
  | nil => exact (grow_empty a).symm
  | cons x xs ih =>
    rw [List.foldl_cons, ih, ← grow_append]
    rfl

/-! What one operation does -/

/-- What comes of adding a fragment: an error if it is refused, and the grown assembler if not. -/
inductive Grows {ε : Type} (a : Assembly) :
    Option Addition → Except ε (Assembly × Nat) → Prop where
  | refused (e : ε) : Grows a none (.error e)
  | grown (x : Addition) (n : Nat) : Grows a (some x) (.ok (a.grow x, n))

theorem addMethods_grows (a : Assembly) (fragment : Json) :
    a.Grows (Addition.ofMethods fragment) (a.addMethods fragment) := by
  cases fragment with
  | arr definitions =>
    unfold addMethods Addition.ofMethods
    by_cases hall : ∀ d ∈ definitions, d.isObject
    · simp only [badMethod?_eq_none_iff.mpr hall, if_pos hall]
      exact .grown ⟨definitions, []⟩ _
    · rw [← badMethod?_eq_none_iff (i := 0), ← ne_eq, Option.ne_none_iff_exists'] at hall
      obtain ⟨⟨i, d⟩, hbad⟩ := hall
      have hne : ¬ ∀ d ∈ definitions, d.isObject := by
        rw [← badMethod?_eq_none_iff (i := 0), hbad]
        simp
      simp only [hbad, if_neg hne]
      exact .refused _
  | null | bool | num | str | obj => exact .refused _

theorem addSchemas_grows (a : Assembly) (fragment : Json) :
    a.Grows (Addition.ofSchemas fragment) (a.addSchemas fragment) := by
  cases fragment with
  | obj members =>
    unfold addSchemas Addition.ofSchemas
    by_cases hall : ∀ m ∈ members, m.2.isObject
    · have hnone : members.find? (fun m => !m.2.isObject) = none := by simpa using hall
      have hgrown := Grows.grown (ε := Fragment.Fault) (a := a) ⟨[], members⟩ members.length
      simp only [hnone, if_pos hall]
      simpa [grow] using hgrown
    · cases hbad : members.find? (fun m => !m.2.isObject) with
      | none => exact absurd (by simpa using hbad) hall
      | some m =>
        simp only [hbad, if_neg hall]
        exact .refused _
  | null | bool | num | str | arr => exact .refused _

theorem grows_addText {a : Assembly} {add : Json → Except Fragment.Fault (Assembly × Nat)}
    {accept : Json → Option Addition} (h : ∀ fragment, a.Grows (accept fragment) (add fragment))
    (text : String) : a.Grows ((Json.ofYaml? text).bind accept) (addText add text) := by
  unfold addText
  cases Json.ofYaml? text with
  | none => exact .refused _
  | some fragment =>
    have hfragment := h fragment
    simp only [Option.bind_some]
    generalize accept fragment = o at hfragment ⊢
    generalize add fragment = result at hfragment ⊢
    cases hfragment with
    | refused e => exact .refused _
    | grown x n => exact .grown x n

theorem Grows.after {ε : Type} {a : Assembly} {o : Option Addition}
    {result : Except ε (Assembly × Nat)} (h : a.Grows o result) :
    a.after result = a.grow (o.getD .empty) := by
  cases h with
  | refused e => exact (grow_empty a).symm
  | grown x n => rfl

section

variable {disk : Disk} {add : Assembly → String → Except Error (Assembly × Nat)}
  {accept : Json → Option Addition}
  (h : ∀ a text, Grows a ((Json.ofYaml? text).bind accept) (add a text))

include h

theorem addFiles_eq (a : Assembly) (total : Nat) (paths : List String) :
    (addFiles disk add a total paths).1 = a.grow (.ofFiles disk accept paths) := by
  induction paths generalizing a total with
  | nil => exact (grow_empty a).symm
  | cons path paths ih =>
    unfold addFiles Addition.ofFiles
    cases disk.read path with
    | error fault => exact (grow_empty a).symm
    | ok text =>
      have htext := h a text
      simp only [Except.mapError]
      generalize (Json.ofYaml? text).bind accept = o at htext ⊢
      generalize add a text = result at htext ⊢
      cases htext with
      | refused e => exact (grow_empty a).symm
      | grown x n => exact (ih _ _).trans (grow_append a x _).symm

theorem load_eq (a : Assembly) (inputs : List String) :
    (load disk add a inputs).1 = a.grow (.ofInputs disk accept inputs) := by
  unfold load Addition.ofInputs
  cases collectFragments disk inputs with
  | error e => exact (grow_empty a).symm
  | ok paths => exact addFiles_eq h a 0 paths

end

/-- Every operation adds what it adds on its own; only sorting and new information do more. -/
theorem apply_eq (a : Assembly) (op : Operation) :
    a.apply op = match op with
      | .withInfo info => a.withInfo info
      | .sort => a.sorted
      | op => a.grow op.addition := by
  cases op with
  | withInfo info => rfl
  | addMethods fragment ordered => exact (addMethods_grows a fragment).after
  | addSchemas fragment ordered => exact (addSchemas_grows a fragment).after
  | addMethodsText text => exact (grows_addText (addMethods_grows a) text).after
  | addSchemasText text => exact (grows_addText (addSchemas_grows a) text).after
  | loadMethods disk inputs =>
    exact load_eq (fun a => grows_addText (addMethods_grows a)) a inputs
  | loadSchemas disk inputs =>
    exact load_eq (fun a => grows_addText (addSchemas_grows a)) a inputs
  | sort => rfl

end Assembly

end RpcContract.OpenRpc
