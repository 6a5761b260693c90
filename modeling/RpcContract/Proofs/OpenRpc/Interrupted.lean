import Mathlib.Algebra.GroupWithZero.Nat
import RpcContract.Proofs.OpenRpc.Deliveries
import RpcContract.Proofs.OpenRpc.Loading

/-! Loading that ends early. All inputs are looked up before a file is added, so a missing one
leaves the assembler alone; a file that fails leaves it as the files before it made it. -/

namespace RpcContract.OpenRpc

/-- How a file ends the loading: it cannot be read, or it holds no fragment that is accepted. The
error then names the file before it says what is wrong. -/
inductive Stops (disk : Disk) (accept : Json → Option Addition) (path : String) : Error → Prop where
  | unread {fault : FileFault} (h : disk.read path = .error fault) :
      Stops disk accept path (.read path fault)
  | refused (fault : Fragment.Fault) (reason : String) {text : String}
      (hread : disk.read path = .ok text) (h : (Json.ofYaml? text).bind accept = none)
      (htext : fault.text = path ++ ": " ++ reason) :
      Stops disk accept path (.invalidFragment fault)

/-- Files are added one after the other, and every one is accepted. -/
inductive AddsAll (disk : Disk) (add : Assembly → String → Except Error (Assembly × Nat)) :
    Assembly → List String → Assembly → Prop where
  | nil (a : Assembly) : AddsAll disk add a [] a
  | cons {a a' b : Assembly} {path text : String} {paths : List String} {n : Nat}
      (hread : disk.read path = .ok text) (hadd : add a text = .ok (a', n))
      (hrest : AddsAll disk add a' paths b) : AddsAll disk add a (path :: paths) b

/-- Files are added up to the first that ends the loading, or all of them. -/
structure AddsUntil (disk : Disk) (add : Assembly → String → Except Error (Assembly × Nat))
    (accept : Json → Option Addition) (a : Assembly) (paths : List String)
    (result : Assembly × Except Error Nat) : Prop where
  failed : ∀ e, result.2 = .error e → ∃ pre path post, paths = pre ++ path :: post ∧
    AddsAll disk add a pre result.1 ∧ Stops disk accept path e
  added : ∀ n, result.2 = .ok n → AddsAll disk add a paths result.1

/-! Looking up the inputs -/

variable {disk : Disk} {inputs : List String}

theorem fragmentsOf_eq_error_iff {input : String} {e : Error} :
    fragmentsOf disk input = .error e ↔ disk.at? input = none ∧ e = .read input .noInput := by
  unfold fragmentsOf
  split <;> simp_all [eq_comm]

theorem of_collectFragments_error {e : Error} (h : collectFragments disk inputs = .error e) :
    ∃ input ∈ inputs, disk.at? input = none ∧ e = .read input .noInput := by
  rw [collectFragments_eq, Except.map_eq_error_iff, Except.mapM_eq_error_iff] at h
  obtain ⟨pre, input, post, rfl, -, he⟩ := h
  obtain ⟨hnone, rfl⟩ := fragmentsOf_eq_error_iff.mp he
  exact ⟨input, by simp, hnone, rfl⟩

theorem at?_of_collectFragments {paths : List String}
    (h : collectFragments disk inputs = .ok paths) : ∀ input ∈ inputs, disk.at? input ≠ none := by
  rw [collectFragments_eq, Except.map_eq_ok_iff] at h
  obtain ⟨groups, hgroups, -⟩ := h
  intro input hinput hnone
  obtain ⟨group, -, hgroup⟩ := exists_right_of_forall₂ (Except.mapM_eq_ok_iff.mp hgroups) hinput
  rw [fragmentsOf_eq_error_iff.mpr ⟨hnone, rfl⟩] at hgroup
  cases hgroup

namespace Assembly

/-- What comes of adding a text: an error about the fragment in it, or what is in it, counted. -/
inductive Answered (a : Assembly) : Option Addition → Except Error (Assembly × Nat) → Prop where
  | unread : Answered a none (.error .yaml)
  | refused (fault : Fragment.Fault) : Answered a none (.error (.invalidFragment fault))
  | added (x : Addition) : Answered a (some x) (.ok (a.grow x, x.size))

theorem answered_addText {a : Assembly} {add : Json → Except Fragment.Fault (Assembly × Nat)}
    {accept : Json → Option Addition} (h : ∀ fragment, a.Grows (accept fragment) (add fragment))
    (hsize : ∀ fragment x, accept fragment = some x → add fragment = .ok (a.grow x, x.size))
    (text : String) : a.Answered ((Json.ofYaml? text).bind accept) (addText add text) := by
  unfold addText
  cases Json.ofYaml? text with
  | none => exact .unread
  | some fragment =>
    rw [Option.bind_some]
    cases hx : accept fragment with
    | some x =>
      simp only [hsize fragment x hx]
      exact .added x
    | none =>
      have hfragment := h fragment
      rw [hx] at hfragment
      simp only
      generalize add fragment = result at hfragment ⊢
      cases hfragment with
      | refused fault => exact .refused fault

theorem answered_addMethodsText (a : Assembly) (text : String) :
    a.Answered ((Json.ofYaml? text).bind Addition.ofMethods) (a.addMethodsText text) :=
  answered_addText (addMethods_grows a) (fun _ _ hx => addMethods_of_accepted hx a) text

theorem answered_addSchemasText (a : Assembly) (text : String) :
    a.Answered ((Json.ofYaml? text).bind Addition.ofSchemas) (a.addSchemasText text) :=
  answered_addText (addSchemas_grows a) (fun _ _ hx => addSchemas_of_accepted hx a) text

section

variable {disk : Disk} {add : Assembly → String → Except Error (Assembly × Nat)}
  {accept : Json → Option Addition}
  (h : ∀ a text, Answered a ((Json.ofYaml? text).bind accept) (add a text))

include h

/-- A file ends the loading and changes nothing, or all that is in it is added and counted. -/
theorem addFiles_cons (a : Assembly) (path : String) :
    (∃ e, Stops disk accept path e ∧
      ∀ total paths, addFiles disk add a total (path :: paths) = (a, .error e)) ∨
    ∃ fragment x, accept fragment = some x ∧
      (∃ text, disk.read path = .ok text ∧ Json.ofYaml? text = some fragment ∧
        add a text = .ok (a.grow x, x.size)) ∧
      ∀ total paths, addFiles disk add a total (path :: paths) =
        addFiles disk add (a.grow x) (total + x.size) paths := by
  cases hread : disk.read path with
  | error fault =>
    refine .inl ⟨_, .unread hread, fun total paths => ?_⟩
    simp only [addFiles, hread, Except.mapError]
  | ok text =>
    have htext := h a text
    generalize ho : (Json.ofYaml? text).bind accept = o at htext
    generalize hadd : add a text = result at htext
    cases htext with
    | unread =>
      refine .inl ⟨_, .refused (.inFile path .notYaml) _ hread ho rfl, fun total paths => ?_⟩
      simp only [addFiles, hread, hadd, Except.mapError]
      rfl
    | refused fault =>
      refine .inl ⟨_, .refused (.inFile path fault) _ hread ho rfl, fun total paths => ?_⟩
      simp only [addFiles, hread, hadd, Except.mapError]
      rfl
    | added x =>
      obtain ⟨fragment, hfragment, haccept⟩ := Option.bind_eq_some_iff.mp ho
      refine .inr ⟨fragment, x, haccept, ⟨text, rfl, hfragment, hadd⟩, fun total paths => ?_⟩
      simp only [addFiles, hread, hadd, Except.mapError]

/-- The files before the first that fails are added, and those after it are not looked at. -/
theorem addFiles_of_error {a b : Assembly} {total : Nat} {paths : List String} {e : Error}
    (he : addFiles disk add a total paths = (b, .error e)) :
    ∃ pre path post, paths = pre ++ path :: post ∧ AddsAll disk add a pre b ∧
      Stops disk accept path e := by
  induction paths generalizing a total with
  | nil => cases (Prod.mk.inj he).2
  | cons path paths ih =>
    rcases addFiles_cons h a path with ⟨e', hstops, hfile⟩ |
      ⟨_, x, -, ⟨text, hread, -, hadd⟩, hfile⟩
    · rw [hfile] at he
      obtain ⟨rfl, hee⟩ := Prod.mk.inj he
      exact ⟨[], path, paths, rfl, .nil a, Except.error.inj hee ▸ hstops⟩
    · rw [hfile] at he
      obtain ⟨pre, path', post, rfl, hpre, hstops⟩ := ih he
      exact ⟨path :: pre, path', post, rfl, .cons hread hadd hpre, hstops⟩

/-- Where no file fails all are added, and the definitions in them are counted. -/
theorem addFiles_of_ok {a b : Assembly} {total n : Nat} {paths : List String}
    (hok : addFiles disk add a total paths = (b, .ok n)) :
    AddsAll disk add a paths b ∧ ∃ xs,
      List.Forall₂ (fun path x => ∃ fragment, Holds disk path fragment ∧ accept fragment = some x)
        paths xs ∧
      b = xs.foldl grow a ∧ n = total + (xs.map Addition.size).sum := by
  induction paths generalizing a total with
  | nil =>
    obtain ⟨rfl, hn⟩ := Prod.mk.inj hok
    exact ⟨.nil a, [], .nil, rfl, (Except.ok.inj hn).symm⟩
  | cons path paths ih =>
    rcases addFiles_cons h a path with ⟨e', -, hfile⟩ |
      ⟨fragment, x, haccept, ⟨text, hread, hfragment, hadd⟩, hfile⟩
    · rw [hfile] at hok
      cases (Prod.mk.inj hok).2
    · rw [hfile] at hok
      obtain ⟨hall, xs, hxs, hb, hn⟩ := ih hok
      refine ⟨.cons hread hadd hall, x :: xs,
        .cons ⟨fragment, ⟨text, hread, hfragment⟩, haccept⟩ hxs, hb, ?_⟩
      rw [hn, List.map_cons, List.sum_cons, Nat.add_assoc]

theorem addsUntil_load {a : Assembly} {paths : List String}
    (hpaths : collectFragments disk inputs = .ok paths) :
    AddsUntil disk add accept a paths (load disk add a inputs) := by
  rw [load, hpaths]
  exact ⟨fun e he => addFiles_of_error h (Prod.ext rfl he),
    fun n hn => (addFiles_of_ok h (Prod.ext rfl hn)).1⟩

/-- The files of a loading that succeeds hold what was added. -/
theorem of_load_ok {β : Type} {view : Addition → List β} {value : List β → Json}
    (hview : ∀ fragment x, accept fragment = some x →
      fragment = value (view x) ∧ x.size = (view x).length)
    {a b : Assembly} {n : Nat} {paths : List String}
    (hpaths : collectFragments disk inputs = .ok paths)
    (hok : load disk add a inputs = (b, .ok n)) :
    ∃ xs : List Addition,
      List.Forall₂ (fun path part => Holds disk path (value part)) paths (xs.map view) ∧
      b = xs.foldl grow a ∧ n = ((xs.map view).map List.length).sum := by
  rw [load, hpaths] at hok
  obtain ⟨-, xs, hxs, hb, hn⟩ := addFiles_of_ok h hok
  refine ⟨xs, List.forall₂_map_right_iff.mpr (hxs.imp ?_), hb, ?_⟩
  · rintro path x ⟨fragment, hfragment, haccept⟩
    exact (hview fragment x haccept).1 ▸ hfragment
  · have hsize : xs.map Addition.size = xs.map fun x => (view x).length := by
      refine List.map_congr_left fun x hx => ?_
      obtain ⟨path, -, fragment, -, haccept⟩ := exists_left_of_forall₂ hxs hx
      exact (hview fragment x haccept).2
    rw [hn, Nat.zero_add, hsize, List.map_map]
    rfl

end

theorem load_of_missing {add : Assembly → String → Except Error (Assembly × Nat)} {a : Assembly}
    {e : Error} (h : collectFragments disk inputs = .error e) :
    load disk add a inputs = (a, .error e) := by
  rw [load, h]

theorem count_of_loadMethods {a b : Assembly} {n : Nat} {paths : List String}
    (hpaths : collectFragments disk inputs = .ok paths)
    (hok : loadMethods disk a inputs = (b, .ok n)) :
    ∃ parts, List.Forall₂ (fun path ds => Holds disk path (.arr ds)) paths parts ∧
      n = (parts.map List.length).sum ∧ b.methods = a.methods ++ parts.flatten := by
  have hview : ∀ fragment x, Addition.ofMethods fragment = some x →
      fragment = .arr x.definitions ∧ x.size = x.definitions.length := by
    intro fragment x haccept
    obtain ⟨ds, rfl, -, rfl⟩ := Addition.of_ofMethods haccept
    exact ⟨rfl, rfl⟩
  obtain ⟨xs, hxs, rfl, hn⟩ := of_load_ok answered_addMethodsText hview hpaths hok
  refine ⟨_, hxs, hn, ?_⟩
  rw [foldl_grow]
  rfl

theorem count_of_loadSchemas {a b : Assembly} {n : Nat} {paths : List String}
    (hpaths : collectFragments disk inputs = .ok paths)
    (hok : loadSchemas disk a inputs = (b, .ok n)) :
    ∃ parts, List.Forall₂ (fun path ms => Holds disk path (.obj ms)) paths parts ∧
      n = (parts.map List.length).sum := by
  have hview : ∀ fragment x, Addition.ofSchemas fragment = some x →
      fragment = .obj x.schemas ∧ x.size = x.schemas.length := by
    intro fragment x haccept
    obtain ⟨ms, rfl, -, rfl⟩ := Addition.of_ofSchemas haccept
    exact ⟨rfl, Nat.zero_add _⟩
  obtain ⟨xs, hxs, -, hn⟩ := of_load_ok answered_addSchemasText hview hpaths hok
  exact ⟨_, hxs, hn⟩

end Assembly

/-- A missing input leaves the assembler as it was, whatever stands before it. Where no input is
missing the files are added up to the first that fails, of which nothing is added, and the error of
a fragment names that file first. Where none fails the definitions of all files are counted, and the
methods grow by the count. -/
theorem load_adds_until_failure (disk : Disk) (a : Assembly) (inputs : List String) :
    ((∃ input ∈ inputs, disk.at? input = none) →
      ∃ input ∈ inputs, disk.at? input = none ∧
        loadMethods disk a inputs = (a, .error (.read input .noInput)) ∧
        loadSchemas disk a inputs = (a, .error (.read input .noInput))) ∧
    ((∀ input ∈ inputs, disk.at? input ≠ none) →
      ∃ paths, collectFragments disk inputs = .ok paths ∧
        AddsUntil disk Assembly.addMethodsText Addition.ofMethods a paths
          (loadMethods disk a inputs) ∧
        AddsUntil disk Assembly.addSchemasText Addition.ofSchemas a paths
          (loadSchemas disk a inputs) ∧
        (∀ b n, loadMethods disk a inputs = (b, .ok n) →
          ∃ parts, List.Forall₂ (fun path ds => Holds disk path (.arr ds)) paths parts ∧
            n = (parts.map List.length).sum ∧ b.methods.length = a.methods.length + n) ∧
        ∀ b n, loadSchemas disk a inputs = (b, .ok n) →
          ∃ parts, List.Forall₂ (fun path ms => Holds disk path (.obj ms)) paths parts ∧
            n = (parts.map List.length).sum) := by
  constructor
  · rintro ⟨input, hinput, hnone⟩
    cases hc : collectFragments disk inputs with
    | ok paths => exact absurd hnone (at?_of_collectFragments hc input hinput)
    | error e =>
      obtain ⟨input', hinput', hnone', rfl⟩ := of_collectFragments_error hc
      exact ⟨input', hinput', hnone', Assembly.load_of_missing hc, Assembly.load_of_missing hc⟩
  · intro hinputs
    cases hc : collectFragments disk inputs with
    | error e =>
      obtain ⟨input, hinput, hnone, -⟩ := of_collectFragments_error hc
      exact absurd hnone (hinputs input hinput)
    | ok paths =>
      refine ⟨paths, rfl, Assembly.addsUntil_load Assembly.answered_addMethodsText hc,
        Assembly.addsUntil_load Assembly.answered_addSchemasText hc, fun b n hok => ?_,
        fun b n hok => Assembly.count_of_loadSchemas hc hok⟩
      obtain ⟨parts, hparts, hn, hb⟩ := Assembly.count_of_loadMethods hc hok
      exact ⟨parts, hparts, hn, by rw [hb, List.length_append, List.length_flatten, hn]⟩

/-- Of three files of which the second is no sequence only the first is added. -/
example :
    let disk : Disk := ⟨.directory [("d", .directory [
      ("a.json", .file (.text "[{}]")), ("b.json", .file (.text "{}")),
      ("c.json", .file (.text "[{}]"))])], []⟩
    let result := loadMethods disk .empty ["d"]
    result.1.methods = [.obj []] ∧
      result.2.toOption = none := by
  decide +kernel

end RpcContract.OpenRpc
