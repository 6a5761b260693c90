import RpcContract.Proofs.Files.Walk
import RpcContract.Proofs.OpenRpc.Deliveries
import RpcContract.Proofs.Yaml.Ordered

/-! The order in which fragments are loaded. Inputs stand in the order in which they were given and
the files of a directory in that of their names; methods are kept in this order, and of schemas
with one name it decides which is the last. -/

namespace RpcContract.OpenRpc

/-- The last of the names has the extension of a fragment. -/
def NamesFragment (names : List String) : Prop :=
  ∃ above stem ext, names = above ++ [stem ++ "." ++ ext] ∧ stem ≠ "" ∧
    ext ∈ ["yaml", "yml", "json"]

/-- The paths that an input stands for: a file for itself, and a directory for the fragments below
it. -/
inductive Collects (disk : Disk) (input : String) : List String → Prop where
  | file {content : Content} (h : disk.at? input = some (.file content)) :
      Collects disk input [input]
  | directory {entries : List (String × FileTree)} {found : List (List String)}
      (h : disk.at? input = some (.directory entries))
      (all : ∀ names, names ∈ found ↔ NamesFragment names ∧
        ∃ content, (FileTree.directory entries).at? names = some (.file content))
      (ordered : found.Pairwise Path.Before)
      (there : ∀ names ∈ found,
        disk.at? (names.foldl Path.join input) = (FileTree.directory entries).at? names) :
      Collects disk input (found.map fun names => names.foldl Path.join input)

/-- The text of a file is that of a fragment. -/
def Holds (disk : Disk) (path : String) (fragment : Json) : Prop :=
  ∃ text, disk.read path = .ok text ∧ Json.ofYaml? text = some fragment

variable {disk : Disk} {input : String} {names : List String}

theorem isFragment_iff (hne : names ≠ []) (h : ∀ name ∈ names, Path.IsName name) :
    isFragment (names.foldl Path.join input) ↔ NamesFragment names := by
  have hpoint : ∀ ext ∈ ["yaml", "yml", "json"], '.' ∉ ext.toList := by decide
  simp only [isFragment, Option.any_eq_true, Path.extension?_foldl_join hne h,
    List.contains_iff_mem]
  constructor
  · rintro ⟨ext, ⟨above, stem, hnames, hstem, -⟩, hext⟩
    exact ⟨above, stem, ext, hnames, hstem, hext⟩
  · rintro ⟨above, stem, ext, hnames, hstem, hext⟩
    exact ⟨ext, ⟨above, stem, hnames, hstem, hpoint ext hext⟩, hext⟩

theorem exists_fragmentsOf (hroot : disk.root.Proper) {t : FileTree}
    (ht : disk.at? input = some t) :
    ∃ group, fragmentsOf disk input = .ok group ∧ Collects disk input group := by
  obtain ⟨place, hlocate⟩ := Disk.exists_locate_of_at? ht
  have hproper := Disk.proper_of_locate hroot hlocate
  cases t with
  | file content => exact ⟨[input], by rw [fragmentsOf, ht], .file ht⟩
  | directory entries =>
    let path (names : List String) : String := names.foldl Path.join input
    let found := ((FileTree.entryFiles entries).map (·.1)).filter fun names =>
      isFragment (path names)
    have hpaths : fragmentsOf disk input = .ok (found.map path) := by
      rw [fragmentsOf, ht]
      simp only [found, List.filter_map, List.map_map]
      rfl
    have hfiles : ∀ names content, (names, content) ∈ FileTree.entryFiles entries ↔
        (FileTree.directory entries).at? names = some (.file content) := by
      intro names content
      exact hproper.mem_files
    have hfragment : ∀ names content,
        (FileTree.directory entries).at? names = some (.file content) →
        (isFragment (path names) ↔ NamesFragment names) := by
      intro names content hat
      refine isFragment_iff ?_ (hproper.isName hat)
      rintro rfl
      cases hat
    have hmem : ∀ names, names ∈ found ↔ NamesFragment names ∧
        ∃ content, (FileTree.directory entries).at? names = some (.file content) := by
      intro names
      simp only [found, List.mem_filter, List.mem_map, Prod.exists, exists_and_right,
        exists_eq_right, hfiles]
      constructor
      · rintro ⟨⟨content, hat⟩, hname⟩
        exact ⟨(hfragment names content hat).mp hname, content, hat⟩
      · rintro ⟨hname, content, hat⟩
        exact ⟨⟨content, hat⟩, (hfragment names content hat).mpr hname⟩
    refine ⟨_, hpaths, .directory ht hmem ?_ ?_⟩
    · exact (List.pairwise_map.mpr hproper.pairwise_files).filter _
    · intro names hnames
      obtain ⟨-, content, hat⟩ := (hmem names).mp hnames
      rw [hat]
      exact Disk.at?_of_locate (Disk.locate_foldl_join hlocate (hproper.isName hat) hat)

theorem collectFragments_eq (disk : Disk) (inputs : List String) :
    collectFragments disk inputs = (inputs.mapM (fragmentsOf disk)).map List.flatten := by
  induction inputs with
  | nil => rfl
  | cons input inputs ih =>
    rw [collectFragments, ih, List.mapM_cons]
    cases fragmentsOf disk input with
    | error => rfl
    | ok group => cases inputs.mapM (fragmentsOf disk) <;> rfl

theorem exists_groups (hroot : disk.root.Proper) {inputs : List String}
    (h : ∀ input ∈ inputs, ∃ t, disk.at? input = some t) :
    ∃ groups, List.Forall₂ (Collects disk) inputs groups ∧
      collectFragments disk inputs = .ok groups.flatten := by
  have hgroup : ∀ input ∈ inputs, ∃ group,
      fragmentsOf disk input = .ok group ∧ Collects disk input group := by
    intro input hinput
    obtain ⟨t, ht⟩ := h input hinput
    exact exists_fragmentsOf hroot ht
  obtain ⟨groups, hgroups⟩ := exists_forall₂ hgroup
  refine ⟨groups, hgroups.imp fun _ _ => And.right, ?_⟩
  rw [collectFragments_eq, Except.mapM_eq_ok_iff.mpr (hgroups.imp fun _ _ => And.left)]
  rfl

/-! One file after the other -/

namespace Assembly

section

variable {add : Assembly → String → Except Error (Assembly × Nat)}
  {accept : Json → Option Addition}
  (h : ∀ a text, Grows a ((Json.ofYaml? text).bind accept) (add a text))

include h

/-- What was added by files that could all be read and were all accepted. -/
theorem of_addFiles {a b : Assembly} {total n : Nat} {paths : List String}
    (hok : addFiles disk add a total paths = (b, .ok n)) :
    ∃ xs, List.Forall₂
        (fun path x => ∃ fragment, Holds disk path fragment ∧ accept fragment = some x) paths xs ∧
      b = xs.foldl grow a := by
  induction paths generalizing a total with
  | nil =>
    obtain ⟨rfl, -⟩ := Prod.mk.inj hok
    exact ⟨[], .nil, rfl⟩
  | cons path paths ih =>
    unfold addFiles at hok
    cases hread : disk.read path with
    | error fault => simp [hread, Except.mapError] at hok
    | ok text =>
      have htext := h a text
      simp only [hread, Except.mapError] at hok
      generalize ho : (Json.ofYaml? text).bind accept = o at htext
      generalize add a text = result at htext hok
      cases htext with
      | refused e => simp at hok
      | grown x m =>
        obtain ⟨fragment, hfragment, haccept⟩ := Option.bind_eq_some_iff.mp ho
        obtain ⟨xs, hxs, rfl⟩ := ih hok
        exact ⟨x :: xs, .cons ⟨fragment, ⟨text, hread, hfragment⟩, haccept⟩ hxs, rfl⟩

theorem of_load {a b : Assembly} {n : Nat} {inputs paths : List String}
    (hpaths : collectFragments disk inputs = .ok paths)
    (hok : load disk add a inputs = (b, .ok n)) :
    ∃ xs, List.Forall₂
        (fun path x => ∃ fragment, Holds disk path fragment ∧ accept fragment = some x) paths xs ∧
      b = xs.foldl grow a := by
  rw [load, hpaths] at hok
  exact of_addFiles h hok

end

theorem methods_of_loadMethods {a : Assembly} {n : Nat} {inputs paths : List String}
    (hpaths : collectFragments disk inputs = .ok paths)
    (hok : loadMethods disk .empty inputs = (a, .ok n)) :
    ∃ parts, List.Forall₂ (fun path ds => Holds disk path (.arr ds)) paths parts ∧
      a.methods = parts.flatten := by
  obtain ⟨xs, hxs, rfl⟩ := of_load (fun a => grows_addText (addMethods_grows a)) hpaths hok
  refine ⟨xs.map (·.definitions), List.forall₂_map_right_iff.mpr (hxs.imp ?_), ?_⟩
  · rintro path x ⟨fragment, hfragment, haccept⟩
    obtain ⟨ds, rfl, -, rfl⟩ := Addition.of_ofMethods haccept
    exact hfragment
  · rw [foldl_grow]
    rfl

theorem schemas_of_loadSchemas {a : Assembly} {n : Nat} {inputs paths : List String}
    (hpaths : collectFragments disk inputs = .ok paths)
    (hok : loadSchemas disk .empty inputs = (a, .ok n)) :
    ∃ parts, List.Forall₂ (fun path ms => Holds disk path (.obj ms)) paths parts ∧
      ∀ name s, Dict.get? a.schemas name = some s ↔
        ∃ pre ms post, parts = pre ++ ms :: post ∧ Dict.get? ms name = some s ∧
          ∀ ms' ∈ post, name ∉ Dict.keys ms' := by
  obtain ⟨xs, hxs, rfl⟩ := of_load (fun a => grows_addText (addSchemas_grows a)) hpaths hok
  have hparts : List.Forall₂ (fun path ms => Holds disk path (.obj ms)) paths
      (xs.map (·.schemas)) := by
    refine List.forall₂_map_right_iff.mpr (hxs.imp ?_)
    rintro path x ⟨fragment, hfragment, haccept⟩
    obtain ⟨ms, rfl, -, rfl⟩ := Addition.of_ofSchemas haccept
    exact hfragment
  -- a mapping that was read has each name once, so its last value is its only one
  have honce : ∀ ms ∈ xs.map (·.schemas), ∀ name, Dict.last? ms name = Dict.get? ms name := by
    intro ms hms name
    obtain ⟨path, -, text, -, htext⟩ := exists_left_of_forall₂ hparts hms
    have hsorted : Dict.Sorted ms := (Json.every_obj.mp (Json.ordered_ofYaml htext)).1
    exact Dict.last?_eq_get? hsorted.nodup name
  refine ⟨_, hparts, fun name s => ?_⟩
  have hnew : Dict.get? empty.schemas name = none := rfl
  rw [foldl_grow, get?_schemas_grow, hnew, Option.or_none, Dict.last?_flatten_eq_some_iff]
  refine exists_congr fun pre => exists_congr fun ms => exists_congr fun post => ?_
  refine and_congr_right fun hsplit => ?_
  rw [honce ms (by simp [hsplit])]

end Assembly

/-- Where all inputs are there, their files are loaded in the order in which the inputs stand, and
those of a directory in the order of their names. Of an assembler that was new the methods are
those of the files one after the other; each schema is from the last file that has its name. -/
theorem load_follows_order (disk : Disk) (inputs : List String) (hroot : disk.root.Proper)
    (hinputs : ∀ input ∈ inputs, ∃ t, disk.at? input = some t) :
    ∃ groups, List.Forall₂ (Collects disk) inputs groups ∧
      collectFragments disk inputs = .ok groups.flatten ∧
      (∀ a n, loadMethods disk .empty inputs = (a, .ok n) →
        ∃ parts, List.Forall₂ (fun path ds => Holds disk path (.arr ds)) groups.flatten parts ∧
          a.methods = parts.flatten) ∧
      ∀ a n, loadSchemas disk .empty inputs = (a, .ok n) →
        ∃ parts, List.Forall₂ (fun path ms => Holds disk path (.obj ms)) groups.flatten parts ∧
          ∀ name s, Dict.get? a.schemas name = some s ↔
            ∃ pre ms post, parts = pre ++ ms :: post ∧ Dict.get? ms name = some s ∧
              ∀ ms' ∈ post, name ∉ Dict.keys ms' := by
  obtain ⟨groups, hgroups, hpaths⟩ := exists_groups hroot hinputs
  refine ⟨groups, hgroups, hpaths, ?_, ?_⟩
  · intro a n hok
    exact Assembly.methods_of_loadMethods hpaths hok
  · intro a n hok
    exact Assembly.schemas_of_loadSchemas hpaths hok

/-- One name in two files, of which the later in the order of the names has its path before the
other's. -/
theorem load_follows_order_nested :
    let disk : Disk :=
      ⟨.directory [("d", .directory [
        ("a", .directory [("z.yaml", .file (.text "S: \x7btitle: z\x7d"))]),
        ("a-b", .directory [("x.yaml", .file (.text "S: \x7btitle: x\x7d"))])]),
        ("one.txt", .file (.text "\x7b\x7d"))], []⟩
    let inputs := ["one.txt", "d"]
    disk.root.Proper ∧ (∀ input ∈ inputs, ∃ t, disk.at? input = some t) ∧
      ∃ groups a, List.Forall₂ (Collects disk) inputs groups ∧
        groups.flatten = ["one.txt", "d/a/z.yaml", "d/a-b/x.yaml"] ∧
        loadSchemas disk .empty inputs = (a, .ok 2) ∧
        Dict.get? a.schemas "S" = some (.obj [("title", .str "x")]) := by
  intro disk inputs
  have hnames : Path.IsName "d" ∧ Path.IsName "a" ∧ Path.IsName "z.yaml" ∧ Path.IsName "a-b" ∧
      Path.IsName "x.yaml" ∧ Path.IsName "one.txt" := by
    refine ⟨?_, ?_, ?_, ?_, ?_, ?_⟩ <;> constructor <;> decide
  have hroot : disk.root.Proper := by
    have hsingle : ∀ name content, Path.IsName name →
        (FileTree.directory [(name, .file content)]).Proper := by
      intro name content hname
      exact .directory (List.pairwise_singleton _ _) (by simp [hname])
        (by simp [FileTree.Proper.file])
    have hinner : (FileTree.directory [
        ("a", .directory [("z.yaml", .file (.text "S: \x7btitle: z\x7d"))]),
        ("a-b", .directory [("x.yaml", .file (.text "S: \x7btitle: x\x7d"))])]).Proper := by
      refine .directory (by unfold Dict.Sorted; decide) (by simp [hnames]) ?_
      simp [hsingle, hnames]
    refine .directory (by unfold Dict.Sorted; decide) (by simp [hnames]) ?_
    simp [hinner, FileTree.Proper.file]
  have hinputs : ∀ input ∈ inputs, ∃ t, disk.at? input = some t := by
    simp only [inputs, List.forall_mem_cons, List.not_mem_nil, IsEmpty.forall_iff, implies_true,
      and_true]
    exact ⟨⟨_, rfl⟩, ⟨_, rfl⟩⟩
  obtain ⟨groups, hgroups, hcollect, -⟩ := load_follows_order disk inputs hroot hinputs
  have hpaths : (collectFragments disk inputs).toOption =
      some ["one.txt", "d/a/z.yaml", "d/a-b/x.yaml"] := by
    unfold disk inputs
    decide +kernel
  have hload : (loadSchemas disk .empty inputs).2.toOption = some 2 ∧
      Dict.get? (loadSchemas disk .empty inputs).1.schemas "S" =
        some (.obj [("title", .str "x")]) := by
    unfold disk inputs
    decide +kernel
  rw [hcollect] at hpaths
  cases hrun : loadSchemas disk .empty inputs with
  | mk a result =>
    rw [hrun] at hload
    cases result with
    | error e => cases hload.1
    | ok n =>
      obtain rfl := Option.some.inj hload.1
      exact ⟨hroot, hinputs, groups, a, hgroups, Option.some.inj hpaths, rfl, hload.2⟩

end RpcContract.OpenRpc
