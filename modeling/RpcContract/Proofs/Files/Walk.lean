import RpcContract.Proofs.Dict
import RpcContract.Proofs.Files.Writing
import RpcContract.Proofs.Text.Bytes

/-! The files below a directory. Each stands in the list once, under the names that lead to it, and
the names of one are before those of the next where they first differ. A path that goes on with
these names leads to the file. -/

namespace RpcContract

namespace Path

/-- A name that a directory can hold. -/
structure IsName (name : String) : Prop where
  ne_empty : name ≠ ""
  ne_dot : name ≠ "."
  ne_dots : name ≠ ".."
  noSlash : '/' ∉ name.toList

theorem IsName.isAbsolute_eq {name : String} (h : IsName name) : isAbsolute name = false := by
  rw [isAbsolute, decide_eq_false_iff_not]
  exact fun hhead => h.noSlash (List.mem_of_mem_head? (Option.mem_def.mpr hhead))

theorem parts_of_noSlash {name : String} (h : '/' ∉ name.toList) : parts name = [name] := by
  have hsplit : name.toList.splitOn '/' = [name.toList] := by
    apply List.splitOnP_eq_singleton
    intro c hc
    exact beq_eq_false_iff_ne.mpr fun he => h (he ▸ hc)
  rw [parts, hsplit, List.map_singleton, String.ofList_toList]

theorem parts_slash (path : String) {name : String} (h : '/' ∉ name.toList) :
    parts (path ++ "/" ++ name) = parts path ++ [name] := by
  have hlist : (path ++ "/" ++ name).toList = path.toList ++ '/' :: name.toList := by simp
  have hsplit : (path.toList ++ '/' :: name.toList).splitOn '/' =
      path.toList.splitOn '/' ++ name.toList.splitOn '/' :=
    List.splitOnP_append_cons _ _ (beq_self_eq_true '/')
  rw [← parts_of_noSlash h, parts, hlist, hsplit, List.map_append, parts, parts]

/-- A name comes after the parts of the path, a last empty one left out. -/
theorem parts_join (path : String) {name : String} (h : IsName name) :
    ∃ above, parts (join path name) = above ++ [name] ∧
      (parts path = above ∨ parts path = above ++ [""]) := by
  rw [join, h.isAbsolute_eq]
  by_cases hempty : path = ""
  · subst hempty
    exact ⟨[], by simp [parts_of_noSlash h.noSlash], .inr (parts_of_noSlash (by simp))⟩
  · by_cases hslash : path.toList.getLast? = some '/'
    · obtain ⟨cs, hcs⟩ := List.getLast?_eq_some_iff.mp hslash
      have hpath : path = String.ofList cs ++ "/" := by
        rw [← String.toList_inj, hcs]
        simp
      refine ⟨parts (String.ofList cs), ?_, .inr ?_⟩
      · simp only [Bool.false_eq_true, if_false, hslash, or_true, if_true]
        rw [hpath, parts_slash _ h.noSlash]
      · have hlast : parts (String.ofList cs ++ "/" ++ "") = parts (String.ofList cs) ++ [""] :=
          parts_slash _ (by simp)
        rwa [String.append_empty, ← hpath] at hlast
    · exact ⟨parts path, by simp [hempty, hslash, parts_slash path h.noSlash], .inl rfl⟩

theorem join_ne_empty (path : String) {name : String} (h : IsName name) : join path name ≠ "" := by
  obtain ⟨above, hparts, -⟩ := parts_join path h
  intro hempty
  have hlast := congrArg List.getLast? hparts
  rw [hempty, parts_of_noSlash (by simp), List.getLast?_concat] at hlast
  exact h.ne_empty (Option.some.inj hlast).symm

theorem fileName?_of_parts {path last : String} {above : List String}
    (h : parts path = above ++ [last]) (hlast : ¬ (last = "" ∨ last = "." ∨ last = "..")) :
    fileName? path = some last := by
  simp only [not_or] at hlast
  have hname : (names path).getLast? = some last := by
    simp [names, h, hlast]
  simp [fileName?, hname, hlast]

theorem extension?_join (path : String) {name : String} (h : IsName name) :
    extension? (join path name) = (splitExtension name).2 := by
  obtain ⟨above, hparts, -⟩ := parts_join path h
  have hlast : ¬ (name = "" ∨ name = "." ∨ name = "..") := by
    simp [h.ne_empty, h.ne_dot, h.ne_dots]
  rw [extension?, fileName?_of_parts hparts hlast, Option.bind_some]

/-- What is added at the end is added to the last part. -/
theorem parts_append (path : String) {ext : String} (h : '/' ∉ ext.toList) :
    ∃ above last, parts path = above ++ [last] ∧ parts (path ++ ext) = above ++ [last ++ ext] := by
  have hsplit : ∀ cs : List Char, ∃ above last, cs.splitOn '/' = above ++ [last] ∧
      (cs ++ ext.toList).splitOn '/' = above ++ [last ++ ext.toList] := by
    intro cs
    induction cs with
    | nil =>
      refine ⟨[], [], rfl, List.splitOnP_eq_singleton fun c hc => ?_⟩
      exact beq_eq_false_iff_ne.mpr fun he => h (he ▸ hc)
    | cons c cs ih =>
      obtain ⟨above, last, hcs, happend⟩ := ih
      rw [List.splitOn] at hcs happend
      rw [List.cons_append, List.splitOn, List.splitOn, List.splitOnP_cons_eq_if_modifyHead,
        List.splitOnP_cons_eq_if_modifyHead, hcs, happend]
      by_cases hc : c == '/'
      · exact ⟨[] :: above, last, by simp [hc], by simp [hc]⟩
      · cases above with
        | nil => exact ⟨[], c :: last, by simp [hc], by simp [hc]⟩
        | cons first above => exact ⟨(c :: first) :: above, last, by simp [hc], by simp [hc]⟩
  obtain ⟨above, last, hpath, happend⟩ := hsplit path.toList
  refine ⟨above.map String.ofList, String.ofList last, by simp [parts, hpath], ?_⟩
  rw [parts, String.toList_append, happend, List.map_append, List.map_singleton,
    String.ofList_append, String.ofList_toList]

theorem isAbsolute_join (path : String) {name : String} (h : IsName name) :
    isAbsolute (join path name) = isAbsolute path := by
  rw [join, h.isAbsolute_eq]
  by_cases hempty : path = ""
  · subst hempty
    simp only [Bool.false_eq_true, if_false, true_or, if_true, String.empty_append]
    rw [h.isAbsolute_eq]
    rfl
  · obtain ⟨c, cs, hcs⟩ : ∃ c cs, path.toList = c :: cs := by
      apply List.exists_cons_of_ne_nil
      simpa using hempty
    split_ifs <;> simp_all [isAbsolute]

/-! Extensions -/

theorem splitExtension_of_noPoint {name : String} (h : '.' ∉ name.toList) :
    splitExtension name = (name, none) := by
  have htake : name.toList.reverse.takeWhile (· != '.') = name.toList.reverse := by
    rw [← List.append_nil name.toList.reverse, List.takeWhile_append_of_pos]
    · rfl
    · intro c hc
      exact bne_iff_ne.mpr fun he => h (he ▸ List.mem_reverse.mp hc)
  simp [splitExtension, htake]

theorem splitExtension_point (stem : String) {ext : String} (h : '.' ∉ ext.toList) :
    splitExtension (stem ++ "." ++ ext) =
      if stem = "" then (stem ++ "." ++ ext, none) else (stem, some ext) := by
  have hlist : (stem ++ "." ++ ext).toList = stem.toList ++ '.' :: ext.toList := by simp
  have htake : (stem ++ "." ++ ext).toList.reverse.takeWhile (· != '.') = ext.toList.reverse := by
    rw [hlist, List.reverse_append, List.reverse_cons, List.append_assoc, List.singleton_append,
      List.takeWhile_append_of_pos, List.takeWhile_cons_of_neg (by simp), List.append_nil]
    intro c hc
    exact bne_iff_ne.mpr fun he => h (he ▸ List.mem_reverse.mp hc)
  have hlength : (stem ++ "." ++ ext).toList.length =
      stem.toList.length + ext.toList.length + 1 := by
    rw [hlist, List.length_append, List.length_cons]
    omega
  have hstem : (stem ++ "." ++ ext).toList.take
      ((stem ++ "." ++ ext).toList.length - ext.toList.length - 1) = stem.toList := by
    have hcount : stem.toList.length + ext.toList.length + 1 - ext.toList.length - 1 =
        stem.toList.length := by
      omega
    rw [hlength, hcount, hlist, List.take_left]
  have hshort : ext.toList.length ≠ (stem ++ "." ++ ext).toList.length := by
    omega
  simp only [splitExtension, htake, List.reverse_reverse, hstem, hshort, or_false]
  simp

/-- A name has an extension if it has a point and something before. -/
theorem splitExtension_eq_some_iff {name stem ext : String} :
    splitExtension name = (stem, some ext) ↔
      name = stem ++ "." ++ ext ∧ stem ≠ "" ∧ '.' ∉ ext.toList := by
  constructor
  · intro h
    by_cases hpoint : '.' ∈ name.toList
    · obtain ⟨cs, ds, hcs, hds⟩ : ∃ cs ds, name.toList = cs ++ '.' :: ds ∧ '.' ∉ ds := by
        obtain ⟨ds, cs, hreverse, hds⟩ := List.eq_append_cons_of_mem (List.mem_reverse.mpr hpoint)
        refine ⟨cs.reverse, ds.reverse, ?_, by simpa using hds⟩
        rw [← List.reverse_reverse name.toList, hreverse]
        simp
      have hname : name = String.ofList cs ++ "." ++ String.ofList ds := by
        rw [← String.toList_inj, hcs]
        simp
      have hds' : '.' ∉ (String.ofList ds).toList := by
        rwa [String.toList_ofList]
      rw [hname, splitExtension_point _ hds'] at h
      split at h
      · cases h
      · next hne =>
        obtain ⟨rfl, hext⟩ := Prod.mk.inj h
        obtain rfl := Option.some.inj hext
        exact ⟨hname, hne, hds'⟩
    · rw [splitExtension_of_noPoint hpoint] at h
      cases h
  · rintro ⟨rfl, hne, hext⟩
    rw [splitExtension_point _ hext, if_neg hne]

/-- The extension of a path that goes on with names is that of the last of them. -/
theorem extension?_foldl_join {path : String} {names : List String} (hne : names ≠ [])
    (h : ∀ name ∈ names, IsName name) {ext : String} :
    extension? (names.foldl join path) = some ext ↔
      ∃ above stem, names = above ++ [stem ++ "." ++ ext] ∧ stem ≠ "" ∧ '.' ∉ ext.toList := by
  obtain ⟨above, last, rfl⟩ := (List.eq_nil_or_concat' names).resolve_left hne
  rw [List.foldl_append, List.foldl_cons, List.foldl_nil, extension?_join _ (h last (by simp))]
  constructor
  · intro hext
    have hsplit : splitExtension last = ((splitExtension last).1, some ext) := by
      rw [← hext]
    obtain ⟨hlast, hstem, hpoint⟩ := splitExtension_eq_some_iff.mp hsplit
    exact ⟨above, _, by rw [← hlast], hstem, hpoint⟩
  · rintro ⟨above', stem, hnames, hstem, hpoint⟩
    obtain ⟨-, hlast⟩ := List.append_inj' hnames rfl
    rw [splitExtension_eq_some_iff.mpr ⟨List.singleton_inj.mp hlast, hstem, hpoint⟩]

/-! The order of files -/

/-- The names of one path before those of another: name by name, and a name by its bytes. -/
def Before (names names' : List String) : Prop := names.map Text.bytes < names'.map Text.bytes

theorem before_cons {name name' : String} {names names' : List String} :
    Before (name :: names) (name' :: names') ↔
      name < name' ∨ name = name' ∧ Before names names' := by
  rw [Before, List.map_cons, List.map_cons, List.cons_lt_cons_iff, Text.lt_iff_bytes_lt,
    Text.bytes_inj, Before]

/-- The order is not that of the whole paths: `-` is before `/`. -/
example : Before ["a", "z.yaml"] ["a-b", "x.yaml"] ∧ "a-b/x.yaml" < "a/z.yaml" := by
  refine ⟨before_cons.mpr (.inl ?_), ?_⟩ <;> decide

theorem eq_of_before {α : Type u} {names : α → List String} {as bs : List α}
    (ha : as.Pairwise fun a b => Before (names a) (names b))
    (hb : bs.Pairwise fun a b => Before (names a) (names b)) (h : ∀ a, a ∈ as ↔ a ∈ bs) :
    as = bs := by
  have : Std.Irrefl fun a b => Before (names a) (names b) := ⟨fun _ => List.lt_irrefl _⟩
  have : Std.Antisymm fun a b => Before (names a) (names b) :=
    ⟨fun _ _ hab hba => absurd (List.lt_trans hab hba) (List.lt_irrefl _)⟩
  exact List.Pairwise.eq_of_mem_iff ha hb h

end Path

namespace FileTree

/-- A tree as a disk can hold it: the entries of each directory stand in order, under names. -/
inductive Proper : FileTree → Prop where
  | file (content : Content) : Proper (.file content)
  | directory {entries : List (String × FileTree)} (sorted : Dict.Sorted entries)
      (names : ∀ e ∈ entries, Path.IsName e.1) (below : ∀ e ∈ entries, Proper e.2) :
      Proper (.directory entries)

theorem entryFiles_eq (entries : List (String × FileTree)) :
    entryFiles entries = entries.flatMap fun e => e.2.files.map fun f => (e.1 :: f.1, f.2) := by
  induction entries with
  | nil => rfl
  | cons e entries ih => rw [entryFiles, ih, List.flatMap_cons]

theorem mem_entryFiles {entries : List (String × FileTree)} {names : List String}
    {content : Content} :
    (names, content) ∈ entryFiles entries ↔
      ∃ name rest t, names = name :: rest ∧ (name, t) ∈ entries ∧ (rest, content) ∈ t.files := by
  rw [entryFiles_eq, List.mem_flatMap]
  constructor
  · rintro ⟨⟨name, t⟩, he, hf⟩
    obtain ⟨⟨rest, c⟩, hrest, heq⟩ := List.mem_map.mp hf
    obtain ⟨rfl, rfl⟩ := Prod.mk.inj heq
    exact ⟨name, rest, t, rfl, he, hrest⟩
  · rintro ⟨name, rest, t, rfl, he, hrest⟩
    exact ⟨(name, t), he, List.mem_map.mpr ⟨(rest, content), hrest, rfl⟩⟩

namespace Proper

variable {t u : FileTree} {names : List String}

/-- The files of a tree are those that names lead to. -/
theorem mem_files (h : Proper t) {content : Content} :
    (names, content) ∈ t.files ↔ t.at? names = some (.file content) := by
  induction h generalizing names with
  | file c => cases names <;> simp [files, at?, eq_comm]
  | @directory entries sorted _ _ ih =>
    rw [files, mem_entryFiles]
    cases names with
    | nil => simp [at?]
    | cons name rest =>
      have hfound : ∀ {u : FileTree}, (name, u) ∈ entries ↔ Dict.get? entries name = some u :=
        Dict.mem_iff_get? sorted.nodup
      constructor
      · rintro ⟨_, _, u, hnames, hu, hrest⟩
        obtain ⟨rfl, rfl⟩ := List.cons.inj hnames
        rw [at?, hfound.mp hu]
        exact (ih _ hu).mp hrest
      · intro hat
        rw [at?] at hat
        split at hat
        · next u hu => exact ⟨name, rest, u, rfl, hfound.mpr hu, (ih _ (hfound.mpr hu)).mpr hat⟩
        · cases hat

/-- No file stands twice, and they stand in the order of their names. -/
theorem pairwise_files (h : Proper t) : t.files.Pairwise fun f g => Path.Before f.1 g.1 := by
  induction h with
  | file => exact List.pairwise_singleton _ _
  | directory sorted _ _ ih =>
    rw [files, entryFiles_eq, List.pairwise_flatMap]
    constructor
    · intro e he
      rw [List.pairwise_map]
      exact (ih e he).imp fun hfg => Path.before_cons.mpr (.inr ⟨rfl, hfg⟩)
    · refine (List.pairwise_map.mp sorted).imp fun {e e'} hlt f hf g hg => ?_
      obtain ⟨f', -, rfl⟩ := List.mem_map.mp hf
      obtain ⟨g', -, rfl⟩ := List.mem_map.mp hg
      exact Path.before_cons.mpr (.inl hlt)

theorem isName (h : Proper t) (hat : t.at? names = some u) : ∀ name ∈ names, Path.IsName name := by
  induction h generalizing names with
  | file => cases names <;> simp_all [at?]
  | directory _ hnames _ ih =>
    cases names with
    | nil => simp
    | cons name rest =>
      rw [at?] at hat
      split at hat
      · next v hv =>
        have hmem := Dict.mem_of_get? hv
        exact List.forall_mem_cons.mpr ⟨hnames _ hmem, ih _ hmem hat⟩
      · cases hat

theorem of_at? (h : Proper t) (hat : t.at? names = some u) : Proper u := by
  induction h generalizing names with
  | file content =>
    cases names with
    | nil => exact Option.some.inj hat ▸ .file content
    | cons => simp [at?] at hat
  | directory sorted hnames hbelow ih =>
    cases names with
    | nil => exact Option.some.inj hat ▸ .directory sorted hnames hbelow
    | cons name rest =>
      rw [at?] at hat
      split at hat
      · next v hv => exact ih _ (Dict.mem_of_get? hv) hat
      · cases hat

end Proper

theorem follow_of_concat_empty {t v : FileTree} {passed : List (String × FileTree)}
    {parts names : List String} (h : follow t passed (parts ++ [""]) = .ok (v, names)) :
    follow t passed parts = .ok (v, names) := by
  induction parts generalizing t passed with
  | nil =>
    obtain ⟨-, u, after, hm, hf⟩ := follow_cons_eq_ok_iff.mp h
    generalize hpart : "" = part at hm
    cases hm with
    | stay => exact hf
    | upAtRoot | up => simp at hpart
    | down hdown => exact absurd (.inl hpart.symm) hdown
  | cons part parts ih =>
    obtain ⟨ht, u, after, hm, hf⟩ := follow_cons_eq_ok_iff.mp h
    exact follow_cons_eq_ok_iff.mpr ⟨ht, u, after, hm, ih hf⟩

theorem follow_concat_empty {t v : FileTree} {passed : List (String × FileTree)}
    {parts names : List String} (hv : v.isDirectory) (h : follow t passed parts = .ok (v, names)) :
    follow t passed (parts ++ [""]) = .ok (v, names) := by
  induction parts generalizing t passed with
  | nil =>
    have hstay : Moves t passed "" t passed := .stay (.inl rfl)
    exact follow_cons_eq_ok_iff.mpr ⟨isDirectory_of_follow hv h, t, passed, hstay, h⟩
  | cons part parts ih =>
    obtain ⟨ht, u, after, hm, hf⟩ := follow_cons_eq_ok_iff.mp h
    exact follow_cons_eq_ok_iff.mpr ⟨ht, u, after, hm, ih hf⟩

end FileTree

namespace Disk

variable {disk : Disk} {path : String} {t u : FileTree} {place names : List String}

theorem locate_eq_ok_iff :
    disk.locate path = .ok (t, place) ↔
      path ≠ "" ∧ disk.root.follow [] (disk.partsOf path) = .ok (t, place) := by
  unfold locate
  split <;> simp_all

theorem exists_locate_of_at? (h : disk.at? path = some t) :
    ∃ place, disk.locate path = .ok (t, place) := by
  unfold at? at h
  split at h
  · next u place hu => exact ⟨place, Option.some.inj h ▸ hu⟩
  · cases h

theorem at?_of_locate (h : disk.locate path = .ok (t, place)) : disk.at? path = some t := by
  rw [at?, h]

theorem proper_of_locate (hroot : disk.root.Proper) (h : disk.locate path = .ok (t, place)) :
    t.Proper :=
  hroot.of_at? (FileTree.Leads.here.at?_of_follow (locate_eq_ok_iff.mp h).2)

theorem partsOf_join (disk : Disk) (path : String) {name : String} (h : Path.IsName name) :
    ∃ above, disk.partsOf (Path.join path name) = above ++ [name] ∧
      (disk.partsOf path = above ∨ disk.partsOf path = above ++ [""]) := by
  obtain ⟨above, hjoin, hpath⟩ := Path.parts_join path h
  rw [partsOf, partsOf, Path.isAbsolute_join path h, hjoin]
  split
  · exact ⟨above, rfl, hpath⟩
  · refine ⟨disk.directory ++ above, (List.append_assoc ..).symm, ?_⟩
    rw [List.append_assoc]
    exact hpath.imp (congrArg _) (congrArg _)

theorem partsOf_eq_append (disk : Disk) (path : String) :
    disk.partsOf path =
      (if Path.isAbsolute path then [] else disk.directory) ++ Path.parts path := by
  unfold partsOf
  split <;> rfl

theorem partsOf_append {ext last : String} {above : List String} (hpath : path ≠ "")
    (hext : '/' ∉ ext.toList) (h : disk.partsOf path = above ++ [last]) :
    disk.partsOf (path ++ ext) = above ++ [last ++ ext] := by
  obtain ⟨above', last', hparts, happend⟩ := Path.parts_append path hext
  have habsolute : Path.isAbsolute (path ++ ext) = Path.isAbsolute path := by
    obtain ⟨c, cs, hcs⟩ : ∃ c cs, path.toList = c :: cs :=
      List.exists_cons_of_ne_nil (by simpa using hpath)
    simp [Path.isAbsolute, hcs]
  rw [partsOf_eq_append, hparts, ← List.append_assoc] at h
  obtain ⟨rfl, hlast⟩ := List.append_inj' h rfl
  rw [partsOf_eq_append, habsolute, happend, List.singleton_inj.mp hlast, List.append_assoc]

theorem fileName?_of_partsOf {last : String} {above : List String}
    (h : disk.partsOf path = above ++ [last])
    (hlast : ¬ (last = "" ∨ last = "." ∨ last = "..")) : Path.fileName? path = some last := by
  obtain ⟨above', last', hparts, -⟩ := Path.parts_append path (by simp : '/' ∉ "".toList)
  rw [partsOf_eq_append, hparts, ← List.append_assoc] at h
  obtain rfl := List.singleton_inj.mp (List.append_inj' h rfl).2
  exact Path.fileName?_of_parts hparts hlast

theorem locate_join (h : disk.locate path = .ok (t, place)) {name : String}
    (hname : Path.IsName name) (hu : t.at? [name] = some u) :
    disk.locate (Path.join path name) = .ok (u, place ++ [name]) := by
  obtain ⟨-, hf⟩ := locate_eq_ok_iff.mp h
  obtain ⟨above, hjoin, hpath⟩ := disk.partsOf_join path hname
  have habove : disk.root.follow [] above = .ok (t, place) := by
    rcases hpath with hpath | hpath
    · rwa [hpath] at hf
    · exact FileTree.follow_of_concat_empty (hpath ▸ hf)
  have hdirectory : t.isDirectory := by
    cases t with
    | file => simp [FileTree.at?] at hu
    | directory => rfl
  have hlast : ¬ (name = "" ∨ name = "." ∨ name = "..") := by
    simp [hname.ne_empty, hname.ne_dot, hname.ne_dots]
  have hplace : disk.root.at? (place ++ [name]) = some u := by
    rw [FileTree.at?_append, FileTree.Leads.here.at?_of_follow hf, Option.bind_some, hu]
  refine locate_eq_ok_iff.mpr ⟨Path.join_ne_empty path hname, ?_⟩
  rw [hjoin]
  exact FileTree.follow_concat_of_kept (fun _ => id) .here .here rfl hdirectory habove hlast hplace

/-- A path that goes on with names that lead from its place leads where they lead. -/
theorem locate_foldl_join (h : disk.locate path = .ok (t, place))
    (hnames : ∀ name ∈ names, Path.IsName name) (hu : t.at? names = some u) :
    disk.locate (names.foldl Path.join path) = .ok (u, place ++ names) := by
  induction names generalizing path t place with
  | nil =>
    obtain rfl := Option.some.inj hu
    rwa [List.append_nil]
  | cons name names ih =>
    obtain ⟨hname, hnames⟩ := List.forall_mem_cons.mp hnames
    rw [← List.singleton_append, FileTree.at?_append, Option.bind_eq_some_iff] at hu
    obtain ⟨v, hv, hu⟩ := hu
    have hrest := ih (locate_join h hname hv) hnames hu
    rwa [List.append_assoc] at hrest

end Disk

end RpcContract
