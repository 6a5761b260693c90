import RpcContract.Files.Changes
import RpcContract.Proofs.Files.Walk

/-! Making the directories above a file. Where no file is in the way they can be made, one after the
other, and then the file can be written; no other file changes. What stands in the way is told by the
places that the parts of a path lead to. -/

namespace RpcContract

namespace FileTree

open Disk (placeStep)

/-- The place that the parts of a path lead to by their names alone, from the root on. -/
def placeAlong (parts : List String) : List String := parts.foldl placeStep []

variable {root t u v : FileTree} {passed after : List (String × FileTree)} {part : String}
  {parts names : List String}

theorem placeAlong_concat (hpart : ¬ (part = "" ∨ part = "." ∨ part = "..")) :
    placeAlong (parts ++ [part]) = placeAlong parts ++ [part] := by
  simp only [not_or] at hpart
  simp [placeAlong, placeStep, hpart]

theorem Moves.place_eq (h : Moves t passed part u after) :
    (after.map (·.1)).reverse = placeStep (passed.map (·.1)).reverse part := by
  unfold placeStep
  cases h with
  | stay h => simp [h]
  | upAtRoot => simp
  | up => simp
  | down h => simp_all

/-- A path leads to the place of its parts. -/
theorem names_eq_of_follow (h : follow t passed parts = .ok (v, names)) :
    names = parts.foldl placeStep (passed.map (·.1)).reverse := by
  induction parts generalizing t passed with
  | nil => exact (follow_nil_eq_ok_iff.mp h).2.symm
  | cons part parts ih =>
    obtain ⟨-, u, after, hm, h⟩ := follow_cons_eq_ok_iff.mp h
    rw [ih h, hm.place_eq, List.foldl_cons]

theorem follow_cons_of_moves (ht : t.isDirectory) (hm : Moves t passed part u after)
    (parts : List String) : follow t passed (part :: parts) = follow u after parts := by
  cases hm with
  | stay hstay => simp [follow, ht, hstay]
  | upAtRoot => simp [follow, ht]
  | up => simp [follow, ht]
  | down hpart hc =>
    simp only [not_or] at hpart
    simp [follow, ht, hpart, hc]

/-- In a directory a part leads on, or it is a name that the directory does not have. -/
theorem moves_or_missing (entries : List (String × FileTree)) (passed : List (String × FileTree))
    (part : String) :
    (∃ u after, Moves (directory entries) passed part u after) ∨
      ¬ (part = "" ∨ part = "." ∨ part = "..") ∧ Dict.get? entries part = none := by
  by_cases hstay : part = "" ∨ part = "."
  · exact .inl ⟨_, passed, .stay hstay⟩
  by_cases hup : part = ".."
  · subst hup
    match passed with
    | [] => exact .inl ⟨_, [], .upAtRoot⟩
    | (name, above) :: passed => exact .inl ⟨above, passed, .up⟩
  have hpart : ¬ (part = "" ∨ part = "." ∨ part = "..") := by tauto
  cases hget : Dict.get? entries part with
  | some u => exact .inl ⟨u, _, .down hpart (by simp [child?, hget])⟩
  | none => exact .inr ⟨hpart, rfl⟩

theorem follow_of_missing {entries : List (String × FileTree)}
    (hpart : ¬ (part = "" ∨ part = "." ∨ part = "..")) (hget : Dict.get? entries part = none)
    (passed : List (String × FileTree)) (parts : List String) :
    follow (directory entries) passed (part :: parts) = .error .notFound := by
  simp only [not_or] at hpart
  simp [follow, isDirectory, hpart, child?, hget]

/-- A path that leads to a directory is gone on from there. -/
theorem follow_append (hv : v.isDirectory) (hlead : Leads root passed t)
    (h : follow t passed parts = .ok (v, names)) :
    ∃ after, Leads root after v ∧ (after.map (·.1)).reverse = names ∧
      ∀ parts', follow t passed (parts ++ parts') = follow v after parts' := by
  induction parts generalizing t passed with
  | nil =>
    obtain ⟨rfl, rfl⟩ := follow_nil_eq_ok_iff.mp h
    exact ⟨passed, hlead, rfl, fun _ => rfl⟩
  | cons part parts ih =>
    obtain ⟨ht, u, after, hm, h⟩ := follow_cons_eq_ok_iff.mp h
    obtain ⟨last, hlast, hnames, hfollow⟩ := ih (hlead.move hm) h
    exact ⟨last, hlast, hnames, fun parts' =>
      (follow_cons_of_moves ht hm _).trans (hfollow parts')⟩

/-- No file is in the way that the parts of a path go. -/
def Clear (root : FileTree) (parts : List String) : Prop :=
  ∀ pre, pre <+: parts → ∀ content, root.stands (placeAlong pre) ≠ some (some content)

theorem Leads.isDirectory_of_moves (h : Leads root passed t)
    (hm : Moves t passed part u after)
    (hno : ∀ content, root.stands (after.map (·.1)).reverse ≠ some (some content)) :
    u.isDirectory := by
  have hu := (h.move hm).at?_eq
  cases u with
  | directory => rfl
  | file content => exact absurd (stands_eq_file_iff.mpr hu) (hno content)

/-- A way without files leads to a directory, or something on it is not there. -/
theorem follow_of_clear (h : Clear root parts) :
    (∃ entries, root.follow [] parts = .ok (.directory entries, placeAlong parts)) ∨
      root.follow [] parts = .error .notFound := by
  suffices hall : ∀ {t passed}, Leads root passed t → t.isDirectory →
      (∀ pre, pre <+: parts → ∀ content,
        root.stands (pre.foldl placeStep (passed.map (·.1)).reverse) ≠ some (some content)) →
      (∃ v names, v.isDirectory ∧ follow t passed parts = .ok (v, names)) ∨
        follow t passed parts = .error .notFound by
    have hroot : root.isDirectory := by
      cases root with
      | directory => rfl
      | file content => exact absurd rfl (h [] (List.nil_prefix) content)
    refine (hall .here hroot h).imp_left ?_
    rintro ⟨v, names, hv, hfollow⟩
    obtain ⟨entries, rfl⟩ := isDirectory_iff.mp hv
    obtain rfl := names_eq_of_follow hfollow
    exact ⟨entries, hfollow⟩
  clear h
  induction parts with
  | nil => exact fun {t passed} _ ht _ => .inl ⟨t, _, ht, follow_nil_eq_ok_iff.mpr ⟨rfl, rfl⟩⟩
  | cons part parts ih =>
    intro t passed hlead ht hclear
    obtain ⟨entries, rfl⟩ := isDirectory_iff.mp ht
    rcases moves_or_missing entries passed part with ⟨u, after, hm⟩ | ⟨hpart, hget⟩
    · rw [follow_cons_of_moves ht hm]
      have hafter := hm.place_eq
      refine ih (hlead.move hm) (hlead.isDirectory_of_moves hm ?_) fun pre hpre => ?_
      · exact hafter ▸ hclear [part] (by simp)
      · exact hafter ▸ hclear (part :: pre) (List.cons_prefix_cons.mpr ⟨rfl, hpre⟩)
    · exact .inr (follow_of_missing hpart hget passed parts)

/-! Empty parts and dots do not matter -/

theorem placeAlong_filter (parts : List String) :
    placeAlong (parts.filter fun part => part != "" && part != ".") = placeAlong parts := by
  unfold placeAlong
  generalize ([] : List String) = place
  induction parts generalizing place with
  | nil => rfl
  | cons part parts ih =>
    by_cases hpart : part = "" ∨ part = "."
    · have hstep : placeStep place part = place := if_pos hpart
      rw [List.foldl_cons, hstep, ← ih]
      rcases hpart with rfl | rfl <;> rfl
    · have hkept : (part != "" && part != ".") = true := by
        simpa [not_or] using hpart
      rw [List.filter_cons, if_pos hkept, List.foldl_cons, List.foldl_cons, ih]

theorem follow_of_filter (hv : v.isDirectory)
    (h : follow t passed (parts.filter fun part => part != "" && part != ".") = .ok (v, names)) :
    follow t passed parts = .ok (v, names) := by
  induction parts generalizing t passed with
  | nil => exact h
  | cons part parts ih =>
    have ht := isDirectory_of_follow hv h
    by_cases hpart : part = "" ∨ part = "."
    · rw [follow_cons_of_moves ht (.stay hpart)]
      refine ih ?_
      rcases hpart with rfl | rfl <;> exact h
    · have hkept : (part != "" && part != ".") = true := by
        simpa [not_or] using hpart
      rw [List.filter_cons, if_pos hkept] at h
      obtain ⟨-, u, after, hm, h⟩ := follow_cons_eq_ok_iff.mp h
      exact follow_cons_eq_ok_iff.mpr ⟨ht, u, after, hm, ih h⟩

end FileTree

namespace Disk

open FileTree (placeAlong placeAlong_filter Clear)

variable {disk disk' disk'' : Disk} {above parts place : List String} {name : String}
  {entries : List (String × FileTree)}

theorem placeOf_eq {path last : String} (hparts : disk.partsOf path = above ++ [last])
    (hlast : ¬ (last = "" ∨ last = "." ∨ last = "..")) :
    disk.placeOf path = placeAlong above ++ [last] :=
  (congrArg placeAlong hparts).trans (FileTree.placeAlong_concat hlast)

/-- A directory stands where the parts of a path lead. -/
def Reaches (disk : Disk) (parts : List String) : Prop :=
  ∃ entries, disk.root.follow [] parts = .ok (.directory entries, placeAlong parts)

/-- A disk with directories added on a way, and nothing else changed. -/
structure Adds (disk : Disk) (parts : List String) (disk' : Disk) : Prop where
  workingDirectory : disk'.directory = disk.directory
  files : ∀ names content,
    disk'.root.stands names = some (some content) ↔ disk.root.stands names = some (some content)
  directories : ∀ names, disk.root.stands names = some none → disk'.root.stands names = some none
  new : ∀ names, disk'.root.stands names = some none →
    disk.root.stands names = some none ∨ ∃ pre, pre <+: parts ∧ placeAlong pre = names

theorem Adds.refl (disk : Disk) (parts : List String) : Adds disk parts disk :=
  ⟨rfl, fun _ _ => .rfl, fun _ => id, fun _ => .inl⟩

theorem Adds.trans {parts' : List String} (h : Adds disk parts disk') (hparts : parts <+: parts')
    (h' : Adds disk' parts' disk'') : Adds disk parts' disk'' := by
  refine ⟨h'.workingDirectory.trans h.workingDirectory,
    fun names content => (h'.files names content).trans (h.files names content),
    fun names => h'.directories names ∘ h.directories names, fun names hnames => ?_⟩
  rcases h'.new names hnames with hold | hpre
  · exact (h.new names hold).imp_right fun ⟨pre, hpre, heq⟩ => ⟨pre, hpre.trans hparts, heq⟩
  · exact .inr hpre

theorem Adds.clear (h : Adds disk parts disk') {parts' : List String}
    (hclear : Clear disk.root parts') : Clear disk'.root parts' :=
  fun pre hpre content => mt (h.files _ _).mp (hclear pre hpre content)

theorem Adds.isDirectory_kept (h : Adds disk parts disk') (names : List String)
    (hd : (disk.root.at? names).any FileTree.isDirectory) :
    (disk'.root.at? names).any FileTree.isDirectory := by
  rw [← FileTree.stands_eq_directory_iff] at hd ⊢
  exact h.directories names hd

/-! One directory -/

section

variable (hf : disk.root.follow [] above = .ok (.directory entries, place))

include hf

/-- What becomes of a directory that is to be made in one that is there. -/
theorem makeDirectory_concat (name : String) :
    disk.makeDirectory (above ++ [name]) =
      if name = "" ∨ name = ".." then .error .alreadyExists
      else
        match Dict.get? entries name with
        | some _ => .error .alreadyExists
        | none => .ok (disk.put (place ++ [name]) .empty) := by
  unfold makeDirectory
  simp only [List.dropLast_concat, List.getLastD_concat, hf]
  rfl

/-- An empty directory is added where nothing stood. -/
theorem adds_put (hname : ¬ (name = "" ∨ name = "." ∨ name = ".."))
    (hget : Dict.get? entries name = none) :
    Adds disk (above ++ [name]) (disk.put (place ++ [name]) .empty) ∧
      Reaches (disk.put (place ++ [name]) .empty) (above ++ [name]) := by
  have hroot := FileTree.Leads.here.at?_of_follow hf
  obtain rfl : place = placeAlong above := FileTree.names_eq_of_follow hf
  have hplace : placeAlong (above ++ [name]) = placeAlong above ++ [name] :=
    FileTree.placeAlong_concat hname
  have hnone : disk.root.stands (placeAlong above ++ [name]) = none := by
    simp [FileTree.stands, FileTree.at?_append, hroot, FileTree.at?_singleton, hget]
  have hput : (disk.put (placeAlong above ++ [name]) .empty).root.stands
      (placeAlong above ++ [name]) = some none := by
    rw [FileTree.stands_eq_directory_iff]
    exact (congrArg (Option.any _) (FileTree.at?_put_self _ _ _)).trans rfl
  have hothers : ∀ names, names ≠ placeAlong above ++ [name] →
      (disk.put (placeAlong above ++ [name]) .empty).root.stands names = disk.root.stands names :=
    fun names hne => FileTree.stands_put (by simp [FileTree.empty, FileTree.at?]) hroot
      (by simp [hget]) hne
  have hadds : Adds disk (above ++ [name]) (disk.put (placeAlong above ++ [name]) .empty) := by
    refine ⟨rfl, fun names content => ?_, fun names h => ?_, fun names h => ?_⟩
    · by_cases hne : names = placeAlong above ++ [name]
      · simp [hne, hnone, hput]
      · rw [hothers names hne]
    · rw [hothers names fun heq => by simp [heq, hnone] at h, h]
    · by_cases hne : names = placeAlong above ++ [name]
      · exact .inr ⟨above ++ [name], List.prefix_rfl, hplace.trans hne.symm⟩
      · exact .inl (hothers names hne ▸ h)
  refine ⟨hadds, [], ?_⟩
  rw [hplace]
  exact FileTree.follow_concat_of_kept hadds.isDirectory_kept .here .here rfl rfl hf hname
    (FileTree.at?_put_self _ _ _)

/-- A directory can be made in one that is there, or is there already, if no file is. -/
theorem exists_ensureDirectory (hclear : Clear disk.root (above ++ [name])) (hdot : name ≠ ".") :
    ∃ disk', disk.ensureDirectory (above ++ [name]) = .ok disk' ∧
      Adds disk (above ++ [name]) disk' ∧ Reaches disk' (above ++ [name]) := by
  obtain ⟨after, -, -, hfollow⟩ := FileTree.follow_append rfl .here hf
  rcases FileTree.moves_or_missing entries after name with ⟨u, after', hm⟩ | ⟨hname, hget⟩
  · have hreaches : Reaches disk (above ++ [name]) := by
      refine (FileTree.follow_of_clear hclear).resolve_right ?_
      rw [hfollow, FileTree.follow_cons_of_moves rfl hm]
      simp [FileTree.follow]
    have hexists : disk.makeDirectory (above ++ [name]) = .error .alreadyExists := by
      rw [makeDirectory_concat hf]
      cases hm with
      | stay hstay => rw [if_pos (.inl (hstay.resolve_right hdot))]
      | upAtRoot | up => rfl
      | down hpart hc =>
        rw [if_neg (by tauto)]
        rw [FileTree.child?_eq_ok_iff, FileTree.at?_singleton] at hc
        rw [hc]
    refine ⟨disk, ?_, .refl disk _, hreaches⟩
    obtain ⟨inner, hinner⟩ := hreaches
    simp [ensureDirectory, hexists, isDirectoryAt, hinner, FileTree.isDirectory]
  · obtain ⟨hadds, hreaches⟩ := adds_put hf hname hget
    refine ⟨_, ?_, hadds, hreaches⟩
    rw [ensureDirectory, makeDirectory_concat hf, if_neg (by tauto), hget]

end

/-! All directories of a way -/

/-- The directories of a way without files can be made. -/
theorem exists_makeAll (reversed : List String) (hclear : Clear disk.root reversed.reverse)
    (hdot : "." ∉ reversed) :
    ∃ disk', disk.makeAll reversed = .ok disk' ∧ Adds disk reversed.reverse disk' ∧
      Reaches disk' reversed.reverse := by
  induction reversed with
  | nil =>
    refine ⟨disk, rfl, .refl disk _, (FileTree.follow_of_clear hclear).resolve_right ?_⟩
    simp [FileTree.follow]
  | cons name reversed ih =>
    obtain ⟨hname, hdot⟩ := not_or.mp (mt List.mem_cons.mpr hdot)
    rw [List.reverse_cons] at hclear ⊢
    have habove : Clear disk.root reversed.reverse :=
      fun pre hpre => hclear pre (hpre.trans (List.prefix_append _ _))
    rcases FileTree.follow_of_clear habove with ⟨entries, hf⟩ | hmissing
    · have hall : disk.makeAll (name :: reversed) =
          disk.ensureDirectory (reversed.reverse ++ [name]) := by
        rw [makeAll, List.reverse_cons, makeDirectory_concat hf]
        by_cases hspecial : name = "" ∨ name = ".."
        · rw [if_pos hspecial]
        · rw [if_neg hspecial]
          cases Dict.get? entries name <;> rfl
      rw [hall]
      exact exists_ensureDirectory hf hclear (Ne.symm hname)
    · obtain ⟨disk₁, hmade, hadds, entries, hf⟩ := ih habove hdot
      obtain ⟨disk₂, hensured, hadds', hreaches⟩ :=
        exists_ensureDirectory hf (hadds.clear hclear) (Ne.symm hname)
      have hnone : disk.makeDirectory (reversed.reverse ++ [name]) = .error .notFound := by
        simp [makeDirectory, hmissing, Except.bind]
      refine ⟨disk₂, ?_, hadds.trans (List.prefix_append _ _) hadds', hreaches⟩
      rw [makeAll, List.reverse_cons, hnone]
      simp [hmade, hensured, Except.bind]

/-! A file and the directories above it -/

/-- There is room for a file at a path: on the way no file stands, and the way does not pass the
place of the file, at which no directory stands. The working directory is there. -/
structure Admits (disk : Disk) (path : String) : Prop where
  workingDirectory : Reaches disk disk.directory ∧ ∀ name ∈ disk.directory, Path.IsName name
  clear : Clear disk.root (disk.partsOf path).dropLast
  free : disk.root.stands (disk.placeOf path) ≠ some none
  apart : ∀ pre, pre <+: (disk.partsOf path).dropLast →
    placeAlong pre ≠ disk.placeOf path

theorem exists_prefix_of_filter {pre : List String}
    (h : pre <+: parts.filter fun part => part != "" && part != ".") :
    ∃ pre', pre' <+: parts ∧ placeAlong pre' = placeAlong pre := by
  obtain ⟨post, hpre⟩ := h
  obtain ⟨pre', post', rfl, rfl, -⟩ := List.filter_eq_append_iff.mp hpre.symm
  exact ⟨pre', List.prefix_append _ _, (placeAlong_filter pre').symm⟩

theorem Adds.of_filter (h : Adds disk (parts.filter fun part => part != "" && part != ".") disk') :
    Adds disk parts disk' := by
  refine ⟨h.workingDirectory, h.files, h.directories, fun names hnames => ?_⟩
  refine (h.new names hnames).imp_right ?_
  rintro ⟨pre, hpre, rfl⟩
  exact exists_prefix_of_filter hpre

theorem clear_filter (h : Clear disk.root parts) :
    Clear disk.root (parts.filter fun part => part != "" && part != ".") := by
  intro pre hpre content
  obtain ⟨pre', hpre', hplace⟩ := exists_prefix_of_filter hpre
  exact hplace ▸ h pre' hpre' content

theorem reaches_of_filter (h : Reaches disk (parts.filter fun part => part != "" && part != ".")) :
    Reaches disk parts := by
  obtain ⟨entries, hf⟩ := h
  rw [placeAlong_filter] at hf
  exact ⟨entries, FileTree.follow_of_filter rfl hf⟩

/-- The way to a file: from the root or the working directory, by the names of the path. -/
theorem filter_partsOf {path last : String} (hnames : ∀ name ∈ disk.directory, Path.IsName name)
    (hparts : disk.partsOf path = above ++ [last])
    (hlast : ¬ (last = "" ∨ last = "." ∨ last = "..")) :
    (above.filter fun part => part != "" && part != ".") =
      (if Path.isAbsolute path then [] else disk.directory) ++ (Path.names path).dropLast := by
  obtain ⟨above', last', hpath, -⟩ := Path.parts_append path (by simp : '/' ∉ "".toList)
  rw [partsOf_eq_append, hpath, ← List.append_assoc] at hparts
  obtain ⟨rfl, hsame⟩ := List.append_inj' hparts rfl
  obtain rfl := List.singleton_inj.mp hsame
  simp only [not_or] at hlast
  have hkept : (disk.directory.filter fun part => part != "" && part != ".") = disk.directory := by
    rw [List.filter_eq_self]
    intro name hname
    simp [(hnames name hname).ne_empty, (hnames name hname).ne_dot]
  simp only [List.filter_append, Path.names, hpath]
  split <;> simp [hlast, hkept]

/-- The directories above a file can be made where there is room for it. -/
theorem Admits.exists_makeParents {path last : String} (h : disk.Admits path)
    (hparts : disk.partsOf path = above ++ [last])
    (hlast : ¬ (last = "" ∨ last = "." ∨ last = "..")) :
    ∃ disk', disk.makeParents path = .ok disk' ∧ Adds disk above disk' ∧ Reaches disk' above := by
  have hway := filter_partsOf h.workingDirectory.2 hparts hlast
  have hclear : Clear disk.root above := by
    have := h.clear
    rwa [hparts, List.dropLast_concat] at this
  unfold makeParents
  by_cases hnil : (Path.names path).dropLast = []
  · refine ⟨disk, if_pos hnil, .refl disk _, reaches_of_filter ?_⟩
    rw [hway, hnil, List.append_nil]
    split
    · refine (FileTree.follow_of_clear fun pre hpre => ?_).resolve_right (by simp [FileTree.follow])
      exact hclear pre (hpre.trans List.nil_prefix)
    · exact h.workingDirectory.1
  · have hfiltered := clear_filter hclear
    rw [hway] at hfiltered
    have hdot : "." ∉ ((if Path.isAbsolute path then [] else disk.directory) ++
        (Path.names path).dropLast).reverse := by
      rw [List.mem_reverse, ← hway]
      simp
    obtain ⟨disk', hmade, hadds, hreaches⟩ :=
      exists_makeAll _ (by rwa [List.reverse_reverse]) hdot
    rw [List.reverse_reverse, ← hway] at hadds hreaches
    exact ⟨disk', (if_neg hnil).trans hmade, hadds.of_filter, reaches_of_filter hreaches⟩

/-- A file can be written under a name that no directory has. -/
theorem exists_write {path last : String} (hpath : path ≠ "")
    (hparts : disk.partsOf path = parts ++ [last])
    (hf : disk.root.follow [] parts = .ok (.directory entries, place))
    (hlast : ¬ (last = "" ∨ last = "." ∨ last = ".."))
    (hno : ∀ inner, Dict.get? entries last ≠ some (.directory inner)) (text : String) :
    ∃ disk', disk.write path text = .ok disk' := by
  refine ⟨disk.put (place ++ [last]) (.file (.text text)), ?_⟩
  unfold write
  rw [if_neg hpath]
  simp only [hparts, List.dropLast_concat, List.getLastD_concat, hf, if_neg hlast,
    Except.monadBind_eq_bind, Except.bind]

/-- A disk on which a file was stored at a path. Every other file was there before. -/
structure Stores (disk : Disk) (path : String) (content : Content) (disk' : Disk) : Prop where
  workingDirectory : disk'.directory = disk.directory
  located : disk'.locate path = .ok (.file content, disk.placeOf path)
  others : ∀ names content', names ≠ disk.placeOf path →
    disk'.root.stands names = some (some content') → disk.root.stands names = some (some content')

/-- Where there is room for a file, it can be stored. -/
theorem Admits.exists_stores {path last : String} (h : disk.Admits path) (hpath : path ≠ "")
    (hparts : disk.partsOf path = above ++ [last])
    (hlast : ¬ (last = "" ∨ last = "." ∨ last = "..")) (text : String) :
    ∃ disk₁ disk₂, disk.makeParents path = .ok disk₁ ∧ disk₁.write path text = .ok disk₂ ∧
      Stores disk path (.text text) disk₂ := by
  obtain ⟨disk₁, hmade, hadds, entries, hf⟩ := h.exists_makeParents hparts hlast
  have hplace := placeOf_eq hparts hlast
  have hparts₁ : disk₁.partsOf path = above ++ [last] := by
    rw [partsOf, hadds.workingDirectory]
    exact hparts
  have hno : ∀ inner, Dict.get? entries last ≠ some (.directory inner) := by
    intro inner hinner
    have hstands : disk₁.root.stands (placeAlong above ++ [last]) = some none := by
      simp [FileTree.stands, FileTree.at?_append, FileTree.Leads.here.at?_of_follow hf,
        FileTree.at?_singleton, hinner, FileTree.content?]
    rcases hadds.new _ hstands with hold | ⟨pre, hpre, heq⟩
    · exact h.free (hplace ▸ hold)
    · refine h.apart pre ?_ (heq.trans hplace.symm)
      rwa [hparts, List.dropLast_concat]
  obtain ⟨disk₂, hwrite⟩ := exists_write hpath hparts₁ hf hlast hno text
  refine ⟨disk₁, disk₂, hmade, hwrite, ?_⟩
  obtain ⟨parts, last', entries', above', hparts', hf', -, hputs, hlocated⟩ := puts_of_write hwrite
  obtain ⟨rfl, hsame⟩ := List.append_inj' (hparts₁.symm.trans hparts') rfl
  obtain rfl := List.singleton_inj.mp hsame
  obtain ⟨-, rfl⟩ := Prod.mk.inj (Except.ok.inj (hf.symm.trans hf'))
  refine ⟨hputs.workingDirectory.trans hadds.workingDirectory, hplace ▸ hlocated, ?_⟩
  intro names content' hne hstands
  rw [hputs.others names (hplace ▸ hne)] at hstands
  exact (hadds.files names content').mp hstands

end Disk

end RpcContract
