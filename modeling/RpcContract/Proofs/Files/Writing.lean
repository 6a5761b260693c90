import RpcContract.Files.Disk
import RpcContract.Proofs.Outcome

/-! What is written at a path is read back from it, and every other file is read as before. A path
is followed by names only, and writing a file leaves what stands elsewhere in its place; so a path
that led to a directory or to another file still does. -/

namespace RpcContract

namespace FileTree

/-- What stands under names that lead down into a tree. -/
def at? : FileTree → List String → Option FileTree
  | t, [] => some t
  | .file _, _ :: _ => none
  | .directory entries, name :: names =>
    match Dict.get? entries name with
    | some t => at? t names
    | none => none

theorem at?_append (t : FileTree) (names names' : List String) :
    t.at? (names ++ names') = (t.at? names).bind (at? · names') := by
  induction names generalizing t with
  | nil => simp [at?]
  | cons name names ih =>
    cases t with
    | file => simp [at?]
    | directory entries =>
      simp only [List.cons_append, at?]
      cases Dict.get? entries name with
      | none => rfl
      | some u => exact ih u

theorem at?_singleton {entries : List (String × FileTree)} (name : String) :
    (directory entries).at? [name] = Dict.get? entries name := by
  simp only [at?]
  cases Dict.get? entries name <;> rfl

theorem at?_put_self (u : FileTree) (names : List String) (t : FileTree) :
    (put u names t).at? names = some u := by
  induction names generalizing t with
  | nil => rfl
  | cons name names ih =>
    cases t with
    | file => simp [put, at?, Dict.get?_cons, ih]
    | directory entries => simp [put, at?, Dict.get?_insert, ih]

theorem isDirectory_iff {t : FileTree} : t.isDirectory ↔ ∃ entries, t = .directory entries := by
  cases t <;> simp [isDirectory]

/-- The content of a file; nothing for a directory. -/
def content? : FileTree → Option Content
  | .file content => some content
  | .directory _ => none

/-- What stands under names: nothing, a directory, or a file with its content. -/
def stands (t : FileTree) (names : List String) : Option (Option Content) :=
  (t.at? names).map content?

variable {content : Content}

theorem stands_eq_file_iff {t : FileTree} {names : List String} :
    t.stands names = some (some content) ↔ t.at? names = some (.file content) := by
  unfold stands
  cases t.at? names with
  | none => simp
  | some u => cases u <;> simp [content?]

theorem stands_eq_directory_iff {t : FileTree} {names : List String} :
    t.stands names = some none ↔ (t.at? names).any isDirectory := by
  unfold stands
  cases t.at? names with
  | none => simp
  | some u => cases u <;> simp [content?, isDirectory]

/-- A file or an empty directory that is put in a directory, where none stands below it, changes no
other place. -/
theorem stands_put {t u : FileTree} {entries : List (String × FileTree)}
    {above names : List String} {last : String}
    (hleaf : ∀ name rest, u.at? (name :: rest) = none)
    (h : t.at? above = some (.directory entries))
    (hno : ∀ inner, Dict.get? entries last ≠ some (.directory inner))
    (hne : names ≠ above ++ [last]) :
    (put u (above ++ [last]) t).stands names = t.stands names := by
  induction above generalizing t names with
  | nil =>
    obtain rfl := Option.some.inj h
    cases names with
    | nil => rfl
    | cons name names =>
      simp only [List.nil_append, put, stands, at?, Dict.get?_insert]
      by_cases hname : last = name
      · subst hname
        obtain ⟨name, rest, rfl⟩ := List.exists_cons_of_ne_nil (l := names) (by simpa using hne)
        -- the rest of the names goes on below what is put, where nothing stands before or after
        cases hg : Dict.get? entries last with
        | none => simp [hleaf]
        | some v =>
          cases v with
          | file => simp [hleaf, at?]
          | directory inner => exact absurd hg (hno inner)
      · simp [hname]
  | cons first above ih =>
    cases t with
    | file => cases h
    | directory es =>
      rw [at?] at h
      cases hg : Dict.get? es first with
      | none => simp [hg] at h
      | some v =>
        rw [hg] at h
        cases names with
        | nil => rfl
        | cons name names =>
          simp only [List.cons_append, put, stands, at?, Dict.get?_insert, hg, Option.getD_some]
          by_cases hname : first = name
          · subst hname
            have hrest : names ≠ above ++ [last] := by simpa using hne
            simpa [hg, stands] using ih h hrest
          · simp [hname]

/-! Following a path -/

/-- What one part of a path does: it stays, goes up, which at the root is to stay, or goes down. -/
inductive Moves : FileTree → List (String × FileTree) → String → FileTree →
    List (String × FileTree) → Prop where
  | stay {t : FileTree} {passed : List (String × FileTree)} {part : String}
      (h : part = "" ∨ part = ".") : Moves t passed part t passed
  | upAtRoot {t : FileTree} : Moves t [] ".." t []
  | up {t above : FileTree} {passed : List (String × FileTree)} {name : String} :
      Moves t ((name, above) :: passed) ".." above passed
  | down {t u : FileTree} {passed : List (String × FileTree)} {part : String}
      (h : ¬ (part = "" ∨ part = "." ∨ part = "..")) (hc : t.child? part = .ok u) :
      Moves t passed part u ((part, t) :: passed)

variable {root root' t t' u v : FileTree} {passed passed' after : List (String × FileTree)}
  {part : String} {parts names : List String}

theorem follow_nil_eq_ok_iff :
    follow t passed [] = .ok (v, names) ↔ t = v ∧ (passed.map (·.1)).reverse = names := by
  simp [follow]

theorem follow_cons_eq_ok_iff :
    follow t passed (part :: parts) = .ok (v, names) ↔
      t.isDirectory ∧ ∃ u after, Moves t passed part u after ∧
        follow u after parts = .ok (v, names) := by
  constructor
  · intro h
    unfold follow at h
    split at h
    · cases h
    · next ht =>
      refine ⟨by simpa using ht, ?_⟩
      split at h
      · next hstay => exact ⟨_, _, .stay hstay, h⟩
      · next hstay =>
        split at h
        · next hup =>
          subst hup
          split at h
          · exact ⟨_, _, .upAtRoot, h⟩
          · exact ⟨_, _, .up, h⟩
        · next hup =>
          split at h
          · next hc => exact ⟨_, _, .down (by tauto) hc, h⟩
          · cases h
  · rintro ⟨ht, u, after, hm, h⟩
    unfold follow
    cases hm with
    | stay hstay => simp [ht, hstay, h]
    | upAtRoot => simp [ht, h]
    | up => simp [ht, h]
    | down hpart hc =>
      simp only [not_or] at hpart
      simp [ht, hpart, hc, h]

/-- The directories that were passed lead down from the root to a tree. -/
inductive Leads (root : FileTree) : List (String × FileTree) → FileTree → Prop where
  | here : Leads root [] root
  | down {passed : List (String × FileTree)} {t u : FileTree} {name : String}
      (h : Leads root passed t) (hc : t.child? name = .ok u) : Leads root ((name, t) :: passed) u

theorem child?_eq_ok_iff {name : String} : t.child? name = .ok u ↔ t.at? [name] = some u := by
  cases t with
  | file => simp [child?, at?]
  | directory entries =>
    simp only [child?, at?]
    cases Dict.get? entries name <;> simp

namespace Leads

theorem at?_eq (h : Leads root passed t) : root.at? (passed.map (·.1)).reverse = some t := by
  induction h with
  | here => cases root <;> rfl
  | down _ hc ih =>
    rw [List.map_cons, List.reverse_cons, at?_append, ih, Option.bind_some, child?_eq_ok_iff.mp hc]

theorem move (h : Leads root passed t) (hm : Moves t passed part u after) : Leads root after u := by
  cases hm with
  | stay => exact h
  | upAtRoot => exact h
  | up => cases h with | down h _ => exact h
  | down _ hc => exact .down h hc

theorem at?_of_follow (h : Leads root passed t) (hf : follow t passed parts = .ok (v, names)) :
    root.at? names = some v := by
  induction parts generalizing t passed with
  | nil =>
    obtain ⟨rfl, rfl⟩ := follow_nil_eq_ok_iff.mp hf
    exact h.at?_eq
  | cons part parts ih =>
    obtain ⟨-, u, after, hm, hf⟩ := follow_cons_eq_ok_iff.mp hf
    exact ih (h.move hm) hf

end Leads

/-- A path to a file ends with its name, which is looked up in a directory. -/
theorem of_follow_file {last : String} (h : Leads root passed t)
    (hf : follow t passed (parts ++ [last]) = .ok (.file content, names)) :
    ∃ entries above, follow t passed parts = .ok (.directory entries, above) ∧
      ¬ (last = "" ∨ last = "." ∨ last = "..") ∧ names = above ++ [last] := by
  induction parts generalizing t passed with
  | nil =>
    obtain ⟨ht, u, after, hm, hf⟩ := follow_cons_eq_ok_iff.mp hf
    obtain ⟨rfl, rfl⟩ := follow_nil_eq_ok_iff.mp hf
    obtain ⟨entries, rfl⟩ := isDirectory_iff.mp ht
    cases hm with
    | up => cases h with | down _ hc => cases hc
    | down hlast hc =>
      exact ⟨entries, _, follow_nil_eq_ok_iff.mpr ⟨rfl, rfl⟩, hlast, by simp⟩
  | cons part parts ih =>
    obtain ⟨ht, u, after, hm, hf⟩ := follow_cons_eq_ok_iff.mp hf
    obtain ⟨entries, above, hfollow, hlast, hnames⟩ := ih (h.move hm) hf
    exact ⟨entries, above, follow_cons_eq_ok_iff.mpr ⟨ht, u, after, hm, hfollow⟩, hlast, hnames⟩

theorem isDirectory_of_follow (hv : v.isDirectory)
    (hf : follow t passed parts = .ok (v, names)) : t.isDirectory := by
  cases parts with
  | nil =>
    obtain ⟨rfl, -⟩ := follow_nil_eq_ok_iff.mp hf
    exact hv
  | cons part parts => exact (follow_cons_eq_ok_iff.mp hf).1

section

variable (hkept : ∀ names, (root.at? names).any isDirectory → (root'.at? names).any isDirectory)

include hkept

theorem Leads.isDirectory_kept (h : Leads root passed t) (h' : Leads root' passed' t')
    (hp : passed'.map (·.1) = passed.map (·.1)) (ht : t.isDirectory) : t'.isDirectory := by
  have hroot := hkept _ (by rw [h.at?_eq]; exact ht)
  rwa [← hp, h'.at?_eq] at hroot

/-- A part of a path that leads to a directory does the same where all directories are kept. -/
theorem Moves.kept (h : Leads root passed t) (h' : Leads root' passed' t')
    (hp : passed'.map (·.1) = passed.map (·.1)) (hm : Moves t passed part u after)
    (hu : u.isDirectory) :
    ∃ u' after', Moves t' passed' part u' after' ∧ after'.map (·.1) = after.map (·.1) := by
  cases hm with
  | stay hstay => exact ⟨t', passed', .stay hstay, hp⟩
  | upAtRoot =>
    obtain rfl := List.map_eq_nil_iff.mp hp
    exact ⟨t', [], .upAtRoot, rfl⟩
  | up =>
    obtain ⟨⟨name, above⟩, after', rfl, -, hp⟩ := List.map_eq_cons_iff.mp hp
    exact ⟨above, after', .up, hp⟩
  | down hpart hc =>
    have hroot' := hkept ((passed.map (·.1)).reverse ++ [part]) (by
      rw [at?_append, h.at?_eq, Option.bind_some, child?_eq_ok_iff.mp hc]
      exact hu)
    rw [at?_append, ← hp, h'.at?_eq, Option.bind_some, Option.any_eq_true] at hroot'
    obtain ⟨u', hc', -⟩ := hroot'
    exact ⟨u', (part, t') :: passed', .down hpart (child?_eq_ok_iff.mpr hc'), by
      rw [List.map_cons, List.map_cons, hp]⟩

/-- A path to a directory leads to the same place where all directories are kept, and on from
there. -/
theorem follow_concat_of_kept (h : Leads root passed t) (h' : Leads root' passed' t')
    (hp : passed'.map (·.1) = passed.map (·.1)) (hv : v.isDirectory)
    (hf : follow t passed parts = .ok (v, names)) {last : String}
    (hlast : ¬ (last = "" ∨ last = "." ∨ last = "..")) (hu : root'.at? (names ++ [last]) = some u) :
    follow t' passed' (parts ++ [last]) = .ok (u, names ++ [last]) := by
  have ht' := h.isDirectory_kept hkept h' hp (isDirectory_of_follow hv hf)
  induction parts generalizing t t' passed passed' with
  | nil =>
    obtain ⟨rfl, rfl⟩ := follow_nil_eq_ok_iff.mp hf
    rw [← hp, at?_append, h'.at?_eq, Option.bind_some] at hu
    have hm : Moves t' passed' last u ((last, t') :: passed') :=
      .down hlast (child?_eq_ok_iff.mpr hu)
    refine follow_cons_eq_ok_iff.mpr ⟨ht', _, _, hm, follow_nil_eq_ok_iff.mpr ⟨rfl, ?_⟩⟩
    rw [List.map_cons, List.reverse_cons, hp]
  | cons part parts ih =>
    obtain ⟨-, w, after, hm, hf⟩ := follow_cons_eq_ok_iff.mp hf
    have hw := isDirectory_of_follow hv hf
    obtain ⟨w', after', hm', hafter⟩ := hm.kept hkept h h' hp hw
    have hw' := (h.move hm).isDirectory_kept hkept (h'.move hm') hafter hw
    exact follow_cons_eq_ok_iff.mpr
      ⟨ht', w', after', hm', ih (h.move hm) (h'.move hm') hafter hf hw'⟩

end

end FileTree

namespace Disk

theorem exists_partsOf (disk : Disk) (path : String) :
    ∃ parts last, disk.partsOf path = parts ++ [last] := by
  have hparts : Path.parts path ≠ [] := by
    simp [Path.parts, List.splitOn_ne_nil]
  refine (List.eq_nil_or_concat' _).resolve_left ?_
  unfold partsOf
  split
  · exact hparts
  · simp [hparts]

/-- Where a file is written: in a directory that is there, under a name that no directory has. -/
theorem of_write {disk disk' : Disk} {path text : String} (h : disk.write path text = .ok disk') :
    path ≠ "" ∧ ∃ parts last entries names, disk.partsOf path = parts ++ [last] ∧
      disk.root.follow [] parts = .ok (.directory entries, names) ∧
      ¬ (last = "" ∨ last = "." ∨ last = "..") ∧
      (∀ inner, Dict.get? entries last ≠ some (.directory inner)) ∧
      disk' = disk.put (names ++ [last]) (.file (.text text)) := by
  obtain ⟨parts, last, hparts⟩ := disk.exists_partsOf path
  unfold write at h
  split at h
  · cases h
  · next hpath =>
    simp only [hparts, List.dropLast_concat, List.getLastD_concat, Except.monadBind_eq_bind,
      Except.bind_eq_ok_iff] at h
    obtain ⟨⟨v, names⟩, hf, h⟩ := h
    split at h
    · cases h
    · next entries names' hv =>
      obtain ⟨rfl, rfl⟩ := Prod.mk.inj hv
      split at h
      · cases h
      · next hlast =>
        split at h
        · cases h
        · next hno =>
          cases h
          exact ⟨hpath, parts, last, entries, names, hparts, hf, hlast, hno, rfl⟩

/-- Where a file is found: under a name in a directory. -/
theorem of_locate_file {disk : Disk} {path : String} {content : Content} {names : List String}
    (h : disk.locate path = .ok (.file content, names)) :
    path ≠ "" ∧ ∃ parts last entries above, disk.partsOf path = parts ++ [last] ∧
      disk.root.follow [] parts = .ok (.directory entries, above) ∧
      ¬ (last = "" ∨ last = "." ∨ last = "..") ∧
      names = above ++ [last] ∧ disk.root.stands names = some (some content) := by
  unfold locate at h
  split at h
  · cases h
  · next hpath =>
    have hstands : disk.root.stands names = some (some content) :=
      FileTree.stands_eq_file_iff.mpr (FileTree.Leads.here.at?_of_follow h)
    obtain ⟨parts, last, hparts⟩ := disk.exists_partsOf path
    rw [hparts] at h
    obtain ⟨entries, above, hf, hlast, hnames⟩ := FileTree.of_follow_file .here h
    exact ⟨hpath, parts, last, entries, above, hparts, hf, hlast, hnames, hstands⟩

/-- A disk with a file in a place where no directory stood, and nothing else changed. -/
structure Puts (disk : Disk) (place : List String) (content : Content) (disk' : Disk) : Prop where
  workingDirectory : disk'.directory = disk.directory
  noDirectory : disk.root.stands place ≠ some none
  written : disk'.root.stands place = some (some content)
  others : ∀ names, names ≠ place → disk'.root.stands names = disk.root.stands names

namespace Puts

variable {disk disk' : Disk} {place names : List String} {content content' : Content}
  {path : String}

theorem isDirectory_kept (h : Puts disk place content disk') (names : List String)
    (hd : (disk.root.at? names).any FileTree.isDirectory) :
    (disk'.root.at? names).any FileTree.isDirectory := by
  rw [← FileTree.stands_eq_directory_iff] at hd ⊢
  rw [h.others names fun he => h.noDirectory (he ▸ hd), hd]

theorem partsOf_eq (h : Puts disk place content disk') (path : String) :
    disk'.partsOf path = disk.partsOf path := by
  rw [partsOf, partsOf, h.workingDirectory]

/-- A path through a directory to a name that a file has afterwards. -/
theorem locate_eq (h : Puts disk place content disk') (hpath : path ≠ "")
    {parts above : List String} {last : String} {entries : List (String × FileTree)}
    (hparts : disk.partsOf path = parts ++ [last])
    (hf : disk.root.follow [] parts = .ok (.directory entries, above))
    (hlast : ¬ (last = "" ∨ last = "." ∨ last = ".."))
    (hfile : disk'.root.stands (above ++ [last]) = some (some content')) :
    disk'.locate path = .ok (.file content', above ++ [last]) := by
  rw [locate, if_neg hpath, h.partsOf_eq, hparts]
  exact FileTree.follow_concat_of_kept h.isDirectory_kept .here .here rfl rfl hf hlast
    (FileTree.stands_eq_file_iff.mp hfile)

/-- Other files are found as before. -/
theorem locate_kept (h : Puts disk place content disk')
    (hl : disk.locate path = .ok (.file content', names)) (hne : names ≠ place) :
    disk'.locate path = .ok (.file content', names) := by
  obtain ⟨hpath, parts, last, entries, above, hparts, hf, hlast, rfl, hstands⟩ := of_locate_file hl
  exact h.locate_eq hpath hparts hf hlast ((h.others _ hne).trans hstands)

end Puts

/-- Where a file is written, and that it is found there. -/
theorem puts_of_write {disk disk' : Disk} {path text : String}
    (h : disk.write path text = .ok disk') :
    ∃ parts last entries above, disk.partsOf path = parts ++ [last] ∧
      disk.root.follow [] parts = .ok (.directory entries, above) ∧
      ¬ (last = "" ∨ last = "." ∨ last = "..") ∧
      Puts disk (above ++ [last]) (.text text) disk' ∧
      disk'.locate path = .ok (.file (.text text), above ++ [last]) := by
  obtain ⟨hpath, parts, last, entries, above, hparts, hf, hlast, hno, rfl⟩ := of_write h
  have hroot := FileTree.Leads.here.at?_of_follow hf
  have hputs : Puts disk (above ++ [last]) (.text text)
      (disk.put (above ++ [last]) (.file (.text text))) := by
    refine ⟨rfl, ?_, ?_, fun names hne =>
      FileTree.stands_put (by simp [FileTree.at?]) hroot hno hne⟩
    · rw [ne_eq, FileTree.stands_eq_directory_iff, FileTree.at?_append, hroot, Option.bind_some,
        FileTree.at?_singleton, Option.any_eq_true]
      rintro ⟨v, hv, hd⟩
      obtain ⟨inner, rfl⟩ := FileTree.isDirectory_iff.mp hd
      exact hno inner hv
    · exact FileTree.stands_eq_file_iff.mpr (FileTree.at?_put_self _ _ _)
  exact ⟨parts, last, entries, above, hparts, hf, hlast, hputs,
    hputs.locate_eq hpath hparts hf hlast hputs.written⟩

theorem content_eq_ok_iff {disk : Disk} {path : String} {content : Content} :
    disk.content path = .ok content ↔ ∃ names, disk.locate path = .ok (.file content, names) := by
  unfold Disk.content
  cases hl : disk.locate path with
  | error => simp
  | ok found =>
    obtain ⟨t, names⟩ := found
    cases t <;> simp

theorem read_of_locate {disk : Disk} {path text : String} {names : List String}
    (h : disk.locate path = .ok (.file (.text text), names)) : disk.read path = .ok text := by
  rw [read, content_eq_ok_iff.mpr ⟨names, h⟩]
  rfl

/-- A file that was written holds what was written. -/
theorem read_write {disk disk' : Disk} {path text : String} (h : disk.write path text = .ok disk') :
    disk'.read path = .ok text := by
  obtain ⟨_, _, _, _, _, _, _, _, hl⟩ := puts_of_write h
  exact read_of_locate hl

end Disk

end RpcContract
