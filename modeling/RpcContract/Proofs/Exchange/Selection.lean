import RpcContract.Exchange.Reading
import RpcContract.Proofs.Exchange.Protocol
import RpcContract.Proofs.Files.Walk

/-! Reading a selection of the fixtures below a directory. What is not selected has no part in it,
and what is selected is read as if all were. -/

namespace RpcContract.Fixture

/-- A file `stem.io` below a directory. -/
structure Source where
  above : List String
  stem : String
  content : Content

namespace Source

def names (s : Source) : List String := s.above ++ [s.stem ++ ".io"]

/-- The way to the file without the extension, but the stem `.` is named `..`. -/
def name (s : Source) : String :=
  "/".intercalate (s.above ++ [if s.stem = "." then ".." else s.stem])

/-- The file stands below a directory. -/
def Below (s : Source) (t : FileTree) : Prop :=
  s.stem ≠ "" ∧ t.at? s.names = some (.file s.content)

def read (root : String) (s : Source) : Except Error (List Exchange) :=
  match s.content.text? with
  | none => .error (.read (s.names.foldl Path.join root) .notUtf8)
  | some text => parse s.name text

def ofFile? (f : List String × Content) : Option Source :=
  f.1.getLast?.bind fun last =>
    match Path.splitExtension last with
    | (stem, some "io") => some ⟨f.1.dropLast, stem, f.2⟩
    | _ => none

theorem noPoint_io : '.' ∉ "io".toList := by decide

theorem point_io (stem : String) : stem ++ "." ++ "io" = stem ++ ".io" := String.append_assoc

theorem splitExtension_io {last stem : String} :
    Path.splitExtension last = (stem, some "io") ↔ last = stem ++ ".io" ∧ stem ≠ "" := by
  rw [Path.splitExtension_eq_some_iff, point_io]
  have hio := noPoint_io
  tauto

theorem ofFile?_eq_some_iff {f : List String × Content} {s : Source} :
    ofFile? f = some s ↔ s.stem ≠ "" ∧ f = (s.names, s.content) := by
  obtain ⟨names, content⟩ := f
  obtain ⟨above, stem, content'⟩ := s
  constructor
  · intro h
    rw [ofFile?, Option.bind_eq_some_iff] at h
    obtain ⟨last, hlast, h⟩ := h
    obtain ⟨above', rfl⟩ := List.getLast?_eq_some_iff.mp hlast
    split at h
    · next stem' hsplit =>
      obtain ⟨rfl, hstem⟩ := splitExtension_io.mp hsplit
      simp only [List.dropLast_concat, Option.some.injEq, Source.mk.injEq] at h
      obtain ⟨rfl, rfl, rfl⟩ := h
      exact ⟨hstem, rfl⟩
    · cases h
  · rintro ⟨hstem, h⟩
    obtain ⟨rfl, rfl⟩ := Prod.mk.inj h
    have hsplit := splitExtension_io.mpr ⟨rfl, hstem⟩
    simp [ofFile?, Source.names, hsplit]

theorem nameOf_names {s : Source} (h : s.stem ≠ "") : nameOf s.names = s.name := by
  have hsplit := splitExtension_io.mpr ⟨rfl, h⟩
  rw [nameOf, names, List.getLast?_concat]
  simp only [List.dropLast_concat, Path.withoutExtension, hsplit, name]

theorem isFixture_iff {root : String} {names : List String} {content : Content}
    (hne : names ≠ []) (h : ∀ name ∈ names, Path.IsName name) :
    isFixture (names.foldl Path.join root) ↔ ∃ s, ofFile? (names, content) = some s := by
  rw [isFixture, decide_eq_true_iff, Path.extension?_foldl_join hne h]
  simp only [ofFile?_eq_some_iff, point_io]
  constructor
  · rintro ⟨above, stem, rfl, hstem, -⟩
    exact ⟨⟨above, stem, content⟩, hstem, rfl⟩
  · rintro ⟨⟨above, stem, _⟩, hstem, hfile⟩
    exact ⟨above, stem, congrArg Prod.fst hfile, hstem, noPoint_io⟩

theorem fixture_eq_of_read {s : Source} {root : String} {xs : List Exchange}
    (h : s.read root = .ok xs) : ∀ x ∈ xs, x.fixture = s.name := by
  unfold read at h
  split at h
  · cases h
  · exact fixture_eq_of_parse h

end Source

open Source (ofFile?)

variable {root : String} {select : String → Bool} {files : List Source}

/-- Reads one fixture after the other. -/
def readEach (root : String) (files : List Source) : Except Error (List Exchange) :=
  (files.mapM (Source.read root)).map List.flatten

theorem readEach_cons (s : Source) (files : List Source) :
    readEach root (s :: files) =
      (s.read root).bind fun xs => (readEach root files).map (xs ++ ·) := by
  rw [readEach, readEach, List.mapM_cons]
  cases s.read root with
  | error => rfl
  | ok xs => cases files.mapM (Source.read root) <;> rfl

theorem readEach_eq_ok_iff {xs : List Exchange} :
    readEach root files = .ok xs ↔
      ∃ parts, List.Forall₂ (fun s part => s.read root = .ok part) files parts ∧
        xs = parts.flatten := by
  rw [readEach, Except.map_eq_ok_iff]
  simp only [Except.mapM_eq_ok_iff, @eq_comm _ xs]

theorem readEach_eq_error_iff {e : Error} :
    readEach root files = .error e ↔
      ∃ pre s post, files = pre ++ s :: post ∧ (∀ s' ∈ pre, ∃ xs, s'.read root = .ok xs) ∧
        s.read root = .error e := by
  rw [readEach, Except.map_eq_error_iff, Except.mapM_eq_error_iff]

theorem readEach_filter {parts : List (List Exchange)}
    (h : List.Forall₂ (fun s part => s.read root = .ok part) files parts) :
    readEach root (files.filter (select ·.name)) =
      .ok (parts.flatten.filter (select ·.fixture)) := by
  induction h with
  | nil => rfl
  | @cons s part files parts hs _ ih =>
    have hname := Source.fixture_eq_of_read hs
    rw [List.flatten_cons, List.filter_append]
    by_cases hselect : select s.name
    · have hall : part.filter (select ·.fixture) = part := by
        rw [List.filter_eq_self]
        intro x hx
        rwa [hname x hx]
      rw [List.filter_cons, if_pos hselect, readEach_cons, hs, ih, hall]
      rfl
    · have hnone : part.filter (select ·.fixture) = [] := by
        rw [List.filter_eq_nil_iff]
        intro x hx
        rwa [hname x hx]
      rw [List.filter_cons, if_neg hselect, hnone, List.nil_append, ih]

/-! The fixtures below a directory -/

theorem readFiles_eq {files : List (List String × Content)}
    (h : ∀ f ∈ files, f.1 ≠ [] ∧ ∀ name ∈ f.1, Path.IsName name) :
    readFiles root select files =
      readEach root ((files.filterMap ofFile?).filter (select ·.name)) := by
  induction files with
  | nil => rfl
  | cons f files ih =>
    obtain ⟨names, content⟩ := f
    obtain ⟨⟨hne, hnames⟩, hfiles⟩ := List.forall_mem_cons.mp h
    have hio : isFixture (names.foldl Path.join root) ↔ ∃ s, ofFile? (names, content) = some s :=
      Source.isFixture_iff hne hnames
    rw [readFiles, ih hfiles]
    cases hs : ofFile? (names, content) with
    | none =>
      have hno : isFixture (names.foldl Path.join root) = false := by
        rw [Bool.eq_false_iff]
        intro hyes
        obtain ⟨s, hs'⟩ := hio.mp hyes
        simp [hs] at hs'
      simp [hno, hs]
    | some s =>
      obtain ⟨hstem, hfile⟩ := Source.ofFile?_eq_some_iff.mp hs
      obtain ⟨rfl, rfl⟩ := Prod.mk.inj hfile
      rw [hio.mpr ⟨s, hs⟩, Source.nameOf_names hstem, List.filterMap_cons_some hs, Bool.true_and]
      by_cases hselect : select s.name
      · rw [List.filter_cons, if_pos hselect, if_pos hselect, readEach_cons, Source.read]
        cases s.content.text? with
        | none => rfl
        | some text => cases parse s.name text <;> rfl
      · rw [List.filter_cons, if_neg hselect, if_neg hselect]

def sources (t : FileTree) : List Source := t.files.filterMap ofFile?

section

variable {t : FileTree} (h : t.Proper)

include h

theorem mem_sources {s : Source} : s ∈ sources t ↔ s.Below t := by
  rw [sources, List.mem_filterMap]
  constructor
  · rintro ⟨f, hf, hs⟩
    obtain ⟨hstem, rfl⟩ := Source.ofFile?_eq_some_iff.mp hs
    exact ⟨hstem, h.mem_files.mp hf⟩
  · rintro ⟨hstem, hat⟩
    exact ⟨_, h.mem_files.mpr hat, Source.ofFile?_eq_some_iff.mpr ⟨hstem, rfl⟩⟩

theorem pairwise_sources : (sources t).Pairwise fun s s' => Path.Before s.names s'.names := by
  rw [sources, List.pairwise_filterMap]
  refine h.pairwise_files.imp fun {f f'} hbefore s hs s' hs' => ?_
  obtain ⟨-, rfl⟩ := Source.ofFile?_eq_some_iff.mp hs
  obtain ⟨-, rfl⟩ := Source.ofFile?_eq_some_iff.mp hs'
  exact hbefore

theorem readAll_eq {disk : Disk} {place : List String} (hdir : t.isDirectory)
    (hroot : disk.locate root = .ok (t, place)) :
    readAll disk root select = readEach root ((sources t).filter (select ·.name)) := by
  rw [readAll, hroot]
  refine readFiles_eq ?_
  intro f hf
  have hat := h.mem_files.mp hf
  refine ⟨?_, h.isName hat⟩
  intro hnil
  rw [hnil] at hat
  obtain rfl := Option.some.inj hat
  cases hdir

end

/-- Of the fixtures below a directory those with a selected name are read, in the order of their
names, and the first that cannot be read ends it. The others may be what they like; and reading
all fixtures and then selecting exchanges comes to the same. -/
theorem readAll_selects (disk : Disk) (root : String) (t : FileTree) (place : List String)
    (h : t.Proper) (hdir : t.isDirectory) (hroot : disk.locate root = .ok (t, place)) :
    ∃ files : List Source, (∀ s, s ∈ files ↔ s.Below t) ∧
      files.Pairwise (fun s s' => Path.Before s.names s'.names) ∧
      (∀ select xs, readAll disk root select = .ok xs ↔
        ∃ parts, List.Forall₂ (fun s part => s.read root = .ok part)
          (files.filter (select ·.name)) parts ∧ xs = parts.flatten) ∧
      (∀ select e, readAll disk root select = .error e ↔
        ∃ pre s post, files.filter (select ·.name) = pre ++ s :: post ∧
          (∀ s' ∈ pre, ∃ xs, s'.read root = .ok xs) ∧ s.read root = .error e) ∧
      (∀ select disk' t' place', t'.Proper → t'.isDirectory →
        disk'.locate root = .ok (t', place') →
        (∀ s : Source, select s.name → (s.Below t' ↔ s.Below t)) →
        readAll disk' root select = readAll disk root select) ∧
      ∀ xs, readAll disk root (fun _ => true) = .ok xs →
        ∀ select, readAll disk root select = .ok (xs.filter (select ·.fixture)) := by
  refine ⟨sources t, fun s => mem_sources h, pairwise_sources h, ?_, ?_, ?_, ?_⟩
  · intro select xs
    rw [readAll_eq h hdir hroot, readEach_eq_ok_iff]
  · intro select e
    rw [readAll_eq h hdir hroot, readEach_eq_error_iff]
  · intro select disk' t' place' h' hdir' hroot' hsame
    have hfiles : (sources t').filter (select ·.name) = (sources t).filter (select ·.name) := by
      refine Path.eq_of_before ((pairwise_sources h').filter _) ((pairwise_sources h).filter _) ?_
      intro s
      rw [List.mem_filter, List.mem_filter, mem_sources h', mem_sources h]
      exact and_congr_left fun hselect => hsame s hselect
    rw [readAll_eq h hdir hroot, readAll_eq h' hdir' hroot', hfiles]
  · intro xs hall select
    rw [readAll_eq h hdir hroot, List.filter_true, readEach_eq_ok_iff] at hall
    obtain ⟨parts, hparts, rfl⟩ := hall
    rw [readAll_eq h hdir hroot, readEach_filter hparts]

/-- Of two fixtures one is selected. -/
theorem readAll_selects_inner :
    let text := ">> \x7b\"method\":\"m\"\x7d\n<< \x7b\"result\":1\x7d\n"
    let t := FileTree.directory
      [("a", .directory [("x.io", .file (.text text))]), ("b.io", .file (.text text))]
    let disk : Disk := ⟨.directory [("t", t)], []⟩
    let one := Response.result (.num (.int 1))
    let found := [⟨"m", "a/x", [], one⟩, ⟨"m", "b", [], one⟩]
    t.Proper ∧ t.isDirectory ∧ disk.locate "t" = .ok (t, ["t"]) ∧
      readAll disk "t" (fun _ => true) = .ok found ∧
      readAll disk "t" (· = "a/x") = .ok (found.take 1) := by
  intro text t disk one found
  have hnames : Path.IsName "a" ∧ Path.IsName "x.io" ∧ Path.IsName "b.io" := by
    refine ⟨?_, ?_, ?_⟩ <;> constructor <;> decide
  have hproper : t.Proper := by
    have hinner : (FileTree.directory [("x.io", .file (.text text))]).Proper :=
      .directory (List.pairwise_singleton _ _) (by simp [hnames]) (by simp [FileTree.Proper.file])
    have hsorted : Dict.Sorted [("a", FileTree.directory [("x.io", .file (.text text))]),
        ("b.io", .file (.text text))] := by
      unfold Dict.Sorted
      decide
    exact .directory hsorted (by simp [hnames]) (by simp [hinner, FileTree.Proper.file])
  have hroot : disk.locate "t" = .ok (t, ["t"]) := by
    unfold t disk
    rfl
  have hall : readAll disk "t" (fun _ => true) = .ok found := by
    have hfiles : t.files = [(["a", "x.io"], .text text), (["b.io"], .text text)] := by
      unfold t
      rfl
    have hio : isFixture (Path.join (Path.join "t" "a") "x.io") ∧
        isFixture (Path.join "t" "b.io") := by
      decide +kernel
    have hname : nameOf ["a", "x.io"] = "a/x" ∧ nameOf ["b.io"] = "b" := ⟨by rfl, by rfl⟩
    have hparse : ∀ fixture, parse fixture text = .ok [⟨"m", fixture, [], one⟩] := by
      intro fixture
      have hlines : counted text =
          [">> " ++ "\x7b\"method\":\"m\"\x7d", "<< " ++ "\x7b\"result\":1\x7d"] := by
        unfold text
        decide +kernel
      exact parse_of_pair hlines rfl rfl rfl
    rw [readAll, hroot]
    simp [hfiles, readFiles, hio, hname, Content.text?, hparse, Except.bind, found]
  obtain ⟨-, -, -, -, -, -, hselect⟩ := readAll_selects disk "t" t ["t"] hproper rfl hroot
  refine ⟨hproper, rfl, hroot, hall, ?_⟩
  rw [hselect found hall (· = "a/x")]
  rfl

/-- Without its extension the fixture `d/..io` would be `d/.`, but no fixture has that name. -/
theorem readAll_keeps_both_points :
    let text := ">> \x7b\"method\":\"m\"\x7d\n<< \x7b\"result\":1\x7d\n"
    let t := FileTree.directory [("d", .directory [("." ++ ".io", .file (.text text))])]
    let disk : Disk := ⟨.directory [("t", t)], []⟩
    readAll disk "t" (fun _ => true) = .ok [⟨"m", "d/..", [], .result (.num (.int 1))⟩] ∧
      readAll disk "t" (· = "d" ++ "/" ++ ".") = .ok [] := by
  intro text t disk
  have hroot : disk.locate "t" = .ok (t, ["t"]) := by
    unfold t disk
    rfl
  have hfiles : t.files = [(["d", "..io"], .text text)] := by
    unfold t
    rfl
  have hio : isFixture (Path.join (Path.join "t" "d") "..io") := by
    decide +kernel
  have hname : nameOf ["d", "..io"] = "d/.." := rfl
  have hlines : counted text =
      [">> " ++ "\x7b\"method\":\"m\"\x7d", "<< " ++ "\x7b\"result\":1\x7d"] := by
    unfold text
    decide +kernel
  have hparse : parse "d/.." text = .ok [⟨"m", "d/..", [], .result (.num (.int 1))⟩] :=
    parse_of_pair hlines rfl rfl rfl
  constructor
  · rw [readAll, hroot]
    simp [hfiles, readFiles, hio, hname, Content.text?, hparse, Except.bind]
  · rw [readAll, hroot]
    simp [hfiles, readFiles, hname]

end RpcContract.Fixture
