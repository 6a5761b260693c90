import Mathlib.Data.List.Infix
import RpcContract.Config.Saving
import RpcContract.Proofs.Config.Documents
import RpcContract.Proofs.Config.Variables
import RpcContract.Proofs.Files.Directories

/-! A configuration that was saved is loaded as it was. Every setting is written as what it is read
back from; an option that is not set is left out, and its default is not to be set. -/

namespace RpcContract

namespace Config

open Settings (laidAllIn ofToml)

variable {c : Config} {group key origin : String}

/-! The sections of a saved configuration -/

/-- The settings of a section that are written. -/
def entriesIn (c : Config) : String → List (String × Toml.Item)
  | "info" => infoEntries c.info
  | "generate" => generateEntries c.generate
  | _ => checkEntries c.check

def savedSections (c : Config) : List Toml.Section :=
  sections.map fun group => ⟨group, c.entriesIn group⟩

theorem saved_eq_document (c : Config) : c.saved = Toml.document c.savedSections := rfl

/-- What a value is written as. -/
def itemOf : Value → Option Toml.Item
  | .unset => none
  | .text s => some (.text s)
  | .texts list => some (.texts list)
  | .flag b => some (.flag b)
  | .layout l => some (.text l.name)

theorem last?_textEntry (name key : String) (text : Option String) :
    Dict.last? (textEntry name text) key = if name = key then text.map .text else none := by
  cases text <;> simp [textEntry, Dict.last?]

@[simp] theorem itemOf_ofOption (text : Option String) :
    itemOf (.ofOption text) = text.map .text := by
  cases text <;> rfl

@[simp] theorem itemOf_text (s : String) : itemOf (.text s) = some (.text s) := rfl

@[simp] theorem itemOf_texts (list : List String) : itemOf (.texts list) = some (.texts list) := rfl

@[simp] theorem itemOf_flag (b : Bool) : itemOf (.flag b) = some (.flag b) := rfl

@[simp] theorem itemOf_layout (l : OpenRpc.Layout) : itemOf (.layout l) = some (.text l.name) := rfl

/-- Every setting is written as what its value is. -/
theorem last?_entriesIn (hgroup : group ∈ sections) (hkey : key ∈ fieldsOf group) :
    Dict.last? (c.entriesIn group) key = itemOf (c.value group key) := by
  rcases mem_sections_iff.mp hgroup with rfl | rfl | rfl
  · rcases mem_infoFields_iff.mp hkey with rfl | rfl | rfl | rfl | rfl | rfl <;>
      simp [entriesIn, infoEntries, Dict.last?_append, last?_textEntry, value, infoValue]
  · rcases mem_generateFields_iff.mp hkey with rfl | rfl | rfl | rfl | rfl | rfl | rfl <;>
      simp [entriesIn, generateEntries, Dict.last?_append, Dict.last?, last?_textEntry, value,
        generateValue]
  · rcases mem_checkFields_iff.mp hkey with rfl | rfl | rfl | rfl <;>
      simp [entriesIn, checkEntries, Dict.last?, value, checkValue]

theorem keys_textEntry (name : String) (text : Option String) :
    ((textEntry name text).map Prod.fst).Sublist [name] := by
  cases text <;> simp [textEntry]

/-- The settings stand in the order of their names, each once. -/
theorem keys_entriesIn (hgroup : group ∈ sections) :
    ((c.entriesIn group).map Prod.fst).Sublist (fieldsOf group) := by
  have key := keys_textEntry
  rcases mem_sections_iff.mp hgroup with rfl | rfl | rfl
  · simp only [entriesIn, infoEntries, List.map_append]
    exact ((((((key _ _).append (key _ _)).append (key _ _)).append (key _ _)).append
      (key _ _)).append (key _ _))
  · simp only [entriesIn, generateEntries, List.map_append]
    exact ((((List.Sublist.refl ["methods", "schemas"]).append (key _ _)).append
      (List.Sublist.refl ["output_format", "inline", "write_checksum"])).append (key _ _))
  · exact List.Sublist.refl _

theorem decodeList_texts (origin : String) (list : List String) :
    Settings.decodeList Settings.decodeText (ofToml origin (Toml.Item.texts list).value) =
      .ok list := by
  have heach : ∀ i, Settings.eachFrom i
      (fun i item => Settings.within (.index i) (Settings.decodeText item))
      (Settings.ofTomlItems origin (list.map .text)) = .ok list := by
    induction list with
    | nil => exact fun _ => rfl
    | cons s list ih =>
      intro i
      have hhead : Settings.decodeText (ofToml origin (.text s)) = .ok s := rfl
      rw [List.map_cons, Settings.ofTomlItems, Settings.eachFrom, hhead, ih]
      rfl
  exact heach 0

theorem decodeChoice_name (origin : String) (l : OpenRpc.Layout) :
    Settings.decodeChoice "OutputFormat" OpenRpc.Layout.ofName?
      (ofToml origin (Toml.Item.text l.name).value) = .ok l := by
  cases l <;> rfl

/-- What a value is written as is read as the value. -/
theorem read_itemOf (hgroup : group ∈ sections) (hkey : key ∈ fieldsOf group) {item : Toml.Item}
    (h : itemOf (c.value group key) = some item) (origin : String) :
    read group key (ofToml origin item.value) = .ok (c.value group key) := by
  have hoption : ∀ {text : Option String}, itemOf (.ofOption text) = some item →
      (Settings.decodeOption Settings.decodeText (ofToml origin item.value)).map Value.ofOption =
        .ok (.ofOption text) := by
    intro text h
    cases text with
    | none => cases h
    | some s =>
      obtain rfl := Option.some.inj h
      rfl
  rcases mem_sections_iff.mp hgroup with rfl | rfl | rfl
  · exact hoption h
  · rcases mem_generateFields_iff.mp hkey with rfl | rfl | rfl | rfl | rfl | rfl | rfl
    · obtain rfl := Option.some.inj h
      exact congrArg (Except.map Value.texts) (decodeList_texts origin _)
    · obtain rfl := Option.some.inj h
      exact congrArg (Except.map Value.texts) (decodeList_texts origin _)
    · exact hoption h
    · obtain rfl := Option.some.inj h
      exact congrArg (Except.map Value.layout) (decodeChoice_name origin _)
    · obtain rfl := Option.some.inj h
      rfl
    · obtain rfl := Option.some.inj h
      rfl
    · exact hoption h
  · obtain rfl := Option.some.inj h
    rfl

/-! A saved configuration as a source -/

theorem nodup_keys_entriesIn (hgroup : group ∈ sections) :
    ((c.entriesIn group).map Prod.fst).Nodup := by
  have hfields : ∀ group ∈ sections, (fieldsOf group).Nodup := by decide
  exact (keys_entriesIn hgroup).nodup (hfields group hgroup)

theorem distinct_savedSections (c : Config) : Toml.Distinct c.savedSections := by
  have hnames : c.savedSections.map (·.name) = sections := rfl
  refine ⟨hnames ▸ by decide, fun part hpart => ?_⟩
  obtain ⟨group, hgroup, rfl⟩ := List.mem_map.mp hpart
  exact nodup_keys_entriesIn hgroup

theorem fits_savedSections (c : Config) : ∀ part ∈ c.savedSections, Fits part := by
  intro part hpart
  obtain ⟨group, hgroup, rfl⟩ := List.mem_map.mp hpart
  have hkeys : ∀ e ∈ c.entriesIn group, e.1 ∈ fieldsOf group := fun e he =>
    (keys_entriesIn hgroup).subset (List.mem_map_of_mem he)
  refine ⟨hgroup, hkeys, fun origin e he => ⟨_, read_itemOf (c := c) hgroup (hkeys e he) ?_ origin⟩⟩
  rw [← last?_entriesIn hgroup (hkeys e he),
    Dict.last?_eq_get? (nodup_keys_entriesIn hgroup)]
  exact Dict.get?_of_mem (nodup_keys_entriesIn hgroup) he

/-- What the file of a saved configuration sets a setting to: the value that it has, if any. -/
theorem said_savedSections (hgroup : group ∈ sections) (hkey : key ∈ fieldsOf group)
    (origin : String) :
    said group key (sourceOf origin c.savedSections) =
      (itemOf (c.value group key)).map fun _ => c.value group key := by
  have hfilter : c.savedSections.filter (·.name = group) = [⟨group, c.entriesIn group⟩] := by
    rcases mem_sections_iff.mp hgroup with rfl | rfl | rfl <;> rfl
  rw [said, laidAllIn_sourceOf c.fits_savedSections, hfilter, List.flatMap_singleton,
    Dict.last?_map fun item : Toml.Item => ofToml origin item.value, last?_entriesIn hgroup hkey]
  cases hitem : itemOf (c.value group key) with
  | none => rfl
  | some item =>
    simp [read_itemOf hgroup hkey hitem, Except.toOption]

/-- A setting that is not written is not set by default. -/
theorem value_of_itemOf_eq_none (hgroup : group ∈ sections) (hkey : key ∈ fieldsOf group)
    (h : itemOf (c.value group key) = none) :
    c.value group key = Config.default.value group key := by
  have hunset : c.value group key = .unset := by
    cases hvalue : c.value group key <;> simp_all [itemOf]
  rcases mem_sections_iff.mp hgroup with rfl | rfl | rfl
  · rcases mem_infoFields_iff.mp hkey with rfl | rfl | rfl | rfl | rfl | rfl <;> exact hunset
  · rcases mem_generateFields_iff.mp hkey with rfl | rfl | rfl | rfl | rfl | rfl | rfl
    · cases hunset
    · cases hunset
    · exact hunset
    · cases hunset
    · cases hunset
    · cases hunset
    · exact hunset
  · cases hunset

/-- If one of the sources says what there is to say, and none says anything else, this is what is
said last. -/
theorem lastSaid_of_alike {sources : List (List (String × Setting))}
    {last : List (String × Setting)}
    (h : ∀ source ∈ sources, said group key source = none ∨
      said group key source = said group key last) :
    lastSaid group key (sources ++ [last]) = said group key last := by
  rw [lastSaid_append, lastSaid_cons]
  cases hlast : said group key last with
  | some x => rfl
  | none =>
    have hnone : sources.filterMap (said group key) = [] :=
      List.filterMap_eq_nil_iff.mpr fun source hsource =>
        (h source hsource).elim id (·.trans hlast)
    simp [lastSaid, hnone]

end Config

/-! Where the file of a saved configuration is found -/

namespace Settings

variable {disk disk' : Disk} {path name file text last : String} {above : List String}
  {content : Content}

/-- No file stands where a file of settings is looked for, but at a path. -/
def OnlyAt (disk : Disk) (path name : String) : Prop :=
  ∀ file ∈ candidates name, ∀ content,
    disk.root.stands (disk.placeOf file) = some (some content) →
      disk.placeOf file = disk.placeOf path

/-- Files that are found there afterwards are the one that was stored, whatever they are called. -/
theorem located_of_onlyAt (h : OnlyAt disk path name) (hstores : disk.Stores path content disk')
    (hfile : file ∈ candidates name) (hisFile : disk'.isFile file) :
    disk'.locate file = .ok (.file content, disk.placeOf path) := by
  obtain ⟨content', hcontent⟩ := isFile_iff.mp hisFile
  obtain ⟨names, hl⟩ := Disk.content_eq_ok_iff.mp hcontent
  obtain ⟨-, -, -, -, -, -, -, -, -, hstands⟩ := Disk.of_locate_file hl
  have hnames : names = disk.placeOf file := by
    have hparts : disk'.partsOf file = disk.partsOf file := by
      rw [Disk.partsOf, Disk.partsOf, hstores.workingDirectory]
    rw [Disk.placeOf, ← hparts]
    exact FileTree.names_eq_of_follow (Disk.locate_eq_ok_iff.mp hl).2
  have hplace : names = disk.placeOf path := by
    by_cases hne : names = disk.placeOf path
    · exact hne
    · rw [hnames]
      exact h file hfile content' (hnames ▸ hstores.others names content' hne hstands)
  obtain ⟨-, -, -, -, -, -, -, -, -, hstored⟩ := Disk.of_locate_file hstores.located
  rw [hplace] at hstands hl
  rw [hstored] at hstands
  obtain rfl := Option.some.inj (Option.some.inj hstands)
  exact hl

/-- The extension of a file is that of the name under which it stands. -/
theorem extension?_of_locate {place : List String}
    (hl : disk.locate file = .ok (.file content, place ++ [last])) :
    Path.extension? file = (Path.splitExtension last).2 := by
  obtain ⟨-, parts, last', entries, above, hparts, -, hlast, hnames, -⟩ := Disk.of_locate_file hl
  obtain rfl := List.singleton_inj.mp (List.append_inj' hnames rfl).2
  rw [Path.extension?, Disk.fileName?_of_partsOf hparts hlast, Option.bind_some]

/-- A file that a name stands for without its extension. -/
theorem of_completed? {found : Found} (h : completed? disk name = some found) :
    found.path ∈ candidates name ∧ disk.isFile found.path ∧
      ∃ stem, ∃ e ∈ found.format.extensions, found.path = stem ++ ("." ++ e) := by
  unfold completed? at h
  split at h
  · cases h
  · have hfile := List.find?_some h
    obtain ⟨f, hf, hfound⟩ := List.mem_flatMap.mp (List.mem_of_find?_eq_some h)
    obtain ⟨e, he, rfl⟩ := List.mem_map.mp hfound
    refine ⟨List.mem_cons_of_mem _ (List.mem_flatMap.mpr ⟨f, hf, List.mem_map.mpr ⟨e, he, rfl⟩⟩),
      hfile, _, e, he, String.append_assoc⟩

/-- A file that stands under a name with the extension is read as what it is. -/
theorem format_eq_toml {found : Found} {stem : String} {place : List String}
    (h : completed? disk name = some found) (hstem : stem ≠ "")
    (hl : disk.locate found.path = .ok (.file content, place ++ [stem ++ "." ++ "toml"])) :
    found.format = .toml := by
  obtain ⟨-, -, stem', e, he, hpath⟩ := of_completed? h
  have hplain : '/' ∉ ("." ++ e).toList ∧ '.' ∉ e.toList := by
    have hall : ∀ f ∈ Format.all, ∀ e ∈ f.extensions, '/' ∉ ("." ++ e).toList ∧ '.' ∉ e.toList := by
      decide
    exact hall _ (by cases found.format <;> decide) e he
  have hname : ∃ last, last ++ "." ++ e = stem ++ "." ++ "toml" := by
    obtain ⟨-, parts, last, entries, above, hparts, -, -, hnames, -⟩ := Disk.of_locate_file hl
    obtain ⟨above', last', -, happend⟩ := Path.parts_append stem' hplain.1
    rw [hpath, Disk.partsOf_eq_append, happend, ← List.append_assoc] at hparts
    have hlast := List.singleton_inj.mp (List.append_inj' hparts rfl).2
    have hsame := List.singleton_inj.mp (List.append_inj' hnames rfl).2
    exact ⟨last', by rw [hsame, ← hlast, String.append_assoc]⟩
  obtain ⟨last, hlast⟩ := hname
  have hsplit := congrArg Path.splitExtension hlast
  rw [Path.splitExtension_point _ hplain.2, Path.splitExtension_point _ (by decide),
    if_neg hstem] at hsplit
  split at hsplit
  · cases hsplit
  · obtain rfl := Option.some.inj (congrArg Prod.snd hsplit)
    revert he
    cases found.format <;> decide

/-- Where settings are looked for, nothing is found, or what was stored. -/
theorem exists_ofOptionalFile {doc : List Toml.Section} {place : List String} {stem : String}
    (hstem : stem ≠ "")
    (hlocated : ∀ file ∈ candidates name, disk.isFile file →
      disk.locate file = .ok (.file (.text (Toml.document doc)), place ++ [stem ++ "." ++ "toml"]))
    (hfits : ∀ part ∈ doc, Config.Fits part) (hdistinct : Toml.Distinct doc) :
    ∃ source, ofOptionalFile disk name = .ok source ∧
      (source = [] ∨ ∃ origin, source = Config.sourceOf origin doc) := by
  have hholds : ∀ file ∈ candidates name, disk.isFile file →
      Holds disk file (Config.sourceOf (originOfPath disk file) doc) := by
    intro file hfile hisFile
    have hl := hlocated file hfile hisFile
    refine Config.holds_document ?_ (Disk.content_eq_ok_iff.mpr ⟨_, hl⟩) hfits hdistinct
    rw [extension?_of_locate hl, Path.splitExtension_point _ (by decide), if_neg hstem]
  by_cases hself : disk.isFile name
  · have hself := hholds name List.mem_cons_self hself
    refine ⟨_, ?_, .inr ⟨originOfPath disk name, rfl⟩⟩
    simp [ofOptionalFile, hself.ofFile]
  cases hcompleted : completed? disk name with
  | none =>
    refine ⟨[], ?_, .inl rfl⟩
    simp [ofOptionalFile, ofFile, find, hself, hcompleted, Except.bind]
  | some found =>
    obtain ⟨hmem, hisFile, -⟩ := of_completed? hcompleted
    have hformat := format_eq_toml hcompleted hstem (hlocated _ hmem hisFile)
    have hfind : find disk name = .ok ⟨found.path, .toml⟩ := by
      rw [find, if_neg hself, hcompleted, ← hformat]
    have hsource := ofFile_of_find hfind (hholds _ hmem hisFile)
    refine ⟨_, ?_, .inr ⟨originOfPath disk found.path, rfl⟩⟩
    simp [ofOptionalFile, hsource]

end Settings

/-- A path whose last name has the extension. -/
theorem Path.exists_parts_eq {stem : String} {c : Char} (hc : stem.toList.getLast? = some c)
    (hslash : c ≠ '/') :
    ∃ above name, name ≠ "" ∧ Path.parts (stem ++ ".toml") = above ++ [name ++ "." ++ "toml"] := by
  obtain ⟨cs, hcs⟩ := List.getLast?_eq_some_iff.mp hc
  obtain ⟨above, last, -, happend⟩ := Path.parts_append (String.ofList cs)
    (show '/' ∉ (String.ofList [c] ++ ".toml").toList by simp [hslash.symm])
  have hstem : stem = String.ofList cs ++ String.ofList [c] := by
    rw [← String.toList_inj, hcs]
    simp
  refine ⟨above, last ++ String.ofList [c], fun h => by simpa using congrArg String.toList h, ?_⟩
  rw [hstem, String.append_assoc, happend, String.append_assoc, String.append_assoc]
  rfl

theorem Path.ne_of_extension (name : String) : ¬ (name ++ "." ++ "toml" = "" ∨
    name ++ "." ++ "toml" = "." ∨ name ++ "." ++ "toml" = "..") := by
  have hlast : (name ++ "." ++ "toml").toList.getLast? = some 'l' := by
    simp
  rintro (h | h | h) <;> simp [h] at hlast

namespace Config

open Settings (IsVariable)

variable {c : Config} {s : Surroundings} {path stem : String} {last : Char}

/-- A source that is empty or the file of a saved configuration. -/
def OfSaved (c : Config) (source : List (String × Setting)) : Prop :=
  source = [] ∨ ∃ origin, source = sourceOf origin c.savedSections

theorem OfSaved.orderly {source : List (String × Setting)} (h : c.OfSaved source) :
    Orderly source := by
  rcases h with rfl | ⟨origin, rfl⟩
  · exact .nil
  · exact orderly_sourceOf c.fits_savedSections origin

/-- The configuration that was saved is what its file makes, above others like it. -/
theorem value_eq_of_ofSaved {sources : List (List (String × Setting))}
    (h : ∀ source ∈ sources, c.OfSaved source) (origin : String) {group key : String}
    (hgroup : group ∈ sections) (hkey : key ∈ fieldsOf group) :
    (lastSaid group key (sources ++ [sourceOf origin c.savedSections])).getD
      (Config.default.value group key) = c.value group key := by
  rw [lastSaid_of_alike, said_savedSections hgroup hkey]
  · cases hitem : itemOf (c.value group key) with
    | none => exact (value_of_itemOf_eq_none hgroup hkey hitem).symm
    | some item => rfl
  · intro source hsource
    rcases h source hsource with rfl | ⟨origin', rfl⟩
    · exact .inl rfl
    · rw [said_savedSections hgroup hkey, said_savedSections hgroup hkey]
      exact .inr rfl

/-- Where the file that is asked for is that of a saved configuration, and there are no others, this
configuration is loaded. -/
theorem load_of_ofSaved {file origin : String}
    (hsources : ∀ name ∈ commonFiles ++ [s.userFile], ∃ source,
      Settings.ofOptionalFile s.disk name = .ok source ∧ c.OfSaved source)
    (hasked : Settings.ofFile s.disk file = .ok (sourceOf origin c.savedSections))
    (hvariables : ∀ e ∈ s.environment, ¬ IsVariable e.1) :
    load s (some file) = .ok c := by
  obtain ⟨common, hcommon⟩ := exists_forall₂ fun name hmem =>
    hsources name (List.mem_append_left _ hmem)
  obtain ⟨user, huser, hnone, hsaved⟩ : ∃ user,
      (s.disk.at? s.userFile ≠ none → Settings.ofOptionalFile s.disk s.userFile = .ok user) ∧
        (s.disk.at? s.userFile = none → user = []) ∧ c.OfSaved user := by
    cases hat : s.disk.at? s.userFile with
    | none => exact ⟨[], by simp, fun _ => rfl, .inl rfl⟩
    | some t =>
      obtain ⟨user, huser, hsaved⟩ := hsources s.userFile (by simp)
      exact ⟨user, fun _ => huser, by simp, hsaved⟩
  have hothers : ∀ source ∈ common ++ [user], c.OfSaved source := by
    intro source hsource
    rcases List.mem_append.mp hsource with h | h
    · obtain ⟨name, -, -, hsaved⟩ := exists_left_of_forall₂ hcommon h
      exact hsaved
    · exact List.mem_singleton.mp h ▸ hsaved
  have horderly : ∀ source ∈ common ++ [user] ++ [sourceOf origin c.savedSections],
      Orderly source := by
    intro source hsource
    rcases List.mem_append.mp hsource with h | h
    · exact (hothers source h).orderly
    · exact List.mem_singleton.mp h ▸ orderly_sourceOf c.fits_savedSections _
  have hnoVariables := Settings.ofVariables_eq_nil hvariables
  obtain ⟨c', hc', hvalue⟩ := @exists_load_of_orderly s (some file) _ _ _
    (hcommon.imp fun _ _ h => h.1) huser hnone (.cons hasked .nil) horderly
    (hnoVariables ▸ .nil)
  refine hc'.trans (congrArg _ (eq_of_value fun group hgroup key hkey => ?_))
  rw [hvalue group hgroup key hkey, hnoVariables]
  exact value_eq_of_ofSaved hothers _ hgroup hkey

/-- A configuration that is saved under a name with the extension is loaded from there as it was:
where there is room for the file, no other file of settings is found, and no variable is for the
program. -/
theorem load_save (hpath : path = stem ++ ".toml") (hlast : stem.toList.getLast? = some last)
    (hslash : last ≠ '/') (hroom : s.disk.Admits path)
    (halone : ∀ name ∈ commonFiles ++ [s.userFile], Settings.OnlyAt s.disk path name)
    (hvariables : ∀ e ∈ s.environment, ¬ IsVariable e.1) :
    ∃ disk, c.save s.disk path = .ok disk ∧ load { s with disk } (some path) = .ok c := by
  obtain ⟨above, name, hname, hparts⟩ := Path.exists_parts_eq hlast hslash
  rw [← hpath] at hparts
  have hfile := Path.ne_of_extension name
  obtain ⟨start, hpartsOf⟩ : ∃ start, s.disk.partsOf path = start ++ [name ++ "." ++ "toml"] := by
    rw [Disk.partsOf_eq_append, hparts, ← List.append_assoc]
    exact ⟨_, rfl⟩
  have hne : path ≠ "" := by
    intro h
    rw [hpath] at h
    simpa using congrArg String.toList h
  obtain ⟨disk₁, disk, hmade, hwrite, hstores⟩ :=
    hroom.exists_stores hne hpartsOf hfile c.saved
  refine ⟨disk, by simp [save, hmade, hwrite, Except.bind], ?_⟩
  rw [saved_eq_document] at hstores
  have hplace := Disk.placeOf_eq hpartsOf hfile
  have hl := hstores.located
  rw [hplace] at hl
  have hext : Path.extension? path = some "toml" := by
    rw [Settings.extension?_of_locate hl, Path.splitExtension_point _ (by decide), if_neg hname]
  have hasked := holds_document hext (Disk.content_eq_ok_iff.mpr ⟨_, hl⟩) c.fits_savedSections
    c.distinct_savedSections
  refine @load_of_ofSaved c { s with disk } path _ (fun source hmem => ?_) hasked.ofFile hvariables
  exact Settings.exists_ofOptionalFile hname
    (fun file hcandidate hisFile => hplace ▸
      Settings.located_of_onlyAt (halone source hmem) hstores hcandidate hisFile)
    c.fits_savedSections c.distinct_savedSections

/-- A title with quotes of both kinds, and a directory that is yet to be made. -/
theorem load_save_below :
    let s : Surroundings := ⟨⟨.empty, []⟩, [("HOME", "/root")], "/user.toml", "/tmp"⟩
    let c : Config := { Config.default with
      info := { OpenRpc.Info.none with title := some "\"it\"\n\t'''\x7f\\" } }
    ∃ disk, c.save s.disk "a/b.toml" = .ok disk ∧
      load { s with disk } (some "a/b.toml") = .ok c := by
  intro s c
  have hempty : ∀ names content, s.disk.root.stands names ≠ some (some content) := by
    rintro (_ | ⟨name, names⟩) content <;>
      simp [s, FileTree.empty, FileTree.stands, FileTree.at?, FileTree.content?]
  have hparts : s.disk.partsOf "a/b.toml" = ["a", "b.toml"] := by decide +kernel
  refine @load_save c s "a/b.toml" "a/b" 'b' rfl (by decide) (by decide) ?_
    (fun name _ file _ content h => absurd h (hempty _ content)) (by decide +kernel)
  refine ⟨⟨⟨[], rfl⟩, by simp [s]⟩, fun pre _ => hempty _, ?_, fun pre hpre => ?_⟩
  · rw [Disk.placeOf, hparts]
    decide
  · rw [hparts] at hpre
    rw [Disk.placeOf, hparts]
    have hall : ∀ pre ∈ ["a"].inits,
        FileTree.placeAlong pre ≠ FileTree.placeAlong ["a", "b.toml"] := by
      decide
    exact hall pre ((List.mem_inits _ _).mpr hpre)

/-- A file name that starts with its only point has no extension: the file is written, and then not
taken for a file of settings. -/
theorem load_save_hidden :
    let s : Surroundings := ⟨⟨.empty, []⟩, [], "/user.toml", "/tmp"⟩
    (Config.default.save s.disk ".toml").map (fun disk => load { s with disk } (some ".toml")) =
      .ok (.error (.source (.unknownFormat "/.toml"))) := by
  decide +kernel

end Config

end RpcContract
