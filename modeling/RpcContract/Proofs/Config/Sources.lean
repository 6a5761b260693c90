import RpcContract.Config.Loading
import RpcContract.Proofs.Config.Values
import RpcContract.Proofs.Files.Walk

/-! The sources of a configuration, one laid over the other. A setting has the value that the last
source gives it that gives it any, and its default where none does. -/

namespace RpcContract

namespace Config

open Settings (assignAll below laidAllIn Direct Tabular Tidy)

/-- A source has tables for sections, and what it sets in them is of the right type and no table. -/
structure Orderly (source : List (String × Setting)) : Prop where
  direct : ∀ e ∈ source, ∀ group ∈ sections, ∀ key ∈ fieldsOf group, Direct group key e
  typed : ∀ group ∈ sections, ∀ key ∈ fieldsOf group, ∀ v, (key, v) ∈ laidAllIn group source →
    ∃ x, read group key v = .ok x

/-- What a source sets a setting to. -/
def said (group key : String) (source : List (String × Setting)) : Option Value :=
  (Dict.last? (laidAllIn group source) key).bind fun v => (read group key v).toOption

/-- What the last source that sets a setting sets it to. -/
def lastSaid (group key : String) (sources : List (List (String × Setting))) : Option Value :=
  (sources.filterMap (said group key)).getLast?

variable {group key : String} {source : List (String × Setting)}
  {sources : List (List (String × Setting))}

theorem lastSaid_cons (group key : String) (source : List (String × Setting))
    (sources : List (List (String × Setting))) :
    lastSaid group key (source :: sources) =
      (lastSaid group key sources).or (said group key source) := by
  unfold lastSaid
  cases hsaid : said group key source with
  | none => rw [List.filterMap_cons_none hsaid, Option.or_none]
  | some x =>
    rw [List.filterMap_cons_some hsaid, List.getLast?_cons]
    cases (sources.filterMap (said group key)).getLast? <;> rfl

theorem lastSaid_append (group key : String) (sources others : List (List (String × Setting))) :
    lastSaid group key (sources ++ others) =
      (lastSaid group key others).or (lastSaid group key sources) := by
  induction sources with
  | nil => simp [lastSaid]
  | cons source sources ih =>
    rw [List.cons_append, lastSaid_cons, lastSaid_cons, ih, Option.or_assoc]

theorem laidAllIn_append (group : String) (source other : List (String × Setting)) :
    laidAllIn group (source ++ other) = laidAllIn group source ++ laidAllIn group other :=
  List.flatMap_append

theorem Orderly.nil : Orderly [] := ⟨by simp, by simp [laidAllIn]⟩

theorem Orderly.append {other : List (String × Setting)} (h : Orderly source)
    (h' : Orderly other) : Orderly (source ++ other) := by
  refine ⟨fun e he => ?_, fun group hgroup key hkey v hv => ?_⟩
  · exact (List.mem_append.mp he).elim (h.direct e) (h'.direct e)
  · rw [laidAllIn_append] at hv
    exact (List.mem_append.mp hv).elim (h.typed group hgroup key hkey v)
      (h'.typed group hgroup key hkey v)

theorem Orderly.flatten (h : ∀ source ∈ sources, Orderly source) : Orderly sources.flatten := by
  induction sources with
  | nil => exact .nil
  | cons source sources ih =>
    obtain ⟨hsource, h⟩ := List.forall_mem_cons.mp h
    exact hsource.append (ih h)

theorem said_flatten (h : ∀ source ∈ sources, Orderly source) (hgroup : group ∈ sections)
    (hkey : key ∈ fieldsOf group) :
    said group key sources.flatten = lastSaid group key sources := by
  induction sources with
  | nil => simp [said, lastSaid, laidAllIn, Dict.last?]
  | cons source sources ih =>
    obtain ⟨hsource, h⟩ := List.forall_mem_cons.mp h
    rw [lastSaid_cons, ← ih h, List.flatten_cons, said, said, laidAllIn_append, Dict.last?_append]
    cases hlater : Dict.last? (laidAllIn group sources.flatten) key with
    | none => rfl
    | some v =>
      obtain ⟨x, hx⟩ := (Orderly.flatten h).typed group hgroup key hkey v (Dict.mem_of_last? hlater)
      simp [hx, Except.toOption]

/-- Sources that are in order make a configuration, in which the last of them counts, setting by
setting. -/
theorem exists_ofSettings_of_orderly (h : ∀ source ∈ sources, Orderly source) :
    ∃ c, ofSettings (sources.foldl assignAll []) = .ok c ∧
      ∀ group ∈ sections, ∀ key ∈ fieldsOf group,
        c.value group key = (lastSaid group key sources).getD (Config.default.value group key) := by
  have hall := Orderly.flatten h
  have hflat : sources.foldl assignAll [] = assignAll [] sources.flatten := by
    unfold assignAll
    rw [List.foldl_flatten]
  have htidy : Tidy (assignAll [] sources.flatten) := Tidy.nil.assignAll _
  have htable : ∀ group ∈ sections, Tabular (assignAll [] sources.flatten) group := by
    intro group hgroup
    obtain ⟨key, hkey⟩ : ∃ key, key ∈ fieldsOf group := by
      rcases mem_sections_iff.mp hgroup with rfl | rfl | rfl
      · exact ⟨"title", by decide⟩
      · exact ⟨"methods", by decide⟩
      · exact ⟨"spec", by decide⟩
    exact Tabular.assignAll (by simp [Tabular]) fun e he => hall.direct e he group hgroup key hkey
  have hbelow : ∀ group ∈ sections, ∀ key ∈ fieldsOf group,
      Dict.get? (below (assignAll [] sources.flatten) group) key =
        Dict.last? (laidAllIn group sources.flatten) key := by
    intro group hgroup key hkey
    rw [Settings.get?_below_assignAll fun e he => hall.direct e he group hgroup key hkey]
    simp [below]
  rw [hflat]
  have hsections : ∀ group ∈ sections, ∀ v ∈ Dict.get? (assignAll [] sources.flatten) group,
      ∃ f, readSection group v = .ok f := by
    refine fun group hgroup => exists_readSection htidy hgroup (htable group hgroup) ?_
    intro key hkey v hv
    rw [hbelow group hgroup key hkey] at hv
    exact hall.typed group hgroup key hkey v (Dict.mem_of_last? hv)
  obtain ⟨c, hc⟩ := (exists_ofSettings_iff htidy.sorted).mpr hsections
  refine ⟨c, hc, fun group hgroup key hkey => ?_⟩
  rw [← said_flatten h hgroup hkey, said, ← hbelow group hgroup key hkey]
  cases hv : Dict.get? (below (assignAll [] sources.flatten) group) key with
  | none => exact value_of_not_below htidy hc hgroup (htable group hgroup) hkey hv
  | some v => simp [read_of_ofSettings htidy hc hgroup hkey hv, Except.toOption]

end Config

namespace Settings

/-! Files of settings -/

/-- The files that a name may stand for, the name itself first. -/
def candidates (name : String) : List String :=
  let stem := "/".intercalate ((if Path.isAbsolute name then [""] else []) ++ Path.names name)
  name :: Format.all.flatMap fun f => f.extensions.map fun e => stem ++ "." ++ e

/-- A TOML file with a source of settings. -/
def Holds (disk : Disk) (name : String) (source : List (String × Setting)) : Prop :=
  Path.extension? name = some "toml" ∧ ∃ content tables, disk.content name = .ok content ∧
    Toml.read? (textOf content) = some tables ∧
    source = ofTomlEntries (originOfPath disk name) tables

/-- What a place for a file of settings has: nothing, or a TOML file. -/
inductive Supplies (disk : Disk) (name : String) : List (String × Setting) → Prop where
  | nothing (h : ∀ file ∈ candidates name, disk.isFile file = false) : Supplies disk name []
  | file {source : List (String × Setting)} (h : Holds disk name source) :
      Supplies disk name source

variable {disk : Disk} {name : String} {source : List (String × Setting)}

theorem isFile_iff {path : String} : disk.isFile path = true ↔
    ∃ content, disk.content path = .ok content := by
  unfold Disk.isFile
  constructor
  · intro h
    obtain ⟨t, ht, hfile⟩ := (Option.any_eq_true _ _).mp h
    obtain ⟨place, hl⟩ := Disk.exists_locate_of_at? ht
    cases t with
    | directory => simp [FileTree.isDirectory] at hfile
    | file content => exact ⟨content, Disk.content_eq_ok_iff.mpr ⟨place, hl⟩⟩
  · rintro ⟨content, hc⟩
    obtain ⟨place, hl⟩ := Disk.content_eq_ok_iff.mp hc
    simp [Disk.at?_of_locate hl, FileTree.isDirectory]

theorem ofFile_of_find {file : String} (hfind : find disk name = .ok ⟨file, .toml⟩)
    (h : Holds disk file source) : ofFile disk name = .ok source := by
  obtain ⟨-, content, tables, hc, htables, rfl⟩ := h
  simp [Settings.ofFile, hfind, hc, entriesOfText, read?, htables, Except.bind]

theorem Holds.ofFile (h : Holds disk name source) : ofFile disk name = .ok source := by
  refine ofFile_of_find ?_ h
  obtain ⟨hext, content, -, hc, -⟩ := h
  rw [find, if_pos (isFile_iff.mpr ⟨content, hc⟩), hext]
  rfl

/-- Where no file stands that a name could stand for, none is found. -/
theorem find_of_no_file (h : ∀ file ∈ candidates name, disk.isFile file = false) :
    find disk name = .error (.notFound name) := by
  have hcompleted : completed? disk name = none := by
    unfold completed?
    split
    · rfl
    · rw [List.find?_eq_none]
      intro found hfound
      obtain ⟨f, hf, hfound⟩ := List.mem_flatMap.mp hfound
      obtain ⟨e, he, rfl⟩ := List.mem_map.mp hfound
      have hmem := h _ (List.mem_cons_of_mem _
        (List.mem_flatMap.mpr ⟨f, hf, List.mem_map.mpr ⟨e, he, rfl⟩⟩))
      simpa using hmem
  rw [find, h name List.mem_cons_self, hcompleted]
  rfl

theorem ofOptionalFile_of_no_file (h : ∀ file ∈ candidates name, disk.isFile file = false) :
    ofOptionalFile disk name = .ok [] := by
  simp [ofOptionalFile, Settings.ofFile, find_of_no_file h, Except.bind]

theorem Supplies.ofOptionalFile (h : Supplies disk name source) :
    ofOptionalFile disk name = .ok source := by
  cases h with
  | nothing h => exact ofOptionalFile_of_no_file h
  | file h => simp [Settings.ofOptionalFile, h.ofFile]

/-- A place without a file has no settings. -/
theorem Supplies.eq_nil (h : Supplies disk name source) (hat : disk.at? name = none) :
    source = [] := by
  cases h with
  | nothing => rfl
  | file h =>
    obtain ⟨-, content, -, hc, -⟩ := h
    have hfile : disk.isFile name = true := isFile_iff.mpr ⟨content, hc⟩
    simp [Disk.isFile, hat] at hfile

end Settings

namespace Config

open Settings (assignAll)

variable {s : Surroundings} {path : Option String} {common asked : List (List (String × Setting))}
  {user : List (String × Setting)}

/-- The settings are those of the files that are there, in their order, and then of variables. -/
theorem settings_eq
    (hcommon : List.Forall₂ (fun name source => Settings.ofOptionalFile s.disk name = .ok source)
      commonFiles common)
    (huser : s.disk.at? s.userFile ≠ none → Settings.ofOptionalFile s.disk s.userFile = .ok user)
    (hnone : s.disk.at? s.userFile = none → user = [])
    (hasked : List.Forall₂ (fun name source => Settings.ofFile s.disk name = .ok source)
      path.toList asked) :
    settings s path = .ok ((common ++ [user] ++ asked ++
      [Settings.ofVariables s.environment]).foldl assignAll []) := by
  have hcommon := Except.mapM_eq_ok_iff.mpr hcommon
  cases hat : s.disk.at? s.userFile with
  | none =>
    obtain rfl := hnone hat
    cases path with
    | none =>
      obtain rfl := List.forall₂_nil_left_iff.mp hasked
      simp [settings, hat, hcommon, Except.bind, assignAll]
    | some path =>
      obtain ⟨source, _, hsource, hrest, rfl⟩ := List.forall₂_cons_left_iff.mp hasked
      obtain rfl := List.forall₂_nil_left_iff.mp hrest
      simp [settings, hat, hcommon, hsource, Except.bind, assignAll]
  | some t =>
    have huser := huser (by simp [hat])
    cases path with
    | none =>
      obtain rfl := List.forall₂_nil_left_iff.mp hasked
      simp [settings, hat, List.mapM_append, hcommon, huser, Except.bind, assignAll]
    | some path =>
      obtain ⟨source, _, hsource, hrest, rfl⟩ := List.forall₂_cons_left_iff.mp hasked
      obtain rfl := List.forall₂_nil_left_iff.mp hrest
      simp [settings, hat, List.mapM_append, hcommon, huser, hsource, Except.bind, assignAll]

theorem load_eq_ok_iff {c : Config} :
    load s path = .ok c ↔ ∃ all, settings s path = .ok all ∧ ofSettings all = .ok c := by
  simp [load]

/-- Where all sources are in order, there is a configuration, and in it the last of them counts,
setting by setting. -/
theorem exists_load_of_orderly
    (hcommon : List.Forall₂ (fun name source => Settings.ofOptionalFile s.disk name = .ok source)
      commonFiles common)
    (huser : s.disk.at? s.userFile ≠ none → Settings.ofOptionalFile s.disk s.userFile = .ok user)
    (hnone : s.disk.at? s.userFile = none → user = [])
    (hasked : List.Forall₂ (fun name source => Settings.ofFile s.disk name = .ok source)
      path.toList asked)
    (hfiles : ∀ source ∈ common ++ [user] ++ asked, Orderly source)
    (hvariables : Orderly (Settings.ofVariables s.environment)) :
    ∃ c, load s path = .ok c ∧ ∀ group ∈ sections, ∀ key ∈ fieldsOf group,
      c.value group key = ((said group key (Settings.ofVariables s.environment)).or
        (lastSaid group key (common ++ [user] ++ asked))).getD
          (Config.default.value group key) := by
  have hall : ∀ source ∈ common ++ [user] ++ asked ++ [Settings.ofVariables s.environment],
      Orderly source := by
    intro source hsource
    rcases List.mem_append.mp hsource with h | h
    · exact hfiles source h
    · exact List.mem_singleton.mp h ▸ hvariables
  obtain ⟨c, hc, hvalue⟩ := exists_ofSettings_of_orderly hall
  have hsettings := settings_eq hcommon huser hnone hasked
  refine ⟨c, load_eq_ok_iff.mpr ⟨_, hsettings, hc⟩, fun group hgroup key hkey => ?_⟩
  rw [hvalue group hgroup key hkey, lastSaid_append, lastSaid_cons]
  rfl

end Config

end RpcContract
