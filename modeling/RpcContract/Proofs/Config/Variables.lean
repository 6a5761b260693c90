import Mathlib.Data.List.TakeWhile
import RpcContract.Proofs.Config.Documents

/-! Settings from variables of the environment. A variable comes after all files. A text that it
gives is taken as it stands unless it reads as a truth value or a number; then it is the text of
this truth value or number. -/

namespace RpcContract

namespace Decimal

theorem magnitude?_of_digits {ds : List Char} (hne : ds ≠ []) (h : ds.all isDigit) :
    magnitude? ds = some (nearest (natOf ds) 0) := by
  have htake : ds.takeWhile isDigit = ds := List.takeWhile_eq_self_iff.mpr (List.all_eq_true.mp h)
  have hdrop : ds.dropWhile isDigit = [] := List.dropWhile_eq_nil_iff.mpr (List.all_eq_true.mp h)
  simp [magnitude?, htake, hdrop, hne]

/-- An integer is also read as a floating-point number. -/
theorem exists_bits?_of_int? {text : String} {n : Int} (h : int? text = some n) :
    ∃ bits, bits? text = some bits := by
  have hsize : ∀ {ds : List Char} {m : Int},
      (if ds ≠ [] ∧ ds.all isDigit then some m else none) = some n →
        magnitude? ds = some (nearest (natOf ds) 0) := by
    intro ds m hm
    split at hm
    · next hds => exact magnitude?_of_digits hds.1 hds.2
    · cases hm
  unfold int? at h
  unfold bits?
  generalize text.toList = cs at h
  -- with a minus sign, with a plus sign and without one
  split at h <;>
  · simp only [hsize h]
    split <;> (try split) <;> simp

end Decimal

namespace Settings

/-! The text of a variable -/

/-- A text that reads neither as a truth value nor as a number. -/
structure IsWord (text : String) : Prop where
  noTruth : isTruthWord (Text.lowercase text) = none
  noNumber : Decimal.bits? text = none

instance : DecidablePred IsWord := fun _ =>
  decidable_of_iff (_ ∧ _) ⟨fun h => ⟨h.1, h.2⟩, fun h => ⟨h.noTruth, h.noNumber⟩⟩

/-- The text that stands for what a text reads as: a truth value in small letters, an integer of 64
bits without a plus sign or zeros at its start, any other number in its shortest decimal digits. A
text that reads as nothing else stands for itself. -/
def spelled (text : String) : String :=
  match isTruthWord (Text.lowercase text), (Decimal.int? text).bind int64?,
      Decimal.bits? text with
  | some _, _, _ => Text.lowercase text
  | none, some (.int n), _ => toString n
  | none, _, some bits => Decimal.plain.writeBits bits
  | none, _, none => text

theorem isTruthWord_eq_some_iff {s : String} {b : Bool} :
    isTruthWord s = some b ↔ s = boolText b := by
  unfold isTruthWord boolText
  cases b <;> grind

theorem eq_of_int64? {n : Int} {scalar : Scalar} (h : int64? n = some scalar) :
    scalar = .int n := by
  unfold int64? at h
  split at h
  · exact (Option.some.inj h).symm
  · cases h

theorem IsWord.noInteger {text : String} (h : IsWord text) : Decimal.int? text = none := by
  cases hint : Decimal.int? text with
  | none => rfl
  | some n =>
    obtain ⟨bits, hbits⟩ := Decimal.exists_bits?_of_int? hint
    rw [h.noNumber] at hbits
    cases hbits

theorem spelled_of_isWord {text : String} (h : IsWord text) : spelled text = text := by
  simp [spelled, h.noTruth, h.noInteger, h.noNumber]

theorem decodeText_scalarOf (origin : Option String) (text : String) :
    decodeText (.scalar origin (scalarOf text)) = .ok (spelled text) := by
  unfold scalarOf spelled
  cases htruth : isTruthWord (Text.lowercase text) with
  | some b =>
    rw [isTruthWord_eq_some_iff.mp htruth]
    rfl
  | none =>
    cases hint : (Decimal.int? text).bind int64? with
    | some scalar =>
      obtain ⟨n, -, hn⟩ := Option.bind_eq_some_iff.mp hint
      obtain rfl := eq_of_int64? hn
      rfl
    | none => cases Decimal.bits? text <;> rfl

/-! The name of a variable -/

/-- A variable with this name is a setting of the program. -/
def IsVariable (name : String) : Prop := variableStem.isPrefixOf (Text.lowercase name).toList

instance : DecidablePred IsVariable := fun _ => inferInstanceAs (Decidable (_ = true))

theorem ofVariable?_eq_none {name : String} (h : ¬ IsVariable name) (text : String) :
    ofVariable? name text = none := by
  simp only [IsVariable, Bool.not_eq_true] at h
  simp [ofVariable?, h]

theorem ofVariables_append (environment others : List (String × String)) :
    ofVariables (environment ++ others) = ofVariables environment ++ ofVariables others :=
  List.filterMap_append

theorem ofVariables_cons_none {name : String} (h : ¬ IsVariable name) (text : String)
    (environment : List (String × String)) :
    ofVariables ((name, text) :: environment) = ofVariables environment :=
  List.filterMap_cons_none (f := fun v : String × String => ofVariable? v.1 v.2)
    (ofVariable?_eq_none h text)

theorem ofVariables_cons_some {name text : String} {e : String × Setting}
    (h : ofVariable? name text = some e) (environment : List (String × String)) :
    ofVariables ((name, text) :: environment) = e :: ofVariables environment :=
  List.filterMap_cons_some (f := fun v : String × String => ofVariable? v.1 v.2) h

theorem ofVariables_eq_nil {environment : List (String × String)}
    (h : ∀ v ∈ environment, ¬ IsVariable v.1) : ofVariables environment = [] :=
  List.filterMap_eq_nil_iff.mpr fun v hv => ofVariable?_eq_none (h v hv) v.2

end Settings

namespace Config

open Settings (IsVariable IsWord spelled)

/-- The variable of a setting: its section and its name in capitals, each after two underscores. -/
def variableName (group key : String) : String :=
  String.ofList ("OPENRPC__".toList ++ group.toList.map Char.toUpper ++ "__".toList ++
    key.toList.map Char.toUpper)

/-- The settings of a section that are texts, the paths of single files and directories among
them. -/
def textFields : String → List String
  | "generate" => ["output", "dump_dir"]
  | group => fieldsOf group

theorem mem_fieldsOf_of_textFields {group key : String} (h : key ∈ textFields group) :
    key ∈ fieldsOf group := by
  unfold textFields at h
  split at h
  · simp only [List.mem_cons, List.not_mem_nil, or_false] at h
    rcases h with rfl | rfl <;> decide
  · exact h

theorem mem_sections_of_fieldsOf {group key : String} (h : key ∈ fieldsOf group) :
    group ∈ sections := by
  unfold fieldsOf at h
  split at h
  · decide
  · decide
  · decide
  · cases h

/-- Where a text is wanted, a value is read as the text that it passes for. -/
theorem read_text {group key : String} (hkey : key ∈ textFields group) {v : Setting} {t : String}
    (h : Settings.decodeText v = .ok t) : read group key v = .ok (.text t) := by
  have hoption : Settings.decodeOption Settings.decodeText v = .ok (some t) := by
    unfold Settings.decodeOption
    split
    · cases h
    · rw [h]
      rfl
  have hgroup := mem_sections_of_fieldsOf (mem_fieldsOf_of_textFields hkey)
  rcases mem_sections_iff.mp hgroup with rfl | rfl | rfl
  · simp [read, readInfo, hoption, Except.map, Value.ofOption]
  · simp only [textFields, List.mem_cons, List.not_mem_nil, or_false] at hkey
    rcases hkey with rfl | rfl <;>
      simp [read, readGenerate, hoption, Except.map, Value.ofOption]
  · simp [read, readCheck, h, Except.map]

theorem readable_variableName : ∀ group ∈ sections, ∀ key ∈ fieldsOf group,
    let cs := (Text.lowercase (variableName group key)).toList
    Settings.variableStem.isPrefixOf cs ∧
      String.ofList (Settings.withPoints (cs.drop Settings.variableStem.length)) =
        group ++ "." ++ key := by
  decide +kernel

/-- The setting that a variable is for. -/
theorem ofVariable?_variableName {group key : String} (hkey : key ∈ fieldsOf group)
    (text : String) : Settings.ofVariable? (variableName group key) text =
      some (group ++ "." ++ key, .scalar Settings.variableOrigin (Settings.scalarOf text)) := by
  obtain ⟨hstem, hname⟩ := readable_variableName group (mem_sections_of_fieldsOf hkey) key hkey
  rw [Settings.ofVariable?, if_pos hstem, hname]

/-- The names of settings are in small letters, and with a point they say where a setting is. -/
theorem read_name : ∀ group ∈ sections, ∀ key ∈ fieldsOf group,
    Settings.Key.read (group ++ "." ++ key) = ⟨group, [.child key]⟩ ∧
      Text.lowercase group = group ∧ Text.lowercase key = key := by
  decide +kernel

/-! The place of a setting -/

section

open Settings (assign placed)

variable {group key : String} (hkey : key ∈ fieldsOf group)

include hkey

/-- What is put in the place of a setting stands below the name of its section. -/
theorem laidIn_place (v : Setting) (other : String) :
    Settings.laidIn other (group ++ "." ++ key, v) =
      if group = other then [(key, v)] else [] := by
  obtain ⟨hread, hgroup, hlow⟩ := read_name group (mem_sections_of_fieldsOf hkey) key hkey
  simp [Settings.laidIn, hread, hgroup, hlow]

theorem direct_place {v : Setting} (hv : ¬ Settings.IsTable v) (other name : String) :
    Settings.Direct other name (group ++ "." ++ key, v) := by
  obtain ⟨hread, -⟩ := read_name group (mem_sections_of_fieldsOf hkey) key hkey
  intro _
  rw [hread]
  exact fun _ => ⟨rfl, hv⟩

theorem get?_assign_place (all : Settings) (v : Setting) (q : String) :
    Dict.get? (assign all (group ++ "." ++ key) v) q =
      if group = q then some (placed (Dict.get? all q) v [.child key]) else Dict.get? all q := by
  obtain ⟨hread, hgroup, -⟩ := read_name group (mem_sections_of_fieldsOf hkey) key hkey
  rw [Settings.get?_assign, hread, hgroup]

theorem tabular_assign_place (all : Settings) (v : Setting) :
    Settings.Tabular (assign all (group ++ "." ++ key) v) group := by
  intro w hw
  rw [get?_assign_place hkey, if_pos rfl] at hw
  obtain rfl := Option.some.inj hw
  obtain ⟨-, -, htable, -⟩ := Settings.placed_child (Dict.get? all group) v key []
  exact htable

end

/-! A variable above all files -/

open Settings (assign assignAll below IsTable Tidy)

variable {s : Surroundings} {path : Option String}

theorem tidy_of_settings {all : Settings} (h : settings s path = .ok all) : Tidy all := by
  have htidy : ∀ sources : List (List (String × Setting)),
      Tidy (sources.foldl assignAll []) := fun sources =>
    List.foldlRecOn sources _ (motive := Tidy) .nil fun _ h source _ => h.assignAll source
  cases path <;>
    simp only [settings, Except.monadBind_eq_bind, Except.bind_eq_ok_iff, Except.pure_eq_ok] at h
  · obtain ⟨common, -, asked, -, h⟩ := h
    exact Except.ok.inj h ▸ htidy _
  · obtain ⟨common, -, asked, -, h⟩ := h
    exact Except.ok.inj h ▸ htidy _

/-- The variables are laid over the settings of the files. -/
theorem settings_of_variables (hnone : Settings.ofVariables s.environment = [])
    (environment : List (String × String)) :
    settings { s with environment } path =
      (settings s path).map fun all => assignAll all (Settings.ofVariables environment) := by
  unfold settings
  simp only [Except.monadBind_eq_bind, hnone]
  cases List.mapM (Settings.ofOptionalFile s.disk)
    (commonFiles ++ if (s.disk.at? s.userFile).isSome then [s.userFile] else []) with
  | error => rfl
  | ok common =>
    cases path with
    | none => simp [Except.bind, Except.map, assignAll]
    | some path =>
      cases hsource : Settings.ofFile s.disk path <;>
        simp [hsource, Except.bind, Except.map, assignAll]

/-- A value that is put in the place of a setting is read there, and nothing else is hidden from
the reading that stands elsewhere. -/
theorem exists_ofSettings_assign {all : Settings} (ht : Tidy all) {c : Config}
    (hc : ofSettings all = .ok c) {group key : String} (hkey : key ∈ fieldsOf group) {v : Setting}
    (hv : ¬ IsTable v) {x : Value} (hx : read group key v = .ok x) :
    ∃ c', ofSettings (assign all (group ++ "." ++ key) v) = .ok c' ∧ c'.value group key = x := by
  have hgroup := mem_sections_of_fieldsOf hkey
  have ht' : Tidy (assign all (group ++ "." ++ key) v) := ht.assign _ _
  have hbelow : ∀ q, Dict.get? (below (assign all (group ++ "." ++ key) v) group) q =
      if key = q then some v else Dict.get? (below all group) q := by
    intro q
    rw [Settings.get?_below_assign (direct_place hkey hv group q), laidIn_place hkey, if_pos rfl]
    by_cases hq : key = q <;> simp [Dict.last?, hq]
  have hsections : ∀ q ∈ sections, ∀ w ∈ Dict.get? (assign all (group ++ "." ++ key) v) q,
      ∃ f, readSection q w = .ok f := by
    intro q hq
    by_cases heq : group = q
    · subst heq
      refine exists_readSection ht' hgroup (tabular_assign_place hkey all v) ?_
      intro field hfield w hw
      rw [hbelow] at hw
      split at hw
      · next hsame =>
        obtain rfl := Option.some.inj hw
        exact ⟨x, hsame ▸ hx⟩
      · exact ⟨_, read_of_ofSettings ht hc hgroup hfield hw⟩
    · rw [get?_assign_place hkey, if_neg heq]
      exact (exists_ofSettings_iff ht.sorted).mp ⟨c, hc⟩ q hq
  obtain ⟨c', hc'⟩ := (exists_ofSettings_iff ht'.sorted).mpr hsections
  have hread := read_of_ofSettings ht' hc' hgroup hkey ((hbelow key).trans (if_pos rfl))
  exact ⟨c', hc', Except.ok.inj (hread.symm.trans hx)⟩

/-- What the file that is asked for sets a setting to, stands in its place when there are no
variables. -/
theorem get?_below_of_asked {all : Settings} {path : String} {source : List (String × Setting)}
    (h : settings s (some path) = .ok all) (hnone : Settings.ofVariables s.environment = [])
    (hsource : Settings.ofFile s.disk path = .ok source) {group key : String} {v : Setting}
    (hdirect : ∀ e ∈ source, Settings.Direct group key e)
    (hv : Dict.last? (Settings.laidAllIn group source) key = some v) :
    Dict.get? (below all group) key = some v := by
  simp only [settings, hsource, hnone, Except.monadBind_eq_bind, Except.bind_eq_ok_iff,
    Except.pure_eq_ok] at h
  obtain ⟨common, -, asked, hasked, h⟩ := h
  obtain rfl := Except.ok.inj hasked
  obtain rfl := Except.ok.inj h
  have hlast : assignAll (assignAll (common.foldl assignAll []) source) [] =
      assignAll (common.foldl assignAll []) source := rfl
  rw [List.foldl_append, List.foldl_cons, List.foldl_cons, List.foldl_nil, hlast,
    Settings.get?_below_assignAll hdirect, hv]
  rfl

theorem ofVariables_of_one {group key : String} (hkey : key ∈ fieldsOf group)
    {before after : List (String × String)} (hbefore : ∀ e ∈ before, ¬ IsVariable e.1)
    (hafter : ∀ e ∈ after, ¬ IsVariable e.1) (text : String) :
    Settings.ofVariables (before ++ (variableName group key, text) :: after) =
      [(group ++ "." ++ key, .scalar Settings.variableOrigin (Settings.scalarOf text))] := by
  rw [Settings.ofVariables_append, Settings.ofVariables_eq_nil hbefore,
    Settings.ofVariables_cons_some (ofVariable?_variableName hkey text),
    Settings.ofVariables_eq_nil hafter]
  rfl

/-- A variable for a text setting counts before all files, as the text that it reads as: itself,
unless it reads as a truth value or a number. A text of the file that is asked for counts before
all other files, whatever it reads as. -/
theorem load_with_variable {group key : String} (hkey : key ∈ textFields group)
    {before after : List (String × String)} (hbefore : ∀ e ∈ before, ¬ IsVariable e.1)
    (hafter : ∀ e ∈ after, ¬ IsVariable e.1) {c : Config}
    (hc : load { s with environment := before ++ after } path = .ok c) (text : String) :
    (∃ c', load { s with environment := before ++ (variableName group key, text) :: after } path =
        .ok c' ∧ c'.value group key = .text (spelled text) ∧
          (IsWord text → c'.value group key = .text text)) ∧
      ∀ asked source origin, path = some asked → Settings.ofFile s.disk asked = .ok source →
        (∀ e ∈ source, Settings.Direct group key e) →
        Dict.last? (Settings.laidAllIn group source) key = some (.scalar origin (.text text)) →
        c.value group key = .text text := by
  have hfield := mem_fieldsOf_of_textFields hkey
  have hnone : Settings.ofVariables (before ++ after) = [] := by
    rw [Settings.ofVariables_append, Settings.ofVariables_eq_nil hbefore,
      Settings.ofVariables_eq_nil hafter]
    rfl
  have hone := ofVariables_of_one hfield hbefore hafter text
  obtain ⟨all, hall, hof⟩ := load_eq_ok_iff.mp hc
  have ht := tidy_of_settings hall
  refine ⟨?_, ?_⟩
  · obtain ⟨c', hc', hvalue⟩ := exists_ofSettings_assign ht hof hfield
      (v := .scalar Settings.variableOrigin (Settings.scalarOf text)) id
      (read_text hkey (Settings.decodeText_scalarOf _ _))
    refine ⟨c', load_eq_ok_iff.mpr ⟨_, ?_, hc'⟩, hvalue, fun h => ?_⟩
    · refine (@settings_of_variables { s with environment := before ++ after } path hnone
        (before ++ (variableName group key, text) :: after)).trans ?_
      rw [hall, hone]
      rfl
    · rw [hvalue, Settings.spelled_of_isWord h]
  · rintro asked source origin rfl hsource hdirect hlast
    have hbelow := get?_below_of_asked hall hnone hsource hdirect hlast
    have hread := read_of_ofSettings ht hof (mem_sections_of_fieldsOf hfield) hfield hbelow
    rw [read_text hkey (t := text) rfl] at hread
    exact (Except.ok.inj hread).symm

/-- The same setting in the file that is asked for and in a variable. -/
theorem load_with_version :
    let mine : List Toml.Section := [⟨"info", [("version", .text "007")]⟩]
    let s : Surroundings := ⟨⟨.directory [("mine.toml", .file (.text (Toml.document mine)))], []⟩,
      [], "/user.toml", "/tmp"⟩
    (∃ c, load { s with environment := [("HOME", "/root"), ("OPENRPC__INFO__VERSION", "0.0.7")] }
        (some "mine.toml") = .ok c ∧ c.value "info" "version" = .text "0.0.7") ∧
      ∃ c, load s (some "mine.toml") = .ok c ∧ c.value "info" "version" = .text "007" := by
  intro mine s
  let c : Config := { Config.default with info := { OpenRpc.Info.none with version := some "007" } }
  have hmine : ∀ part ∈ mine, Fits part := List.forall_mem_singleton.mpr
    ⟨by decide, by decide, fun origin => List.forall_mem_singleton.mpr ⟨_, rfl⟩⟩
  have hsource : Settings.ofFile s.disk "mine.toml" = .ok (sourceOf "mine.toml" mine) :=
    (holds_document (by decide +kernel) (by decide +kernel) hmine ⟨by decide, by decide⟩).ofFile
  have hfiles : load { s with environment := [("HOME", "/root")] } (some "mine.toml") = .ok c := by
    decide +kernel
  have happly := @load_with_variable s (some "mine.toml") "info" "version" (by decide)
    [("HOME", "/root")] [] (by decide +kernel) (by decide) c hfiles
  refine ⟨?_, c, by decide +kernel, ?_⟩
  · obtain ⟨c', hc', -, hword⟩ := (happly "0.0.7").1
    exact ⟨c', hc', hword (by decide +kernel)⟩
  · exact (happly "007").2 "mine.toml" _ "mine.toml" rfl hsource
      (fun e he => (orderly_sourceOf hmine _).direct e he _ (by decide) _ (by decide)) rfl

/-- Zeros at the start of a number are lost. -/
theorem load_with_padded_version :
    let s : Surroundings := ⟨⟨.empty, []⟩, [], "/user.toml", "/tmp"⟩
    load s none = .ok .default ∧
      ∃ c, load { s with environment := [("OPENRPC__INFO__VERSION", "007")] } none = .ok c ∧
        c.value "info" "version" = .text "7" ∧ c.value "info" "version" ≠ .text "007" := by
  intro s
  let c : Config := { Config.default with info := { OpenRpc.Info.none with version := some "7" } }
  exact ⟨by decide +kernel, c, by decide +kernel, by decide, by decide⟩

end Config

end RpcContract
