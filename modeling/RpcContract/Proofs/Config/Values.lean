import RpcContract.Config.OfSettings
import RpcContract.Proofs.Settings.Layering
import RpcContract.Proofs.Settings.Records

/-! A configuration as the values of its settings. Taking it out of a tree of settings is to read
each of them at its place, below its section, where it is set, and to keep the others as they are by
default. -/

namespace RpcContract.Config

open Settings (Decoded FieldByField Takes decodeText decodeBool decodeOption decodeList decodeChoice
  decodeRecord below Tidy IsTable)

/-- What a setting may be set to. -/
inductive Value where
  | unset
  | text (s : String)
  | texts (list : List String)
  | flag (b : Bool)
  | layout (l : OpenRpc.Layout)
deriving DecidableEq, Repr

def Value.ofOption : Option String → Value
  | none => .unset
  | some s => .text s

/-- The settings of a section. -/
def fieldsOf : String → List String
  | "info" => infoFields
  | "generate" => generateFields
  | "check" => checkFields
  | _ => []

section

variable {group key : String}

theorem mem_sections_iff :
    group ∈ sections ↔ group = "info" ∨ group = "generate" ∨ group = "check" := by
  simp [sections]

theorem mem_infoFields_iff : key ∈ infoFields ↔ key = "title" ∨ key = "version" ∨
    key = "description" ∨ key = "license_name" ∨ key = "license_url" ∨ key = "openrpc" := by
  simp [infoFields]

theorem mem_generateFields_iff : key ∈ generateFields ↔ key = "methods" ∨ key = "schemas" ∨
    key = "output" ∨ key = "output_format" ∨ key = "inline" ∨ key = "write_checksum" ∨
      key = "dump_dir" := by
  simp [generateFields]

theorem mem_checkFields_iff :
    key ∈ checkFields ↔ key = "spec" ∨ key = "tests" ∨ key = "regexp" ∨ key = "skip_marker" := by
  simp [checkFields]

end

/-! The values of a configuration -/

def infoValue (info : OpenRpc.Info) (field : String) : Value :=
  .ofOption <| match field with
    | "title" => info.title
    | "version" => info.version
    | "description" => info.description
    | "license_name" => info.licenseName
    | "license_url" => info.licenseUrl
    | _ => info.openrpc

def generateValue (g : Generation) (field : String) : Value :=
  match field with
  | "methods" => .texts g.methods
  | "schemas" => .texts g.schemas
  | "output" => .ofOption g.output
  | "output_format" => .layout g.layout
  | "inline" => .flag g.inlined
  | "write_checksum" => .flag g.writeChecksum
  | _ => .ofOption g.dumpDir

def checkValue (c : Checking) (field : String) : Value :=
  .text <| match field with
    | "spec" => c.spec
    | "tests" => c.tests
    | "regexp" => c.regexp
    | _ => c.skipMarker

def value (c : Config) : String → String → Value
  | "info" => infoValue c.info
  | "generate" => generateValue c.generate
  | _ => checkValue c.check

theorem Value.ofOption_inj {s t : Option String} : ofOption s = ofOption t ↔ s = t := by
  cases s <;> cases t <;> simp [ofOption]

/-- The values tell configurations apart. -/
theorem eq_of_value {c d : Config}
    (h : ∀ group ∈ sections, ∀ key ∈ fieldsOf group, c.value group key = d.value group key) :
    c = d := by
  obtain ⟨⟨_, _, _, _, _, _⟩, ⟨_, _, _, _, _, _, _⟩, ⟨_, _, _, _⟩⟩ := c
  obtain ⟨⟨_, _, _, _, _, _⟩, ⟨_, _, _, _, _, _, _⟩, ⟨_, _, _, _⟩⟩ := d
  simpa [sections, fieldsOf, infoFields, generateFields, checkFields, value, infoValue,
    generateValue, checkValue, Value.ofOption_inj, and_assoc] using h

/-! Reading values -/

def readInfo (_ : String) (v : Setting) : Decoded Value :=
  (decodeOption decodeText v).map .ofOption

def readGenerate (field : String) (v : Setting) : Decoded Value :=
  match field with
  | "methods" | "schemas" => (decodeList decodeText v).map .texts
  | "output_format" => (decodeChoice "OutputFormat" OpenRpc.Layout.ofName? v).map .layout
  | "inline" | "write_checksum" => (decodeBool v).map .flag
  | _ => (decodeOption decodeText v).map .ofOption

def readCheck (_ : String) (v : Setting) : Decoded Value := (decodeText v).map .text

/-- The value that a setting of a section is read as. -/
def read : String → String → Setting → Decoded Value
  | "info" => readInfo
  | "generate" => readGenerate
  | _ => readCheck

theorem fieldByField_info : FieldByField infoFields infoFrom readInfo infoValue := by
  constructor
  · intro info info' field v hfield h
    simp only [infoFrom, Except.monadBind_eq_bind, Except.bind_eq_ok_iff] at h
    obtain ⟨text, htext, h⟩ := h
    obtain rfl := Except.ok.inj h
    rcases mem_infoFields_iff.mp hfield with rfl | rfl | rfl | rfl | rfl | rfl <;>
      simp [readInfo, htext, infoValue, infoFields, Except.map]
  · intro field v x info hfield h
    obtain ⟨text, htext, -⟩ := Except.map_eq_ok_iff.mp h
    simp [infoFrom, htext, Except.bind]

theorem fieldByField_generate :
    FieldByField generateFields generateFrom readGenerate generateValue := by
  constructor
  · intro g g' field v hfield h
    rcases mem_generateFields_iff.mp hfield with rfl | rfl | rfl | rfl | rfl | rfl | rfl <;>
    · simp only [generateFrom, String.reduceEq, imp_false, not_false_eq_true,
        Except.monadBind_eq_bind, Except.bind_eq_ok_iff] at h
      obtain ⟨x, hx, h⟩ := h
      obtain rfl := Except.ok.inj h
      simp [readGenerate, hx, generateValue, generateFields, Except.map]
  · intro field v x g hfield h
    rcases mem_generateFields_iff.mp hfield with rfl | rfl | rfl | rfl | rfl | rfl | rfl <;>
    · simp only [readGenerate, String.reduceEq, imp_false, not_false_eq_true,
        Except.map_eq_ok_iff] at h
      obtain ⟨x, hx, -⟩ := h
      simp [generateFrom, hx, Except.bind]

theorem fieldByField_check : FieldByField checkFields checkFrom readCheck checkValue := by
  constructor
  · intro c c' field v hfield h
    rcases mem_checkFields_iff.mp hfield with rfl | rfl | rfl | rfl <;>
    · simp only [checkFrom, String.reduceEq, imp_false, not_false_eq_true, Except.monadBind_eq_bind,
        Except.bind_eq_ok_iff] at h
      obtain ⟨x, hx, h⟩ := h
      obtain rfl := Except.ok.inj h
      simp [readCheck, hx, checkValue, checkFields, Except.map]
  · intro field v x c hfield h
    obtain ⟨text, htext, -⟩ := Except.map_eq_ok_iff.mp h
    rcases mem_checkFields_iff.mp hfield with rfl | rfl | rfl | rfl <;> simp [checkFrom, htext, Except.bind]

/-- The values that a section is read as. -/
def readSection : String → Setting → Decoded (String → Value)
  | "info", v => (decodeRecord "InfoConfig" infoFields .none infoFrom v).map infoValue
  | "generate", v =>
    (decodeRecord "GenerateConfig" generateFields .default generateFrom v).map generateValue
  | _, v => (decodeRecord "CheckConfig" checkFields .default checkFrom v).map checkValue

theorem fieldByField_sections : FieldByField sections sectionFrom readSection value := by
  constructor
  · intro c c' group v hgroup h
    rcases mem_sections_iff.mp hgroup with rfl | rfl | rfl <;>
    · simp only [sectionFrom, String.reduceEq, imp_false, not_false_eq_true,
        Except.monadBind_eq_bind, Except.bind_eq_ok_iff] at h
      obtain ⟨x, hx, h⟩ := h
      obtain rfl := Except.ok.inj h
      simp [readSection, hx, value, sections, Except.map]
  · intro group v x c hgroup h
    rcases mem_sections_iff.mp hgroup with rfl | rfl | rfl <;>
    · simp only [readSection, String.reduceEq, imp_false, not_false_eq_true,
        Except.map_eq_ok_iff] at h
      obtain ⟨x, hx, -⟩ := h
      simp [sectionFrom, hx, Except.bind]

/-! A section given as a table -/

section

variable {group : String} {origin : Option String} {entries : Settings}

theorem exists_readSection_iff (hgroup : group ∈ sections) (hs : Dict.Sorted entries) :
    (∃ f, readSection group (.table origin entries) = .ok f) ↔
      ∀ key ∈ fieldsOf group, ∀ v ∈ Dict.get? entries key, ∃ x, read group key v = .ok x := by
  rcases mem_sections_iff.mp hgroup with rfl | rfl | rfl
  · simpa [readSection, fieldsOf, read] using
      fieldByField_info.exists_decodeRecord_iff "InfoConfig" origin hs
  · simpa [readSection, fieldsOf, read] using
      fieldByField_generate.exists_decodeRecord_iff "GenerateConfig" origin hs
  · simpa [readSection, fieldsOf, read] using
      fieldByField_check.exists_decodeRecord_iff "CheckConfig" origin hs

/-- A setting of a section has the value that it is read as, or its default. -/
theorem takes_of_readSection (hgroup : group ∈ sections) (hs : Dict.Sorted entries)
    {f : String → Value} (h : readSection group (.table origin entries) = .ok f) {key : String}
    (hkey : key ∈ fieldsOf group) :
    (∀ v ∈ Dict.get? entries key, read group key v = .ok (f key)) ∧
      (Dict.get? entries key = none → f key = Config.default.value group key) := by
  rcases mem_sections_iff.mp hgroup with rfl | rfl | rfl
  · obtain ⟨info, hinfo, rfl⟩ := Except.map_eq_ok_iff.mp h
    obtain ⟨hsome, hnone⟩ := fieldByField_info.takes_of_decodeRecord _ _ hs hinfo hkey
    exact ⟨hsome, hnone⟩
  · obtain ⟨g, hg, rfl⟩ := Except.map_eq_ok_iff.mp h
    obtain ⟨hsome, hnone⟩ := fieldByField_generate.takes_of_decodeRecord _ _ hs hg hkey
    exact ⟨hsome, hnone⟩
  · obtain ⟨c, hc, rfl⟩ := Except.map_eq_ok_iff.mp h
    obtain ⟨hsome, hnone⟩ := fieldByField_check.takes_of_decodeRecord _ _ hs hc hkey
    exact ⟨hsome, hnone⟩

end

/-! The whole configuration -/

section

variable {settings : Settings} {c : Config}

theorem exists_ofSettings_iff (hs : Dict.Sorted settings) :
    (∃ c, ofSettings settings = .ok c) ↔
      ∀ group ∈ sections, ∀ v ∈ Dict.get? settings group, ∃ f, readSection group v = .ok f :=
  fieldByField_sections.exists_decodeRecord_iff "SpecConfig" none hs

theorem takes_of_ofSettings (hs : Dict.Sorted settings) (h : ofSettings settings = .ok c)
    {group : String} (hgroup : group ∈ sections) :
    Takes readSection value .default c group (Dict.get? settings group) :=
  fieldByField_sections.takes_of_decodeRecord _ _ hs h hgroup

/-- What stands below a section under the name of a setting is read as the value of the setting. -/
theorem read_of_ofSettings (ht : Tidy settings) (h : ofSettings settings = .ok c)
    {group key : String} (hgroup : group ∈ sections) (hkey : key ∈ fieldsOf group) {v : Setting}
    (hv : Dict.get? (below settings group) key = some v) :
    read group key v = .ok (c.value group key) := by
  obtain ⟨hsome, -⟩ := takes_of_ofSettings ht.sorted h hgroup
  have hsorted := ht.below group
  unfold below at hv hsorted
  cases hold : Dict.get? settings group with
  | none => simp [hold] at hv
  | some old =>
    rw [hold] at hv hsorted
    cases old with
    | table origin entries =>
      exact (takes_of_readSection hgroup hsorted (hsome _ hold) hkey).1 v hv
    | scalar | list => cases hv

/-- Where nothing stands there, and the section is a table if it is set at all, the setting has its
default. -/
theorem value_of_not_below (ht : Tidy settings) (h : ofSettings settings = .ok c)
    {group key : String} (hgroup : group ∈ sections) (htable : Settings.Tabular settings group)
    (hkey : key ∈ fieldsOf group) (hnot : Dict.get? (below settings group) key = none) :
    c.value group key = Config.default.value group key := by
  obtain ⟨hsome, hnone⟩ := takes_of_ofSettings ht.sorted h hgroup
  have hsorted := ht.below group
  unfold below at hnot hsorted
  cases hold : Dict.get? settings group with
  | none => exact congrFun (hnone hold) key
  | some old =>
    obtain ⟨origin, entries, rfl⟩ := Settings.isTable_iff.mp (htable old hold)
    rw [hold] at hnot hsorted
    exact (takes_of_readSection hgroup hsorted (hsome _ hold) hkey).2 hnot

/-- A section that is a table is read where each of its settings is. -/
theorem exists_readSection (ht : Tidy settings) {group : String} (hgroup : group ∈ sections)
    (htable : Settings.Tabular settings group)
    (hread : ∀ key ∈ fieldsOf group, ∀ v ∈ Dict.get? (below settings group) key,
      ∃ x, read group key v = .ok x) :
    ∀ v ∈ Dict.get? settings group, ∃ f, readSection group v = .ok f := by
  intro v hv
  obtain ⟨origin, entries, rfl⟩ := Settings.isTable_iff.mp (htable v hv)
  have hbelow : below settings group = entries := by
    rw [below, hv]
    rfl
  refine (exists_readSection_iff hgroup (hbelow ▸ ht.below group)).mpr fun key hkey => ?_
  rw [← hbelow]
  exact hread key hkey

end

end RpcContract.Config
