import RpcContract.Proofs.Config.Sources
import RpcContract.Proofs.Toml.Document

/-! Files that hold the text of a document, with tables of settings for its sections. -/

namespace RpcContract

namespace Config

open Settings (laidIn laidAllIn ofToml ofTomlEntries)

variable {origin group key : String} {part : Toml.Section} {doc : List Toml.Section}

/-- What a document sets, as a source. -/
def sourceOf (origin : String) (doc : List Toml.Section) : List (String × Setting) :=
  ofTomlEntries origin (doc.map Toml.Section.table)

/-- A section of settings that there are, each of the right type. -/
structure Fits (part : Toml.Section) : Prop where
  name : part.name ∈ sections
  keys : ∀ e ∈ part.entries, e.1 ∈ fieldsOf part.name
  typed : ∀ origin, ∀ e ∈ part.entries,
    ∃ x, read part.name e.1 (ofToml origin e.2.value) = .ok x

theorem ofTomlEntries_eq_map (origin : String) (entries : List (String × Toml.Value)) :
    ofTomlEntries origin entries = entries.map fun e => (e.1, ofToml origin e.2) := by
  induction entries with
  | nil => rfl
  | cons e entries ih => rw [List.map_cons, ← ih, ofTomlEntries]

/-- The names of sections are in small letters, need no quotes and are no paths to a setting. -/
theorem plain_section : ∀ group ∈ sections,
    Settings.Key.read group = ⟨group, []⟩ ∧ Text.lowercase group = group ∧ Toml.IsKey group := by
  decide +kernel

theorem plain_field : ∀ group ∈ sections, ∀ key ∈ fieldsOf group,
    Text.lowercase key = key ∧ Toml.IsKey key := by
  decide +kernel

theorem Fits.plain (h : Fits part) : part.Plain := by
  obtain ⟨-, -, hname⟩ := plain_section _ h.name
  exact ⟨hname, fun e he => (plain_field _ h.name _ (h.keys e he)).2⟩

/-- What a section puts below a name of the settings: all its entries below its own. -/
theorem laidIn_table (h : Fits part) (origin group : String) :
    laidIn group (part.name, ofToml origin part.table.2) =
      if part.name = group then part.entries.map fun e => (e.1, ofToml origin e.2.value)
      else [] := by
  obtain ⟨hread, hlow, -⟩ := plain_section _ h.name
  have hlowered : Settings.lowered (Settings.entriesOf (ofToml origin part.table.2)) =
      part.entries.map fun e => (e.1, ofToml origin e.2.value) := by
    simp only [Toml.Section.table, ofToml, Settings.entriesOf, ofTomlEntries_eq_map,
      Settings.lowered, List.map_map]
    exact List.map_congr_left fun e he => congrArg (·, _) (plain_field _ h.name _ (h.keys e he)).1
  rw [laidIn, hread, hlow]
  simp only [hlowered]

theorem sourceOf_eq_map (origin : String) (doc : List Toml.Section) :
    sourceOf origin doc = doc.map fun part => (part.name, ofToml origin part.table.2) := by
  rw [sourceOf, ofTomlEntries_eq_map, List.map_map]
  rfl

theorem laidAllIn_sourceOf (h : ∀ part ∈ doc, Fits part) (origin group : String) :
    laidAllIn group (sourceOf origin doc) =
      (doc.filter (·.name = group)).flatMap fun part =>
        part.entries.map fun e => (e.1, ofToml origin e.2.value) := by
  induction doc with
  | nil => rfl
  | cons part doc ih =>
    obtain ⟨hpart, hdoc⟩ := List.forall_mem_cons.mp h
    have hcons : laidAllIn group (sourceOf origin (part :: doc)) =
        laidIn group (part.name, ofToml origin part.table.2) ++
          laidAllIn group (sourceOf origin doc) := by
      rw [sourceOf_eq_map, sourceOf_eq_map]
      rfl
    rw [hcons, laidIn_table hpart, ih hdoc]
    by_cases hname : part.name = group <;> simp [hname]

theorem not_isTable_item (origin : String) (item : Toml.Item) :
    ¬ Settings.IsTable (ofToml origin item.value) := by
  cases item <;> exact id

theorem orderly_sourceOf (h : ∀ part ∈ doc, Fits part) (origin : String) :
    Orderly (sourceOf origin doc) := by
  refine ⟨fun e he group _ key _ hgroup => ?_, fun group _ key _ v hv => ?_⟩
  · rw [sourceOf_eq_map] at he
    obtain ⟨part, hpart, rfl⟩ := List.mem_map.mp he
    obtain ⟨hread, -⟩ := plain_section _ (h part hpart).name
    rw [hread]
    refine ⟨trivial, fun x hx _ => ?_⟩
    simp only [Toml.Section.table, ofToml, Settings.entriesOf, ofTomlEntries_eq_map,
      List.map_map] at hx
    obtain ⟨e, -, rfl⟩ := List.mem_map.mp hx
    exact not_isTable_item origin e.2
  · rw [laidAllIn_sourceOf h] at hv
    obtain ⟨part, hpart, hv⟩ := List.mem_flatMap.mp hv
    obtain ⟨hmem, hname⟩ := List.mem_filter.mp hpart
    obtain ⟨e, he, heq⟩ := List.mem_map.mp hv
    obtain ⟨rfl, rfl⟩ := Prod.mk.inj heq
    obtain rfl := of_decide_eq_true hname
    exact (h part hmem).typed origin e he

end Config

theorem Settings.textOf_text {s : String} (h : ∀ cs, s.toList ≠ '\uFEFF' :: cs) :
    Settings.textOf (.text s) = s := by
  -- the text has no mark, by `h`
  simp only [Settings.textOf]

/-- A file with the text of a document. -/
theorem Config.holds_document {disk : Disk} {name : String} {doc : List Toml.Section}
    (hext : Path.extension? name = some "toml")
    (hcontent : disk.content name = .ok (.text (Toml.document doc)))
    (h : ∀ part ∈ doc, Config.Fits part) (hdistinct : Toml.Distinct doc) :
    Settings.Holds disk name (Config.sourceOf (Settings.originOfPath disk name) doc) := by
  have htext := Settings.textOf_text (s := Toml.document doc) fun cs => by
    rw [Toml.document, String.toList_ofList]
    exact Toml.sectionsWritten_ne_mark doc cs
  have hread := Toml.read?_document (fun part hp => (h part hp).plain) hdistinct
  exact ⟨hext, _, _, hcontent, (congrArg Toml.read? htext).trans hread, rfl⟩

end RpcContract
