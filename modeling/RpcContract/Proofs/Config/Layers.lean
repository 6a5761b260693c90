import RpcContract.Proofs.Config.Documents
import RpcContract.Proofs.Config.Variables

/-! The layers of a configuration: the files in the working directory, the user's own, the one that
is asked for, and the variables of the environment. -/

namespace RpcContract.Config

open Settings (IsVariable IsWord Direct laidIn laidAllIn ofVariables variableOrigin scalarOf)

variable {group key : String} {environment : List (String × String)}

/-- What the text of a variable sets a setting to: itself where it is a word and a text is wanted,
and else the truth value or the layout of its name. -/
def worded (group key text : String) : Option Value :=
  if key ∈ textFields group then if IsWord text then some (.text text) else none
  else if key = "output_format" then (OpenRpc.Layout.ofName? text).map .layout
  else if key = "inline" ∨ key = "write_checksum" then
    (Settings.isTruthWord text).map .flag
  else none

theorem eq_generate_of_not_text (hkey : key ∈ fieldsOf group) (htext : key ∉ textFields group) :
    group = "generate" := by
  unfold textFields at htext
  split at htext
  · rfl
  · exact absurd hkey htext

theorem eq_name_of_ofName? {text : String} {layout : OpenRpc.Layout}
    (h : OpenRpc.Layout.ofName? text = some layout) : text = layout.name := by
  unfold OpenRpc.Layout.ofName? at h
  split at h
  · next htext =>
    obtain rfl := Option.some.inj h
    exact htext
  · split at h
    · next htext =>
      obtain rfl := Option.some.inj h
      exact htext
    · cases h

/-- A text that fits is read as what it sets the setting to. -/
theorem read_of_worded (hkey : key ∈ fieldsOf group) {text : String} {x : Value}
    (h : worded group key text = some x) :
    read group key (.scalar variableOrigin (scalarOf text)) = .ok x := by
  unfold worded at h
  split at h
  · next htext =>
    split at h
    · next hword =>
      obtain rfl := Option.some.inj h
      have hdecode := Settings.decodeText_scalarOf variableOrigin text
      rw [Settings.spelled_of_isWord hword] at hdecode
      exact read_text htext hdecode
    · cases h
  · next htext =>
    obtain rfl := eq_generate_of_not_text hkey htext
    split at h
    · next hname =>
      subst hname
      obtain ⟨layout, hlayout, rfl⟩ := Option.map_eq_some_iff.mp h
      obtain rfl := eq_name_of_ofName? hlayout
      cases layout <;> rfl
    split at h
    · next hname =>
      obtain ⟨b, hb, rfl⟩ := Option.map_eq_some_iff.mp h
      obtain rfl := Settings.isTruthWord_eq_some_iff.mp hb
      rcases hname with rfl | rfl <;> cases b <;> rfl
    · cases h

/-- A variable for a setting, with a text that fits it. -/
def IsLeaf (e : String × String) : Prop :=
  ∃ group key, key ∈ fieldsOf group ∧ e.1 = variableName group key ∧
    (worded group key e.2).isSome

/-- What the variables set a setting to. -/
def saidByVariables (group key : String) (environment : List (String × String)) : Option Value :=
  (Dict.last? environment (variableName group key)).bind (worded group key)

theorem variableName_inj {group' key' : String} (hkey : key ∈ fieldsOf group)
    (hkey' : key' ∈ fieldsOf group') (h : variableName group key = variableName group' key') :
    group = group' ∧ key = key' := by
  have hsame := ofVariable?_variableName hkey ""
  rw [h, ofVariable?_variableName hkey'] at hsame
  have hname : group' ++ "." ++ key' = group ++ "." ++ key :=
    congrArg Prod.fst (Option.some.inj hsame)
  have hread := (read_name group (mem_sections_of_fieldsOf hkey) key hkey).1
  have hread' := (read_name group' (mem_sections_of_fieldsOf hkey') key' hkey').1
  rw [← hname, hread'] at hread
  simpa [eq_comm] using hread

theorem isVariable_variableName (hkey : key ∈ fieldsOf group) :
    IsVariable (variableName group key) :=
  (readable_variableName group (mem_sections_of_fieldsOf hkey) key hkey).1

/-- What variables put in the place of a setting is the text of the last one that is for it. -/
theorem last?_laidAllIn_ofVariables (h : ∀ e ∈ environment, ¬ IsVariable e.1 ∨ IsLeaf e)
    (hkey : key ∈ fieldsOf group) :
    Dict.last? (laidAllIn group (ofVariables environment)) key =
      (Dict.last? environment (variableName group key)).map fun text =>
        .scalar variableOrigin (scalarOf text) := by
  induction environment with
  | nil => rfl
  | cons e environment ih =>
    obtain ⟨name, text⟩ := e
    obtain ⟨he, hrest⟩ := List.forall_mem_cons.mp h
    have hlast : Dict.last? ((name, text) :: environment) (variableName group key) =
        (Dict.last? environment (variableName group key)).or
          (if name = variableName group key then some text else none) := rfl
    rcases he with he | ⟨group', key', hkey', hname, -⟩
    · have hne : name ≠ variableName group key := fun heq => he (heq ▸ isVariable_variableName hkey)
      rw [hlast, if_neg hne, Option.or_none, ← ih hrest, Settings.ofVariables_cons_none he]
    · subst hname
      have hsame : variableName group' key' = variableName group key ↔
          group' = group ∧ key' = key :=
        ⟨variableName_inj hkey' hkey, fun h => h.1 ▸ h.2 ▸ rfl⟩
      rw [Settings.ofVariables_cons_some (ofVariable?_variableName hkey' text), laidAllIn,
        List.flatMap_cons, laidIn_place hkey', Dict.last?_append, hlast]
      have hnext := ih hrest
      rw [laidAllIn] at hnext
      rw [hnext]
      simp only [hsame]
      by_cases hgroup : group' = group <;> by_cases hkeys : key' = key <;>
        cases Dict.last? environment (variableName group key) <;>
        simp [Dict.last?, hgroup, hkeys]

/-- The variables as a source: single values of the right types. -/
theorem orderly_ofVariables (h : ∀ e ∈ environment, ¬ IsVariable e.1 ∨ IsLeaf e) :
    Orderly (ofVariables environment) := by
  have hleaf : ∀ e ∈ ofVariables environment, ∃ group key text, key ∈ fieldsOf group ∧
      e = (group ++ "." ++ key, .scalar variableOrigin (scalarOf text)) ∧
        (worded group key text).isSome := by
    intro e he
    obtain ⟨⟨name, text⟩, hv, hof⟩ := List.mem_filterMap.mp he
    rcases h _ hv with hnot | ⟨group, key, hkey, rfl, hworded⟩
    · rw [Settings.ofVariable?_eq_none hnot] at hof
      cases hof
    · rw [ofVariable?_variableName hkey] at hof
      exact ⟨group, key, text, hkey, (Option.some.inj hof).symm, hworded⟩
  refine ⟨fun e he group _ key _ => ?_, fun group _ key _ v hv => ?_⟩
  · obtain ⟨group', key', text, hkey', rfl, -⟩ := hleaf e he
    exact direct_place hkey' id group key
  · obtain ⟨e, he, hlaid⟩ := List.mem_flatMap.mp hv
    obtain ⟨group', key', text, hkey', rfl, hworded⟩ := hleaf e he
    rw [laidIn_place hkey'] at hlaid
    split at hlaid
    · next hgroup =>
      subst hgroup
      obtain ⟨rfl, rfl⟩ := Prod.mk.inj (List.mem_singleton.mp hlaid)
      obtain ⟨x, hx⟩ := Option.isSome_iff_exists.mp hworded
      exact ⟨x, read_of_worded hkey' hx⟩
    · cases hlaid

theorem said_ofVariables (h : ∀ e ∈ environment, ¬ IsVariable e.1 ∨ IsLeaf e)
    (hkey : key ∈ fieldsOf group) :
    said group key (ofVariables environment) = saidByVariables group key environment := by
  rw [said, last?_laidAllIn_ofVariables h hkey, saidByVariables]
  cases hlast : Dict.last? environment (variableName group key) with
  | none => rfl
  | some text =>
    rcases h _ (Dict.mem_of_last? hlast) with hnot | ⟨group', key', hkey', hname, hworded⟩
    · exact absurd (isVariable_variableName hkey) hnot
    · obtain ⟨rfl, rfl⟩ := variableName_inj hkey hkey' hname
      obtain ⟨x, hx⟩ := Option.isSome_iff_exists.mp hworded
      simp [read_of_worded hkey hx, hx, Except.toOption]

/-- Files with tables for sections, whose values are of the right types, and variables whose texts
fit what they are for, make a configuration. Setting by setting, the value is what the last of them
says that says anything, and the default where none does: the files that are there in their order,
then the one that is asked for, then the variables. -/
theorem load_layers {s : Surroundings} {path : Option String}
    {common asked : List (List (String × Setting))}
    (hcommon : List.Forall₂ (Settings.Supplies s.disk) (commonFiles ++ [s.userFile]) common)
    (hasked : List.Forall₂ (Settings.Holds s.disk) path.toList asked)
    (hfiles : ∀ source ∈ common ++ asked, Orderly source)
    (hvariables : ∀ e ∈ s.environment, ¬ IsVariable e.1 ∨ IsLeaf e) :
    ∃ c, load s path = .ok c ∧ ∀ group ∈ sections, ∀ key ∈ fieldsOf group,
      c.value group key = ((saidByVariables group key s.environment).or
        (lastSaid group key (common ++ asked))).getD (Config.default.value group key) := by
  obtain ⟨files, last, hfound, hlast, rfl⟩ := forall₂_append_left_iff.mp hcommon
  obtain ⟨user, _, huser, hnil, rfl⟩ := List.forall₂_cons_left_iff.mp hlast
  obtain rfl := List.forall₂_nil_left_iff.mp hnil
  obtain ⟨c, hc, hvalue⟩ := exists_load_of_orderly (hfound.imp fun _ _ h => h.ofOptionalFile)
    (fun _ => huser.ofOptionalFile) huser.eq_nil (hasked.imp fun _ _ h => h.ofFile) hfiles
    (orderly_ofVariables hvariables)
  refine ⟨c, hc, fun group hgroup key hkey => ?_⟩
  rw [hvalue group hgroup key hkey, said_ofVariables hvariables hkey]

/-- A list of one file takes the place of another's, and what a file does not set is kept. -/
theorem load_three_files :
    let shared : List Toml.Section :=
      [⟨"info", [("title", .text "Agents"), ("version", .text "1")]⟩,
        ⟨"generate", [("methods", .texts ["a", "b"]), ("inline", .flag true)]⟩]
    let users : List Toml.Section := [⟨"generate", [("methods", .texts ["c"])]⟩]
    let mine : List Toml.Section := [⟨"info", [("version", .text "2")]⟩]
    let disk : Disk := ⟨.directory [("mine.toml", .file (.text (Toml.document mine))),
      ("openrpc.toml", .file (.text (Toml.document shared))),
      ("user.toml", .file (.text (Toml.document users)))], []⟩
    let environment := [("HOME", "/root"), ("OPENRPC__INFO__TITLE", "Robots"),
      ("OPENRPC__GENERATE__INLINE", "false")]
    ∃ c, load ⟨disk, environment, "/user.toml", "/tmp"⟩ (some "mine.toml") = .ok c ∧
      c.value "info" "title" = .text "Robots" ∧ c.value "info" "version" = .text "2" ∧
        c.value "generate" "methods" = .texts ["c"] ∧ c.value "generate" "inline" = .flag false ∧
          c.value "check" "tests" = .text "tests" := by
  intro shared users mine disk environment
  have hshared : ∀ part ∈ shared, Fits part := by
    refine List.forall_mem_cons.mpr ⟨⟨by decide, by decide, fun origin => ?_⟩,
      List.forall_mem_singleton.mpr ⟨by decide, by decide, fun origin => ?_⟩⟩
    · exact List.forall_mem_cons.mpr ⟨⟨_, rfl⟩, List.forall_mem_singleton.mpr ⟨_, rfl⟩⟩
    · exact List.forall_mem_cons.mpr ⟨⟨_, rfl⟩, List.forall_mem_singleton.mpr ⟨_, rfl⟩⟩
  have husers : ∀ part ∈ users, Fits part := List.forall_mem_singleton.mpr
    ⟨by decide, by decide, fun origin => List.forall_mem_singleton.mpr ⟨_, rfl⟩⟩
  have hmine : ∀ part ∈ mine, Fits part := List.forall_mem_singleton.mpr
    ⟨by decide, by decide, fun origin => List.forall_mem_singleton.mpr ⟨_, rfl⟩⟩
  have hcommon : List.Forall₂ (Settings.Supplies disk) (commonFiles ++ ["/user.toml"])
      [sourceOf "openrpc.toml" shared, [], [], sourceOf "user.toml" users] := by
    refine .cons (.file ?_) (.cons (.nothing ?_) (.cons (.nothing ?_) (.cons (.file ?_) .nil)))
    · exact holds_document (by decide +kernel) (by decide +kernel) hshared ⟨by decide, by decide⟩
    · decide +kernel
    · decide +kernel
    · exact holds_document (by decide +kernel) (by decide +kernel) husers ⟨by decide, by decide⟩
  have hasked : List.Forall₂ (Settings.Holds disk) ["mine.toml"] [sourceOf "mine.toml" mine] :=
    .cons (holds_document (by decide +kernel) (by decide +kernel) hmine ⟨by decide, by decide⟩) .nil
  have hfiles : ∀ source ∈ [sourceOf "openrpc.toml" shared, [], [], sourceOf "user.toml" users] ++
      [sourceOf "mine.toml" mine], Orderly source := by
    simp only [List.cons_append, List.nil_append, List.forall_mem_cons]
    exact ⟨orderly_sourceOf hshared _, .nil, .nil, orderly_sourceOf husers _,
      orderly_sourceOf hmine _, by simp⟩
  have hvariables : ∀ e ∈ environment, ¬ IsVariable e.1 ∨ IsLeaf e := by
    refine List.forall_mem_cons.mpr ⟨.inl (by decide +kernel), List.forall_mem_cons.mpr
      ⟨.inr ⟨"info", "title", ?_⟩, List.forall_mem_singleton.mpr
        (.inr ⟨"generate", "inline", ?_⟩)⟩⟩ <;>
      decide +kernel
  obtain ⟨c, hc, hvalue⟩ := @load_layers ⟨disk, environment, "/user.toml", "/tmp"⟩
    (some "mine.toml") _ _ hcommon hasked hfiles hvariables
  refine ⟨c, hc, ?_⟩
  rw [hvalue "info" (by decide) "title" (by decide),
    hvalue "info" (by decide) "version" (by decide),
    hvalue "generate" (by decide) "methods" (by decide),
    hvalue "generate" (by decide) "inline" (by decide),
    hvalue "check" (by decide) "tests" (by decide)]
  decide +kernel

end RpcContract.Config
