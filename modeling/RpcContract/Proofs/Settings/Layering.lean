import RpcContract.Proofs.Dict
import RpcContract.Settings.Key

/-! Settings laid over one another. What stands under a name of a table afterwards is what the last
source put there that has the name, and a table is gone through name by name: a source that has one
name of it leaves the others as they were. -/

namespace RpcContract.Settings

def IsTable : Setting → Prop
  | .table .. => True
  | _ => False

theorem isTable_iff {v : Setting} : IsTable v ↔ ∃ origin entries, v = .table origin entries := by
  cases v <;> simp [IsTable]

/-- What stands under a name once a setting is laid over what stood there. -/
def laidOver (old : Option Setting) : Setting → Setting
  | .table _ entries =>
    match old with
    | some old => if entries.isEmpty then old else .table none (layAll (entriesOf old) entries)
    | none => .table none (layAll [] entries)
  | value => value

theorem laidOver_of_not_table {v : Setting} (h : ¬ IsTable v) (old : Option Setting) :
    laidOver old v = v := by
  cases v with
  | scalar | list => rfl
  | table => exact absurd trivial h

theorem lay_eq (under : Settings) (name : String) (v : Setting) :
    lay under name v = under ∧ Dict.get? under (Text.lowercase name) =
        some (laidOver (Dict.get? under (Text.lowercase name)) v) ∨
      lay under name v = Dict.insert under (Text.lowercase name)
        (laidOver (Dict.get? under (Text.lowercase name)) v) := by
  cases v with
  | scalar | list =>
    refine .inr ?_
    rw [lay]
    · rfl
    · simp
  | table origin entries =>
    rw [lay]
    cases hold : Dict.get? under (Text.lowercase name) with
    | none => exact .inr rfl
    | some old =>
      by_cases hempty : entries.isEmpty = true
      · exact .inl ⟨by simp [hempty], by simp [laidOver, hempty]⟩
      · exact .inr (by simp [laidOver, hempty])

theorem get?_lay (under : Settings) (name : String) (v : Setting) (key : String) :
    Dict.get? (lay under name v) key =
      if Text.lowercase name = key then some (laidOver (Dict.get? under key) v)
      else Dict.get? under key := by
  rcases lay_eq under name v with ⟨h, hsame⟩ | h
  · rw [h]
    split
    · next hname => rw [← hname, ← hsame]
    · rfl
  · rw [h, Dict.get?_insert]
    split
    · next hname => rw [hname]
    · rfl

theorem sorted_lay {under : Settings} (h : Dict.Sorted under) (name : String) (v : Setting) :
    Dict.Sorted (lay under name v) := by
  rcases lay_eq under name v with ⟨hsame, -⟩ | hsame
  · rwa [hsame]
  · rw [hsame]
    exact Dict.sorted_insert h _ _

theorem layAll_eq_foldl (under : Settings) (entries : List (String × Setting)) :
    layAll under entries = entries.foldl (fun s e => lay s e.1 e.2) under := by
  induction entries generalizing under with
  | nil => rfl
  | cons e entries ih => exact ih (lay under e.1 e.2)

theorem sorted_layAll {under : Settings} (h : Dict.Sorted under)
    (entries : List (String × Setting)) : Dict.Sorted (layAll under entries) := by
  rw [layAll_eq_foldl]
  exact List.foldlRecOn entries _ (motive := Dict.Sorted) h fun _ h e _ => sorted_lay h e.1 e.2

/-- The entries of a table under the names that they get. -/
def lowered (entries : List (String × Setting)) : List (String × Setting) :=
  entries.map fun e => (Text.lowercase e.1, e.2)

/-- Under a name that has no table, the last entry counts. -/
theorem get?_layAll {under : Settings} {entries : List (String × Setting)} {key : String}
    (h : ∀ e ∈ entries, Text.lowercase e.1 = key → ¬ IsTable e.2) :
    Dict.get? (layAll under entries) key =
      (Dict.last? (lowered entries) key).or (Dict.get? under key) := by
  induction entries generalizing under with
  | nil => simp [layAll, lowered, Dict.last?]
  | cons e entries ih =>
    obtain ⟨he, hrest⟩ := List.forall_mem_cons.mp h
    have hstep : layAll under (e :: entries) = layAll (lay under e.1 e.2) entries := rfl
    have hlast : Dict.last? (lowered (e :: entries)) key =
        (Dict.last? (lowered entries) key).or
          (if Text.lowercase e.1 = key then some e.2 else none) := rfl
    rw [hstep, ih hrest, hlast, get?_lay, Option.or_assoc]
    by_cases hkey : Text.lowercase e.1 = key
    · rw [if_pos hkey, if_pos hkey, laidOver_of_not_table (he hkey)]
      rfl
    · simp [hkey]

theorem entriesOf_laidOver {old : Option Setting} {v : Setting} (h : IsTable v) :
    entriesOf (laidOver old v) = layAll ((old.map entriesOf).getD []) (entriesOf v) := by
  obtain ⟨origin, entries, rfl⟩ := isTable_iff.mp h
  cases old with
  | none => rfl
  | some old =>
    by_cases hempty : entries.isEmpty = true
    · obtain rfl := List.isEmpty_iff.mp hempty
      rfl
    · simp [laidOver, hempty, entriesOf]

theorem isTable_laidOver {old : Option Setting} {v : Setting} (hold : ∀ w ∈ old, IsTable w)
    (h : IsTable v) : IsTable (laidOver old v) := by
  obtain ⟨origin, entries, rfl⟩ := isTable_iff.mp h
  cases old with
  | none => exact trivial
  | some old =>
    by_cases hempty : entries.isEmpty = true
    · simpa [laidOver, hempty] using hold old rfl
    · simp [laidOver, hempty, IsTable]

/-! Values at the place that a name tells -/

/-- What stands under the first name of a place once a value is put in the place. -/
def placed (old : Option Setting) (v : Setting) : List Step → Setting
  | [] => laidOver old v
  | steps => assignIn v steps (old.getD nothing)

theorem placed_cons (old : Option Setting) (v : Setting) (step : Step) (steps : List Step) :
    placed old v (step :: steps) = assignIn v (step :: steps) (old.getD nothing) := rfl

theorem get?_assign (settings : Settings) (name : String) (v : Setting) (q : String) :
    Dict.get? (assign settings name v) q =
      if Text.lowercase (Key.read name).head = q then
        some (placed (Dict.get? settings q) v (Key.read name).steps)
      else Dict.get? settings q := by
  unfold assign
  obtain ⟨head, _ | ⟨step, steps⟩⟩ := Key.read name
  · exact get?_lay settings head v q
  · rw [Dict.get?_insert]
    split
    · next hq => rw [← hq]; rfl
    · rfl

theorem sorted_assign {settings : Settings} (h : Dict.Sorted settings) (name : String)
    (v : Setting) : Dict.Sorted (assign settings name v) := by
  unfold assign
  obtain ⟨head, _ | ⟨step, steps⟩⟩ := Key.read name
  · exact sorted_lay h head v
  · exact Dict.sorted_insert h _ _

theorem entriesOf_tableFrom (old : Setting) (change : Settings → Settings) :
    entriesOf (tableFrom old change) = change (entriesOf old) := by
  cases old <;> rfl

theorem isTable_tableFrom (old : Setting) (change : Settings → Settings) :
    IsTable (tableFrom old change) := by
  cases old <;> exact trivial

theorem entriesOf_getD_nothing (old : Option Setting) :
    entriesOf (old.getD nothing) = (old.map entriesOf).getD [] := by
  cases old <;> rfl

/-- A step to a name changes the entries of the table under this name only. -/
theorem placed_child (old : Option Setting) (v : Setting) (name : String) (steps : List Step) :
    ∃ new, (steps = [] → ¬ IsTable v → new = v) ∧ IsTable (placed old v (.child name :: steps)) ∧
      (Dict.Sorted ((old.map entriesOf).getD []) →
        Dict.Sorted (entriesOf (placed old v (.child name :: steps)))) ∧
      ∀ key, Dict.get? (entriesOf (placed old v (.child name :: steps))) key =
        if Text.lowercase name = key then some new
        else Dict.get? ((old.map entriesOf).getD []) key := by
  rw [← entriesOf_getD_nothing]
  cases steps with
  | nil =>
    have hchild : placed old v [.child name] =
        tableFrom (old.getD nothing) fun entries => lay entries name v := by
      rw [placed_cons, assignIn]
    rw [hchild, entriesOf_tableFrom]
    refine ⟨laidOver (Dict.get? (entriesOf (old.getD nothing)) (Text.lowercase name)) v,
      fun _ hv => laidOver_of_not_table hv _, isTable_tableFrom _ _, fun h => sorted_lay h name v,
      fun key => ?_⟩
    rw [get?_lay]
    split
    · next hkey => rw [hkey]
    · rfl
  | cons step steps =>
    rw [placed_cons, assignIn, entriesOf_tableFrom]
    · exact ⟨_, by simp, isTable_tableFrom _ _, fun h => Dict.sorted_insert h _ _,
        fun key => Dict.get?_insert _ _ _ key⟩
    · simp

theorem sorted_placed {old : Option Setting} (h : Dict.Sorted ((old.map entriesOf).getD []))
    (v : Setting) (steps : List Step) : Dict.Sorted (entriesOf (placed old v steps)) := by
  match steps with
  | [] =>
    by_cases hv : IsTable v
    · rw [placed, entriesOf_laidOver hv]
      exact sorted_layAll h _
    · rw [placed, laidOver_of_not_table hv]
      cases v with
      | scalar | list => exact .nil
      | table => exact absurd trivial hv
  | .child name :: steps =>
    obtain ⟨-, -, -, hsorted, -⟩ := placed_child old v name steps
    exact hsorted h
  | .index i :: steps =>
    rw [placed_cons, assignIn]
    cases old.getD nothing <;> exact .nil

/-! The entries below a name of the settings -/

/-- None where there is no table. -/
def below (settings : Settings) (group : String) : Settings :=
  ((Dict.get? settings group).map entriesOf).getD []

/-- Names are in order, those of the tables below them too. -/
structure Tidy (settings : Settings) : Prop where
  sorted : Dict.Sorted settings
  below : ∀ group, Dict.Sorted (below settings group)

/-- A name of the settings has a table if it has anything. -/
def Tabular (settings : Settings) (group : String) : Prop :=
  ∀ v ∈ Dict.get? settings group, IsTable v

/-- What an entry of a source puts below a name of the settings: the entries of a table, or one
value where the name tells the place of the value. -/
def laidIn (group : String) (e : String × Setting) : List (String × Setting) :=
  if Text.lowercase (Key.read e.1).head = group then
    match (Key.read e.1).steps with
    | [] => lowered (entriesOf e.2)
    | [.child name] => [(Text.lowercase name, e.2)]
    | _ => []
  else []

/-- An entry of a source takes a name of the settings for a table, and what it has under a key of
this table is a single value or a list, as a whole. -/
def Direct (group key : String) (e : String × Setting) : Prop :=
  Text.lowercase (Key.read e.1).head = group →
    match (Key.read e.1).steps with
    | [] => IsTable e.2 ∧ ∀ x ∈ entriesOf e.2, Text.lowercase x.1 = key → ¬ IsTable x.2
    | .child name :: steps => Text.lowercase name = key → steps = [] ∧ ¬ IsTable e.2
    | .index _ :: _ => False

theorem below_assign (settings : Settings) (name : String) (v : Setting) (group : String) :
    below (assign settings name v) group =
      if Text.lowercase (Key.read name).head = group then
        entriesOf (placed (Dict.get? settings group) v (Key.read name).steps)
      else below settings group := by
  rw [below, get?_assign]
  split <;> rfl

theorem Tidy.nil : Tidy [] := ⟨.nil, fun _ => .nil⟩

variable {settings : Settings} {group key : String} {e : String × Setting}

theorem Tidy.assign (h : Tidy settings) (name : String) (v : Setting) :
    Tidy (assign settings name v) := by
  refine ⟨sorted_assign h.sorted name v, fun group => ?_⟩
  rw [below_assign]
  split
  · exact sorted_placed (h.below group) v _
  · exact h.below group

theorem Tabular.assign (h : Tabular settings group) (he : Direct group key e) :
    Tabular (assign settings e.1 e.2) group := by
  unfold Tabular
  rw [get?_assign]
  split
  · next hhead =>
    have he := he hhead
    rintro _ ⟨⟩
    split at he
    · next hsteps =>
      rw [hsteps]
      exact isTable_laidOver h he.1
    · next name steps hsteps =>
      rw [hsteps]
      obtain ⟨-, -, htable, -⟩ := placed_child (Dict.get? settings group) e.2 name steps
      exact htable
    · exact he.elim
  · exact h

/-- What stands under a key below a name of the settings is changed by what is put there only. -/
theorem get?_below_assign (he : Direct group key e) :
    Dict.get? (below (assign settings e.1 e.2) group) key =
      (Dict.last? (laidIn group e) key).or (Dict.get? (below settings group) key) := by
  rw [below_assign, laidIn]
  split
  · next hhead =>
    have he := he hhead
    split at he
    · next hsteps =>
      rw [hsteps]
      simp only [placed, entriesOf_laidOver he.1, get?_layAll he.2]
      rfl
    · next name steps hsteps =>
      rw [hsteps]
      obtain ⟨new, hnew, -, -, hget⟩ := placed_child (Dict.get? settings group) e.2 name steps
      rw [hget]
      by_cases hname : Text.lowercase name = key
      · obtain ⟨rfl, hv⟩ := he hname
        simp [hname, hnew rfl hv, Dict.last?]
      · cases steps <;> simp [hname, Dict.last?, below]
    · exact he.elim
  · simp [Dict.last?]

/-- All that a source puts below a name of the settings, in its order. -/
def laidAllIn (group : String) (entries : List (String × Setting)) : List (String × Setting) :=
  entries.flatMap (laidIn group)

theorem Tidy.assignAll (h : Tidy settings) (entries : List (String × Setting)) :
    Tidy (assignAll settings entries) :=
  List.foldlRecOn entries _ (motive := Tidy) h fun _ h e _ => h.assign e.1 e.2

theorem Tabular.assignAll {entries : List (String × Setting)} (h : Tabular settings group)
    (he : ∀ e ∈ entries, Direct group key e) : Tabular (assignAll settings entries) group :=
  List.foldlRecOn entries _ (motive := (Tabular · group)) h fun _ h e hmem => h.assign (he e hmem)

theorem get?_below_assignAll {entries : List (String × Setting)}
    (he : ∀ e ∈ entries, Direct group key e) :
    Dict.get? (below (assignAll settings entries) group) key =
      (Dict.last? (laidAllIn group entries) key).or (Dict.get? (below settings group) key) := by
  induction entries generalizing settings with
  | nil => simp [assignAll, laidAllIn, Dict.last?]
  | cons e entries ih =>
    obtain ⟨hhead, hrest⟩ := List.forall_mem_cons.mp he
    have hstep : assignAll settings (e :: entries) = assignAll (assign settings e.1 e.2) entries :=
      rfl
    rw [hstep, ih hrest, get?_below_assign hhead, laidAllIn, laidAllIn, List.flatMap_cons,
      Dict.last?_append, Option.or_assoc]

end RpcContract.Settings
