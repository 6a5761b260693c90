import RpcContract.Proofs.Schema.Guard

/-! Expansion step by step, with what is left to do on a stack and no bound on the number of steps.
The machine keeps no room: an entry is refused exactly if it stands on the stack already. Where the
room and the stack agree, the machine halts with what the recursion over the room returns. -/

namespace RpcContract.Schema

open Reference (Entry)

instance (room : Room) : DecidablePred room.Admits
  | .schema name => inferInstanceAs (Decidable (name ∈ room.names))
  | .place text => inferInstanceAs (Decidable (text ∈ room.places))

/-! Entering a reference -/

/-- What a reference enters, if that is free. A whole schema is found closed before it is looked at,
a place is looked at first. -/
def enter (r : Repository) (free : Entry → Prop) [DecidablePred free] (path : Json.Path)
    (text : String) : Except Error (Entry × Json.Members) :=
  match Reference.parse text with
  | .error fault => .error ⟨path, .invalidReference text fault⟩
  | .ok reference =>
    match r.get? reference.name with
    | none => .error ⟨path, .schemaNotFound text⟩
    | some schema =>
      match reference.pointer with
      | some pointer =>
        match schema.atPointer? pointer with
        | none => .error ⟨path, .pointerNotFound text pointer⟩
        | some (.obj target) =>
          if free (.place text) then .ok (.place text, target) else .error ⟨path, .cycle text⟩
        | some _ => .error ⟨path, .invalidReference text (.targetNotObject pointer)⟩
      | none =>
        if free (.schema reference.name) then
          match schema with
          | .obj target => .ok (.schema reference.name, target)
          | _ => .error ⟨path, .invalidReference text .schemaNotObject⟩
        else .error ⟨path, .cycle text⟩

/-- Following a reference is entering it and expanding what was entered. -/
theorem follow_eq_enter (r : Repository) (room : Room) (path : Json.Path) (text : String) :
    follow r room path text = (enter r room.Admits path text).bind fun entered =>
      expandObject (follow r (room.without entered.1)) path entered.2 := by
  rw [follow, enter]
  cases Reference.parse text with
  | error fault => rfl
  | ok reference =>
    obtain ⟨name, pointer⟩ := reference
    cases hg : r.get? name with
    | none => simp [hg, Except.bind]
    | some schema =>
      cases pointer with
      | none =>
        by_cases hn : name ∈ room.names <;> cases schema <;>
          simp [hg, hn, Except.bind, Room.Admits, Room.without]
      | some pointer =>
        cases hp : schema.atPointer? pointer with
        | none => simp [hg, hp, Except.bind]
        | some target =>
          by_cases ht : text ∈ room.places <;> cases target <;>
            simp [hg, hp, ht, Except.bind, Room.Admits, Room.without]

/-- The entries that references of `texts` can take up: the schemas, and the places referred to. -/
def Known (r : Repository) (texts : List String) : Entry → Prop
  | .schema name => name ∈ Dict.keys r.schemas
  | .place text => text ∈ texts.filter Room.isPlace

theorem known_place {r : Repository} {texts : List String} {text : String}
    {reference : Reference} {pointer : String} (ht : text ∈ texts)
    (hp : Reference.parse text = .ok reference) (hr : reference.pointer = some pointer) :
    Known r texts (.place text) := by
  refine List.mem_filter.mpr ⟨ht, ?_⟩
  rw [Room.isPlace, hp]
  simp [hr]

/-- Only what is known is ever asked for. -/
theorem enter_congr {r : Repository} {texts : List String} {free free' : Entry → Prop}
    [DecidablePred free] [DecidablePred free']
    (h : ∀ entry, Known r texts entry → (free entry ↔ free' entry)) (path : Json.Path)
    {text : String} (ht : text ∈ texts) : enter r free path text = enter r free' path text := by
  unfold enter
  cases hp : Reference.parse text with
  | error fault => rfl
  | ok reference =>
    cases hg : r.get? reference.name with
    | none => simp [hg]
    | some schema =>
      cases hr : reference.pointer with
      | none =>
        have hiff := h (.schema reference.name) (Dict.mem_keys_of_get? hg)
        simp only [hg, hr, hiff]
      | some pointer =>
        have hiff := h (.place text) (known_place ht hp hr)
        simp only [hg, hr, hiff]

/-- What is entered was free and is known, and its object is what the reference denotes. -/
theorem of_enter {r : Repository} {texts : List String} {free : Entry → Prop}
    [DecidablePred free] {path : Json.Path} {text : String} (ht : text ∈ texts) {entry : Entry}
    {target : Json.Members} (h : enter r free path text = .ok (entry, target)) :
    free entry ∧ Known r texts entry ∧ r.denoted? text = some target ∧
      Reference.entry? text = some entry := by
  unfold enter at h
  split at h
  · cases h
  · next reference hp =>
    split at h
    · cases h
    · next schema hg =>
      split at h
      · next pointer hr =>
        split at h
        · cases h
        · next target ha =>
          split at h
          · next hf =>
            cases h
            exact ⟨hf, known_place ht hp hr,
              by simp [Repository.denoted?, hp, hg, hr, ha, Json.asObject?],
              by simp [Reference.entry?, hp, hr]⟩
          · cases h
        · cases h
      · next hr =>
        split at h
        · next hf =>
          split at h
          · cases h
            exact ⟨hf, Dict.mem_keys_of_get? hg,
              by simp [Repository.denoted?, hp, hg, hr, Json.asObject?],
              by simp [Reference.entry?, hp, hr]⟩
          · cases h
        · cases h

/-! The machine -/

/-- What waits for a value to be expanded. -/
inductive Frame where
  /-- The array it stands in, by the items before it, expanded, and those after it. -/
  | items (path : Json.Path) (i : Nat) (done rest : List Json)
  /-- The object it stands in under a key, by the members before and after it. -/
  | member (path : Json.Path) (whole done : Json.Members) (key : String) (rest : Json.Members)
  /-- The members beside the reference that it is the target of. -/
  | target (entry : Entry) (own : Json.Members)

/-- The targets under expansion, the last one first. -/
def opened : List Frame → List Entry
  | [] => []
  | .target entry _ :: frames => entry :: opened frames
  | _ :: frames => opened frames

inductive State where
  | expand (path : Json.Path) (v : Json) (frames : List Frame)
  | give (v : Json) (frames : List Frame)
  | halt (result : Except Error Json)

namespace State

def opened : State → List Entry
  | expand _ _ frames => Schema.opened frames
  | give _ frames => Schema.opened frames
  | halt _ => []

/-- The reference of an object, once its other members are expanded. -/
def reference (r : Repository) (path : Json.Path) (whole own : Json.Members)
    (frames : List Frame) : State :=
  match Dict.get? whole Reference.key with
  | none => give (.obj own) frames
  | some (.str text) =>
    match enter r (· ∉ Schema.opened frames) path text with
    | .error e => halt (.error e)
    | .ok (entry, target) => expand path (.obj target) (.target entry own :: frames)
  | some value => halt (.error ⟨path, .invalidReference value.compact .notAString⟩)

def items (path : Json.Path) (i : Nat) (done : List Json) (frames : List Frame) :
    List Json → State
  | [] => give (.arr done) frames
  | item :: rest => expand (path ++ [.index i]) item (.items path i done rest :: frames)

def members (r : Repository) (path : Json.Path) (whole done : Json.Members)
    (frames : List Frame) : Json.Members → State
  | [] => reference r path whole done frames
  | (key, value) :: rest =>
    if key = Reference.key then members r path whole done frames rest
    else expand (path ++ [.key key]) value (.member path whole done key rest :: frames)

/-- A value is expanded: the frame on top goes on with it. -/
def resume (r : Repository) (v : Json) : List Frame → State
  | [] => halt (.ok v)
  | .items path i done rest :: frames => items path (i + 1) (done ++ [v]) frames rest
  | .member path whole done key rest :: frames =>
    members r path whole (done ++ [(key, v)]) frames rest
  | .target _ own :: frames =>
    match v with
    | .obj base => give (.obj (Dict.fill own base)) frames
    -- does not occur: a target is an object and comes to one
    | _ => give (.obj own) frames

def step (r : Repository) : State → State
  | expand path (.arr values) frames => items path 0 [] frames values
  | expand path (.obj whole) frames => members r path whole [] frames whole
  | expand _ value frames => give value frames
  | give v frames => resume r v frames
  | halt result => halt result

def start (schema : Json) : State := expand [] schema []

/-- How the machine goes on below the frames once the recursion has returned. -/
def after (frames : List Frame) : Except Error Json → State
  | .ok v => give v frames
  | .error e => halt (.error e)

def Leads (r : Repository) (s s' : State) : Prop := ∃ n, (step r)^[n] s = s'

namespace Leads

variable {r : Repository} {s s' s'' : State}

theorem refl (s : State) : Leads r s s := ⟨0, rfl⟩

theorem of_step (h : Leads r (step r s) s') : Leads r s s' := by
  obtain ⟨n, h⟩ := h
  exact ⟨n + 1, by rw [Function.iterate_succ_apply, h]⟩

theorem trans (h : Leads r s s') (h' : Leads r s' s'') : Leads r s s'' := by
  obtain ⟨n, rfl⟩ := h
  obtain ⟨m, rfl⟩ := h'
  exact ⟨m + n, Function.iterate_add_apply _ _ _ _⟩

/-- The machine either has halted below the frames or goes on with the value given. -/
theorem after_bind {x : Except Error Json} {frames frames' : List Frame}
    {f : Json → Except Error Json} (h : Leads r s (after frames x))
    (hf : ∀ v, x = .ok v → Leads r (resume r v frames) (after frames' (f v))) :
    Leads r s (after frames' (x.bind f)) := by
  refine h.trans ?_
  cases x with
  | error e => exact refl _
  | ok v => exact of_step (hf v rfl)

end Leads

end State

/-! The recursion and the machine -/

open State (Leads after)

/-- The machine comes to the same as the recursion for a value, whatever waits for it, as long as
the targets under expansion are the given ones. -/
def Expanding (r : Repository) (entries : List Entry) (f : Follow) (v : Json) : Prop :=
  ∀ (path : Json.Path) (frames : List Frame), opened frames = entries →
    Leads r (.expand path v frames) (after frames (expandValue f path v))

/-- The machine comes to the same for the references of `texts`. -/
def Following (r : Repository) (texts : List String) (entries : List Entry) (f : Follow) : Prop :=
  ∀ (path : Json.Path) (whole own : Json.Members) (frames : List Frame),
    (Json.obj whole).references ⊆ texts → opened frames = entries →
      Leads r (State.reference r path whole own frames)
        (after frames ((withReference f path whole own).map .obj))

section

variable {r : Repository} {texts : List String} {entries : List Entry} {f : Follow}

theorem leads_items {items : List Json} (h : ∀ v ∈ items, Expanding r entries f v)
    (path : Json.Path) (i : Nat) (done : List Json) {frames : List Frame}
    (ho : opened frames = entries) :
    Leads r (State.items path i done frames items)
      (after frames ((expandItems f path i items).map fun out => .arr (done ++ out))) := by
  induction items generalizing i done with
  | nil => simpa [expandItems, State.items, Except.map, after] using Leads.refl _
  | cons item items ih =>
    have hitem := h item List.mem_cons_self (path ++ [.index i])
      (.items path i done items :: frames) ho
    have hrest := fun v => ih (fun w hw => h w (List.mem_cons_of_mem _ hw)) (i + 1) (done ++ [v])
    rw [State.items, expandItems]
    convert hitem.after_bind fun v _ => hrest v using 2
    cases expandValue f (path ++ [.index i]) item with
    | error e => rfl
    | ok v => cases expandItems f path (i + 1) items <;> simp [Except.bind, Except.map]

theorem leads_members (hf : Following r texts entries f) {whole rest : Json.Members}
    (hw : (Json.obj whole).references ⊆ texts) (h : ∀ m ∈ rest, Expanding r entries f m.2)
    (path : Json.Path) (own : Json.Members) {frames : List Frame} (ho : opened frames = entries) :
    Leads r (State.members r path whole own frames rest)
      (after frames (((expandMembers f path rest).bind fun out =>
        withReference f path whole (own ++ out)).map .obj)) := by
  induction rest generalizing own with
  | nil => simpa [expandMembers, State.members, Except.bind] using hf path whole own frames hw ho
  | cons m rest ih =>
    obtain ⟨key, value⟩ := m
    have hrest := fun own => ih (fun m hm => h m (List.mem_cons_of_mem _ hm)) own
    unfold State.members expandMembers
    split
    · exact hrest own
    · have hvalue := h (key, value) List.mem_cons_self (path ++ [.key key])
        (.member path whole own key rest :: frames) ho
      convert hvalue.after_bind fun v _ => hrest (own ++ [(key, v)]) using 2
      cases expandValue f (path ++ [.key key]) value with
      | error e => rfl
      | ok v => cases expandMembers f path rest <;> simp [Except.bind, Except.map]

theorem Following.expanding (hf : Following r texts entries f) {v : Json}
    (hv : v.references ⊆ texts) : Expanding r entries f v := by
  induction Json.every_true v with
  | null | bool | num | str =>
    intro path frames _
    exact .of_step (by simpa [expandValue, State.step, after] using Leads.refl _)
  | @arr items _ ih =>
    intro path frames ho
    refine .of_step ?_
    rw [expandValue]
    refine leads_items (fun v hm => ih v hm fun text ht => hv ?_) path 0 [] ho
    exact Json.mem_itemReferences hm ht
  | @obj members _ _ ih =>
    intro path frames ho
    refine .of_step ?_
    rw [expandValue]
    refine leads_members hf hv (fun m hm => ih m hm fun text ht => hv ?_) path [] ho
    exact Json.mem_memberReferences hm ht

/-- Whatever is denoted refers to `texts` only. -/
def Confined (r : Repository) (texts : List String) : Prop :=
  ∀ {text target}, r.denoted? text = some target → (Json.obj target).references ⊆ texts

/-- Of what is known, the room admits what is not among the entries. -/
def Complement (r : Repository) (texts : List String) (room : Room) (entries : List Entry) : Prop :=
  ∀ entry, Known r texts entry → (entry ∉ entries ↔ room.Admits entry)

theorem Complement.without {room : Room} (h : Complement r texts room entries) (entry : Entry) :
    Complement r texts (room.without entry) (entry :: entries) := by
  intro entry' hk
  rw [Room.admits_without_iff, ← h entry' hk, List.mem_cons, not_or, and_comm]

/-- By induction on the room: what a reference enters is expanded in a smaller one. -/
theorem Complement.following {room : Room} (h : Complement r texts room entries)
    (hr : Confined r texts) : Following r texts entries (follow r room) := by
  induction hn : room.size using Nat.strongRecOn generalizing room entries with
  | ind n ih =>
    intro path whole own frames hw ho
    unfold State.reference withReference
    cases hg : Dict.get? whole Reference.key with
    | none => exact Leads.refl _
    | some value =>
      cases value with
      | null | bool | num | arr | obj => exact Leads.refl _
      | str text =>
        have ht := hw (Json.mem_memberReferences_of_get? hg)
        have henter : enter r (· ∉ opened frames) path text = enter r room.Admits path text :=
          enter_congr (fun entry hk => ho ▸ h entry hk) path ht
        simp only [henter, follow_eq_enter]
        cases he : enter r room.Admits path text with
        | error e => exact Leads.refl _
        | ok entered =>
          obtain ⟨entry, target⟩ := entered
          obtain ⟨ha, -, hd, -⟩ := of_enter ht he
          have hinner := ih _ (hn ▸ Room.size_without ha) (h.without entry) rfl
          have htarget := hinner.expanding (hr hd) path (.target entry own :: frames)
            (by rw [opened, ho])
          refine htarget.trans ?_
          rw [expandValue_obj]
          simp only [Except.bind]
          -- what the target came to fills in what the members beside the reference leave open
          cases expandObject (follow r (room.without entry)) path target with
          | error e => exact Leads.refl _
          | ok base => exact .of_step (Leads.refl _)

end

/-- What a schema and the schemas of a repository refer to. -/
def allReferences (schema : Json) (r : Repository) : List String :=
  schema.references ++ r.schemas.flatMap fun m => m.2.references

theorem confined_allReferences (schema : Json) (r : Repository) :
    Confined r (allReferences schema r) := fun {_ _} h =>
  Repository.denoted?_of_child (C := fun v => v.references ⊆ allReferences schema r)
    (fun hs _ hx => List.mem_append_right _ (List.mem_flatMap.mpr ⟨_, Dict.mem_of_get? hs, hx⟩))
    (fun hv hk _ hx => hv (Json.mem_memberReferences (Dict.mem_of_get? hk) hx))
    (fun hv hm _ hx => hv (Json.mem_itemReferences hm hx)) h

theorem complement_all (schema : Json) (r : Repository) :
    Complement r (allReferences schema r) (Room.all r schema) [] := by
  intro entry hk
  refine ⟨fun _ => ?_, fun _ => List.not_mem_nil⟩
  cases entry with
  | schema name => exact hk
  | place text =>
    obtain ⟨ht, hp⟩ := List.mem_filter.mp hk
    refine List.mem_eraseDups.mpr (List.mem_filter.mpr ⟨?_, hp⟩)
    rcases List.mem_append.mp ht with ht | ht
    · exact List.mem_append_left _ ht
    · obtain ⟨m, hm, ht⟩ := List.mem_flatMap.mp ht
      exact List.mem_append_right _ (Json.mem_memberReferences hm ht)

/-- The machine halts with what the recursion returns. -/
theorem leads_dereference (schema : Json) (r : Repository) :
    Leads r (.start schema) (.halt (dereference schema r)) := by
  have hf := (complement_all schema r).following (confined_allReferences schema r)
  have hv : schema.references ⊆ allReferences schema r := fun _ h => List.mem_append_left _ h
  refine (hf.expanding hv [] [] rfl).trans ?_
  rw [dereference]
  cases expandValue (follow r (Room.all r schema)) [] schema with
  | error e => exact Leads.refl _
  | ok v => exact .of_step (Leads.refl _)

end RpcContract.Schema
