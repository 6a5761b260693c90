import RpcContract.Exchange.Message
import RpcContract.Proofs.Dict
import RpcContract.Proofs.Json.Forward
import RpcContract.Proofs.Json.Reading

/-! Messages by their keys. A message holds what its text gives under the names of its fields: null
counts as a result and as nothing else, and no field is given twice. Such a text is read as the
message that it holds, and nothing else is read as one. -/

namespace RpcContract

namespace Message

open Json (Cursor ReadError)

/-- The fields among the members of an object, from inside its brace on. -/
inductive Members : Bool → Cursor → List (String × Json) → Cursor → Prop where
  | done {first : Bool} {c : Cursor} (h : c.toKey first = .ok none) :
      Members first c [] c.skipBlanks.next
  | field {first : Bool} {c c₁ c₂ c₃ c' : Cursor} {key : String} {v : Json}
      {entries : List (String × Json)} (hm : c.toKey first = .ok (some c₁))
      (hk : c₁.key = .ok (key, c₂)) (hf : key ∈ fields) (hv : c₂.value 1 = .ok (v, c₃))
      (h : Members false c₃ entries c') : Members first c ((key, v) :: entries) c'
  | other {first : Bool} {c c₁ c₂ c₃ c' : Cursor} {key : String}
      {entries : List (String × Json)} (hm : c.toKey first = .ok (some c₁))
      (hk : c₁.key = .ok (key, c₂)) (hf : key ∉ fields) (hs : c₂.skip = .ok c₃)
      (h : Members false c₃ entries c') : Members first c entries c'

/-- The elements of a list under the names of the fields, from inside its bracket on. -/
inductive Elements : List String → Bool → Cursor → List (String × Json) → Cursor → Prop where
  | full {first : Bool} {c c' : Cursor} (h : listEnd c = .ok c') : Elements [] first c [] c'
  | short {name : String} {names : List String} {c : Cursor} (h : c.toItem false = .ok none) :
      Elements (name :: names) false c [] c.skipBlanks.next
  | item {first : Bool} {name : String} {names : List String} {c c₁ c₂ c' : Cursor} {v : Json}
      {entries : List (String × Json)} (hi : c.toItem first = .ok (some c₁))
      (hv : c₁.value 1 = .ok (v, c₂)) (h : Elements names false c₂ entries c') :
      Elements (name :: names) first c ((name, v) :: entries) c'

/-- A text is an object or a list that gives fields their values, no field twice. -/
inductive Written (text : String) (entries : List (String × Json)) : Prop where
  | object {c c' : Cursor} (h : (Cursor.start text).peek = (some '\x7b', c))
      (hm : Members true c.next entries c') (hd : (Dict.keys entries).Nodup)
      (he : c'.finish = .ok ())
  | list {c c' : Cursor} (h : (Cursor.start text).peek = (some '[', c))
      (hm : Elements fields true c.next entries c') (he : c'.finish = .ok ())

def unlessNull (v : Json) : Option Json := if v = .null then none else some v

/-- The message with the given entries. -/
def ofEntries (entries : List (String × Json)) : Message where
  method := (Dict.get? entries "method").bind Json.asString?
  params := (Dict.get? entries "params").bind unlessNull
  result := Dict.get? entries "result"
  error := (Dict.get? entries "error").bind unlessNull

/-! Reading one field -/

def set (m : Message) (key : String) (v : Json) : Message :=
  if key = "method" then { m with method := v.asString? }
  else if key = "params" then { m with params := unlessNull v }
  else if key = "result" then { m with result := some v }
  else if key = "error" then { m with error := unlessNull v }
  else m

theorem misfit_ne_ok {α : Type} {c : Cursor} {expected : String} {a : α} :
    misfit c expected ≠ .ok a := by
  unfold misfit
  cases c.peek with
  | mk x c =>
    intro h
    simp only at h
    split at h
    · cases h
    · cases h
    · split at h <;> cases h

/-- What is read and then stored. -/
theorem stored_eq_ok_iff {α β : Type} {x : Except ReadError (α × Cursor)} (store : α → β) {b : β}
    {c' : Cursor} :
    (do let (a, c) ← x; return (store a, c)) = .ok (b, c') ↔ ∃ a, x = .ok (a, c') ∧ b = store a := by
  constructor
  · intro h
    obtain ⟨⟨a, c⟩, hx, h⟩ := Except.bind_eq_ok_iff.mp h
    obtain ⟨rfl, rfl⟩ := Prod.mk.inj (Except.ok.inj h)
    exact ⟨a, hx, rfl⟩
  · rintro ⟨a, rfl, rfl⟩
    rfl

/-- What a method may be given as: its name, or null for none. -/
def MayName (v : Json) : Prop := v = .null ∨ ∃ name, v = .str name

/-- A name is read as any value is, and no other value is taken for one. -/
theorem optionalString_eq_ok_iff {c c' : Cursor} {s : Option String} :
    optionalString c = .ok (s, c') ↔ ∃ v, c.value 1 = .ok (v, c') ∧ MayName v ∧ s = v.asString? := by
  unfold optionalString Cursor.value
  rw [Cursor.valueWith]
  generalize c.peek = p
  obtain ⟨x, c₁⟩ := p
  dsimp only
  constructor
  · intro h
    split at h
    · cases h
    · obtain ⟨c₂, hw, h⟩ := Except.bind_eq_ok_iff.mp h
      obtain ⟨rfl, rfl⟩ := Prod.mk.inj (Except.ok.inj h)
      exact ⟨.null, by simp [hw, Except.bind], .inl rfl, rfl⟩
    · obtain ⟨t, hw, rfl⟩ := (stored_eq_ok_iff some).mp h
      exact ⟨.str t, by simp [hw, Except.bind], .inr ⟨t, rfl⟩, rfl⟩
    · exact (misfit_ne_ok h).elim
  · rintro ⟨v, hv, hname, rfl⟩
    -- what is neither null nor a string begins with another character
    split at hv
    · cases hv
    · obtain ⟨c₂, hw, h⟩ := Except.bind_eq_ok_iff.mp hv
      obtain ⟨rfl, rfl⟩ := Prod.mk.inj (Except.ok.inj h)
      simp [hw, Except.bind, Json.asString?]
    · obtain ⟨c₂, -, h⟩ := Except.bind_eq_ok_iff.mp hv
      obtain ⟨rfl, -⟩ := Prod.mk.inj (Except.ok.inj h)
      simp [MayName] at hname
    · obtain ⟨c₂, -, h⟩ := Except.bind_eq_ok_iff.mp hv
      obtain ⟨rfl, -⟩ := Prod.mk.inj (Except.ok.inj h)
      simp [MayName] at hname
    · obtain ⟨n, -, rfl⟩ := (stored_eq_ok_iff Json.num).mp hv
      simp [MayName] at hname
    · obtain ⟨t, hw, rfl⟩ := (stored_eq_ok_iff Json.str).mp hv
      simp [hw, Except.bind, Json.asString?]
    · split at hv
      · cases hv
      · obtain ⟨items, rfl⟩ := Cursor.exists_arr_of_itemsWith hv
        simp [MayName] at hname
    · split at hv
      · cases hv
      · obtain ⟨members, rfl⟩ := Cursor.exists_obj_of_membersWith hv
        simp [MayName] at hname
    · split at hv
      · obtain ⟨n, -, rfl⟩ := (stored_eq_ok_iff Json.num).mp hv
        simp [MayName] at hname
      · cases hv

/-- What is read and then stored, unless it is null. -/
theorem storedOptional_eq_ok_iff {α : Type} {c c' : Cursor} (store : Option Json → α) {b : α} :
    (do let (o, c) ← optionalValue c; return (store o, c)) = .ok (b, c') ↔
      ∃ v, c.value 1 = .ok (v, c') ∧ b = store (unlessNull v) := by
  rw [stored_eq_ok_iff store]
  constructor
  · rintro ⟨o, ho, rfl⟩
    obtain ⟨v, hv, rfl⟩ := (stored_eq_ok_iff unlessNull).mp ho
    exact ⟨v, hv, rfl⟩
  · rintro ⟨v, hv, rfl⟩
    exact ⟨unlessNull v, (stored_eq_ok_iff unlessNull).mpr ⟨v, hv, rfl⟩, rfl⟩

/-- A field takes the value that is read, and the value of any other key is passed over. -/
theorem field_eq_ok_iff {m m' : Message} {key : String} {c c' : Cursor} :
    m.field key c = .ok (m', c') ↔
      (key ∈ fields ∧ ∃ v, c.value 1 = .ok (v, c') ∧ (key = "method" → MayName v) ∧
        m' = m.set key v) ∨
        (key ∉ fields ∧ c.skip = .ok c' ∧ m' = m) := by
  by_cases hk : key ∈ fields
  · have hkey := hk
    simp only [hk, true_and, not_true_eq_false, false_and, or_false]
    simp only [fields, List.mem_cons, List.not_mem_nil, or_false] at hkey
    rcases hkey with rfl | rfl | rfl | rfl
    · refine (stored_eq_ok_iff fun method => { m with method }).trans ⟨?_, ?_⟩
      · rintro ⟨s, hs, rfl⟩
        obtain ⟨v, hv, hname, rfl⟩ := optionalString_eq_ok_iff.mp hs
        exact ⟨v, hv, fun _ => hname, rfl⟩
      · rintro ⟨v, hv, hname, rfl⟩
        exact ⟨_, optionalString_eq_ok_iff.mpr ⟨v, hv, hname rfl, rfl⟩, rfl⟩
    · refine (storedOptional_eq_ok_iff fun params => { m with params }).trans ?_
      simp [set]
    · refine (stored_eq_ok_iff fun result => { m with result := some result }).trans ?_
      simp [set]
    · refine (storedOptional_eq_ok_iff fun error => { m with error }).trans ?_
      simp [set]
  · have hkey := hk
    simp only [hk, false_and, not_false_eq_true, true_and, false_or]
    simp only [fields, List.mem_cons, List.not_mem_nil, or_false, not_or] at hkey
    obtain ⟨h₁, h₂, h₃, h₄⟩ := hkey
    rw [field, if_neg h₁, if_neg h₂, if_neg h₃, if_neg h₄]
    constructor
    · intro h
      obtain ⟨c₁, hs, h⟩ := Except.bind_eq_ok_iff.mp h
      obtain ⟨rfl, rfl⟩ := Prod.mk.inj (Except.ok.inj h)
      exact ⟨hs, rfl⟩
    · rintro ⟨hs, rfl⟩
      simp [hs, Except.bind]

/-! Reading all of them -/

def setAll (m : Message) (entries : List (String × Json)) : Message :=
  entries.foldl (fun m e => m.set e.1 e.2) m

/-- A method that is given has a name or is null. -/
def NamesMethod (entries : List (String × Json)) : Prop :=
  ∀ v, ("method", v) ∈ entries → MayName v

theorem namesMethod_nil : NamesMethod [] := by simp [NamesMethod]

theorem namesMethod_cons {key : String} {v : Json} {entries : List (String × Json)} :
    NamesMethod ((key, v) :: entries) ↔ (key = "method" → MayName v) ∧ NamesMethod entries := by
  constructor
  · intro h
    exact ⟨fun hk => h v (hk ▸ List.mem_cons_self), fun w hw => h w (List.mem_cons_of_mem _ hw)⟩
  · rintro ⟨hv, h⟩ w (_ | ⟨_, hw⟩)
    · exact hv rfl
    · exact h w hw

theorem key_eq_ok_iff {c c' : Cursor} {key : String} :
    c.key = .ok (key, c') ↔ ∃ c₁, c.string = .ok (key, c₁) ∧ c₁.colon = .ok c' := by
  constructor
  · intro h
    obtain ⟨⟨k, c₁⟩, hs, h⟩ := Except.bind_eq_ok_iff.mp h
    obtain ⟨c₂, hc, h⟩ := Except.bind_eq_ok_iff.mp h
    obtain ⟨rfl, rfl⟩ := Prod.mk.inj (Except.ok.inj h)
    exact ⟨c₁, hs, hc⟩
  · rintro ⟨c₁, hs, hc⟩
    simp [Cursor.key, hs, hc, Except.bind]

theorem members_of_ok {fuel : Nat} {first : Bool} {seen : List String} {m m' : Message}
    {c c' : Cursor} (h : members fuel first seen m c = .ok (m', c')) :
    ∃ entries, Members first c entries c' ∧ (∀ key ∈ seen, key ∉ Dict.keys entries) ∧
      (Dict.keys entries).Nodup ∧ NamesMethod entries ∧ m' = m.setAll entries := by
  induction fuel generalizing first seen m c with
  | zero => cases h
  | succ fuel ih =>
    unfold members at h
    obtain ⟨next, hm, h⟩ := Except.bind_eq_ok_iff.mp h
    cases next with
    | none =>
      obtain ⟨rfl, rfl⟩ := Prod.mk.inj (Except.ok.inj h)
      exact ⟨[], .done hm, by simp, by simp, namesMethod_nil, rfl⟩
    | some c₁ =>
      obtain ⟨⟨key, c₂⟩, hs, h⟩ := Except.bind_eq_ok_iff.mp h
      simp only at h
      split at h
      · cases h
      · next hseen =>
        obtain ⟨c₃, hc, h⟩ := Except.bind_eq_ok_iff.mp h
        obtain ⟨⟨m₁, c₄⟩, hf, h⟩ := Except.bind_eq_ok_iff.mp h
        have hk : c₁.key = .ok (key, c₃) := key_eq_ok_iff.mpr ⟨c₂, hs, hc⟩
        obtain ⟨entries, he, hout, hd, hn, rfl⟩ := ih h
        rcases field_eq_ok_iff.mp hf with ⟨hfield, v, hv, hname, rfl⟩ | ⟨hfield, hv, rfl⟩
        · rw [if_pos hfield] at hout
          obtain ⟨hkey, hout⟩ := List.forall_mem_cons.mp hout
          refine ⟨(key, v) :: entries, .field hm hk hfield hv he, ?_,
            List.nodup_cons.mpr ⟨hkey, hd⟩, namesMethod_cons.mpr ⟨hname, hn⟩, rfl⟩
          intro q hq
          simp only [Dict.keys_cons, List.mem_cons, not_or]
          exact ⟨fun heq => hseen (heq ▸ hq), hout q hq⟩
        · rw [if_neg hfield] at hout
          exact ⟨entries, .other hm hk hfield hv he, hout, hd, hn, rfl⟩

theorem members_succ {fuel : Nat} {first : Bool} {seen : List String} {m m₁ : Message}
    {c c₁ c₂ c₃ : Cursor} {key : String} (hm : c.toKey first = .ok (some c₁))
    (hk : c₁.key = .ok (key, c₂)) (hnew : key ∉ seen) (hf : m.field key c₂ = .ok (m₁, c₃)) :
    members (fuel + 1) first seen m c =
      members fuel false (if key ∈ fields then key :: seen else seen) m₁ c₃ := by
  obtain ⟨c', hs, hc⟩ := key_eq_ok_iff.mp hk
  rw [members]
  simp [hm, hs, hnew, hc, hf, Except.bind]

/-- Every member takes up some of the text, so this much room suffices. -/
theorem members_eq_ok {fuel : Nat} {first : Bool} {seen : List String} {m : Message}
    {c c' : Cursor} {entries : List (String × Json)} (h : Members first c entries c')
    (hfuel : c.rest.length < fuel) (hseen : ∀ key ∈ seen, key ∈ fields ∧ key ∉ Dict.keys entries)
    (hd : (Dict.keys entries).Nodup) (hn : NamesMethod entries) :
    members fuel first seen m c = .ok (m.setAll entries, c') := by
  obtain _ | fuel := fuel
  · omega
  induction h generalizing fuel seen m with
  | done h =>
    rw [members]
    simp [h, Except.bind, setAll]
  | @field first c c₁ c₂ c₃ c' key v entries hm hk hf hv _ ih =>
    obtain ⟨hkey, hd⟩ := List.nodup_cons.mp hd
    obtain ⟨hname, hn⟩ := namesMethod_cons.mp hn
    have hnew : key ∉ seen := fun hq => (hseen key hq).2 List.mem_cons_self
    have hlen : c₃.rest.length < c.rest.length :=
      ((Cursor.forward_value c₂ 1 _ hv).trans (Cursor.forward_key c₁ _ hk)).length_le.trans_lt
        (Cursor.length_of_toKey hm)
    obtain _ | fuel := fuel
    · omega
    rw [members_succ hm hk hnew (field_eq_ok_iff.mpr (.inl ⟨hf, v, hv, hname, rfl⟩)), if_pos hf]
    refine ih ?_ hd hn fuel (by omega)
    rintro q (_ | ⟨_, hq⟩)
    · exact ⟨hf, hkey⟩
    · exact ⟨(hseen q hq).1, fun hmem => (hseen q hq).2 (List.mem_cons_of_mem key hmem)⟩
  | @other first c c₁ c₂ c₃ c' key entries hm hk hf hs _ ih =>
    have hnew : key ∉ seen := fun hq => hf (hseen key hq).1
    have hlen : c₃.rest.length < c.rest.length :=
      ((Cursor.forward_skip c₂ _ hs).trans (Cursor.forward_key c₁ _ hk)).length_le.trans_lt
        (Cursor.length_of_toKey hm)
    obtain _ | fuel := fuel
    · omega
    rw [members_succ hm hk hnew (field_eq_ok_iff.mpr (.inr ⟨hf, hs, rfl⟩)), if_neg hf]
    exact ih hseen hd hn fuel (by omega)

theorem elements_of_ok {first : Bool} {names : List String} {m m' : Message} {c c' : Cursor}
    (hfields : ∀ name ∈ names, name ∈ fields) (h : elements first names m c = .ok (m', c')) :
    ∃ entries, Elements names first c entries c' ∧ NamesMethod entries ∧
      m' = m.setAll entries := by
  induction names generalizing first m c with
  | nil =>
    unfold elements at h
    obtain ⟨c₁, he, h⟩ := Except.bind_eq_ok_iff.mp h
    obtain ⟨rfl, rfl⟩ := Prod.mk.inj (Except.ok.inj h)
    exact ⟨[], .full he, namesMethod_nil, rfl⟩
  | cons name names ih =>
    unfold elements at h
    obtain ⟨next, hi, h⟩ := Except.bind_eq_ok_iff.mp h
    cases next with
    | none =>
      cases first with
      | true => cases h
      | false =>
        obtain ⟨rfl, rfl⟩ := Prod.mk.inj (Except.ok.inj h)
        exact ⟨[], .short hi, namesMethod_nil, rfl⟩
    | some c₁ =>
      obtain ⟨hfield, hfields⟩ := List.forall_mem_cons.mp hfields
      obtain ⟨⟨m₁, c₂⟩, hf, h⟩ := Except.bind_eq_ok_iff.mp h
      obtain ⟨entries, he, hn, rfl⟩ := ih hfields h
      rcases field_eq_ok_iff.mp hf with ⟨-, v, hv, hname, rfl⟩ | ⟨hother, -, -⟩
      · exact ⟨(name, v) :: entries, .item hi hv he, namesMethod_cons.mpr ⟨hname, hn⟩, rfl⟩
      · exact (hother hfield).elim

theorem elements_eq_ok {first : Bool} {names : List String} {m : Message} {c c' : Cursor}
    {entries : List (String × Json)} (h : Elements names first c entries c')
    (hfields : ∀ name ∈ names, name ∈ fields) (hn : NamesMethod entries) :
    elements first names m c = .ok (m.setAll entries, c') := by
  induction h generalizing m with
  | full h => simp [elements, h, Except.bind, setAll]
  | short h => simp [elements, h, Except.bind, setAll]
  | @item first name names c c₁ c₂ c' v entries hi hv _ ih =>
    obtain ⟨hfield, hfields⟩ := List.forall_mem_cons.mp hfields
    obtain ⟨hname, hn⟩ := namesMethod_cons.mp hn
    have hset : m.field name c₁ = .ok (m.set name v, c₂) :=
      field_eq_ok_iff.mpr (.inl ⟨hfield, v, hv, hname, rfl⟩)
    rw [elements]
    simp only [hi, hset, Except.monadBind_eq_bind, Except.bind]
    exact ih hfields hn

theorem Elements.keys_sublist {names : List String} {first : Bool} {c c' : Cursor}
    {entries : List (String × Json)} (h : Elements names first c entries c') :
    (Dict.keys entries).Sublist names := by
  induction h with
  | full => exact List.Sublist.refl []
  | short => exact List.nil_sublist _
  | item _ _ _ ih => exact ih.cons_cons _

/-- What is kept of one field after all entries is what the last entry under its name gave. -/
theorem setAll_field {α : Type} (name : String) (part : Message → Option α)
    (view : Json → Option α)
    (hset : ∀ m key v, part (m.set key v) = if key = name then view v else part m) {m : Message}
    {entries : List (String × Json)} (hd : (Dict.keys entries).Nodup) :
    part (m.setAll entries) = ((Dict.get? entries name).map view).getD (part m) := by
  induction entries generalizing m with
  | nil => rfl
  | cons e entries ih =>
    obtain ⟨key, v⟩ := e
    obtain ⟨hk, hd⟩ := List.nodup_cons.mp hd
    have hrest := ih (m := m.set key v) hd
    rw [hset] at hrest
    rw [Dict.get?_cons]
    by_cases heq : key = name
    · subst heq
      rw [Dict.get?_eq_none_iff.mpr hk, if_pos rfl] at hrest
      rw [if_pos rfl]
      exact hrest
    · rw [if_neg heq] at hrest
      rw [if_neg heq]
      exact hrest

theorem setAll_empty {entries : List (String × Json)} (hd : (Dict.keys entries).Nodup) :
    empty.setAll entries = ofEntries entries := by
  have hbind : ∀ {α : Type} (o : Option Json) (view : Json → Option α),
      (o.map view).getD none = o.bind view := by
    intro α o view
    cases o <;> rfl
  have hmethod := setAll_field "method" method Json.asString? (m := empty)
    (by intro m key v; unfold set; split_ifs <;> simp_all) hd
  have hparams := setAll_field "params" params unlessNull (m := empty)
    (by intro m key v; unfold set; split_ifs <;> simp_all) hd
  have hresult := setAll_field "result" result some (m := empty)
    (by intro m key v; unfold set; split_ifs <;> simp_all) hd
  have herror := setAll_field "error" error unlessNull (m := empty)
    (by intro m key v; unfold set; split_ifs <;> simp_all) hd
  have hsome : (Dict.get? entries "result").bind some = Dict.get? entries "result" := by simp
  simp only [empty, hbind, hsome] at hmethod hparams hresult herror
  generalize hm : empty.setAll entries = m at *
  obtain ⟨method, params, result, error⟩ := m
  simp_all [ofEntries, empty]

theorem Written.nodup {text : String} {entries : List (String × Json)}
    (h : Written text entries) : (Dict.keys entries).Nodup := by
  cases h with
  | object _ _ hd _ => exact hd
  | list _ hm _ => exact hm.keys_sublist.nodup (by decide)

/-- A text is a message that gives these values to these fields. -/
structure Holds (text : String) (entries : List (String × Json)) : Prop where
  written : Written text entries
  method : NamesMethod entries

/-- What a text holds is read from it. -/
theorem Holds.read {text : String} {entries : List (String × Json)} (h : Holds text entries) :
    Message.read text = .ok (ofEntries entries) := by
  rw [← setAll_empty h.written.nodup, Message.read, readAt]
  cases h.written with
  | @object c c' hp hm hd he =>
    have hfuel : c.next.rest.length < c.rest.length + 1 :=
      Nat.lt_succ_of_le (Cursor.next_suffix c).length_le
    have hmembers : members (c.rest.length + 1) true [] empty c.next =
        .ok (empty.setAll entries, c') := members_eq_ok hm hfuel (by simp) hd h.method
    simp [hp, hmembers, he, Except.bind]
  | list hp hm he =>
    have helements := elements_eq_ok (m := empty) hm (fun _ hf => hf) h.method
    simp [hp, helements, he, Except.bind]

/-- Whatever is read as a message holds what its text gives. -/
theorem exists_holds_of_read {text : String} {m : Message} (h : read text = .ok m) :
    ∃ entries, Holds text entries ∧ m = ofEntries entries := by
  suffices ∃ entries, Holds text entries ∧ m = empty.setAll entries by
    obtain ⟨entries, hh, rfl⟩ := this
    exact ⟨entries, hh, setAll_empty hh.written.nodup⟩
  unfold read at h
  obtain ⟨⟨m₁, c'⟩, hr, h⟩ := Except.bind_eq_ok_iff.mp h
  obtain ⟨⟨⟩, he, h⟩ := Except.bind_eq_ok_iff.mp h
  obtain rfl := Except.ok.inj h
  unfold readAt at hr
  cases hp : (Cursor.start text).peek with
  | mk x c =>
    rw [hp] at hr
    simp only at hr
    split at hr
    · cases hr
    · obtain ⟨entries, hm, -, hd, hn, rfl⟩ := members_of_ok hr
      exact ⟨entries, ⟨.object hp hm hd he, hn⟩, rfl⟩
    · obtain ⟨entries, hm, hn, rfl⟩ := elements_of_ok (fun _ h => h) hr
      exact ⟨entries, ⟨.list hp hm he, hn⟩, rfl⟩
    · exact (misfit_ne_ok hr).elim

end Message

end RpcContract
