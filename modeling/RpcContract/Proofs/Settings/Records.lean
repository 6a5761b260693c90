import RpcContract.Proofs.Dict
import RpcContract.Proofs.Outcome
import RpcContract.Settings.Decode

/-! Records taken out of the tables of settings. A record is read exactly if each of its fields is
that the table has, and a field that the table lacks keeps its first value. -/

namespace RpcContract.Settings

@[simp] theorem within_eq_ok_iff {α : Type} {step : Step} {r : Decoded α} {a : α} :
    within step r = .ok a ↔ r = .ok a := by
  simp [within]

variable {α β : Type} {fields : List String} {set : α → String → Setting → Decoded α}
  {read : String → Setting → Decoded β} {value : α → String → β} {a b : α}
  {entries : List (String × Setting)}

/-- Setting a field reads its value and changes no other field. -/
structure FieldByField (fields : List String) (set : α → String → Setting → Decoded α)
    (read : String → Setting → Decoded β) (value : α → String → β) : Prop where
  of_set : ∀ {a b : α} {field : String} {v : Setting}, field ∈ fields →
    set a field v = .ok b → read field v = .ok (value b field) ∧
      ∀ other ∈ fields, other ≠ field → value b other = value a other
  exists_set : ∀ {field : String} {v : Setting} {x : β} (a : α), field ∈ fields →
    read field v = .ok x → ∃ b, set a field v = .ok b

/-- A field has the value that was read for it, or where there was nothing to read its first one. -/
structure Takes (read : String → Setting → Decoded β) (value : α → String → β) (a b : α)
    (field : String) (found : Option Setting) : Prop where
  of_some : ∀ v ∈ found, read field v = .ok (value b field)
  of_none : found = none → value b field = value a field

namespace FieldByField

variable (h : FieldByField fields set read value)

include h

theorem exists_foldlM_iff (hfields : ∀ e ∈ entries, e.1 ∈ fields) :
    (∃ b, entries.foldlM (fun a e => within (.child e.1) (set a e.1 e.2)) a = .ok b) ↔
      ∀ e ∈ entries, ∃ x, read e.1 e.2 = .ok x := by
  induction entries generalizing a with
  | nil => simp
  | cons e entries ih =>
    obtain ⟨hfield, hfields⟩ := List.forall_mem_cons.mp hfields
    rw [List.forall_mem_cons]
    simp only [List.foldlM_cons, Except.monadBind_eq_bind, Except.bind_eq_ok_iff, within_eq_ok_iff]
    constructor
    · rintro ⟨b, c, hset, hrest⟩
      exact ⟨⟨_, (h.of_set hfield hset).1⟩, (ih hfields).mp ⟨b, hrest⟩⟩
    · rintro ⟨⟨x, hx⟩, hrest⟩
      obtain ⟨c, hset⟩ := h.exists_set a hfield hx
      obtain ⟨b, hb⟩ := (ih hfields).mpr hrest
      exact ⟨b, c, hset, hb⟩

theorem takes_of_foldlM (hfields : ∀ e ∈ entries, e.1 ∈ fields)
    (hfold : entries.foldlM (fun a e => within (.child e.1) (set a e.1 e.2)) a = .ok b)
    {field : String} (hfield : field ∈ fields) :
    Takes read value a b field (Dict.last? entries field) := by
  induction entries generalizing a with
  | nil =>
    obtain rfl := Except.ok.inj hfold
    exact ⟨by simp [Dict.last?], fun _ => rfl⟩
  | cons e entries ih =>
    obtain ⟨he, hfields⟩ := List.forall_mem_cons.mp hfields
    simp only [List.foldlM_cons, Except.monadBind_eq_bind, Except.bind_eq_ok_iff,
      within_eq_ok_iff] at hfold
    obtain ⟨c, hset, hrest⟩ := hfold
    obtain ⟨hread, hothers⟩ := h.of_set he hset
    obtain ⟨hsome, hnone⟩ := ih hfields hrest
    have hlast : Dict.last? (e :: entries) field =
        (Dict.last? entries field).or (if e.1 = field then some e.2 else none) := rfl
    cases hlater : Dict.last? entries field with
    | some v =>
      rw [hlast, hlater]
      exact ⟨fun w hw => hsome w (hlater ▸ hw), by simp⟩
    | none =>
      rw [hlast, hlater, Option.none_or]
      by_cases hname : e.1 = field
      · subst hname
        rw [if_pos rfl]
        refine ⟨fun w hw => ?_, by simp⟩
        obtain rfl := Option.some.inj hw
        rw [hread, hnone hlater]
      · rw [if_neg hname]
        exact ⟨by simp, fun _ => (hnone hlater).trans (hothers field hfield (Ne.symm hname))⟩

variable (type : String) (origin : Option String)

/-- A record is read where each of its fields is. -/
theorem exists_decodeRecord_iff (hs : Dict.Sorted entries) :
    (∃ b, decodeRecord type fields a set (.table origin entries) = .ok b) ↔
      ∀ field ∈ fields, ∀ v ∈ Dict.get? entries field, ∃ x, read field v = .ok x := by
  rw [decodeRecord, h.exists_foldlM_iff fun e he => by simpa using (List.mem_filter.mp he).2]
  constructor
  · intro hall field hfield v hv
    exact hall (field, v) (List.mem_filter.mpr ⟨Dict.mem_of_get? hv, by simpa using hfield⟩)
  · intro hall e he
    obtain ⟨hmem, hfield⟩ := List.mem_filter.mp he
    exact hall e.1 (by simpa using hfield) e.2 (Dict.get?_of_mem hs.nodup hmem)

theorem takes_of_decodeRecord (hs : Dict.Sorted entries)
    (hdecode : decodeRecord type fields a set (.table origin entries) = .ok b)
    {field : String} (hfield : field ∈ fields) :
    Takes read value a b field (Dict.get? entries field) := by
  have htakes := h.takes_of_foldlM (fun e he => by simpa using (List.mem_filter.mp he).2)
    hdecode hfield
  rwa [Dict.last?_filter (p := fields.contains) (by simpa using hfield),
    Dict.last?_eq_get? hs.nodup] at htakes

end FieldByField

end RpcContract.Settings
