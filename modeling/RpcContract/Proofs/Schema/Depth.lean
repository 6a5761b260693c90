import Mathlib.Data.List.Dedup
import RpcContract.Proofs.Schema.Machine

/-! How deep expansion goes. The targets under expansion are distinct and each of them is a schema of
the repository or a place referred to, so there are never more of them than of these. -/

namespace RpcContract.Schema

open Reference (Entry)

variable {r : Repository} {texts : List String}

/-- A stack that only references of `texts` lead on from, and on which no entry stands twice. -/
inductive Sound (r : Repository) (texts : List String) : List Frame → Prop where
  | nil : Sound r texts []
  | items {path : Json.Path} {i : Nat} {done rest : List Json} {frames : List Frame}
      (hr : ∀ v ∈ rest, v.references ⊆ texts) (h : Sound r texts frames) :
      Sound r texts (.items path i done rest :: frames)
  | member {path : Json.Path} {whole done rest : Json.Members} {key : String} {frames : List Frame}
      (hw : (Json.obj whole).references ⊆ texts) (hr : ∀ m ∈ rest, m.2.references ⊆ texts)
      (h : Sound r texts frames) : Sound r texts (.member path whole done key rest :: frames)
  | target {entry : Entry} {own : Json.Members} {frames : List Frame}
      (hk : Known r texts entry) (hn : entry ∉ opened frames) (h : Sound r texts frames) :
      Sound r texts (.target entry own :: frames)

def State.Sound (r : Repository) (texts : List String) : State → Prop
  | expand _ v frames => v.references ⊆ texts ∧ Schema.Sound r texts frames
  | give _ frames => Schema.Sound r texts frames
  | halt _ => True

theorem Sound.nodup_opened {frames : List Frame} (h : Sound r texts frames) :
    (opened frames).Nodup := by
  induction h with
  | nil => exact .nil
  | items _ _ ih | member _ _ _ ih => exact ih
  | target _ hn _ ih => exact .cons hn ih

theorem Sound.known {frames : List Frame} (h : Sound r texts frames) :
    ∀ entry ∈ opened frames, Known r texts entry := by
  induction h with
  | nil => simp [opened]
  | items _ _ ih | member _ _ _ ih => exact ih
  | target hk _ _ ih => exact List.forall_mem_cons.mpr ⟨hk, ih⟩

/-- Distinct entries that are known: no more than there are schemas and places referred to. -/
theorem Sound.length_opened_le {frames : List Frame} (h : Sound r texts frames) :
    (opened frames).length ≤ r.size + (texts.filter Room.isPlace).dedup.length := by
  have hsub : opened frames ⊆ (Dict.keys r.schemas).map Entry.schema ++
      (texts.filter Room.isPlace).dedup.map Entry.place := by
    intro entry he
    have hk := h.known entry he
    cases entry with
    | schema name => exact List.mem_append_left _ (List.mem_map_of_mem hk)
    | place text =>
      exact List.mem_append_right _ (List.mem_map_of_mem (List.mem_dedup.mpr hk))
  have hle := (List.subperm_of_subset h.nodup_opened hsub).length_le
  simpa [Dict.keys, Repository.size] using hle

theorem State.Sound.length_opened_le {s : State} (h : s.Sound r texts) :
    s.opened.length ≤ r.size + (texts.filter Room.isPlace).dedup.length := by
  cases s with
  | expand path v frames => exact Schema.Sound.length_opened_le h.2
  | give v frames => exact Schema.Sound.length_opened_le h
  | halt result => exact Nat.zero_le _

/-! One step -/

namespace Sound

variable {frames : List Frame}

/-- A target is opened only if its entry is free. -/
theorem reference (h : Sound r texts frames)
    (hr : Confined r texts)
    {whole : Json.Members} (hw : (Json.obj whole).references ⊆ texts) (path : Json.Path)
    (own : Json.Members) : (State.reference r path whole own frames).Sound r texts := by
  unfold State.reference
  split
  · exact h
  · next text hg =>
    have ht := hw (Json.mem_memberReferences_of_get? hg)
    split
    · trivial
    · next entry target he =>
      obtain ⟨hn, hk, hd, -⟩ := of_enter ht he
      exact ⟨hr hd, .target hk hn h⟩
  · trivial

theorem items_next (h : Sound r texts frames) {rest : List Json}
    (hr : ∀ v ∈ rest, v.references ⊆ texts) (path : Json.Path) (i : Nat) (done : List Json) :
    (State.items path i done frames rest).Sound r texts := by
  cases rest with
  | nil => exact h
  | cons v rest =>
    obtain ⟨hv, hr⟩ := List.forall_mem_cons.mp hr
    exact ⟨hv, .items hr h⟩

theorem members_next (h : Sound r texts frames)
    (hr : Confined r texts)
    {whole rest : Json.Members} (hw : (Json.obj whole).references ⊆ texts)
    (hrest : ∀ m ∈ rest, m.2.references ⊆ texts) (path : Json.Path) (done : Json.Members) :
    (State.members r path whole done frames rest).Sound r texts := by
  induction rest with
  | nil => exact h.reference hr hw path done
  | cons m rest ih =>
    obtain ⟨hv, hrest⟩ := List.forall_mem_cons.mp hrest
    unfold State.members
    split
    · exact ih hrest
    · exact ⟨hv, .member hw hrest h⟩

theorem resume (h : Sound r texts frames)
    (hr : Confined r texts)
    (v : Json) : (State.resume r v frames).Sound r texts := by
  cases h with
  | nil => trivial
  | items hrest h => exact h.items_next hrest _ _ _
  | member hw hrest h => exact h.members_next hr hw hrest _ _
  | target _ _ h => cases v <;> exact h

end Sound

namespace State

theorem sound_step
    (hr : Confined r texts)
    {s : State} (h : s.Sound r texts) : (step r s).Sound r texts := by
  cases s with
  | expand path v frames =>
    obtain ⟨hv, h⟩ := h
    cases v with
    | null | bool | num | str => exact h
    | arr values =>
      exact h.items_next (fun v hm _ ht => hv (Json.mem_itemReferences hm ht)) path 0 []
    | obj whole =>
      exact h.members_next hr hv (fun m hm _ ht => hv (Json.mem_memberReferences hm ht)) path []
  | give v frames => exact Schema.Sound.resume h hr v
  | halt result => trivial

/-- The stack stays sound however long the machine runs. -/
theorem sound_run
    (hr : Confined r texts)
    {s : State} (h : s.Sound r texts) (n : Nat) : ((step r)^[n] s).Sound r texts := by
  induction n with
  | zero => exact h
  | succ n ih =>
    rw [Function.iterate_succ_apply']
    exact sound_step hr ih

end State

/-- The distinct references to places in a schema and in the schemas of a repository. -/
def placesReferred (schema : Json) (r : Repository) : List String :=
  ((allReferences schema r).filter Room.isPlace).dedup

/-- Expansion ends with a result on every input, and at no moment are more targets under expansion
than the repository has schemas and there are places referred to. -/
theorem dereference_terminates (schema : Json) (r : Repository) :
    (∃ n, (State.step r)^[n] (.start schema) = .halt (dereference schema r)) ∧
      ∀ n, ((State.step r)^[n] (.start schema)).opened.length ≤
        r.size + (placesReferred schema r).length := by
  refine ⟨leads_dereference schema r, fun n => ?_⟩
  have hstart : (State.start schema).Sound r (allReferences schema r) :=
    ⟨fun _ h => List.mem_append_left _ h, .nil⟩
  exact (State.sound_run (confined_allReferences schema r) hstart n).length_opened_le

/-- Two schemas that refer to each other, one of them by a place in the other: all that there is to
open is opened before the cycle is found. -/
example :
    let ref := fun text => Json.obj [("$ref", .str text)]
    let r : Repository := ⟨[
      ("A", .obj [("items", ref "#/components/schemas/B")]),
      ("B", .obj [("items", ref "#/components/schemas/A/items")])]⟩
    let schema := ref "#/components/schemas/A"
    ((State.step r)^[5] (.start schema)).opened.length = 3 ∧ r.size = 2 ∧
      placesReferred schema r = ["#/components/schemas/A/items"] := by
  cbv

end RpcContract.Schema
