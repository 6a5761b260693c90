import RpcContract.Json.Reader
import RpcContract.Proofs.Json.Tree
import RpcContract.Proofs.Outcome

/-! What is read from JSON text: an array after a bracket, an object after a brace, and in any case an
ordered value, in whatever order the text has its members. -/

namespace RpcContract.Json

namespace Cursor

/-! What begins with a bracket or a brace -/

theorem exists_arr_of_itemsWith {depth fuel : Nat} {first : Bool} {c c' : Cursor}
    {taken : List Json} {v : Json} (h : itemsWith depth fuel first c taken = .ok (v, c')) :
    ∃ items, v = .arr items := by
  induction fuel generalizing first c taken with
  | zero => cases h
  | succ fuel ih =>
    rw [itemsWith] at h
    split at h
    · cases h
    · exact ⟨_, (Prod.mk.inj (Except.ok.inj h)).1.symm⟩
    · split at h
      · cases h
      · exact ih h

theorem exists_obj_of_membersWith {depth fuel : Nat} {first : Bool} {c c' : Cursor}
    {taken : Members} {v : Json} (h : membersWith depth fuel first c taken = .ok (v, c')) :
    ∃ members, v = .obj members := by
  induction fuel generalizing first c taken with
  | zero => cases h
  | succ fuel ih =>
    rw [membersWith] at h
    split at h
    · cases h
    · exact ⟨_, (Prod.mk.inj (Except.ok.inj h)).1.symm⟩
    · split at h
      · cases h
      · split at h
        · cases h
        · exact ih h

/-! Order -/

/-- What so many steps read is ordered if what they take along is. -/
structure ReadsOrdered (fuel : Nat) : Prop where
  value : ∀ {depth c v c'}, valueWith depth fuel c = .ok (v, c') → v.Ordered
  items : ∀ {depth first c taken v c'}, (∀ item ∈ taken, item.Ordered) →
    itemsWith depth fuel first c taken = .ok (v, c') → v.Ordered
  members : ∀ {depth first c taken v c'}, (Json.obj taken).Ordered →
    membersWith depth fuel first c taken = .ok (v, c') → v.Ordered

theorem readsOrdered_zero : ReadsOrdered 0 where
  value h := by cases h
  items _ h := by cases h
  members _ h := by cases h

variable {fuel : Nat} (h : ReadsOrdered fuel)

include h

theorem ReadsOrdered.valueWith_succ {depth : Nat} {c c' : Cursor} {v : Json}
    (hv : valueWith depth (fuel + 1) c = .ok (v, c')) : v.Ordered := by
  have hscalar : ∀ {α : Type} {x : Except ReadError α} (g : α → Json × Cursor),
      (∀ a, (g a).1.Ordered) → (x.bind fun a => .ok (g a)) = .ok (v, c') → v.Ordered := by
    intro α x g hg hx
    obtain ⟨a, -, ha⟩ := Except.bind_eq_ok_iff.mp hx
    have hga := hg a
    rwa [Except.ok.inj ha] at hga
  rw [valueWith] at hv
  split at hv
  split at hv
  · cases hv
  · exact hscalar (fun c => (.null, c)) (fun _ => .null) hv
  · exact hscalar (fun c => (.bool true, c)) (fun _ => .bool true) hv
  · exact hscalar (fun c => (.bool false, c)) (fun _ => .bool false) hv
  · exact hscalar (fun p : Number × Cursor => (.num p.1, p.2)) (fun p => .num p.1) hv
  · exact hscalar (fun p : String × Cursor => (.str p.1, p.2)) (fun p => .str p.1) hv
  · split at hv
    · cases hv
    · exact h.items (by simp) hv
  · split at hv
    · cases hv
    · exact h.members (by simp [Dict.Sorted]) hv
  · split at hv
    · exact hscalar (fun p : Number × Cursor => (.num p.1, p.2)) (fun p => .num p.1) hv
    · cases hv

theorem ReadsOrdered.itemsWith_succ {depth : Nat} {first : Bool} {c c' : Cursor}
    {taken : List Json} {v : Json} (ht : ∀ item ∈ taken, item.Ordered)
    (hv : itemsWith depth (fuel + 1) first c taken = .ok (v, c')) : v.Ordered := by
  rw [itemsWith] at hv
  split at hv
  · cases hv
  · obtain ⟨rfl, -⟩ := Prod.mk.inj (Except.ok.inj hv)
    exact .arr fun item hm => ht item (List.mem_reverse.mp hm)
  · split at hv
    · cases hv
    · next item _ hitem =>
      refine h.items ?_ hv
      rintro w (_ | ⟨_, hw⟩)
      · exact h.value hitem
      · exact ht w hw

theorem ReadsOrdered.membersWith_succ {depth : Nat} {first : Bool} {c c' : Cursor}
    {taken : Members} {v : Json} (ht : (Json.obj taken).Ordered)
    (hv : membersWith depth (fuel + 1) first c taken = .ok (v, c')) : v.Ordered := by
  rw [membersWith] at hv
  split at hv
  · cases hv
  · obtain ⟨rfl, -⟩ := Prod.mk.inj (Except.ok.inj hv)
    exact ht
  · split at hv
    · cases hv
    · split at hv
      · cases hv
      · next hitem => exact h.members (ordered_insert ht _ (h.value hitem)) hv

omit h

theorem readsOrdered : ∀ fuel, ReadsOrdered fuel
  | 0 => readsOrdered_zero
  | fuel + 1 =>
    have h := readsOrdered fuel
    ⟨h.valueWith_succ, h.itemsWith_succ, h.membersWith_succ⟩

end Cursor

theorem ordered_read {text : String} {v : Json} (h : read text = .ok v) : v.Ordered := by
  simp only [read, Cursor.value, Except.monadBind_eq_bind, Except.bind_eq_ok_iff, Except.pure_eq_ok,
    Except.ok.injEq] at h
  obtain ⟨⟨w, c⟩, hw, -, -, rfl⟩ := h
  exact (Cursor.readsOrdered _).value hw

end RpcContract.Json
