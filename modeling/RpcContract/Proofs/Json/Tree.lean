import RpcContract.Json.Pointer
import RpcContract.Proofs.Dict
import RpcContract.Schema.Repository

/-! What holds of all objects of a value, however deep they stand. A value is ordered if the names
of each object increase, which is how every reader and every operation on maps builds them. -/

namespace RpcContract.Json

/-- All objects of a value have members of the kind `P`. -/
inductive Every (P : Members → Prop) : Json → Prop where
  | null : Every P .null
  | bool (value : Bool) : Every P (.bool value)
  | num (value : Number) : Every P (.num value)
  | str (value : String) : Every P (.str value)
  | arr {items : List Json} (h : ∀ item ∈ items, Every P item) : Every P (.arr items)
  | obj {members : Members} (h : P members) (hm : ∀ m ∈ members, Every P m.2) :
      Every P (.obj members)

abbrev Ordered : Json → Prop := Every Dict.Sorted

/-- No object of a value has the key, at any depth. -/
abbrev Lacks (key : String) : Json → Prop := Every fun members => key ∉ Dict.keys members

variable {P Q : Members → Prop}

attribute [simp] Every.null Every.bool Every.num Every.str

@[simp] theorem every_arr {items : List Json} :
    Every P (.arr items) ↔ ∀ item ∈ items, Every P item :=
  ⟨fun h => by cases h; assumption, .arr⟩

@[simp] theorem every_obj {members : Members} :
    Every P (.obj members) ↔ P members ∧ ∀ m ∈ members, Every P m.2 :=
  ⟨fun h => by cases h; exact ⟨‹_›, ‹_›⟩, fun h => .obj h.1 h.2⟩

mutual

theorem every_true : ∀ v : Json, Every (fun _ => True) v
  | .null => .null
  | .bool b => .bool b
  | .num n => .num n
  | .str s => .str s
  | .arr items => .arr (every_item_true items)
  | .obj members => .obj trivial (every_member_true members)

theorem every_item_true : ∀ items : List Json, ∀ item ∈ items, Every (fun _ => True) item
  | [] => by simp
  | v :: items => by
    rintro item (_ | ⟨_, hm⟩)
    · exact every_true v
    · exact every_item_true items item hm

theorem every_member_true : ∀ members : Members, ∀ m ∈ members, Every (fun _ => True) m.2
  | [] => by simp
  | (_, v) :: members => by
    rintro m (_ | ⟨_, hm⟩)
    · exact every_true v
    · exact every_member_true members m hm

end

/-! Whether all objects of a value are of a kind can be computed. -/

mutual

def everyObject (p : Members → Bool) : Json → Bool
  | .arr items => everyItem p items
  | .obj members => p members && everyMember p members
  | _ => true

def everyItem (p : Members → Bool) : List Json → Bool
  | [] => true
  | v :: items => everyObject p v && everyItem p items

def everyMember (p : Members → Bool) : List (String × Json) → Bool
  | [] => true
  | (_, v) :: members => everyObject p v && everyMember p members

end

theorem everyItem_iff (p : Members → Bool) (items : List Json) :
    everyItem p items = true ↔ ∀ v ∈ items, everyObject p v = true := by
  induction items with
  | nil => simp [everyItem]
  | cons v items ih => simp [everyItem, ih]

theorem everyMember_iff (p : Members → Bool) (members : Members) :
    everyMember p members = true ↔ ∀ m ∈ members, everyObject p m.2 = true := by
  induction members with
  | nil => simp [everyMember]
  | cons m members ih => simp [everyMember, ih]

theorem everyObject_iff [DecidablePred P] {v : Json} :
    everyObject (fun members => decide (P members)) v = true ↔ Every P v := by
  induction every_true v with
  | null | bool | num | str => simp [everyObject]
  | arr _ ih =>
    rw [everyObject, everyItem_iff, every_arr]
    exact forall₂_congr ih
  | obj _ _ ih =>
    rw [everyObject, Bool.and_eq_true, decide_eq_true_iff, everyMember_iff, every_obj]
    exact and_congr_right fun _ => forall₂_congr ih

instance [DecidablePred P] (v : Json) : Decidable (Every P v) :=
  decidable_of_iff _ everyObject_iff

instance : DecidablePred (Dict.Sorted (α := Json)) := fun d =>
  inferInstanceAs (Decidable ((Dict.keys d).Pairwise (· < ·)))

theorem Every.imp (hPQ : ∀ members, P members → Q members) {v : Json} (h : Every P v) :
    Every Q v := by
  induction h with
  | null | bool | num | str => simp
  | arr _ ih => exact .arr ih
  | obj h _ ih => exact .obj (hPQ _ h) ih

theorem every_and_iff {v : Json} :
    Every (fun members => P members ∧ Q members) v ↔ Every P v ∧ Every Q v := by
  refine ⟨fun h => ⟨h.imp fun _ => And.left, h.imp fun _ => And.right⟩, ?_⟩
  rintro ⟨hP, hQ⟩
  induction hP with
  | null | bool | num | str => simp
  | arr _ ih => exact .arr fun v hv => ih v hv (every_arr.mp hQ v hv)
  | obj h _ ih =>
    obtain ⟨hq, hQ⟩ := every_obj.mp hQ
    exact .obj ⟨h, hq⟩ fun m hm => ih m hm (hQ m hm)

theorem Every.get? {members : Members} (h : Every P (.obj members)) {key : String} {v : Json}
    (hv : Dict.get? members key = some v) : Every P v :=
  (every_obj.mp h).2 _ (Dict.mem_of_get? hv)

/-- A property of objects that adding to one object under a key of another keeps. -/
def Growing (Q : Members → Prop) : Prop :=
  ∀ {own base : Members} {key : String} {v : Json}, Q own → Q base → key ∈ Dict.keys base →
    Q (Dict.insert own key v)

theorem growing_sorted : Growing Dict.Sorted := fun h _ _ => Dict.sorted_insert h _ _

theorem growing_lacks (key : String) : Growing fun members => key ∉ Dict.keys members := by
  intro own base k v hown hbase hk hm
  rcases (Dict.mem_keys_insert own k v key).mp hm with rfl | hm
  · exact hbase hk
  · exact hown hm

theorem Growing.insertNew (hQ : Growing Q) {own base : Members} {key : String} {v : Json}
    (hown : Q own) (hbase : Q base) (hk : key ∈ Dict.keys base) :
    Q (Dict.insertNew own key v) := by
  unfold Dict.insertNew
  split
  · exact hown
  · exact hQ hown hbase hk

theorem Growing.fill (hQ : Growing Q) {own base : Members} (hown : Q own) (hbase : Q base) :
    Q (Dict.fill own base) := by
  -- the entries still to be added are part of `base`
  have hpart : ∀ (part own : Members), Q own → (∀ p ∈ part, p ∈ base) → Q (Dict.fill own part) := by
    intro part
    induction part with
    | nil => exact fun _ h _ => h
    | cons p part ih =>
      intro own hown hp
      rw [Dict.fill_cons]
      exact ih _ (hQ.insertNew hown hbase (Dict.mem_keys_of_mem (hp p (by simp))))
        fun q hq => hp q (by simp [hq])
  exact hpart base own hown fun _ h => h

theorem Every.insert (hQ : Growing Q) {own base : Members} (hown : Every Q (.obj own))
    (hbase : Every Q (.obj base)) {key : String} {v : Json} (hk : key ∈ Dict.keys base)
    (hv : Every Q v) : Every Q (.obj (Dict.insert own key v)) := by
  rw [every_obj] at hown hbase ⊢
  refine ⟨hQ hown.1 hbase.1 hk, fun m hm => ?_⟩
  rcases Dict.mem_insert hm with rfl | hm
  · exact hv
  · exact hown.2 m hm

theorem Every.insertNew (hQ : Growing Q) {own base : Members} (hown : Every Q (.obj own))
    (hbase : Every Q (.obj base)) {key : String} {v : Json} (hk : key ∈ Dict.keys base)
    (hv : Every Q v) : Every Q (.obj (Dict.insertNew own key v)) := by
  unfold Dict.insertNew
  split
  · exact hown
  · exact hown.insert hQ hbase hk hv

theorem Every.fill (hQ : Growing Q) {own base : Members} (hown : Every Q (.obj own))
    (hbase : Every Q (.obj base)) : Every Q (.obj (Dict.fill own base)) := by
  rw [every_obj] at hown hbase ⊢
  exact ⟨hQ.fill hown.1 hbase.1, fun m hm => (Dict.mem_fill hm).elim (hown.2 m) (hbase.2 m)⟩

theorem ordered_insert {members : Members} (h : (Json.obj members).Ordered) (key : String)
    {v : Json} (hv : v.Ordered) : (Json.obj (Dict.insert members key v)).Ordered := by
  obtain ⟨hs, hm⟩ := every_obj.mp h
  refine .obj (Dict.sorted_insert hs key v) fun m hmem => ?_
  rcases Dict.mem_insert hmem with rfl | hmem
  · exact hv
  · exact hm m hmem

theorem ordered_erase {members : Members} (h : (Json.obj members).Ordered) (key : String) :
    (Json.obj (Dict.erase members key)).Ordered := by
  obtain ⟨hs, hm⟩ := every_obj.mp h
  exact .obj (Dict.sorted_erase hs key) fun m hmem => hm m (Dict.mem_erase.mp hmem).1

theorem asObject?_eq_some {v : Json} {members : Members} (h : v.asObject? = some members) :
    v = .obj members := by
  cases v <;> simp_all [asObject?]

theorem isObject_iff {v : Json} : v.isObject ↔ ∃ members, v = .obj members := by
  cases v <;> simp [isObject, asObject?]

namespace Pointer

/-- One step down leads to a member or to an element. -/
theorem child?_eq_some {v w : Json} {token : String} (h : child? v token = some w) :
    (∃ members key, v = .obj members ∧ Dict.get? members key = some w) ∨
      ∃ items, v = .arr items ∧ w ∈ items := by
  cases v with
  | obj members => exact .inl ⟨members, token, rfl, h⟩
  | arr items =>
    obtain ⟨i, -, hi⟩ := Option.bind_eq_some_iff.mp h
    exact .inr ⟨items, rfl, List.mem_of_getElem? hi⟩
  | null | bool _ | num _ | str _ => simp [child?] at h

/-- A property that values hand down to their members and elements holds of whatever a path
leads to. -/
theorem follow_of_child {C : Json → Prop}
    (hobj : ∀ {members key w}, C (.obj members) → Dict.get? members key = some w → C w)
    (harr : ∀ {items w}, C (.arr items) → w ∈ items → C w)
    {tokens : List String} {v w : Json} (hv : C v) (h : follow v tokens = some w) : C w := by
  induction tokens generalizing v with
  | nil =>
    obtain rfl : v = w := by simpa [follow] using h
    exact hv
  | cons token tokens ih =>
    obtain ⟨u, hu, hw⟩ := Option.bind_eq_some_iff.mp h
    refine ih ?_ hw
    rcases child?_eq_some hu with ⟨members, key, rfl, hk⟩ | ⟨items, rfl, hm⟩
    · exact hobj hv hk
    · exact harr hv hm

end Pointer

theorem atPointer?_of_child {C : Json → Prop}
    (hobj : ∀ {members key w}, C (.obj members) → Dict.get? members key = some w → C w)
    (harr : ∀ {items w}, C (.arr items) → w ∈ items → C w)
    {v w : Json} {pointer : String} (hv : C v) (h : v.atPointer? pointer = some w) : C w := by
  obtain ⟨tokens, -, ht⟩ := Option.bind_eq_some_iff.mp h
  exact Pointer.follow_of_child hobj harr hv ht

theorem Every.atPointer {v w : Json} {pointer : String} (hv : Every P v)
    (h : v.atPointer? pointer = some w) : Every P w :=
  atPointer?_of_child (fun h hk => h.get? hk) (fun h hm => every_arr.mp h _ hm) hv h

end RpcContract.Json

namespace RpcContract.Repository

/-- The names are in order, in each schema as well. -/
abbrev Ordered (r : Repository) : Prop := (Json.obj r.schemas).Ordered

end RpcContract.Repository
