import RpcContract.Proofs.Schema.Entry

/-! Expansion as a relation: what a schema becomes when references are replaced for as long as there
are any, without a guard against going round in circles. Everything that the guarded expansion
returns is such an expansion. -/

namespace RpcContract.Schema

/-- `out` has the members of `own`, and of `base` exactly those whose keys `own` lacks. -/
structure Overlays (own base out : Json.Members) : Prop where
  sorted : Dict.Sorted out
  get? : ∀ key, Dict.get? out key = (Dict.get? own key).or (Dict.get? base key)

/-- The expansions of a value. Every member of an object is expanded but its reference; what that
denotes is expanded in full, and then covered by the members. -/
inductive Expands (r : Repository) : Json → Json → Prop where
  | null : Expands r .null .null
  | bool (b : Bool) : Expands r (.bool b) (.bool b)
  | num (n : Number) : Expands r (.num n) (.num n)
  | str (s : String) : Expands r (.str s) (.str s)
  | arr {items out : List Json} (hl : items.length = out.length)
      (h : ∀ (i : Nat) (hi : i < items.length) (ho : i < out.length), Expands r items[i] out[i]) :
      Expands r (.arr items) (.arr out)
  | plain {members own : Json.Members} (hr : Dict.get? members Reference.key = none)
      (hk : Dict.keys own = Dict.keys (Dict.erase members Reference.key))
      (h : ∀ key v w, Dict.get? members key = some v → Dict.get? own key = some w →
        Expands r v w) :
      Expands r (.obj members) (.obj own)
  | reference {members own target base out : Json.Members} {text : String}
      (hr : Dict.get? members Reference.key = some (.str text))
      (hk : Dict.keys own = Dict.keys (Dict.erase members Reference.key))
      (h : ∀ key v w, Dict.get? members key = some v → Dict.get? own key = some w →
        Expands r v w)
      (ht : r.denoted? text = some target) (hb : Expands r (.obj target) (.obj base))
      (ho : Overlays own base out) :
      Expands r (.obj members) (.obj out)

theorem overlays_fill {own : Json.Members} (h : Dict.Sorted own) (base : Json.Members) :
    Overlays own base (Dict.fill own base) :=
  ⟨Dict.sorted_fill h base, Dict.get?_fill own base⟩

theorem Overlays.eq_fill {own base out : Json.Members} (h : Overlays own base out)
    (hown : Dict.Sorted own) : out = Dict.fill own base :=
  h.sorted.ext (Dict.sorted_fill hown base) fun key => by rw [h.get?, Dict.get?_fill]

/-! What expanding returns for an array and for an object, by their parts. -/

theorem forall₂_of_expandItems {f : Follow} {path : Json.Path} {i : Nat} {items out : List Json}
    (h : expandItems f path i items = .ok out) :
    List.Forall₂ (fun v w => ∃ place, expandValue f place v = .ok w) items out := by
  induction items generalizing i out with
  | nil =>
    obtain rfl : [] = out := by simpa [expandItems] using h
    exact .nil
  | cons item items ih =>
    rw [expandItems] at h
    obtain ⟨w, rest, hw, hs, rfl⟩ := Except.both_eq_ok_iff.mp h
    exact .cons ⟨_, hw⟩ (ih hs)

theorem expandItems_of_forall₂ {f : Follow} {items out : List Json}
    (h : List.Forall₂ (fun v w => ∀ place, expandValue f place v = .ok w) items out)
    (path : Json.Path) (i : Nat) : expandItems f path i items = .ok out := by
  induction h generalizing i with
  | nil => simp [expandItems]
  | cons hw _ ih => simp [expandItems, hw, ih, Except.bind]

theorem related_of_expandMembers {f : Follow} {path : Json.Path} {members own : Json.Members}
    (h : expandMembers f path members = .ok own) :
    Dict.Related (fun _ v w => ∃ place, expandValue f place v = .ok w)
      (Dict.erase members Reference.key) own := by
  induction members generalizing own with
  | nil =>
    obtain rfl : [] = own := by simpa [expandMembers] using h
    exact .nil
  | cons m members ih =>
    obtain ⟨key, v⟩ := m
    unfold expandMembers at h
    split at h
    · next hk =>
      rw [Dict.erase, if_pos hk]
      exact ih h
    · next hk =>
      obtain ⟨w, rest, hw, hs, rfl⟩ := Except.both_eq_ok_iff.mp h
      rw [Dict.erase, if_neg hk]
      exact .cons ⟨rfl, _, hw⟩ (ih hs)

theorem expandMembers_of_related {f : Follow} {members own : Json.Members}
    (h : Dict.Related (fun _ v w => ∀ place, expandValue f place v = .ok w)
      (Dict.erase members Reference.key) own)
    (path : Json.Path) : expandMembers f path members = .ok own := by
  induction members generalizing own with
  | nil =>
    obtain rfl : own = [] := List.forall₂_nil_left_iff.mp h
    simp [expandMembers]
  | cons m members ih =>
    obtain ⟨key, v⟩ := m
    unfold expandMembers
    split
    · next hk =>
      rw [Dict.erase, if_pos hk] at h
      exact ih h
    · next hk =>
      rw [Dict.erase, if_neg hk] at h
      cases h with
      | @cons _ n _ own hw hs =>
        obtain ⟨key', w⟩ := n
        obtain ⟨rfl, hw⟩ := hw
        simp [hw, ih hs, Except.bind]

theorem withReference_eq_ok_iff {f : Follow} {path : Json.Path} {members own out : Json.Members} :
    withReference f path members own = .ok out ↔
      (Dict.get? members Reference.key = none ∧ own = out) ∨
      ∃ text base, Dict.get? members Reference.key = some (.str text) ∧
        f path text = .ok base ∧ Dict.fill own base = out := by
  unfold withReference
  split
  · next h => simp [h]
  · next text h => simp [h]
  · next v hne h => simp [h]; exact fun text hv => (hne text hv).elim

theorem expandValue_obj (f : Follow) (path : Json.Path) (members : Json.Members) :
    expandValue f path (.obj members) = (expandObject f path members).map .obj := by
  rw [expandValue, expandObject]

theorem expandValue_obj_eq_ok_iff {f : Follow} {path : Json.Path} {members out : Json.Members} :
    expandValue f path (.obj members) = .ok (.obj out) ↔ expandObject f path members = .ok out := by
  simp [expandValue_obj]

theorem expandObject_eq_ok_iff {f : Follow} {path : Json.Path} {members out : Json.Members} :
    expandObject f path members = .ok out ↔
      ∃ own, expandMembers f path members = .ok own ∧
        withReference f path members own = .ok out := by
  simp [expandObject]

/-! Whatever is returned is an expansion. -/

theorem ne_of_keys {members own : Json.Members}
    (hk : Dict.keys own = Dict.keys (Dict.erase members Reference.key)) {key : String} {w : Json}
    (hw : Dict.get? own key = some w) : key ≠ Reference.key := by
  rintro rfl
  exact Dict.not_mem_of_keys_eq hk (Dict.mem_keys_of_get? hw)

theorem get?_erase_of_keys {members own : Json.Members}
    (hk : Dict.keys own = Dict.keys (Dict.erase members Reference.key)) {key : String} {v w : Json}
    (hv : Dict.get? members key = some v) (hw : Dict.get? own key = some w) :
    Dict.get? (Dict.erase members Reference.key) key = some v := by
  rw [Dict.get?_erase, if_neg (ne_of_keys hk hw), hv]

/-- What is returned for a reference is an expansion of the object it denotes. -/
def Faithful (r : Repository) (f : Follow) : Prop :=
  ∀ path text base, f path text = .ok base →
    ∃ target, r.denoted? text = some target ∧ Expands r (.obj target) (.obj base)

theorem expands_of_expandValue {r : Repository} {f : Follow} (hf : Faithful r f) {v : Json}
    (hv : v.Ordered) {path : Json.Path} {w : Json} (h : expandValue f path v = .ok w) :
    Expands r v w := by
  induction hv generalizing path w with
  | null =>
    obtain rfl : .null = w := by simpa [expandValue] using h
    exact .null
  | bool b =>
    obtain rfl : .bool b = w := by simpa [expandValue] using h
    exact .bool b
  | num n =>
    obtain rfl : .num n = w := by simpa [expandValue] using h
    exact .num n
  | str s =>
    obtain rfl : .str s = w := by simpa [expandValue] using h
    exact .str s
  | arr _ ih =>
    rw [expandValue, Except.map_eq_ok_iff] at h
    obtain ⟨out, h, rfl⟩ := h
    obtain ⟨hl, hout⟩ := List.forall₂_iff_get.mp (forall₂_of_expandItems h)
    refine .arr hl fun i hi ho => ?_
    obtain ⟨place, hx⟩ := hout i hi ho
    exact ih _ (List.getElem_mem hi) hx
  | @obj members hs _ ih =>
    rw [expandValue_obj, Except.map_eq_ok_iff] at h
    obtain ⟨out, h, rfl⟩ := h
    obtain ⟨own, hm, hr⟩ := expandObject_eq_ok_iff.mp h
    have hown := related_of_expandMembers hm
    have hsown := (Dict.sorted_erase hs Reference.key).of_keys_eq hown.keys_eq
    have hx : ∀ key v w, Dict.get? members key = some v → Dict.get? own key = some w →
        Expands r v w := by
      intro key v w hv hw
      obtain ⟨place, hx⟩ := hown.get?_eq (get?_erase_of_keys hown.keys_eq hv hw) hw
      exact ih _ (Dict.mem_of_get? hv) hx
    rcases withReference_eq_ok_iff.mp hr with ⟨hn, rfl⟩ | ⟨text, base, hn, hb, rfl⟩
    · exact .plain hn hown.keys_eq hx
    · obtain ⟨target, ht, hxb⟩ := hf _ _ _ hb
      exact .reference hn hown.keys_eq hx ht hxb (overlays_fill hsown base)

theorem ordered_denoted {r : Repository} (hr : r.Ordered) {text : String} {target : Json.Members}
    (h : r.denoted? text = some target) : (Json.obj target).Ordered :=
  Repository.denoted?_of_child (fun hs => hr.get? hs) (fun hv hk => hv.get? hk)
    (fun hv hm => Json.every_arr.mp hv _ hm) h

theorem faithful_follow {r : Repository} (hr : r.Ordered) (room : Room) :
    Faithful r (follow r room) := by
  intro path text base h
  refine follow_induction (C := fun text base =>
    ∃ target, r.denoted? text = some target ∧ Expands r (.obj target) (.obj base)) ?_ h
  intro f path text target base ht hf ho
  exact ⟨target, ht, expands_of_expandValue hf (ordered_denoted hr ht)
    (expandValue_obj_eq_ok_iff.mpr ho)⟩

end RpcContract.Schema
