import Mathlib.Data.List.Forall2
import Mathlib.Data.List.Sort
import RpcContract.Dict

/-! Finite maps through their look-ups: two maps in order with the same look-ups are one map, and
the entries of a changed map come from the map or from the change. -/

namespace RpcContract

theorem exists_left_of_forall₂ {α : Type u} {β : Type v} {R : α → β → Prop} {as : List α}
    {bs : List β} (h : List.Forall₂ R as bs) {b : β} (hb : b ∈ bs) : ∃ a ∈ as, R a b := by
  induction h with
  | nil => simp at hb
  | cons hr _ ih =>
    rcases List.mem_cons.mp hb with rfl | hb
    · exact ⟨_, List.mem_cons_self, hr⟩
    · obtain ⟨a, ha, hr⟩ := ih hb
      exact ⟨a, List.mem_cons_of_mem _ ha, hr⟩

theorem exists_right_of_forall₂ {α : Type u} {β : Type v} {R : α → β → Prop} {as : List α}
    {bs : List β} (h : List.Forall₂ R as bs) {a : α} (ha : a ∈ as) : ∃ b ∈ bs, R a b :=
  exists_left_of_forall₂ (List.Forall₂.flip (R := fun b a => R a b) h) ha

theorem exists_forall₂ {α : Type u} {β : Type v} {R : α → β → Prop} {as : List α}
    (h : ∀ a ∈ as, ∃ b, R a b) : ∃ bs, List.Forall₂ R as bs := by
  induction as with
  | nil => exact ⟨[], .nil⟩
  | cons a as ih =>
    obtain ⟨⟨b, hb⟩, h⟩ := List.forall_mem_cons.mp h
    obtain ⟨bs, hbs⟩ := ih h
    exact ⟨b :: bs, .cons hb hbs⟩

theorem forall₂_append_left_iff {α : Type u} {β : Type v} {R : α → β → Prop} {as as' : List α}
    {bs : List β} :
    List.Forall₂ R (as ++ as') bs ↔
      ∃ cs cs', List.Forall₂ R as cs ∧ List.Forall₂ R as' cs' ∧ bs = cs ++ cs' := by
  constructor
  · intro h
    have htake := List.forall₂_take as.length h
    have hdrop := List.forall₂_drop as.length h
    rw [List.take_left] at htake
    rw [List.drop_left] at hdrop
    exact ⟨_, _, htake, hdrop, (List.take_append_drop as.length bs).symm⟩
  · rintro ⟨cs, cs', h, h', rfl⟩
    exact List.rel_append h h'

namespace Dict

variable {α : Type u} {β : Type v}

@[simp] theorem keys_nil : keys ([] : Dict α) = [] := rfl

@[simp] theorem keys_cons (k : String) (v : α) (d : Dict α) : keys ((k, v) :: d) = k :: keys d :=
  rfl

theorem mem_keys_of_mem {d : Dict α} {p : String × α} (h : p ∈ d) : p.1 ∈ keys d :=
  List.mem_map_of_mem h

theorem get?_eq_none_iff {d : Dict α} {key : String} : get? d key = none ↔ key ∉ keys d := by
  have h := contains_iff_mem_keys d key
  cases hg : get? d key <;> simp_all [contains]

theorem mem_of_get? {d : Dict α} {key : String} {v : α} (h : get? d key = some v) :
    (key, v) ∈ d := by
  induction d with
  | nil => simp at h
  | cons p d ih =>
    obtain ⟨k, w⟩ := p
    rw [get?_cons] at h
    split at h
    · next hk => simp_all
    · exact List.mem_cons_of_mem _ (ih h)

theorem mem_keys_of_get? {d : Dict α} {key : String} {v : α} (h : get? d key = some v) :
    key ∈ keys d :=
  mem_keys_of_mem (mem_of_get? h)

theorem mem_keys_iff {d : Dict α} {key : String} : key ∈ keys d ↔ ∃ v, get? d key = some v := by
  rw [← contains_iff_mem_keys, contains, Option.isSome_iff_exists]

theorem Sorted.nodup {d : Dict α} (h : Sorted d) : (keys d).Nodup := by
  apply h.imp
  rintro a _ hlt rfl
  exact String.lt_irrefl a hlt

theorem Sorted.of_keys_eq {d : Dict α} {e : Dict β} (h : Sorted d) (hk : keys e = keys d) :
    Sorted e := by
  unfold Sorted
  rwa [hk]

theorem get?_of_mem {d : Dict α} (hnd : (keys d).Nodup) {key : String} {v : α}
    (h : (key, v) ∈ d) : get? d key = some v := by
  induction d with
  | nil => simp at h
  | cons p d ih =>
    obtain ⟨k, w⟩ := p
    have hk := List.nodup_cons.mp hnd
    rw [get?_cons]
    rcases List.mem_cons.mp h with he | h
    · simp_all
    · have hne : k ≠ key := by
        rintro rfl
        exact hk.1 (mem_keys_of_mem (p := (k, v)) h)
      rw [if_neg hne, ih hk.2 h]

theorem mem_iff_get? {d : Dict α} (hnd : (keys d).Nodup) {key : String} {v : α} :
    (key, v) ∈ d ↔ get? d key = some v :=
  ⟨get?_of_mem hnd, mem_of_get?⟩

theorem eq_of_increasing {γ : Type u} {name : γ → String} {as bs : List γ}
    (ha : as.Pairwise fun a b => name a < name b) (hb : bs.Pairwise fun a b => name a < name b)
    (h : ∀ a, a ∈ as ↔ a ∈ bs) : as = bs := by
  have : Std.Irrefl fun a b => name a < name b := ⟨fun _ => String.lt_irrefl _⟩
  have : Std.Antisymm fun a b => name a < name b :=
    ⟨fun _ _ hab hba => absurd (String.lt_trans hab hba) (String.lt_irrefl _)⟩
  exact List.Pairwise.eq_of_mem_iff ha hb h

/-- Maps in order are determined by their look-ups. -/
theorem Sorted.ext {d e : Dict α} (hd : Sorted d) (he : Sorted e)
    (h : ∀ key, get? d key = get? e key) : d = e := by
  refine eq_of_increasing (List.pairwise_map.mp hd) (List.pairwise_map.mp he) ?_
  intro p
  rw [mem_iff_get? hd.nodup, mem_iff_get? he.nodup, h]

theorem get?_insert_self (d : Dict α) (key : String) (val : α) :
    get? (insert d key val) key = some val := by
  rw [get?_insert, if_pos rfl]

theorem mem_insert {d : Dict α} {key : String} {val : α} {p : String × α}
    (h : p ∈ insert d key val) : p = (key, val) ∨ p ∈ d := by
  induction d with
  | nil => simpa [insert] using h
  | cons q d ih =>
    obtain ⟨k, v⟩ := q
    simp only [insert] at h
    split at h
    · simpa using h
    · split at h
      · rcases List.mem_cons.mp h with h | h
        · exact .inl h
        · exact .inr (List.mem_cons_of_mem _ h)
      · rcases List.mem_cons.mp h with h | h
        · exact .inr (h ▸ List.mem_cons_self)
        · exact (ih h).imp_right (List.mem_cons_of_mem _)

theorem sorted_insertNew {d : Dict α} (h : Sorted d) (key : String) (val : α) :
    Sorted (insertNew d key val) := by
  unfold insertNew
  split
  · exact h
  · exact sorted_insert h key val

theorem fill_cons (d : Dict α) (p : String × α) (e : Dict α) :
    fill d (p :: e) = fill (insertNew d p.1 p.2) e := rfl

theorem sorted_fill {d : Dict α} (h : Sorted d) (e : Dict α) : Sorted (fill d e) := by
  induction e generalizing d with
  | nil => exact h
  | cons p e ih => exact ih (sorted_insertNew h p.1 p.2)

theorem fill_fill {d : Dict α} (h : Sorted d) (e f : Dict α) :
    fill d (fill e f) = fill (fill d e) f := by
  refine (sorted_fill h _).ext (sorted_fill (sorted_fill h e) f) fun key => ?_
  simp only [get?_fill, Option.or_assoc]

theorem mem_insertNew {d : Dict α} {key : String} {val : α} {p : String × α}
    (h : p ∈ insertNew d key val) : p = (key, val) ∨ p ∈ d := by
  unfold insertNew at h
  split at h
  · exact .inr h
  · exact mem_insert h

theorem mem_fill {d e : Dict α} {p : String × α} (h : p ∈ fill d e) : p ∈ d ∨ p ∈ e := by
  induction e generalizing d with
  | nil => exact .inl h
  | cons q e ih =>
    rcases ih h with h | h
    · rcases mem_insertNew h with rfl | h
      · exact .inr List.mem_cons_self
      · exact .inl h
    · exact .inr (List.mem_cons_of_mem _ h)

theorem mem_foldl_insert {d : Dict α} {entries : List (String × α)} {p : String × α}
    (h : p ∈ entries.foldl (fun d e => insert d e.1 e.2) d) : p ∈ d ∨ p ∈ entries := by
  induction entries generalizing d with
  | nil => exact .inl h
  | cons e entries ih =>
    rcases ih h with h | h
    · rcases mem_insert h with rfl | h
      · exact .inr List.mem_cons_self
      · exact .inl h
    · exact .inr (List.mem_cons_of_mem _ h)

theorem mem_ofList {entries : List (String × α)} {p : String × α} (h : p ∈ ofList entries) :
    p ∈ entries :=
  (mem_foldl_insert h).resolve_left (by simp)

theorem sorted_foldl_insert {d : Dict α} (h : Sorted d) (entries : List (String × α)) :
    Sorted (entries.foldl (fun d e => insert d e.1 e.2) d) :=
  List.foldlRecOn entries _ (motive := Sorted) h fun _ h e _ => sorted_insert h e.1 e.2

theorem mem_keys_foldl_insert {d : Dict α} {entries : List (String × α)} {key : String} :
    key ∈ keys (entries.foldl (fun d e => insert d e.1 e.2) d) ↔
      key ∈ keys d ∨ key ∈ keys entries := by
  induction entries generalizing d with
  | nil => simp
  | cons e entries ih =>
    rw [List.foldl_cons, ih, mem_keys_insert, keys_cons, List.mem_cons]
    tauto

theorem insert_append {pre : Dict α} {name : String} (h : ∀ k ∈ keys pre, k < name) (d : Dict α)
    (v : α) : insert (pre ++ d) name v = pre ++ insert d name v := by
  induction pre with
  | nil => rfl
  | cons m pre ih =>
    obtain ⟨hm, h⟩ := List.forall_mem_cons.mp h
    have hne : name ≠ m.1 := fun he => String.lt_irrefl _ (he ▸ hm)
    have hnlt : ¬ name < m.1 := fun hl => String.lt_irrefl _ (String.lt_trans hm hl)
    rw [List.cons_append, insert, if_neg hnlt, if_neg hne, ih h]
    rfl

theorem Sorted.lt_of_append {pre post : Dict α} {e : String × α} (h : Sorted (pre ++ e :: post)) :
    ∀ k ∈ keys pre, k < e.1 := by
  intro k hk
  rw [Sorted, keys, List.map_append, List.pairwise_append] at h
  exact h.2.2 k hk e.1 (by simp)

theorem Sorted.gt_of_append {pre post : Dict α} {e : String × α} (h : Sorted (pre ++ e :: post)) :
    ∀ k ∈ keys post, e.1 < k := by
  rw [Sorted, keys, List.map_append, List.pairwise_append] at h
  exact (List.pairwise_cons.mp h.2.1).1

/-- In order, entries are added at the end. -/
theorem foldl_insert_of_sorted {d entries : Dict α} (h : Sorted (d ++ entries)) :
    entries.foldl (fun d e => insert d e.1 e.2) d = d ++ entries := by
  induction entries generalizing d with
  | nil => simp
  | cons e entries ih =>
    have hinsert : insert d e.1 e.2 = d ++ [e] := by
      simpa [insert] using insert_append h.lt_of_append [] e.2
    have hsplit : d ++ e :: entries = (d ++ [e]) ++ entries := by simp
    rw [List.foldl_cons, hinsert, hsplit]
    exact ih (hsplit ▸ h)

theorem ofList_of_sorted {d : Dict α} (h : Sorted d) : ofList d = d :=
  foldl_insert_of_sorted (d := []) h

/-- The last value that a list has under a name. -/
def last? (entries : List (String × α)) (key : String) : Option α :=
  match entries with
  | [] => none
  | (k, v) :: entries => (last? entries key).or (if k = key then some v else none)

theorem get?_foldl_insert (d : Dict α) (entries : List (String × α)) (key : String) :
    get? (entries.foldl (fun d e => insert d e.1 e.2) d) key =
      (last? entries key).or (get? d key) := by
  induction entries generalizing d with
  | nil => simp [last?]
  | cons e entries ih =>
    rw [List.foldl_cons, ih, get?_insert, last?]
    cases last? entries key <;> by_cases hk : e.1 = key <;> simp [hk]

/-- Under different names, the last value is the only one. -/
theorem last?_eq_get? {d : Dict α} (h : (keys d).Nodup) (key : String) :
    last? d key = get? d key := by
  induction d with
  | nil => rfl
  | cons e d ih =>
    obtain ⟨k, v⟩ := e
    obtain ⟨hk, hd⟩ := List.nodup_cons.mp h
    rw [last?, get?_cons, ih hd]
    by_cases he : k = key
    · have hnone : get? d key = none := get?_eq_none_iff.mpr (he ▸ hk)
      simp [he, hnone]
    · simp [he]

theorem last?_filter {p : String → Bool} {key : String} (hp : p key) (d : Dict α) :
    last? (d.filter fun m => p m.1) key = last? d key := by
  induction d with
  | nil => rfl
  | cons e d ih =>
    by_cases he : p e.1
    · rw [List.filter_cons, if_pos he, last?, last?, ih]
    · have hne : e.1 ≠ key := by
        rintro rfl
        exact he hp
      rw [List.filter_cons, if_neg he, last?, ih, if_neg hne, Option.or_none]

theorem last?_map (f : α → β) (d : List (String × α)) (key : String) :
    last? (d.map fun e => (e.1, f e.2)) key = (last? d key).map f := by
  induction d with
  | nil => rfl
  | cons e d ih =>
    obtain ⟨k, v⟩ := e
    rw [List.map_cons, last?, last?, ih]
    cases last? d key <;> by_cases hk : k = key <;> simp [hk]

theorem last?_append (d e : List (String × α)) (key : String) :
    last? (d ++ e) key = (last? e key).or (last? d key) := by
  induction d with
  | nil => simp [last?]
  | cons p d ih =>
    obtain ⟨k, v⟩ := p
    rw [List.cons_append, last?, ih, last?, Option.or_assoc]

theorem mem_of_last? {entries : List (String × α)} {key : String} {v : α}
    (h : last? entries key = some v) : (key, v) ∈ entries := by
  induction entries with
  | nil => cases h
  | cons e entries ih =>
    rw [last?, Option.or_eq_some_iff] at h
    rcases h with h | ⟨-, h⟩
    · exact List.mem_cons_of_mem _ (ih h)
    · by_cases he : e.1 = key
      · rw [if_pos he] at h
        obtain rfl := Option.some.inj h
        exact he ▸ List.mem_cons_self
      · rw [if_neg he] at h
        cases h

theorem last?_eq_none_iff {d : List (String × α)} {key : String} :
    last? d key = none ↔ key ∉ keys d := by
  induction d with
  | nil => simp [last?]
  | cons p d ih =>
    obtain ⟨k, v⟩ := p
    rw [last?, Option.or_eq_none_iff, ih, keys_cons, List.mem_cons]
    by_cases hk : k = key
    · simp [hk]
    · simp [hk, Ne.symm hk]

theorem mem_keys_flatten {ds : List (List (String × α))} {key : String} :
    key ∈ keys ds.flatten ↔ ∃ d ∈ ds, key ∈ keys d := by
  simp only [keys, List.map_flatten, List.mem_flatten, List.mem_map, exists_exists_and_eq_and]

/-- Of several lists the last that has a name gives its value. -/
theorem last?_flatten_eq_some_iff {ds : List (List (String × α))} {key : String} {v : α} :
    last? ds.flatten key = some v ↔
      ∃ pre d post, ds = pre ++ d :: post ∧ last? d key = some v ∧ ∀ e ∈ post, key ∉ keys e := by
  induction ds with
  | nil => simp [last?]
  | cons d ds ih =>
    have hnone : last? ds.flatten key = none ↔ ∀ e ∈ ds, key ∉ keys e := by
      rw [last?_eq_none_iff, mem_keys_flatten]
      simp
    rw [List.flatten_cons, last?_append, Option.or_eq_some_iff, ih, hnone]
    constructor
    · rintro (⟨pre, e, post, rfl, he, hpost⟩ | ⟨hlater, hd⟩)
      · exact ⟨d :: pre, e, post, rfl, he, hpost⟩
      · exact ⟨[], d, ds, rfl, hd, hlater⟩
    · rintro ⟨_ | ⟨d', pre⟩, e, post, hsplit, he, hpost⟩
      · obtain ⟨rfl, rfl⟩ := List.cons.inj hsplit
        exact .inr ⟨hpost, he⟩
      · obtain ⟨rfl, rfl⟩ := List.cons.inj hsplit
        exact .inl ⟨pre, e, post, rfl, he, hpost⟩

/-! Leaving a name out -/

theorem mem_erase {d : Dict α} {key : String} {p : String × α} :
    p ∈ erase d key ↔ p ∈ d ∧ p.1 ≠ key := by
  induction d with
  | nil => simp [erase]
  | cons q d ih =>
    obtain ⟨k, v⟩ := q
    by_cases hk : k = key
    · rw [erase, if_pos hk, ih, List.mem_cons]
      refine ⟨fun h => ⟨.inr h.1, h.2⟩, fun h => ⟨h.1.resolve_left ?_, h.2⟩⟩
      rintro rfl
      exact h.2 hk
    · rw [erase, if_neg hk, List.mem_cons, List.mem_cons, ih]
      refine ⟨?_, fun h => h.1.imp_right fun hp => ⟨hp, h.2⟩⟩
      rintro (rfl | h)
      · exact ⟨.inl rfl, hk⟩
      · exact ⟨.inr h.1, h.2⟩

theorem keys_erase (d : Dict α) (key : String) :
    keys (erase d key) = (keys d).filter (· ≠ key) := by
  induction d with
  | nil => rfl
  | cons q d ih =>
    obtain ⟨k, v⟩ := q
    by_cases hk : k = key <;> simp [erase, hk, ih]

theorem not_mem_keys_erase (d : Dict α) (key : String) : key ∉ keys (erase d key) := by
  simp [keys_erase]

theorem not_mem_of_keys_eq {d : Dict α} {e : Dict β} {key : String}
    (h : keys e = keys (erase d key)) : key ∉ keys e := by
  rw [h]
  exact not_mem_keys_erase d key

theorem sorted_erase {d : Dict α} (h : Sorted d) (key : String) : Sorted (erase d key) := by
  unfold Sorted
  rw [keys_erase]
  exact h.filter _

theorem erase_of_not_mem {d : Dict α} {key : String} (h : key ∉ keys d) : erase d key = d := by
  induction d with
  | nil => rfl
  | cons q d ih =>
    obtain ⟨k, v⟩ := q
    simp only [keys_cons, List.mem_cons, not_or] at h
    rw [erase, if_neg (Ne.symm h.1), ih h.2]

theorem get?_erase (d : Dict α) (key q : String) :
    get? (erase d key) q = if q = key then none else get? d q := by
  induction d with
  | nil => simp [erase]
  | cons p d ih =>
    obtain ⟨k, v⟩ := p
    by_cases hk : k = key
    · subst hk
      rw [erase, if_pos rfl, ih, get?_cons]
      split
      · rfl
      · next hq => rw [if_neg (Ne.symm hq)]
    · rw [erase, if_neg hk, get?_cons, get?_cons, ih]
      by_cases hq : q = key
      · subst hq; simp [hk]
      · simp [hq]

/-- What all entries have, the entries under other names and the one under the name have. -/
theorem forall_mem_iff_erase {d : Dict α} (hnd : (keys d).Nodup) (key : String)
    {P : String × α → Prop} :
    (∀ p ∈ d, P p) ↔ (∀ p ∈ erase d key, P p) ∧ ∀ v ∈ get? d key, P (key, v) := by
  refine ⟨fun h => ⟨fun p hp => h p (mem_erase.mp hp).1, fun v hv => h _ (mem_of_get? hv)⟩, ?_⟩
  rintro ⟨hrest, hkey⟩ ⟨k, v⟩ hp
  by_cases hk : k = key
  · subst hk
    exact hkey v (get?_of_mem hnd hp)
  · exact hrest _ (mem_erase.mpr ⟨hp, hk⟩)

theorem erase_insert {d : Dict α} (h : Sorted d) (key : String) (val : α) :
    erase (insert d key val) key = erase d key := by
  refine (sorted_erase (sorted_insert h key val) key).ext (sorted_erase h key) fun q => ?_
  rw [get?_erase, get?_erase, get?_insert]
  by_cases hq : q = key
  · simp [hq]
  · simp [hq, Ne.symm hq]

/-! Maps entry by entry -/

/-- The same names in the same places, and values that are related under their name. -/
def Related (R : String → α → β → Prop) (d : Dict α) (e : Dict β) : Prop :=
  List.Forall₂ (fun p q => p.1 = q.1 ∧ R p.1 p.2 q.2) d e

namespace Related

variable {R S : String → α → β → Prop} {d : Dict α} {e : Dict β}

theorem keys_eq (h : Related R d e) : keys e = keys d := by
  induction h with
  | nil => rfl
  | cons hp _ ih => simp only [keys, List.map_cons] at ih ⊢; rw [ih, hp.1]

theorem get?_eq (h : Related R d e) {key : String} {v : α} {w : β} (hv : get? d key = some v)
    (hw : get? e key = some w) : R key v w := by
  induction h with
  | nil => simp at hv
  | @cons p q d e hp _ ih =>
    obtain ⟨k, x⟩ := p
    obtain ⟨l, y⟩ := q
    obtain ⟨rfl, hr⟩ := hp
    rw [get?_cons] at hv hw
    by_cases hk : k = key
    · rw [if_pos hk] at hv hw
      rwa [← Option.some.inj hv, ← Option.some.inj hw, ← hk]
    · rw [if_neg hk] at hv hw
      exact ih hv hw

theorem exists_right_get? (h : Related R d e) {key : String} {v : α} (hv : get? d key = some v) :
    ∃ w, get? e key = some w ∧ R key v w := by
  obtain ⟨w, hw⟩ := mem_keys_iff.mp (h.keys_eq ▸ mem_keys_of_get? hv)
  exact ⟨w, hw, h.get?_eq hv hw⟩

theorem exists_left (h : Related R d e) {q : String × β} (hq : q ∈ e) :
    ∃ p ∈ d, p.1 = q.1 ∧ R p.1 p.2 q.2 :=
  exists_left_of_forall₂ h hq

theorem exists_of_mem (h : ∀ p ∈ d, ∃ w, R p.1 p.2 w) : ∃ e, Related R d e :=
  exists_forall₂ fun p hp => (h p hp).imp' (p.1, ·) fun _ hw => ⟨rfl, hw⟩

theorem imp (h : Related R d e) (hRS : ∀ p ∈ d, ∀ w, R p.1 p.2 w → S p.1 p.2 w) :
    Related S d e := by
  have hh := (List.forall₂_and_left d e).mpr ⟨hRS, h⟩
  exact hh.imp fun p q hpq => ⟨hpq.2.1, hpq.1 _ hpq.2.2⟩

theorem refl {R : String → α → α → Prop} (h : ∀ p ∈ d, R p.1 p.2 p.2) : Related R d d :=
  List.forall₂_same.mpr fun p hp => ⟨rfl, h p hp⟩

theorem trans {γ : Type u} {T : String → β → γ → Prop} {f : Dict γ} (h : Related R d e)
    (hT : Related T e f) : Related (fun key v x => ∃ w, R key v w ∧ T key w x) d f := by
  induction h generalizing f with
  | nil =>
    obtain rfl := List.forall₂_nil_left_iff.mp hT
    exact .nil
  | cons hp _ ih =>
    cases hT with
    | cons hq hT => exact .cons ⟨hp.1.trans hq.1, _, hp.2, hp.1 ▸ hq.2⟩ (ih hT)

theorem of_get? (hnd : (keys d).Nodup) (hk : keys e = keys d)
    (h : ∀ key v w, get? d key = some v → get? e key = some w → R key v w) : Related R d e := by
  induction d generalizing e with
  | nil =>
    obtain rfl : e = [] := List.map_eq_nil_iff.mp hk
    exact .nil
  | cons p d ih =>
    obtain ⟨k, v⟩ := p
    cases e with
    | nil => simp at hk
    | cons q e =>
      obtain ⟨l, w⟩ := q
      simp only [keys_cons, List.cons.injEq] at hk
      obtain ⟨rfl, hk⟩ := hk
      have hnd' := List.nodup_cons.mp hnd
      have hne : ∀ {key x}, get? d key = some x → l ≠ key := by
        rintro key x hx rfl
        exact hnd'.1 (mem_keys_of_get? hx)
      have hvw := h l v w (by simp [get?_cons]) (by simp [get?_cons])
      refine .cons ⟨rfl, hvw⟩ (ih hnd'.2 hk fun key x y hx hy => h key x y ?_ ?_)
      · rw [get?_cons, if_neg (hne hx), hx]
      · rw [get?_cons, if_neg (hne hx), hy]

theorem insert (h : Related R d e) {key : String} {v : α} {w : β} (hvw : R key v w) :
    Related R (d.insert key v) (e.insert key w) := by
  induction h with
  | nil => exact .cons ⟨rfl, hvw⟩ .nil
  | @cons p q d e hp hd ih =>
    obtain ⟨k, x⟩ := p
    obtain ⟨l, y⟩ := q
    obtain ⟨rfl, hxy⟩ := hp
    simp only [Dict.insert]
    split
    · exact .cons ⟨rfl, hvw⟩ (.cons ⟨rfl, hxy⟩ hd)
    · split
      · exact .cons ⟨rfl, hvw⟩ hd
      · exact .cons ⟨rfl, hxy⟩ ih

theorem forall_iff {P : String → α → Prop} {Q : String → β → Prop}
    (h : Related (fun key v w => P key v ↔ Q key w) d e) :
    (∀ m ∈ d, P m.1 m.2) ↔ ∀ m ∈ e, Q m.1 m.2 := by
  induction h with
  | nil => simp
  | @cons p q d e hp _ ih =>
    have hhead : P p.1 p.2 ↔ Q q.1 q.2 := hp.1 ▸ hp.2
    rw [List.forall_mem_cons, List.forall_mem_cons, ih, hhead]

end Related

/-! Setting a name that is there -/

theorem keys_insert_of_mem {d : Dict α} (hd : Sorted d) {key : String} (h : key ∈ keys d)
    (val : α) : keys (insert d key val) = keys d := by
  refine eq_of_increasing (sorted_insert hd key val) hd ?_
  intro q
  rw [mem_keys_insert]
  exact ⟨fun hq => hq.elim (fun he => he ▸ h) id, .inr⟩

/-- Only the value under the name changes. -/
theorem related_insert {d : Dict α} (hd : Sorted d) {key : String} {v : α}
    (h : get? d key = some v) (val : α) :
    Related (fun k x y => if k = key then x = v ∧ y = val else y = x) d (insert d key val) := by
  refine .of_get? hd.nodup (keys_insert_of_mem hd (mem_keys_of_get? h) val) ?_
  intro k x y hx hy
  rw [get?_insert] at hy
  split
  · next hk =>
    subst hk
    rw [if_pos rfl] at hy
    exact ⟨Option.some.inj (hx.symm.trans h), (Option.some.inj hy).symm⟩
  · next hk =>
    rw [if_neg (Ne.symm hk)] at hy
    exact Option.some.inj (hy.symm.trans hx)

end Dict

end RpcContract
