import Mathlib.Data.List.Lex
import RpcContract.Proofs.Json.Place
import RpcContract.Proofs.Schema.Merging

/-! What an error of merging is about. A schema is traversed in one order: an object comes before
its members, of these the composition last and the others by their keys, and elements come in their
order. Where merging fails is the first place in that order at which something is wrong. -/

namespace RpcContract.Schema

/-- What a value is traversed as. -/
inductive Role where
  | schema
  | composition
  | entry
deriving DecidableEq, Repr

/-- The places of a value that are traversed, with what stands there. Nothing is sought below a
composition that is no array or an entry that is no object. -/
inductive Visits : Role → Json → Json.Path → Role → Json → Prop where
  | here (role : Role) (v : Json) : Visits role v [] role v
  | item {items : List Json} {i : Nat} {v w : Json} {path : Json.Path} {role : Role}
      (hi : items[i]? = some v) (h : Visits .schema v path role w) :
      Visits .schema (.arr items) (.index i :: path) role w
  | member {holder role : Role} {members : Json.Members} {key : String} {v w : Json}
      {path : Json.Path} (hh : holder ≠ .composition) (hm : Dict.get? members key = some v)
      (hk : key ≠ allOfKey) (h : Visits .schema v path role w) :
      Visits holder (.obj members) (.key key :: path) role w
  | composition {holder role : Role} {members : Json.Members} {v w : Json} {path : Json.Path}
      (hh : holder ≠ .composition) (hm : Dict.get? members allOfKey = some v)
      (h : Visits .composition v path role w) :
      Visits holder (.obj members) (.key allOfKey :: path) role w
  | entry {entries : List Json} {i : Nat} {v w : Json} {path : Json.Path} {role : Role}
      (hi : entries[i]? = some v) (h : Visits .entry v path role w) :
      Visits .composition (.arr entries) (.index i :: path) role w

/-- How a reference is told: by its text, or by the value that is there in place of one. -/
def told : Json → String
  | .str text => text
  | v => v.compact

/-- What is wrong with a value by itself. -/
inductive Offence : Role → Json → Fault → Prop where
  | reference {role : Role} {members : Json.Members} {v : Json} (hh : role ≠ .composition)
      (hr : Dict.get? members Reference.key = some v) :
      Offence role (.obj members) (.unresolvedReference (told v))
  | noArray {v : Json} (hv : ∀ items, v ≠ .arr items) :
      Offence .composition v (.invalidComposition "expected an array of schemas")
  | noObject {v : Json} (hv : ∀ members, v ≠ .obj members) :
      Offence .entry v (.invalidComposition ("entry is not an object: " ++ v.compact))

/-- Of two members or elements the first is traversed before the second. -/
inductive Before : Json.Step → Json.Step → Prop where
  | key {k l : String} (hk : k ≠ allOfKey) (hl : l ≠ allOfKey) (h : k < l) :
      Before (.key k) (.key l)
  | composition {k : String} (hk : k ≠ allOfKey) : Before (.key k) (.key allOfKey)
  | index {i j : Nat} (h : i < j) : Before (.index i) (.index j)

/-- The order of the traversal. What holds others comes before them. -/
abbrev Precedes : Json.Path → Json.Path → Prop := List.Lex Before

/-- The first place of the traversal where something is wrong, and what. -/
structure FirstOffence (schema : Json) (e : Error) : Prop where
  here : ∃ role v, Visits .schema schema e.path role v ∧ schema.at? e.path = some v ∧
    Offence role v e.fault
  earlier : ∀ {path role v}, Visits .schema schema path role v → Precedes path e.path →
    ∀ fault, ¬ Offence role v fault

theorem Visits.at? {role role' : Role} {v w : Json} {path : Json.Path}
    (h : Visits role v path role' w) : v.at? path = some w := by
  induction h with
  | here => rfl
  | item hi _ ih | member _ hi _ _ ih | composition _ hi _ ih | entry hi _ ih =>
    exact Json.at?_cons_eq_some.mpr ⟨_, hi, ih⟩

instance : Std.Asymm Before where
  asymm := by
    intro s t h h'
    cases h with
    | key hk _ h =>
      cases h' with
      | key _ _ h' => exact String.lt_irrefl _ (String.lt_trans h h')
      | composition => exact hk rfl
    | composition hk => cases h' <;> contradiction
    | index h =>
      cases h' with
      | index h' => omega

/-- The offences of a value and of what is traversed below it, by their place in the value. -/
def Offends (role : Role) (v : Json) (e : Error) : Prop :=
  ∃ role' w, Visits role v e.path role' w ∧ Offence role' w e.fault

/-! The first of several offences -/

section

variable {α β : Type} {path : Json.Path} {O P : Error → Prop}

def First (O : Error → Prop) (e : Error) : Prop :=
  O e ∧ ∀ f, O f → f = e ∨ Precedes e.path f.path

/-- An outcome at a path tells the offences below it: it fails with the first of them, or there are
none. -/
def Tells (path : Json.Path) (O : Error → Prop) : Except Error α → Prop
  | .ok _ => ∀ e, ¬ O e
  | .error e => ∃ f, First O f ∧ e = ⟨path ++ f.path, f.fault⟩

/-- The offences `O` of what a step leads to. -/
def Under (step : Json.Step) (O : Error → Prop) (e : Error) : Prop :=
  ∃ rest, e.path = step :: rest ∧ O ⟨rest, e.fault⟩

namespace Tells

theorem congr {x : Except Error α} (h : Tells path O x) (hOP : ∀ e, O e ↔ P e) :
    Tells path P x := by
  obtain rfl : O = P := funext fun e => propext (hOP e)
  exact h

theorem map {x : Except Error α} (h : Tells path O x) (f : α → β) : Tells path O (x.map f) := by
  cases x <;> exact h

/-- What comes second is only asked if nothing is wrong with what comes first. -/
theorem bind {x : Except Error α} {f : α → Except Error β} (hx : Tells path O x)
    (hf : ∀ a, Tells path P (f a)) (hOP : ∀ e g, O e → P g → Precedes e.path g.path) :
    Tells path (fun e => O e ∨ P e) (x.bind f) := by
  cases x with
  | error e =>
    obtain ⟨e, ⟨hO, hfirst⟩, rfl⟩ := hx
    refine ⟨e, ⟨.inl hO, ?_⟩, rfl⟩
    rintro g (hg | hg)
    · exact hfirst g hg
    · exact .inr (hOP e g hO hg)
  | ok a => exact (hf a).congr fun e => (or_iff_right (hx e)).symm

theorem under {step : Json.Step} {x : Except Error α} (h : Tells (path ++ [step]) O x) :
    Tells path (Under step O) x := by
  cases x with
  | ok a =>
    rintro e ⟨rest, -, hO⟩
    exact h _ hO
  | error e =>
    obtain ⟨e, ⟨hO, hfirst⟩, rfl⟩ := h
    refine ⟨⟨step :: e.path, e.fault⟩, ⟨⟨e.path, rfl, hO⟩, ?_⟩, by simp⟩
    rintro ⟨_, fault⟩ ⟨rest, rfl, hg⟩
    rcases hfirst _ hg with he | hlt
    · left
      rw [← he]
    · exact .inr (.cons hlt)

end Tells

end

/-! The offences of a value, by its parts -/

section

variable {role : Role} {e : Error}

theorem offends_scalar {v : Json} (ha : ∀ items, v ≠ .arr items)
    (ho : ∀ members, v ≠ .obj members) : ¬ Offends .schema v e := by
  obtain ⟨path, fault⟩ := e
  rintro ⟨role, w, hv, hw⟩
  cases hv with
  | here =>
    cases hw with
    | reference => exact ho _ rfl
  | item => exact ha _ rfl
  | member | composition => exact ho _ rfl

theorem offends_items_iff {items : List Json} :
    Offends .schema (.arr items) e ↔
      ∃ i v, items[i]? = some v ∧ Under (.index i) (Offends .schema v) e := by
  obtain ⟨path, fault⟩ := e
  constructor
  · rintro ⟨role, w, hv, hw⟩
    cases hv with
    | here => cases hw
    | item hi h => exact ⟨_, _, hi, _, rfl, _, _, h, hw⟩
  · rintro ⟨i, v, hi, rest, rfl, role, w, hv, hw⟩
    exact ⟨role, w, .item hi hv, hw⟩

theorem offends_entries_iff {entries : List Json} :
    Offends .composition (.arr entries) e ↔
      ∃ i v, entries[i]? = some v ∧ Under (.index i) (Offends .entry v) e := by
  obtain ⟨path, fault⟩ := e
  constructor
  · rintro ⟨role, w, hv, hw⟩
    cases hv with
    | here =>
      cases hw with
      | noArray ha => exact (ha entries rfl).elim
    | entry hi h => exact ⟨_, _, hi, _, rfl, _, _, h, hw⟩
  · rintro ⟨i, v, hi, rest, rfl, role, w, hv, hw⟩
    exact ⟨role, w, .entry hi hv, hw⟩

/-- Below a composition that is no array nothing is sought. -/
theorem offends_noArray_iff {v : Json} (hv : ∀ items, v ≠ .arr items) :
    Offends .composition v e ↔ e = ⟨[], .invalidComposition "expected an array of schemas"⟩ := by
  obtain ⟨path, fault⟩ := e
  rw [Error.mk.injEq]
  constructor
  · rintro ⟨role, w, h, hw⟩
    cases h with
    | here =>
      cases hw with
      | reference hh => exact (hh rfl).elim
      | noArray => exact ⟨rfl, rfl⟩
    | member hh | composition hh => exact (hh rfl).elim
    | entry => exact (hv _ rfl).elim
  · rintro ⟨rfl, rfl⟩
    exact ⟨.composition, v, .here _ v, .noArray hv⟩

theorem offends_noObject_iff {v : Json} (hv : ∀ members, v ≠ .obj members) :
    Offends .entry v e ↔
      e = ⟨[], .invalidComposition ("entry is not an object: " ++ v.compact)⟩ := by
  obtain ⟨path, fault⟩ := e
  rw [Error.mk.injEq]
  constructor
  · rintro ⟨role, w, h, hw⟩
    cases h with
    | here =>
      cases hw with
      | reference => exact (hv _ rfl).elim
      | noObject => exact ⟨rfl, rfl⟩
    | member | composition => exact (hv _ rfl).elim
  · rintro ⟨rfl, rfl⟩
    exact ⟨.entry, v, .here _ v, .noObject hv⟩

/-- The offence of an object itself. -/
def OffendsItself (role : Role) (v : Json) (e : Error) : Prop :=
  e.path = [] ∧ Offence role v e.fault

def OffendsInMembers (members : Json.Members) (e : Error) : Prop :=
  ∃ key v, (key, v) ∈ members ∧ key ≠ allOfKey ∧ Under (.key key) (Offends .schema v) e

def OffendsInComposition (members : Json.Members) (e : Error) : Prop :=
  ∃ v, Dict.get? members allOfKey = some v ∧ Under (.key allOfKey) (Offends .composition v) e

theorem offends_obj_iff (hh : role ≠ .composition) {members : Json.Members}
    (hs : Dict.Sorted members) :
    Offends role (.obj members) e ↔
      OffendsItself role (.obj members) e ∨ OffendsInMembers members e ∨
        OffendsInComposition members e := by
  obtain ⟨path, fault⟩ := e
  constructor
  · rintro ⟨role', w, hv, hw⟩
    cases hv with
    | here => exact .inl ⟨rfl, hw⟩
    | member _ hm hk h =>
      exact .inr (.inl ⟨_, _, Dict.mem_of_get? hm, hk, _, rfl, _, _, h, hw⟩)
    | composition _ hm h => exact .inr (.inr ⟨_, hm, _, rfl, _, _, h, hw⟩)
  · rintro (⟨rfl, hw⟩ | ⟨key, v, hm, hk, rest, rfl, role', w, hv, hw⟩ |
      ⟨v, hm, rest, rfl, role', w, hv, hw⟩)
    · exact ⟨role, .obj members, .here role _, hw⟩
    · exact ⟨role', w, .member hh (Dict.get?_of_mem hs.nodup hm) hk hv, hw⟩
    · exact ⟨role', w, .composition hh hm hv, hw⟩

end

/-! Merging tells the offences. -/

theorem tells_one {α : Type} {path : Json.Path} {O : Error → Prop} {fault : Fault}
    (hO : ∀ e, O e ↔ e = ⟨[], fault⟩) : Tells path O (.error ⟨path, fault⟩ : Except Error α) :=
  ⟨⟨[], fault⟩, ⟨(hO _).mpr rfl, fun f hf => .inl ((hO f).mp hf)⟩, by simp⟩

theorem offence_obj_iff {role : Role} (hh : role ≠ .composition) {members : Json.Members}
    {fault : Fault} :
    Offence role (.obj members) fault ↔
      ∃ v, Dict.get? members Reference.key = some v ∧ fault = .unresolvedReference (told v) := by
  constructor
  · intro h
    cases h with
    | reference _ hr => exact ⟨_, hr, rfl⟩
    | noArray => exact (hh rfl).elim
    | noObject hv => exact (hv members rfl).elim
  · rintro ⟨v, hr, rfl⟩
    exact .reference hh hr

theorem checkResolved_eq (path : Json.Path) (members : Json.Members) :
    checkResolved path members =
      match Dict.get? members Reference.key with
      | none => .ok ()
      | some v => .error ⟨path, .unresolvedReference (told v)⟩ := by
  unfold checkResolved
  rcases Dict.get? members Reference.key with _ | (_ | _ | _ | _ | _ | _) <;> rfl

theorem tells_checkResolved {role : Role} (hh : role ≠ .composition) (path : Json.Path)
    (members : Json.Members) :
    Tells path (OffendsItself role (.obj members)) (checkResolved path members) := by
  rw [checkResolved_eq]
  split
  · next hn =>
    rintro e ⟨-, hw⟩
    obtain ⟨v, hr, -⟩ := (offence_obj_iff hh).mp hw
    cases hn.symm.trans hr
  · next v hr =>
    refine tells_one fun e => ?_
    obtain ⟨path, fault⟩ := e
    rw [OffendsItself, offence_obj_iff hh, hr, Error.mk.injEq]
    simp

theorem precedes_of_itself {role : Role} {v : Json} {O : Error → Prop} {step : Json.Step}
    {e f : Error} (he : OffendsItself role v e) (hf : Under step O f) : Precedes e.path f.path := by
  obtain ⟨rest, hp, -⟩ := hf
  rw [he.1, hp]
  exact .nil

theorem precedes_of_before {O P : Error → Prop} {s t : Json.Step} (h : Before s t) {e f : Error}
    (he : Under s O e) (hf : Under t P f) : Precedes e.path f.path := by
  obtain ⟨rest, hp, -⟩ := he
  obtain ⟨rest', hp', -⟩ := hf
  rw [hp, hp']
  exact .rel h

/-- A walk through the elements, from the index `i` on, tells those of the first one that has
any. -/
theorem tells_elements {α : Type} {path : Json.Path} {f : Json.Path → Json → Except Error α}
    {walk : Nat → List Json → Except Error (List α)} (hnil : ∀ i, walk i [] = .ok [])
    (hcons : ∀ i v items, walk i (v :: items) =
      (f (path ++ [.index i]) v).bind fun a => (walk (i + 1) items).map (a :: ·))
    {role : Role} {items : List Json}
    (h : ∀ v ∈ items, ∀ place, Tells place (Offends role v) (f place v)) (i : Nat) :
    Tells path (fun e => ∃ j v, items[j]? = some v ∧ Under (.index (i + j)) (Offends role v) e)
      (walk i items) := by
  induction items generalizing i with
  | nil =>
    rw [hnil]
    rintro e ⟨j, v, hj, -⟩
    simp at hj
  | cons v items ih =>
    obtain ⟨hv, h⟩ := List.forall_mem_cons.mp h
    rw [hcons]
    refine ((hv (path ++ [.index i])).under.bind (fun a => (ih h (i + 1)).map (a :: ·)) ?_).congr ?_
    · rintro e g he ⟨j, w, -, hg⟩
      exact precedes_of_before (.index (by omega)) he hg
    · intro e
      constructor
      · rintro (he | ⟨j, w, hj, he⟩)
        · exact ⟨0, v, rfl, he⟩
        · exact ⟨j + 1, w, hj, by rwa [Nat.add_right_comm] at he⟩
      · rintro ⟨j, w, hj, he⟩
        cases j with
        | zero =>
          obtain rfl : v = w := Option.some.inj hj
          exact .inl he
        | succ j => exact .inr ⟨j, w, hj, by rwa [Nat.add_right_comm]⟩

theorem tells_mergeMembers {members : Json.Members} (hs : Dict.Sorted members)
    (h : ∀ m ∈ members, ∀ path, Tells path (Offends .schema m.2) (mergeValue path m.2))
    (path : Json.Path) : Tells path (OffendsInMembers members) (mergeMembers path members) := by
  induction members with
  | nil =>
    rw [mergeMembers]
    rintro e ⟨key, v, hm, -⟩
    simp at hm
  | cons m members ih =>
    obtain ⟨key, v⟩ := m
    obtain ⟨hlt, hs⟩ := List.pairwise_cons.mp hs
    obtain ⟨hv, h⟩ := List.forall_mem_cons.mp h
    have hiff : ∀ e, OffendsInMembers ((key, v) :: members) e ↔
        (key ≠ allOfKey ∧ Under (.key key) (Offends .schema v) e) ∨ OffendsInMembers members e := by
      intro e
      simp only [OffendsInMembers, List.mem_cons, Prod.mk.injEq]
      constructor
      · rintro ⟨k, w, ⟨rfl, rfl⟩ | hm, hk, he⟩
        · exact .inl ⟨hk, he⟩
        · exact .inr ⟨k, w, hm, hk, he⟩
      · rintro (⟨hk, he⟩ | ⟨k, w, hm, hk, he⟩)
        · exact ⟨key, v, .inl ⟨rfl, rfl⟩, hk, he⟩
        · exact ⟨k, w, .inr hm, hk, he⟩
    unfold mergeMembers
    split
    · next hk => exact (ih hs h).congr fun e => by rw [hiff]; simp [hk]
    · next hk =>
      refine ((hv (path ++ [.key key])).under.bind
        (fun a => (ih hs h).map ((key, a) :: ·)) ?_).congr ?_
      · rintro e g he ⟨k, w, hm, hk', hg⟩
        exact precedes_of_before (.key hk hk' (hlt k (Dict.mem_keys_of_mem hm))) he hg
      · intro e
        rw [hiff]
        simp [hk]

/-! Each role with what merges a value that is in it -/

def mergeEntry (path : Json.Path) : Json → Except Error Json.Members
  | .obj members => mergeObject path members
  | v => .error ⟨path, .invalidComposition ("entry is not an object: " ++ v.compact)⟩

def mergeComposition (path : Json.Path) : Json → Except Error (List Json.Members)
  | .arr entries => mergeEntries path 0 entries
  | _ => .error ⟨path, .invalidComposition "expected an array of schemas"⟩

theorem mergeEntries_cons (path : Json.Path) (i : Nat) (entry : Json) (entries : List Json) :
    mergeEntries path i (entry :: entries) =
      (mergeEntry (path ++ [.index i]) entry).bind fun out =>
        (mergeEntries path (i + 1) entries).map (out :: ·) := by
  cases entry with
  | obj members => exact mergeEntries_cons_obj path i members entries
  | null | bool | num | str | arr => rfl

theorem mergeItems_cons (path : Json.Path) (i : Nat) (item : Json) (items : List Json) :
    mergeItems path i (item :: items) =
      (mergeValue (path ++ [.index i]) item).bind fun out =>
        (mergeItems path (i + 1) items).map (out :: ·) := by
  rw [mergeItems]
  rfl

/-- Merging a value, in whatever role, tells its offences. -/
structure MergingTells (v : Json) : Prop where
  schema : ∀ path, Tells path (Offends .schema v) (mergeValue path v)
  composition : ∀ path, Tells path (Offends .composition v) (mergeComposition path v)
  entry : ∀ path, Tells path (Offends .entry v) (mergeEntry path v)

theorem tells_mergeCompositions {members : Json.Members} (h : ∀ m ∈ members, MergingTells m.2)
    (path : Json.Path) :
    Tells path (OffendsInComposition members) (mergeCompositions path members) := by
  have heq : mergeCompositions path members =
      match Dict.get? members allOfKey with
      | none => .ok []
      | some v => mergeComposition (path ++ [.key allOfKey]) v := by
    rw [mergeCompositions_eq]
    rcases Dict.get? members allOfKey with _ | (_ | _ | _ | _ | _ | _) <;> rfl
  rw [heq]
  split
  · next hn =>
    rintro e ⟨v, hm, -⟩
    cases hn.symm.trans hm
  · next v hm =>
    refine ((h _ (Dict.mem_of_get? hm)).composition _).under.congr fun e => ?_
    simp [OffendsInComposition, hm]

/-- An object tells its own offence, then those of its members, then those of its composition. -/
theorem tells_mergeObject {members : Json.Members} (hs : Dict.Sorted members)
    (h : ∀ m ∈ members, MergingTells m.2) {role : Role} (hh : role ≠ .composition)
    (path : Json.Path) : Tells path (Offends role (.obj members)) (mergeObject path members) := by
  have hcomposition := tells_mergeCompositions h path
  have hmembers := tells_mergeMembers hs (fun m hm => (h m hm).schema) path
  refine ((tells_checkResolved hh path members).bind (fun _ => hmembers.bind
    (fun own => hcomposition.map fun entries => entries.foldl absorb own) ?_) ?_).congr
      fun e => (offends_obj_iff hh hs).symm
  · rintro e g ⟨key, v, -, hk, he⟩ ⟨w, -, hg⟩
    exact precedes_of_before (.composition hk) he hg
  · rintro e g he (⟨key, v, -, -, hg⟩ | ⟨w, -, hg⟩)
    · exact precedes_of_itself he hg
    · exact precedes_of_itself he hg

theorem mergingTells {v : Json} (hv : v.Ordered) : MergingTells v := by
  -- neither an array nor an object
  have hscalar : ∀ {v : Json}, (∀ path, mergeValue path v = .ok v) → (∀ items, v ≠ .arr items) →
      (∀ members, v ≠ .obj members) → MergingTells v := by
    intro v hm ha ho
    refine ⟨fun path => ?_, fun path => ?_, fun path => ?_⟩
    · rw [hm]
      exact fun e => offends_scalar ha ho
    · unfold mergeComposition
      split
      · exact (ha _ rfl).elim
      · exact tells_one fun e => offends_noArray_iff ha
    · unfold mergeEntry
      split
      · exact (ho _ rfl).elim
      · exact tells_one fun e => offends_noObject_iff ho
  induction hv with
  | null | bool | num | str =>
    exact hscalar (fun path => by rw [mergeValue]; all_goals simp) (by simp) (by simp)
  | @arr items _ ih =>
    refine ⟨fun path => ?_, fun path => ?_,
      fun path => tells_one fun e => offends_noObject_iff (by simp)⟩
    · rw [mergeValue]
      refine ((tells_elements (by simp [mergeItems]) (mergeItems_cons path)
        (fun v hv => (ih v hv).schema) 0).map Json.arr).congr fun e => ?_
      simp only [Nat.zero_add, offends_items_iff]
    · refine (tells_elements (by simp [mergeEntries]) (mergeEntries_cons path)
        (fun v hv => (ih v hv).entry) 0).congr fun e => ?_
      simp only [Nat.zero_add, offends_entries_iff]
  | @obj members hs _ ih =>
    refine ⟨fun path => ?_, fun path => tells_one fun e => offends_noArray_iff (by simp),
      fun path => ?_⟩
    · rw [mergeValue_obj]
      exact (tells_mergeObject hs ih (by decide) path).map Json.obj
    · exact tells_mergeObject hs ih (by decide) path

/-- Merging fails exactly where in the order of the traversal something is wrong for the first time.
The path of the error leads there from the schema, and what is reported is what is wrong. -/
theorem merge_fails_at_first_offence {schema : Json} (hs : schema.Ordered) (e : Error) :
    merge schema = .error e ↔ FirstOffence schema e := by
  have htells := (mergingTells hs).schema []
  -- the order is asymmetric, so that there is no more than one first offence
  constructor
  · intro h
    rw [show mergeValue [] schema = .error e from h] at htells
    obtain ⟨f, ⟨⟨role, v, hv, hw⟩, hfirst⟩, rfl⟩ := htells
    refine ⟨⟨role, v, hv, hv.at?, hw⟩, fun {path role v} hv hlt fault hw => ?_⟩
    rcases hfirst ⟨path, fault⟩ ⟨role, v, hv, hw⟩ with he | hlt'
    · subst he
      exact asymm hlt hlt
    · exact asymm hlt hlt'
  · rintro ⟨⟨role, v, hv, -, hw⟩, hearlier⟩
    cases hm : merge schema with
    | ok result =>
      rw [show mergeValue [] schema = .ok result from hm] at htells
      exact (htells e ⟨role, v, hv, hw⟩).elim
    | error e' =>
      rw [show mergeValue [] schema = .error e' from hm] at htells
      obtain ⟨f, ⟨⟨role', v', hv', hw'⟩, hfirst⟩, rfl⟩ := htells
      rcases hfirst e ⟨role, v, hv, hw⟩ with he | hlt
      · subst he
        rfl
      · exact (hearlier hv' hlt _ hw').elim

/-- The composition comes last though its key is the first one, and an element of an array before
the composition of the object that holds the array. -/
theorem merge_fails_at_first_offence_inside_members :
    let schema := Json.obj [
      ("allOf", .null),
      ("properties", .obj [("size", .arr [.null, .obj [
        ("allOf", .arr [.obj [("title", .str "size")], .num (.int 5), .obj [("$ref", .null)]])]])]),
      ("title", .obj [("$ref", .str "#/components/schemas/Title")])]
    let e : Error := ⟨[.key "properties", .key "size", .index 1, .key "allOf", .index 1],
      .invalidComposition "entry is not an object: 5"⟩
    schema.Ordered ∧ merge schema = .error e ∧ FirstOffence schema e := by
  intro schema e
  have hs : schema.Ordered := by decide +zetaReduce
  have hm : merge schema = .error e := by cbv
  exact ⟨hs, hm, (merge_fails_at_first_offence hs e).mp hm⟩

end RpcContract.Schema
