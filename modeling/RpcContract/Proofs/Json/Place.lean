import RpcContract.Json.Path
import RpcContract.Proofs.Json.Tree
import RpcContract.Proofs.Outcome

/-! Places in a value. A path is followed literally: a key leads to the member of an object and an
index to the element of an array. What stands at its end can be put anew, which leaves alone
whatever neither holds the place nor stands below it. -/

namespace RpcContract.Json

def step? : Json → Step → Option Json
  | .obj members, .key name => Dict.get? members name
  | .arr items, .index i => items[i]?
  | _, _ => none

/-- What a path leads to. -/
def at? : Json → Path → Option Json
  | v, [] => some v
  | v, step :: path => (v.step? step).bind (at? · path)

/-- A value with something else one step below it. -/
def putStep : Json → Step → Json → Json
  | .obj members, .key name, w => .obj (Dict.insert members name w)
  | .arr items, .index i, w => .arr (items.set i w)
  | v, _, _ => v

/-- A value with something else at a place, or the value itself where there is no such place. -/
def put : Json → Path → Json → Json
  | _, [], w => w
  | v, step :: path, w =>
    match v.step? step with
    | some u => v.putStep step (u.put path w)
    | none => v

/-- A value with several places put anew, one after the other. -/
def putAll (v : Json) (changes : List (Path × Json)) : Json :=
  changes.foldl (fun v change => v.put change.1 change.2) v

variable {v u w : Json} {step : Step} {path : Path}

theorem at?_cons_eq_some :
    v.at? (step :: path) = some w ↔ ∃ u, v.step? step = some u ∧ u.at? path = some w := by
  rw [at?, Option.bind_eq_some_iff]

theorem at?_cons (hu : v.step? step = some u) (path : Path) :
    v.at? (step :: path) = u.at? path := by
  rw [at?, hu, Option.bind_some]

theorem put_cons (hu : v.step? step = some u) (path : Path) (w : Json) :
    v.put (step :: path) w = v.putStep step (u.put path w) := by
  rw [put, hu]

/-! One step -/

theorem step?_putStep_self (hu : v.step? step = some u) (w : Json) :
    (v.putStep step w).step? step = some w := by
  unfold step? at hu
  split at hu
  · exact Dict.get?_insert_self _ _ _
  · next items i =>
    obtain ⟨hi, -⟩ := List.getElem?_eq_some_iff.mp hu
    exact List.getElem?_set_self hi
  · cases hu

theorem step?_putStep_of_ne {other : Step} (hne : step ≠ other) (w : Json) :
    (v.putStep step w).step? other = v.step? other := by
  cases v with
  | obj members =>
    cases step with
    | key name =>
      cases other with
      | key other =>
        have hname : name ≠ other := fun h => hne (congrArg _ h)
        rw [putStep, step?, Dict.get?_insert, if_neg hname, step?]
      | index => rfl
    | index => rfl
  | arr items =>
    cases step with
    | key => rfl
    | index i =>
      cases other with
      | key => rfl
      | index j =>
        have hi : i ≠ j := fun h => hne (congrArg _ h)
        exact List.getElem?_set_ne hi
  | null | bool | num | str => rfl

theorem Every.child {P : Members → Prop} (hv : Every P v) (hu : v.step? step = some u) :
    Every P u := by
  unfold step? at hu
  split at hu
  · exact hv.get? hu
  · exact every_arr.mp hv u (List.mem_of_getElem? hu)
  · cases hu

theorem ordered_putStep (hv : v.Ordered) (step : Step) (hw : w.Ordered) :
    (v.putStep step w).Ordered := by
  unfold putStep
  split
  · exact ordered_insert hv _ hw
  · refine every_arr.mpr fun x hx => ?_
    rcases List.mem_or_eq_of_mem_set hx with hx | rfl
    · exact every_arr.mp hv x hx
    · exact hw
  · exact hv

/-! One place -/

theorem Every.at? {P : Members → Prop} (hv : Every P v) (h : v.at? path = some w) : Every P w := by
  induction path generalizing v with
  | nil => exact Option.some.inj h ▸ hv
  | cons step path ih =>
    obtain ⟨u, hu, h⟩ := at?_cons_eq_some.mp h
    exact ih (hv.child hu) h

theorem ordered_put (hv : v.Ordered) (path : Path) (hw : w.Ordered) : (v.put path w).Ordered := by
  induction path generalizing v with
  | nil => exact hw
  | cons step path ih =>
    unfold put
    split
    · next u hu => exact ordered_putStep hv step (ih (hv.child hu))
    · exact hv

theorem at?_put_self (h : (v.at? path).isSome) : (v.put path w).at? path = some w := by
  induction path generalizing v with
  | nil => rfl
  | cons step path ih =>
    obtain ⟨x, hx⟩ := Option.isSome_iff_exists.mp h
    obtain ⟨u, hu, hux⟩ := at?_cons_eq_some.mp hx
    rw [put_cons hu, at?_cons (step?_putStep_self hu _)]
    exact ih (Option.isSome_iff_exists.mpr ⟨x, hux⟩)

/-- Neither of two places stands at or below the other. -/
def Apart (p q : Path) : Prop := ¬ p <+: q ∧ ¬ q <+: p

theorem Apart.symm {p q : Path} (h : Apart p q) : Apart q p := ⟨h.2, h.1⟩

theorem Apart.ne {p q : Path} (h : Apart p q) : p ≠ q := fun he => h.1 (he ▸ List.prefix_rfl)

theorem apart_cons_iff {s t : Step} {p q : Path} :
    Apart (s :: p) (t :: q) ↔ s = t → Apart p q := by
  simp only [Apart, List.cons_prefix_cons]
  by_cases hst : s = t
  · simp [hst]
  · simp [hst, Ne.symm hst]

theorem at?_put_of_apart {q : Path} (h : Apart path q) : (v.put path w).at? q = v.at? q := by
  induction path generalizing v q with
  | nil => exact (h.1 (List.nil_prefix)).elim
  | cons step path ih =>
    cases q with
    | nil => exact (h.2 (List.nil_prefix)).elim
    | cons other q =>
      unfold put
      split
      · next u hu =>
        by_cases hs : step = other
        · subst hs
          rw [at?_cons (step?_putStep_self hu _), at?_cons hu]
          exact ih (apart_cons_iff.mp h rfl)
        · rw [at?, step?_putStep_of_ne hs, at?]
      · rfl

/-- Putting adds and removes nothing but at the place and below it. -/
theorem isSome_at?_put {q : Path} (h : ¬ path <+: q) :
    ((v.put path w).at? q).isSome = (v.at? q).isSome := by
  induction path generalizing v q with
  | nil => exact (h List.nil_prefix).elim
  | cons step path ih =>
    cases q with
    | nil => rfl
    | cons other q =>
      unfold put
      split
      · next u hu =>
        by_cases hs : step = other
        · subst hs
          rw [at?_cons (step?_putStep_self hu _), at?_cons hu]
          exact ih fun hq => h (List.cons_prefix_cons.mpr ⟨rfl, hq⟩)
        · rw [at?, step?_putStep_of_ne hs, at?]
      · rfl

/-! Several places -/

theorem at?_putAll_of_apart {changes : List (Path × Json)} {q : Path}
    (h : ∀ change ∈ changes, Apart change.1 q) : (v.putAll changes).at? q = v.at? q := by
  induction changes generalizing v with
  | nil => rfl
  | cons change changes ih =>
    obtain ⟨hc, h⟩ := List.forall_mem_cons.mp h
    exact (ih h).trans (at?_put_of_apart hc)

theorem isSome_at?_putAll {changes : List (Path × Json)} {q : Path}
    (h : ∀ change ∈ changes, ¬ change.1 <+: q) :
    ((v.putAll changes).at? q).isSome = (v.at? q).isSome := by
  induction changes generalizing v with
  | nil => rfl
  | cons change changes ih =>
    obtain ⟨hc, h⟩ := List.forall_mem_cons.mp h
    exact (ih h).trans (isSome_at?_put hc)

/-- Places that stand apart are put anew each for itself. -/
theorem at?_putAll_of_mem {changes : List (Path × Json)}
    (hapart : changes.Pairwise fun c d => Apart c.1 d.1)
    (hat : ∀ change ∈ changes, (v.at? change.1).isSome) {change : Path × Json}
    (hm : change ∈ changes) : (v.putAll changes).at? change.1 = some change.2 := by
  induction changes generalizing v with
  | nil => cases hm
  | cons c changes ih =>
    obtain ⟨hc, hapart⟩ := List.pairwise_cons.mp hapart
    obtain ⟨hcat, hat⟩ := List.forall_mem_cons.mp hat
    rcases List.mem_cons.mp hm with rfl | hm
    · exact (at?_putAll_of_apart fun d hd => (hc d hd).symm).trans (at?_put_self hcat)
    · refine ih hapart (fun d hd => ?_) hm
      rw [at?_put_of_apart (hc d hd)]
      exact hat d hd

theorem ordered_putAll {changes : List (Path × Json)} (hv : v.Ordered)
    (h : ∀ change ∈ changes, change.2.Ordered) : (v.putAll changes).Ordered :=
  List.foldlRecOn changes _ (motive := Ordered) hv fun _ hv change hc =>
    ordered_put hv change.1 (h change hc)

/-! Changes that may fail -/

variable {ε : Type}

/-- Puts the places of a value anew, one after the other, as long as there is something to put. -/
def carryOut (v : Json) (changes : List (Path × Except ε Json)) : Except ε Json :=
  changes.foldlM (fun v change => change.2.map (v.put change.1)) v

@[simp] theorem carryOut_nil (v : Json) :
    v.carryOut ([] : List (Path × Except ε Json)) = .ok v := rfl

theorem carryOut_cons (v : Json) (change : Path × Except ε Json)
    (changes : List (Path × Except ε Json)) :
    v.carryOut (change :: changes) =
      change.2.bind fun w => (v.put change.1 w).carryOut changes := by
  rw [carryOut, List.foldlM_cons]
  cases change.2 <;> rfl

theorem carryOut_append (v : Json) (changes changes' : List (Path × Except ε Json)) :
    v.carryOut (changes ++ changes') = (v.carryOut changes).bind (·.carryOut changes') :=
  List.foldlM_append

theorem carryOut_eq_ok_iff {changes : List (Path × Except ε Json)} :
    v.carryOut changes = .ok w ↔
      ∃ done, List.Forall₂ (fun change d => d.1 = change.1 ∧ change.2 = .ok d.2) changes done ∧
        w = v.putAll done := by
  induction changes generalizing v with
  | nil => simp [putAll, eq_comm]
  | cons change changes ih =>
    rw [carryOut_cons, Except.bind_eq_ok_iff]
    constructor
    · rintro ⟨x, hx, h⟩
      obtain ⟨done, hdone, rfl⟩ := ih.mp h
      exact ⟨(change.1, x) :: done, .cons ⟨rfl, hx⟩ hdone, rfl⟩
    · rintro ⟨done, hdone, rfl⟩
      cases hdone with
      | @cons _ d _ done hd hdone =>
        obtain ⟨hp, hx⟩ := hd
        exact ⟨d.2, hx, ih.mpr ⟨done, hdone, by rw [← hp]; rfl⟩⟩

/-- The first change that there is nothing to put for is what fails. -/
theorem carryOut_eq_error_iff {changes : List (Path × Except ε Json)} {e : ε} :
    v.carryOut changes = .error e ↔
      ∃ before change after, changes = before ++ change :: after ∧
        (∀ c ∈ before, ∃ w, c.2 = .ok w) ∧ change.2 = .error e := by
  induction changes generalizing v with
  | nil => simp
  | cons change changes ih =>
    rw [carryOut_cons, Except.bind_eq_error_iff]
    constructor
    · rintro (h | ⟨w, hw, h⟩)
      · exact ⟨[], change, changes, rfl, by simp, h⟩
      · obtain ⟨before, c, after, rfl, hbefore, hc⟩ := ih.mp h
        exact ⟨change :: before, c, after, rfl, List.forall_mem_cons.mpr ⟨⟨w, hw⟩, hbefore⟩, hc⟩
    · rintro ⟨before, c, after, heq, hbefore, hc⟩
      cases before with
      | nil =>
        obtain ⟨rfl, rfl⟩ := List.cons.inj heq
        exact .inl hc
      | cons b before =>
        obtain ⟨rfl, rfl⟩ := List.cons.inj heq
        obtain ⟨⟨w, hw⟩, hbefore⟩ := List.forall_mem_cons.mp hbefore
        exact .inr ⟨w, hw, ih.mpr ⟨before, c, after, rfl, hbefore, hc⟩⟩

/-! Changes below one step -/

def under (step : Step) (change : Path × Except ε Json) : Path × Except ε Json :=
  (step :: change.1, change.2)

/-- The members of an object are in order; those below may not be. -/
def SortedHere (v : Json) : Prop := ∀ members, v = .obj members → Dict.Sorted members

theorem putStep_self (hv : v.SortedHere) (hu : v.step? step = some u) : v.putStep step u = v := by
  unfold step? at hu
  split at hu
  · next members name =>
    have hs := hv members rfl
    rw [putStep, Json.obj.injEq]
    refine (Dict.sorted_insert hs name u).ext hs fun key => ?_
    rw [Dict.get?_insert]
    split
    · next hk => rw [← hk, hu]
    · rfl
  · next items i =>
    obtain ⟨hi, rfl⟩ := List.getElem?_eq_some_iff.mp hu
    rw [putStep, List.set_getElem_self]
  · cases hu

theorem sortedHere_of_ordered (hv : v.Ordered) : v.SortedHere := by
  rintro members rfl
  exact (every_obj.mp hv).1

theorem sortedHere_putStep (hv : v.SortedHere) (step : Step) (w : Json) :
    (v.putStep step w).SortedHere := by
  cases v with
  | obj members =>
    cases step with
    | key name =>
      intro out hout
      obtain rfl := Json.obj.inj hout
      exact Dict.sorted_insert (hv members rfl) name w
    | index => exact hv
  | arr items => cases step <;> simp [SortedHere, putStep]
  | null | bool | num | str => exact hv

theorem putStep_putStep (hv : v.SortedHere) (u w : Json) :
    (v.putStep step u).putStep step w = v.putStep step w := by
  cases v with
  | obj members =>
    cases step with
    | key name =>
      have hs := hv members rfl
      simp only [putStep, Json.obj.injEq]
      refine (Dict.sorted_insert (Dict.sorted_insert hs _ _) _ _).ext (Dict.sorted_insert hs _ _)
        fun key => ?_
      simp only [Dict.get?_insert]
      split <;> rfl
    | index => rfl
  | arr items =>
    cases step with
    | key => rfl
    | index i => simp [putStep]
  | null | bool | num | str => rfl

theorem carryOut_under (hv : v.SortedHere) (hu : v.step? step = some u)
    (changes : List (Path × Except ε Json)) :
    v.carryOut (changes.map (under step)) = (u.carryOut changes).map (v.putStep step) := by
  -- after a change below the step, the step leads to what was changed
  induction changes generalizing v u with
  | nil =>
    rw [List.map_nil, carryOut_nil, carryOut_nil, Except.map, putStep_self hv hu]
  | cons change changes ih =>
    rw [List.map_cons, carryOut_cons, carryOut_cons]
    cases hc : change.2 with
    | error e => simp [under, hc, Except.bind, Except.map]
    | ok w =>
      simp only [under, hc, Except.bind]
      rw [put_cons hu, ih (sortedHere_putStep hv step _) (step?_putStep_self hu _)]
      exact congrArg (Except.map · _) (funext fun _ => putStep_putStep hv _ _)

/-! Nothing to change -/

theorem put_self (hv : v.Ordered) (h : v.at? path = some w) : v.put path w = v := by
  induction path generalizing v with
  | nil => exact (Option.some.inj h).symm
  | cons step path ih =>
    obtain ⟨u, hu, h⟩ := at?_cons_eq_some.mp h
    rw [put_cons hu, ih (hv.child hu) h, putStep_self (sortedHere_of_ordered hv) hu]

/-- Putting what is there already changes nothing. -/
theorem carryOut_self (hv : v.Ordered) {changes : List (Path × Except ε Json)}
    (h : ∀ change ∈ changes, ∃ w, change.2 = .ok w ∧ v.at? change.1 = some w) :
    v.carryOut changes = .ok v := by
  induction changes with
  | nil => rfl
  | cons change changes ih =>
    obtain ⟨⟨w, hw, hat⟩, h⟩ := List.forall_mem_cons.mp h
    rw [carryOut_cons, hw, Except.bind, put_self hv hat, ih h]

end RpcContract.Json
