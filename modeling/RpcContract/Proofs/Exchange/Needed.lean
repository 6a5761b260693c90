import Mathlib.Data.List.DropRight
import RpcContract.Proofs.Exchange.Conformance

/-! How many values a call must supply. Values belong to parameters by their position, so a call
needs values up to the last required parameter, for the optional ones before it too; only where no
optional parameter stands before a required one is this the number of required parameters. -/

namespace RpcContract

namespace Method

/-- How many values a call needs: all parameters count but the optional ones at the end. -/
def needed (m : Method) : Nat := (m.params.rdropWhile fun p => !p.required).length

variable {m : Method}

/-- A call that supplies what is needed leaves out optional parameters only. -/
theorem needed_le_iff {k : Nat} : m.needed ≤ k ↔ ∀ p ∈ m.params.drop k, p.required = false := by
  unfold needed
  induction m.params using List.reverseRecOn with
  | nil => simp
  | append_singleton params last ih =>
    cases hlast : last.required with
    | true =>
      rw [List.rdropWhile_concat_neg _ _ _ (by simp [hlast]), List.length_append,
        List.length_singleton]
      constructor
      · intro hk p hp
        rw [List.drop_eq_nil_of_le (by simpa using hk)] at hp
        simp at hp
      · intro h
        by_contra hk
        -- the last parameter is among those that get no value
        have hmem : last ∈ (params ++ [last]).drop k := by
          rw [List.drop_append_of_le_length (by omega)]
          simp
        simp [h last hmem] at hlast
    | false =>
      rw [List.rdropWhile_concat_pos _ _ _ (by simp [hlast]), ih, List.drop_append]
      constructor
      · intro h p hp
        rcases List.mem_append.mp hp with hp | hp
        · exact h p hp
        · obtain rfl : p = last := by simpa using List.mem_of_mem_drop hp
          exact hlast
      · exact fun h p hp => h p (List.mem_append_left _ hp)

theorem requiredParams_le_needed (m : Method) : m.requiredParams ≤ m.needed := by
  unfold requiredParams needed
  induction m.params using List.reverseRecOn with
  | nil => simp
  | append_singleton params last ih =>
    cases hlast : last.required with
    | true =>
      rw [List.rdropWhile_concat_neg _ _ _ (by simp [hlast])]
      exact List.countP_le_length
    | false =>
      rw [List.rdropWhile_concat_pos _ _ _ (by simp [hlast]), List.countP_append]
      simpa [hlast] using ih

/-- The count of the required parameters is what is needed where they stand before the others. -/
theorem needed_eq_requiredParams_iff : m.needed = m.requiredParams ↔
    m.params.Pairwise fun p q => q.required = true → p.required = true := by
  unfold needed requiredParams
  induction m.params using List.reverseRecOn with
  | nil => simp
  | append_singleton params last ih =>
    rw [List.pairwise_append]
    cases hlast : last.required with
    | true =>
      rw [List.rdropWhile_concat_neg _ _ _ (by simp [hlast]), eq_comm, List.countP_eq_length]
      constructor
      · intro h
        have hall : ∀ p ∈ params, p.required = true := fun p hp => h p (by simp [hp])
        refine ⟨List.pairwise_of_forall_mem_list fun p hp _ _ _ => hall p hp, by simp, ?_⟩
        exact fun p hp _ _ _ => hall p hp
      · rintro ⟨-, -, h⟩ p hp
        rcases List.mem_append.mp hp with hp | hp
        · exact h p hp last (by simp) hlast
        · obtain rfl : p = last := by simpa using hp
          exact hlast
    | false =>
      rw [List.rdropWhile_concat_pos _ _ _ (by simp [hlast]), List.countP_append]
      simp [hlast, ih]

end Method

namespace Exchange

/-- An exchange is rejected because a required parameter has no value. -/
def MissesParameter (method : Method) (x : Exchange) : Prop :=
  ∃ i name, x.check method = .error (.missingParameter method.name x.fixture i name)

variable {method : Method} {x : Exchange}

theorem not_refuses_of_admits {target fixture : String} {schema value : Json} {e : Error}
    (h : Validation.Admits schema value) : ¬ Refuses target fixture schema value e := by
  intro hr
  have hok : checkValue target fixture schema value = .ok () := checkValue_eq_ok_iff.mpr h
  rw [checkValue_eq_error_iff.mpr hr] at hok
  cases hok

theorem required_of_missesParameter (h : MissesParameter method x) :
    ∃ param ∈ method.params.drop x.params.length, param.required = true := by
  obtain ⟨i, name, he⟩ := h
  cases check_eq_error_iff.mp he with
  | position _ hi _ =>
    cases hi with
    | refused _ _ hr => cases hr
    | missing hp hv hr =>
      refine ⟨_, List.mem_iff_getElem?.mpr ⟨i - x.params.length, ?_⟩, hr⟩
      rw [List.getElem?_drop, Nat.add_sub_cancel' hv, hp]
  | result _ _ _ hr => cases hr

theorem missesParameter_of_required (hcount : x.params.length ≤ method.params.length)
    (hsupplied : ∀ (i : Nat) param value, method.params[i]? = some param →
      x.params[i]? = some value → Validation.Admits param.schema value)
    {param : Descriptor} (hmem : param ∈ method.params.drop x.params.length)
    (hrequired : param.required = true) : MissesParameter method x := by
  obtain ⟨j, hj⟩ := List.mem_iff_getElem?.mp hmem
  rw [List.getElem?_drop] at hj
  have hoffends : Offends method x (x.params.length + j) _ :=
    .missing hj (Nat.le_add_right _ _) hrequired
  cases hcheck : x.check method with
  | ok =>
    have hoptional := (check_eq_ok_iff.mp hcheck).optional _ param hj (Nat.le_add_right _ _)
    simp [hoptional] at hrequired
  | error e =>
    cases check_eq_error_iff.mp hcheck with
    | tooMany hlt => omega
    | position _ hi _ =>
      cases hi with
      | refused hp hv hr => exact absurd hr (not_refuses_of_admits (hsupplied _ _ _ hp hv))
      | missing => exact ⟨_, _, hcheck⟩
    | result _ hnone => exact absurd hoffends (hnone _ _)

/-- Where the values that are supplied are admitted, a parameter is missing exactly if there are
fewer values than the method needs. That is at least the number of its required parameters, and that
number exactly if none of them stands behind an optional one. -/
theorem missesParameter_iff (method : Method) (x : Exchange)
    (hcount : x.params.length ≤ method.params.length)
    (hsupplied : ∀ (i : Nat) param value, method.params[i]? = some param →
      x.params[i]? = some value → Validation.Admits param.schema value) :
    (MissesParameter method x ↔ x.params.length < method.needed) ∧
      method.requiredParams ≤ method.needed ∧
      (method.needed = method.requiredParams ↔
        method.params.Pairwise fun p q => q.required = true → p.required = true) := by
  refine ⟨?_, method.requiredParams_le_needed, Method.needed_eq_requiredParams_iff⟩
  rw [← Nat.not_le, Method.needed_le_iff]
  constructor
  · intro h hoptional
    obtain ⟨param, hmem, hrequired⟩ := required_of_missesParameter h
    simp [hoptional param hmem] at hrequired
  · intro h
    obtain ⟨param, hmem, hrequired⟩ : ∃ param ∈ method.params.drop x.params.length,
        param.required = true := by simpa using h
    exact missesParameter_of_required hcount hsupplied hmem hrequired

/-- A single value is checked against the first parameter only. -/
theorem supplied_of_singleton {value : Json} {first : Descriptor} {rest : List Descriptor}
    (hx : x.params = [value]) (hm : method.params = first :: rest)
    (h : Validation.Admits first.schema value) (i : Nat) (param : Descriptor) (value' : Json)
    (hp : method.params[i]? = some param) (hv : x.params[i]? = some value') :
    Validation.Admits param.schema value' := by
  rw [hm] at hp
  rw [hx] at hv
  cases i with
  | zero =>
    obtain rfl := Option.some.inj hp
    obtain rfl := Option.some.inj hv
    exact h
  | succ i => simp at hv

/-- An optional parameter that has a value, before a required one that has none. -/
theorem missesParameter_iff_behind_optional :
    let any := Json.obj []
    let method : Method := ⟨"m", [⟨"p", false, any⟩, ⟨"q", true, any⟩, ⟨"r", false, any⟩],
      ⟨"result", false, any⟩⟩
    let x : Exchange := ⟨"m", "f", [.null], .result .null⟩
    x.params.length ≤ method.params.length ∧
      (∀ (i : Nat) param value, method.params[i]? = some param → x.params[i]? = some value →
        Validation.Admits param.schema value) ∧
      method.needed = 2 ∧ MissesParameter method x := by
  intro any method x
  have hok : checkValue "m" "f" any .null = .ok () := by decide +kernel
  have hadmits : Validation.Admits any .null := checkValue_eq_ok_iff.mp hok
  have hsupplied : ∀ (i : Nat) param value, method.params[i]? = some param →
      x.params[i]? = some value → Validation.Admits param.schema value :=
    supplied_of_singleton rfl rfl hadmits
  have hneeded : method.needed = 2 := rfl
  obtain ⟨hmisses, -⟩ := missesParameter_iff method x (by decide) hsupplied
  exact ⟨by decide, hsupplied, hneeded, hmisses.mpr (by rw [hneeded]; decide)⟩

/-- Where an optional parameter stands before the one that is required, a call with one value misses
a parameter although it has as many values as there are required parameters. -/
theorem requiredParams_lt_needed :
    let any := Json.obj []
    let method : Method := ⟨"m", [⟨"p", false, any⟩, ⟨"q", true, any⟩], ⟨"result", false, any⟩⟩
    let x : Exchange := ⟨"m", "f", [.null], .result .null⟩
    x.params.length ≤ method.params.length ∧
      (∀ (i : Nat) param value, method.params[i]? = some param → x.params[i]? = some value →
        Validation.Admits param.schema value) ∧
      x.check method = .error (.missingParameter "m" "f" 1 "q") ∧
      ¬ x.params.length < method.requiredParams := by
  intro any method x
  have hok : checkValue "m" "f" any .null = .ok () := by decide +kernel
  have hadmits : Validation.Admits any .null := checkValue_eq_ok_iff.mp hok
  exact ⟨by decide, supplied_of_singleton rfl rfl hadmits, by decide +kernel, by decide⟩

end Exchange

end RpcContract
