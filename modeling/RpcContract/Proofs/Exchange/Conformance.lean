import RpcContract.Exchange.Check
import RpcContract.Proofs.Outcome

/-! What an exchange is like that passes. The values are judged position by position, and the first
position at fault decides; the result is judged where none is. -/

namespace RpcContract

/-- The schema can be used, and the value does not violate it. -/
def Validation.Admits (schema value : Json) : Prop :=
  ∃ document, compile (withDraft schema) = .ok document ∧ violations document value = []

/-- How a value fails its schema. -/
inductive Refuses (target fixture : String) (schema value : Json) : Error → Prop where
  | unusable {reason : String}
      (h : Validation.compile (Validation.withDraft schema) = .error reason) :
      Refuses target fixture schema value (.schemaCompile target reason)
  | violated {document : Validation.Document}
      (h : Validation.compile (Validation.withDraft schema) = .ok document)
      (hv : Validation.violations document value ≠ []) :
      Refuses target fixture schema value (.validationFailed target fixture schema value
        ((Validation.violations document value).map (·.text)))

section

variable {target fixture : String} {schema value : Json} {e : Error}

theorem checkValue_eq_ok_iff :
    checkValue target fixture schema value = .ok () ↔ Validation.Admits schema value := by
  rw [checkValue, Validation.Admits]
  cases Validation.compile (Validation.withDraft schema) with
  | error reason => simp
  | ok document => cases hv : Validation.violations document value <;> simp [hv]

theorem checkValue_eq_error_iff :
    checkValue target fixture schema value = .error e ↔ Refuses target fixture schema value e := by
  rw [checkValue]
  constructor
  · intro h
    cases hc : Validation.compile (Validation.withDraft schema) with
    | error reason =>
      simp only [hc, Except.error.injEq] at h
      exact h ▸ .unusable hc
    | ok document =>
      cases hv : Validation.violations document value with
      | nil => simp [hc, hv] at h
      | cons v vs =>
        simp only [hc, hv, Except.error.injEq] at h
        have hne : Validation.violations document value ≠ [] := by simp [hv]
        have hr : Refuses target fixture schema value _ := .violated hc hne
        rw [hv] at hr
        exact h ▸ hr
  · intro h
    cases h with
    | unusable hc => simp only [hc]
    | @violated document hc hv =>
      cases hvs : Validation.violations document value with
      | nil => exact absurd hvs hv
      | cons v vs => simp only [hc, hvs]

end

namespace Exchange

/-- How a position fails: its value is refused, or it has none and the parameter is required. -/
inductive Offends (method : Method) (x : Exchange) (i : Nat) : Error → Prop where
  | refused {param : Descriptor} {value : Json} {e : Error} (hp : method.params[i]? = some param)
      (hv : x.params[i]? = some value)
      (h : Refuses (method.name ++ ".param[" ++ toString i ++ "]") x.fixture param.schema value e) :
      Offends method x i e
  | missing {param : Descriptor} (hp : method.params[i]? = some param)
      (hv : x.params.length ≤ i) (hr : param.required = true) :
      Offends method x i (.missingParameter method.name x.fixture i param.name)

/-- The values are no more than the parameters, each is admitted, no parameter without a value is
required, and if there is a result it is admitted. -/
structure Conforms (method : Method) (x : Exchange) : Prop where
  count : x.params.length ≤ method.params.length
  supplied : ∀ (i : Nat) param value, method.params[i]? = some param →
    x.params[i]? = some value → Validation.Admits param.schema value
  optional : ∀ (i : Nat) param, method.params[i]? = some param → x.params.length ≤ i →
    param.required = false
  result : ∀ value, x.response = .result value → Validation.Admits method.result.schema value

/-- How an exchange fails. The number of values comes first, then the least position that offends,
and the result last. -/
inductive FailsWith (method : Method) (x : Exchange) : Error → Prop where
  | tooMany (h : method.params.length < x.params.length) : FailsWith method x
      (.tooManyParameters method.name x.fixture method.params.length x.params.length)
  | position {i : Nat} {e : Error} (h : x.params.length ≤ method.params.length)
      (hi : Offends method x i e) (hfirst : ∀ j < i, ∀ e', ¬ Offends method x j e') :
      FailsWith method x e
  | result {value : Json} {e : Error} (h : x.params.length ≤ method.params.length)
      (hnone : ∀ i e', ¬ Offends method x i e') (hv : x.response = .result value)
      (hr : Refuses (method.name ++ ".result") x.fixture method.result.schema value e) :
      FailsWith method x e

/-- Methods that differ only in what the exchange gives no value for: the schemas of parameters
past its own, and the result if it is answered by an error. -/
structure Alike (x : Exchange) (m m' : Method) : Prop where
  name : m'.name = m.name
  supplied : m'.params.take x.params.length = m.params.take x.params.length
  slots : m'.params.map (fun p => (p.name, p.required)) = m.params.map fun p => (p.name, p.required)
  result : ∀ value, x.response = .result value → m'.result.schema = m.result.schema

/-! One position -/

/-- The check of a position, with a value or without one. -/
def checkPosition (method fixture : String) (i : Nat) (param : Descriptor) :
    Option Json → Except Error Unit
  | some value => checkValue (method ++ ".param[" ++ toString i ++ "]") fixture param.schema value
  | none =>
    if param.required then .error (.missingParameter method fixture i param.name) else .ok ()

theorem checkParams_cons (method fixture : String) (i : Nat) (param : Descriptor)
    (params : List Descriptor) (values : List Json) :
    checkParams method fixture i (param :: params) values =
      (checkPosition method fixture i param values[0]?).bind fun _ =>
        checkParams method fixture (i + 1) params values.tail := by
  cases values with
  | nil => cases hr : param.required <;> simp [checkParams, checkPosition, hr, Except.bind]
  | cons value values => rfl

variable {method : Method} {x : Exchange} {i : Nat} {e : Error}

theorem offends_iff : Offends method x i e ↔ ∃ param, method.params[i]? = some param ∧
    checkPosition method.name x.fixture i param x.params[i]? = .error e := by
  constructor
  · intro h
    cases h with
    | refused hp hv h =>
      refine ⟨_, hp, ?_⟩
      rw [hv]
      exact checkValue_eq_error_iff.mpr h
    | missing hp hv hr =>
      refine ⟨_, hp, ?_⟩
      rw [List.getElem?_eq_none hv, checkPosition, if_pos hr]
  · rintro ⟨param, hp, h⟩
    cases hv : x.params[i]? with
    | some value =>
      rw [hv] at h
      exact .refused hp hv (checkValue_eq_error_iff.mp h)
    | none =>
      rw [hv, checkPosition] at h
      split at h
      · next hr =>
        obtain rfl := Except.error.inj h
        exact .missing hp (List.getElem?_eq_none_iff.mp hv) hr
      · cases h

/-! All positions -/

theorem checkParams_eq_ok_iff {method fixture : String} {i : Nat} {params : List Descriptor}
    {values : List Json} :
    checkParams method fixture i params values = .ok () ↔ ∀ j param, params[j]? = some param →
      checkPosition method fixture (i + j) param values[j]? = .ok () := by
  induction params generalizing i values with
  | nil => simp [checkParams]
  | cons param params ih =>
    rw [checkParams_cons, Except.bind_eq_ok_iff]
    simp only [ih, List.getElem?_tail]
    constructor
    · rintro ⟨⟨⟩, hhead, htail⟩ j p hp
      cases j with
      | zero =>
        obtain rfl : param = p := by simpa using hp
        exact hhead
      | succ j =>
        have h := htail j p (by simpa using hp)
        rwa [Nat.add_right_comm] at h
    · intro h
      refine ⟨(), h 0 param (by simp), fun j p hp => ?_⟩
      have hj := h (j + 1) p (by simpa using hp)
      rwa [← Nat.add_assoc, Nat.add_right_comm] at hj

/-- The first position at fault decides. -/
theorem checkParams_eq_error_iff {method fixture : String} {i : Nat} {params : List Descriptor}
    {values : List Json} {e : Error} :
    checkParams method fixture i params values = .error e ↔ ∃ j param, params[j]? = some param ∧
      checkPosition method fixture (i + j) param values[j]? = .error e ∧
      checkParams method fixture i (params.take j) values = .ok () := by
  induction params generalizing i values with
  | nil => simp [checkParams]
  | cons param params ih =>
    rw [checkParams_cons, Except.bind_eq_error_iff, ih]
    constructor
    · rintro (h | ⟨⟨⟩, hhead, j, p, hp, he, hbefore⟩)
      · exact ⟨0, param, rfl, h, rfl⟩
      · refine ⟨j + 1, p, by simpa using hp, ?_, ?_⟩
        · rwa [List.getElem?_tail, Nat.add_assoc, Nat.add_comm 1] at he
        · rw [List.take_succ_cons, checkParams_cons, hhead]
          exact hbefore
    · rintro ⟨j, p, hp, he, hbefore⟩
      cases j with
      | zero =>
        obtain rfl : param = p := by simpa using hp
        exact .inl he
      | succ j =>
        rw [List.take_succ_cons, checkParams_cons, Except.bind_eq_ok_iff] at hbefore
        obtain ⟨⟨⟩, hhead, hbefore⟩ := hbefore
        refine .inr ⟨(), hhead, j, p, by simpa using hp, ?_, hbefore⟩
        rwa [List.getElem?_tail, Nat.add_assoc, Nat.add_comm 1]

/-- A position that does not offend passes. -/
theorem checkPosition_eq_ok_iff {param : Descriptor} (hp : method.params[i]? = some param) :
    checkPosition method.name x.fixture i param x.params[i]? = .ok () ↔
      ∀ e, ¬ Offends method x i e := by
  simp only [offends_iff, hp, Option.some.injEq, exists_eq_left']
  cases checkPosition method.name x.fixture i param x.params[i]? <;> simp

theorem positions_eq_ok_iff :
    checkParams method.name x.fixture 0 method.params x.params = .ok () ↔
      ∀ i e, ¬ Offends method x i e := by
  simp only [checkParams_eq_ok_iff, Nat.zero_add]
  constructor
  · intro h i e ho
    obtain ⟨param, hp, -⟩ := offends_iff.mp ho
    exact (checkPosition_eq_ok_iff hp).mp (h i param hp) e ho
  · exact fun h i param hp => (checkPosition_eq_ok_iff hp).mpr (h i)

theorem positions_eq_error_iff :
    checkParams method.name x.fixture 0 method.params x.params = .error e ↔
      ∃ i, Offends method x i e ∧ ∀ j < i, ∀ e', ¬ Offends method x j e' := by
  simp only [checkParams_eq_error_iff, checkParams_eq_ok_iff, Nat.zero_add, List.getElem?_take]
  constructor
  · rintro ⟨i, param, hp, he, hbefore⟩
    refine ⟨i, offends_iff.mpr ⟨param, hp, he⟩, fun j hj e' ho => ?_⟩
    obtain ⟨p, hpj, -⟩ := offends_iff.mp ho
    exact (checkPosition_eq_ok_iff hpj).mp (hbefore j p (by rwa [if_pos hj])) e' ho
  · rintro ⟨i, ho, hfirst⟩
    obtain ⟨param, hp, he⟩ := offends_iff.mp ho
    refine ⟨i, param, hp, he, fun j p hpj => ?_⟩
    split at hpj
    · next hj => exact (checkPosition_eq_ok_iff hpj).mpr (hfirst j hj)
    · cases hpj

/-- No position offends exactly if all supplied values are admitted and the rest is optional. -/
theorem not_offends_iff : (∀ i e, ¬ Offends method x i e) ↔
    (∀ (i : Nat) param value, method.params[i]? = some param → x.params[i]? = some value →
      Validation.Admits param.schema value) ∧
    ∀ (i : Nat) param, method.params[i]? = some param → x.params.length ≤ i →
      param.required = false := by
  rw [← positions_eq_ok_iff, checkParams_eq_ok_iff]
  simp only [Nat.zero_add]
  constructor
  · intro h
    refine ⟨fun i param value hp hv => ?_, fun i param hp hv => ?_⟩
    · have hi := h i param hp
      rw [hv] at hi
      exact checkValue_eq_ok_iff.mp hi
    · have hi := h i param hp
      rw [List.getElem?_eq_none hv] at hi
      cases hr : param.required with
      | false => rfl
      | true => simp [checkPosition, hr] at hi
  · rintro ⟨hsupplied, hoptional⟩ i param hp
    cases hv : x.params[i]? with
    | some value => exact checkValue_eq_ok_iff.mpr (hsupplied i param value hp hv)
    | none =>
      have hr := hoptional i param hp (List.getElem?_eq_none_iff.mp hv)
      simp [checkPosition, hr]

/-! The whole exchange -/

theorem check_of_tooMany (h : method.params.length < x.params.length) :
    x.check method = .error
      (.tooManyParameters method.name x.fixture method.params.length x.params.length) := by
  rw [check, if_pos h]

theorem check_of_le (h : x.params.length ≤ method.params.length) :
    x.check method =
      (checkParams method.name x.fixture 0 method.params x.params).bind fun _ =>
        match x.result? with
        | some value =>
          checkValue (method.name ++ ".result") x.fixture method.result.schema value
        | none => .ok () := by
  rw [check, if_neg (Nat.not_lt.mpr h)]
  rfl

theorem result?_eq_some_iff {value : Json} :
    x.result? = some value ↔ x.response = .result value := by
  rw [result?]
  cases x.response <;> simp

theorem checkParams_congr {method fixture : String} {i : Nat} {params params' : List Descriptor}
    {values : List Json} (hsupplied : params'.take values.length = params.take values.length)
    (hslots : params'.map (fun p => (p.name, p.required)) =
      params.map fun p => (p.name, p.required)) :
    checkParams method fixture i params' values = checkParams method fixture i params values := by
  induction params generalizing params' values i with
  | nil => rw [List.map_eq_nil_iff.mp hslots]
  | cons param params ih =>
    obtain ⟨param', params', rfl, hslot, hslots⟩ := List.map_eq_cons_iff.mp hslots
    obtain ⟨hname, hrequired⟩ := Prod.mk.inj hslot
    have hhead : checkPosition method fixture i param' values[0]? =
        checkPosition method fixture i param values[0]? := by
      cases values with
      | nil => simp [checkPosition, hname, hrequired]
      | cons value values => rw [(List.cons.inj hsupplied).1]
    have htail : params'.take values.tail.length = params.take values.tail.length := by
      cases values with
      | nil => rfl
      | cons value values => exact (List.cons.inj hsupplied).2
    rw [checkParams_cons, checkParams_cons, hhead, ih htail hslots]

theorem Alike.check_eq {m m' : Method} (h : Alike x m m') : x.check m' = x.check m := by
  have hlength : m'.params.length = m.params.length := by
    have hslots := congrArg List.length h.slots
    rwa [List.length_map, List.length_map] at hslots
  by_cases hle : x.params.length ≤ m.params.length
  · rw [check_of_le hle, check_of_le (hlength ▸ hle), h.name, checkParams_congr h.supplied h.slots]
    congr 1
    funext _
    split
    · next value hv => rw [h.result value (result?_eq_some_iff.mp hv)]
    · rfl
  · have hlt : m.params.length < x.params.length := by omega
    rw [check_of_tooMany hlt, check_of_tooMany (hlength ▸ hlt), h.name, hlength]

theorem check_eq_ok_iff : x.check method = .ok () ↔ Conforms method x := by
  by_cases hle : x.params.length ≤ method.params.length
  · rw [check_of_le hle, Except.bind_eq_ok_iff]
    constructor
    · rintro ⟨⟨⟩, hpositions, hresult⟩
      obtain ⟨hsupplied, hoptional⟩ := not_offends_iff.mp (positions_eq_ok_iff.mp hpositions)
      refine ⟨hle, hsupplied, hoptional, fun value hv => ?_⟩
      rw [result?_eq_some_iff.mpr hv] at hresult
      exact checkValue_eq_ok_iff.mp hresult
    · intro h
      have hnone := not_offends_iff.mpr ⟨h.supplied, h.optional⟩
      refine ⟨(), positions_eq_ok_iff.mpr hnone, ?_⟩
      cases hv : x.result? with
      | none => rfl
      | some value => exact checkValue_eq_ok_iff.mpr (h.result value (result?_eq_some_iff.mp hv))
  · rw [check_of_tooMany (Nat.lt_of_not_le hle)]
    exact ⟨nofun, fun h => absurd h.count hle⟩

theorem check_eq_error_iff : x.check method = .error e ↔ FailsWith method x e := by
  by_cases hle : x.params.length ≤ method.params.length
  · rw [check_of_le hle, Except.bind_eq_error_iff, positions_eq_error_iff]
    constructor
    · rintro (⟨i, hi, hfirst⟩ | ⟨⟨⟩, hpositions, hresult⟩)
      · exact .position hle hi hfirst
      · cases hv : x.result? with
        | none => simp [hv] at hresult
        | some value =>
          rw [hv] at hresult
          exact .result hle (positions_eq_ok_iff.mp hpositions) (result?_eq_some_iff.mp hv)
            (checkValue_eq_error_iff.mp hresult)
    · intro h
      cases h with
      | tooMany hlt => omega
      | position _ hi hfirst => exact .inl ⟨_, hi, hfirst⟩
      | result _ hnone hv hr =>
        refine .inr ⟨(), positions_eq_ok_iff.mpr hnone, ?_⟩
        rw [result?_eq_some_iff.mpr hv]
        exact checkValue_eq_error_iff.mpr hr
  · have hlt : method.params.length < x.params.length := by omega
    rw [check_of_tooMany hlt]
    constructor
    · intro h
      exact Except.error.inj h ▸ .tooMany hlt
    · intro h
      cases h with
      | tooMany => rfl
      | position h | result h => omega

/-- An exchange passes exactly if it conforms to its method, and otherwise the first thing that is
wrong with it is told. A schema for which it has no value makes no difference, usable or not. -/
theorem check_conforms (method : Method) (x : Exchange) :
    (x.check method = .ok () ↔ Conforms method x) ∧
      (∀ e, x.check method = .error e ↔ FailsWith method x e) ∧
      ∀ method', Alike x method method' → x.check method' = x.check method :=
  ⟨check_eq_ok_iff, fun _ => check_eq_error_iff, fun _ => Alike.check_eq⟩

/-- A schema that cannot be used counts as soon as there is a value for it. -/
example :
    let unusable := Json.obj [("type", .bool true)]
    let empty := Json.obj [("type", .str "null")]
    let method : Method := ⟨"m", [⟨"p", false, unusable⟩], ⟨"r", false, empty⟩⟩
    let x := fun params : List Json => (⟨"m", "f", params, .result .null⟩ : Exchange)
    ((x []).check method).isOk = true ∧ ((x [.null]).check method).isOk = false := by
  decide +kernel

end Exchange

end RpcContract
