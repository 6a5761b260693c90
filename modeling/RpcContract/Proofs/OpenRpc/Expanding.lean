import RpcContract.OpenRpc.Assembly
import RpcContract.Proofs.Schema.Resolved

/-! What an expanded document holds in place of what. Expanding changes the schemas of parameters,
results and components and the data of errors, each in its place, and leaves everything else. -/

namespace RpcContract

namespace Schema

/-- The resolution of an object is an object. -/
theorem isObject_of_resolve {members : Json.Members} {r : Repository} {out : Json}
    (h : resolve (.obj members) r = .ok out) : out.isObject := by
  obtain ⟨expanded, hd, hm⟩ := resolve_eq_ok_iff.mp h
  rw [dereference, expandValue_obj, Except.map_eq_ok_iff] at hd
  obtain ⟨own, -, rfl⟩ := hd
  rw [merge, mergeValue_obj, Except.map_eq_ok_iff] at hm
  obtain ⟨merged, -, rfl⟩ := hm
  exact Json.isObject_iff.mpr ⟨merged, rfl⟩

end Schema

namespace OpenRpc.Assembly

variable {r : Repository} {key : String}

/-- Only the member under the key changes. -/
theorem related_of_alter {members out : Json.Members} {f : Json → Except Error Json}
    (hs : Dict.Sorted members) (h : alter members key f = .ok out) :
    Dict.Related (fun k v w => if k = key then f v = .ok w else w = v) members out := by
  unfold alter at h
  split at h
  · next value hg =>
    simp only [Except.monadBind_eq_bind, Except.bind_eq_ok_iff, Except.pure_eq_ok,
      Except.ok.injEq] at h
    obtain ⟨w, hw, rfl⟩ := h
    refine (Dict.related_insert hs hg w).imp fun p _ x hx => ?_
    split at hx
    · next hk => rw [if_pos hk, hx.1, hx.2, hw]
    · next hk => rw [if_neg hk, hx]
  · next hg =>
    obtain rfl := Except.ok.inj h
    refine .refl fun p hp => ?_
    rw [if_neg fun (hk : p.1 = key) =>
      Dict.get?_eq_none_iff.mp hg (hk ▸ Dict.mem_keys_of_mem hp)]

theorem resolveIn_obj {members : Json.Members} (hs : Dict.Sorted members) {out : Json}
    (h : resolveIn r key (.obj members) = .ok out) :
    ∃ outs, out = .obj outs ∧ Dict.Related (fun k v w =>
      if k = key ∧ v.isObject then Schema.resolve v r = .ok w else w = v) members outs := by
  simp only [resolveIn, Except.monadBind_eq_bind, Except.bind_eq_ok_iff, Except.pure_eq_ok,
    Except.ok.injEq] at h
  obtain ⟨outs, h, rfl⟩ := h
  refine ⟨outs, rfl, (related_of_alter hs h).imp fun p _ w hw => ?_⟩
  by_cases hk : p.1 = key <;> by_cases ho : p.2.isObject <;> simp only [hk, ho] at hw ⊢
  · exact Except.mapError_eq_ok_iff.mp hw
  · exact (Except.ok.inj hw).symm
  · exact hw
  · exact hw

/-- The elements of an array with the schemas under a key resolved. -/
def EachResolved (r : Repository) (key : String) : Json → Json → Prop
  | .arr items, out => ∃ outs, out = .arr outs ∧
      List.Forall₂ (fun holder out => resolveIn r key holder = .ok out) items outs
  | value, out => out = value

theorem forall₂_of_eachFrom {f : Nat → Json → Except Error Json} {i : Nat} {items outs : List Json}
    (h : eachFrom i f items = .ok outs) :
    List.Forall₂ (fun x y => ∃ j, f j x = .ok y) items outs := by
  induction items generalizing i outs with
  | nil =>
    obtain rfl : [] = outs := by simpa [eachFrom] using h
    exact .nil
  | cons item items ih =>
    rw [eachFrom] at h
    obtain ⟨y, rest, hy, hs, rfl⟩ := Except.both_eq_ok_iff.mp h
    exact .cons ⟨i, hy⟩ (ih hs)

theorem eachResolved_of_each {name : String} {slot : Nat → Slot} {v w : Json}
    (h : each (fun i holder => Error.within name (slot i) (resolveIn r key holder)) v = .ok w) :
    EachResolved r key v w := by
  cases v with
  | arr items =>
    simp only [each, Except.monadBind_eq_bind, Except.bind_eq_ok_iff, Except.pure_eq_ok,
      Except.ok.injEq] at h
    obtain ⟨outs, h, rfl⟩ := h
    refine ⟨outs, rfl, (forall₂_of_eachFrom h).imp ?_⟩
    rintro x y ⟨j, hy⟩
    exact Except.mapError_eq_ok_iff.mp hy
  | null | bool | num | str | obj => exact (Except.ok.inj h).symm

/-- What the member of a method becomes. -/
def MemberExpanded (r : Repository) (key : String) (v w : Json) : Prop :=
  if key = "params" then EachResolved r "schema" v w
  else if key = "result" then resolveIn r "schema" v = .ok w
  else if key = "errors" then EachResolved r "data" v w
  else w = v

theorem expandMethod_obj {members : Json.Members} (hs : Dict.Sorted members) {out : Json}
    (h : expandMethod r (.obj members) = .ok out) :
    ∃ outs, out = .obj outs ∧ Dict.Related (MemberExpanded r) members outs := by
  simp only [expandMethod, Except.monadBind_eq_bind, Except.bind_eq_ok_iff, Except.pure_eq_ok,
    Except.ok.injEq] at h
  obtain ⟨params, hp, result, hr, errors, he, rfl⟩ := h
  have hp := related_of_alter hs hp
  have hsp := hs.of_keys_eq hp.keys_eq
  have hr := related_of_alter hsp hr
  have he := related_of_alter (hsp.of_keys_eq hr.keys_eq) he
  refine ⟨errors, rfl, ((hp.trans hr).trans he).imp ?_⟩
  rintro ⟨k, v⟩ - w ⟨y, ⟨x, hx, hy⟩, hw⟩
  unfold MemberExpanded
  by_cases hparams : k = "params"
  · simp only [hparams, reduceIte, String.reduceEq] at hx hy hw ⊢
    subst hy hw
    exact eachResolved_of_each hx
  · by_cases hresult : k = "result"
    · simp only [hresult, reduceIte, String.reduceEq] at hx hy hw ⊢
      subst hx hw
      exact Except.mapError_eq_ok_iff.mp hy
    · by_cases herrors : k = "errors"
      · simp only [herrors, reduceIte, String.reduceEq] at hx hy hw ⊢
        subst hx hy
        exact eachResolved_of_each hw
      · simp only [hparams, hresult, herrors, reduceIte] at hx hy hw ⊢
        rw [hw, hy, hx]

/-! Whole documents -/

theorem related_of_expandSchemas {schemas outs : Dict Json}
    (h : expandSchemas r schemas = .ok outs) :
    Dict.Related (fun _ v w => Schema.resolve v r = .ok w) schemas outs := by
  induction schemas generalizing outs with
  | nil =>
    obtain rfl : [] = outs := by simpa [expandSchemas] using h
    exact .nil
  | cons m schemas ih =>
    rw [expandSchemas] at h
    obtain ⟨w, rest, hw, hs, rfl⟩ := Except.both_eq_ok_iff.mp h
    simp only [Schema.Error.lift, Except.mapError_eq_ok_iff] at hw
    exact .cons ⟨rfl, hw⟩ (ih hs)

theorem forall₂_of_expandMethods {definitions outs : List Json}
    (h : expandMethods r definitions = .ok outs) :
    List.Forall₂ (fun d out => expandMethod r d = .ok out) definitions outs := by
  induction definitions generalizing outs with
  | nil =>
    obtain rfl : [] = outs := by simpa [expandMethods] using h
    exact .nil
  | cons d definitions ih =>
    rw [expandMethods] at h
    obtain ⟨w, rest, hw, hs, rfl⟩ := Except.both_eq_ok_iff.mp h
    exact .cons hw (ih hs)

theorem isObject_of_resolved {schemas outs : Dict Json} (hobj : ∀ m ∈ schemas, m.2.isObject)
    (h : Dict.Related (fun _ v w => Schema.resolve v r = .ok w) schemas outs) :
    ∀ m ∈ outs, m.2.isObject := by
  intro m hm
  obtain ⟨p, hp, -, hres⟩ := h.exists_left hm
  obtain ⟨members, he⟩ := Json.isObject_iff.mp (hobj p hp)
  rw [he] at hres
  exact Schema.isObject_of_resolve hres

theorem isObject_of_expandMethod {definition out : Json} (hobj : definition.isObject)
    (ho : definition.Ordered) (h : expandMethod r definition = .ok out) : out.isObject := by
  obtain ⟨members, rfl⟩ := Json.isObject_iff.mp hobj
  obtain ⟨outs, rfl, -⟩ := expandMethod_obj (Json.every_obj.mp ho).1 h
  rfl

theorem expand_eq_ok {a : Assembly} {out : Json} (h : a.expand = .ok out) :
    ∃ r, Repository.ofFragment (.obj a.schemas) = .ok r ∧ ∃ schemas methods,
      Dict.Related (fun _ v w => Schema.resolve v r = .ok w) a.schemas schemas ∧
      List.Forall₂ (fun d out => expandMethod r d = .ok out) a.methods methods ∧
      out = documentOf a.base methods schemas := by
  simp only [expand, repository, Except.monadBind_eq_bind, Except.bind_eq_ok_iff,
    Except.mapError_eq_ok_iff, Except.pure_eq_ok, Except.ok.injEq] at h
  obtain ⟨r, hr, schemas, hs, methods, hm, rfl⟩ := h
  exact ⟨r, hr, schemas, methods, related_of_expandSchemas hs, forall₂_of_expandMethods hm, rfl⟩

theorem get?_documentOf_methods (base : Json.Members) (methods : List Json) (schemas : Dict Json) :
    (documentOf base methods schemas).get? "methods" = some (.arr methods) := by
  simp [documentOf, Json.get?, Dict.get?_insert]

theorem atPointer?_documentOf (base : Json.Members) (methods : List Json) (schemas : Dict Json) :
    (documentOf base methods schemas).atPointer? "/components/schemas" = some (.obj schemas) := by
  have htokens : Json.Pointer.tokens? "/components/schemas" = some ["components", "schemas"] := by
    decide
  simp [Json.atPointer?, htokens, Json.Pointer.follow, Json.Pointer.child?, documentOf,
    Dict.get?_insert, Dict.get?_cons]

/-- The methods of a document of an assembler. -/
theorem ofDocument_documentOf (base : Json.Members) (methods : List Json) (schemas : Dict Json) :
    Methods.ofDocument (documentOf base methods schemas) =
      ((Repository.ofFragment (.obj schemas)).mapError .invalidFragment).bind fun r =>
        Methods.ofDefinitions r [] methods := by
  simp only [Methods.ofDocument, Repository.ofDocument, atPointer?_documentOf,
    get?_documentOf_methods, Except.monadBind_eq_bind]

end OpenRpc.Assembly

end RpcContract
