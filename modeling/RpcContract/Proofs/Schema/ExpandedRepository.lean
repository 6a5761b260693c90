import RpcContract.Proofs.Schema.Dereferenced
import RpcContract.Proofs.Schema.Guard

/-! Expanding a repository first. Where a pointer leads to an object in a schema, it leads to the
expansion of that object in the expanded schema; so a reference denotes in the expanded repository
what it expands to in the first, and that has no references left to expand. -/

namespace RpcContract

namespace Schema

variable {r : Repository}

theorem Expands.functional (hr : r.Ordered) {v w w' : Json} (hv : v.Ordered) (h : Expands r v w)
    (h' : Expands r v w') : w = w' := by
  rw [← dereference_eq_ok_iff hv hr] at h h'
  exact Except.ok.inj (h.symm.trans h')

/-- A step down from a value, other than to the text of its reference, leads to the expansion from
the expanded value. -/
theorem Expands.child {v w u : Json} (h : Expands r v w) {token : String}
    (hu : Json.Pointer.child? v token = some u) :
    (∃ text, u = .str text) ∨ ∃ u', Json.Pointer.child? w token = some u' ∧ Expands r u u' := by
  cases h with
  | null | bool | num | str => simp [Json.Pointer.child?] at hu
  | @arr items out hl h =>
    obtain ⟨i, hi, hget⟩ := Option.bind_eq_some_iff.mp hu
    obtain ⟨hlt, rfl⟩ := List.getElem?_eq_some_iff.mp hget
    have ho : i < out.length := hl ▸ hlt
    refine .inr ⟨out[i], ?_, h i hlt ho⟩
    simp [Json.Pointer.child?, hi, ho]
  | plain hr hk h =>
    have hne : token ≠ Reference.key := by
      rintro rfl
      simp [Json.Pointer.child?, hr] at hu
    obtain ⟨u', hu'⟩ := exists_get?_of_keys hk hu hne
    exact .inr ⟨u', hu', h token u u' hu hu'⟩
  | reference hr hk h ht hb ho =>
    by_cases hne : token = Reference.key
    · subst hne
      exact .inl ⟨_, Option.some.inj (hu.symm.trans hr)⟩
    · obtain ⟨u', hu'⟩ := exists_get?_of_keys hk hu hne
      refine .inr ⟨u', ?_, h token u u' hu hu'⟩
      rw [Json.Pointer.child?, ho.get?, hu', Option.some_or]

theorem Expands.obj {members : Json.Members} {w : Json} (h : Expands r (.obj members) w) :
    ∃ out, w = .obj out := by
  cases h with
  | plain => exact ⟨_, rfl⟩
  | reference => exact ⟨_, rfl⟩

/-- A path to an object leads to the expansion of that object in the expanded value. -/
theorem Expands.follow {v w : Json} (h : Expands r v w) {tokens : List String}
    {target : Json.Members} (ht : Json.Pointer.follow v tokens = some (.obj target)) :
    ∃ base, Json.Pointer.follow w tokens = some (.obj base) ∧
      Expands r (.obj target) (.obj base) := by
  induction tokens generalizing v w with
  | nil =>
    obtain rfl : v = .obj target := by simpa [Json.Pointer.follow] using ht
    obtain ⟨base, rfl⟩ := h.obj
    exact ⟨base, rfl, h⟩
  | cons token tokens ih =>
    obtain ⟨u, hu, hrest⟩ := Option.bind_eq_some_iff.mp ht
    rcases h.child hu with ⟨text, rfl⟩ | ⟨u', hu', hx⟩
    · cases tokens <;> simp [Json.Pointer.follow, Json.Pointer.child?] at hrest
    · obtain ⟨base, hb, hxb⟩ := ih hx hrest
      exact ⟨base, by rw [Json.Pointer.follow, hu', Option.bind_some, hb], hxb⟩

end Schema

namespace Repository

/-- The second repository has every schema of the first, expanded against the first. -/
def ExpandsTo (r expanded : Repository) : Prop :=
  Dict.Related (fun _ schema result => Schema.dereference schema r = .ok result)
    r.schemas expanded.schemas

namespace ExpandsTo

variable {r expanded : Repository}

theorem ordered (h : r.ExpandsTo expanded) (hr : r.Ordered) : expanded.Ordered := by
  obtain ⟨hs, hm⟩ := Json.every_obj.mp hr
  refine .obj (hs.of_keys_eq h.keys_eq) fun q hq => ?_
  obtain ⟨p, hp, -, hx⟩ := h.exists_left hq
  exact Schema.dereference_ordered (hm p hp) hr hx

theorem get? (h : r.ExpandsTo expanded) {name : String} {schema : Json}
    (hs : r.get? name = some schema) :
    ∃ result, expanded.get? name = some result ∧ Schema.dereference schema r = .ok result := by
  exact h.exists_right_get? hs

/-- What a reference denotes, it denotes expanded in the expanded repository. -/
theorem denoted (h : r.ExpandsTo expanded) (hr : r.Ordered) {text : String}
    {target : Json.Members} (ht : r.denoted? text = some target) :
    ∃ base, expanded.denoted? text = some base ∧
      Schema.Expands r (.obj target) (.obj base) := by
  unfold denoted? at ht ⊢
  cases hp : Reference.parse text with
  | error fault => simp [hp] at ht
  | ok reference =>
    simp only [hp] at ht ⊢
    obtain ⟨schema, hs, ht⟩ := Option.bind_eq_some_iff.mp ht
    obtain ⟨result, hres, hd⟩ := h.get? hs
    have hx := (Schema.dereference_eq_ok_iff (hr.get? hs) hr).mp hd
    cases hpointer : reference.pointer with
    | none =>
      simp only [hpointer] at ht
      rw [Json.asObject?_eq_some ht] at hx
      obtain ⟨base, rfl⟩ := hx.obj
      exact ⟨base, by rw [hres]; rfl, hx⟩
    | some pointer =>
      simp only [hpointer] at ht
      obtain ⟨v, hv, ht⟩ := Option.bind_eq_some_iff.mp ht
      obtain ⟨tokens, htokens, hfollow⟩ := Option.bind_eq_some_iff.mp hv
      rw [Json.asObject?_eq_some ht] at hfollow
      obtain ⟨base, hb, hxb⟩ := hx.follow hfollow
      refine ⟨base, ?_, hxb⟩
      simp [hres, Json.atPointer?, htokens, hb, Json.asObject?]

/-- What has an expansion has the same one in the expanded repository: what its references denote
there is expanded already. -/
theorem expands (h : r.ExpandsTo expanded) (hr : r.Ordered) {v w : Json}
    (hx : Schema.Expands r v w) : Schema.Expands expanded v w := by
  induction hx with
  | null => exact .null
  | bool b => exact .bool b
  | num n => exact .num n
  | str s => exact .str s
  | arr hl _ ih => exact .arr hl ih
  | plain hn hk _ ih => exact .plain hn hk ih
  | @reference members own target base out text hn hk _ ht hb ho ih _ =>
    obtain ⟨base', ht', hb'⟩ := h.denoted hr ht
    have hot : (Json.obj target).Ordered := Schema.ordered_denoted hr ht
    obtain rfl := Json.obj.inj (hb.functional hr hot hb')
    have hd := (Schema.dereference_eq_ok_iff hot hr).mpr hb
    have hself := Schema.dereference_of_lacks (Schema.dereference_lacks hd) expanded
    have hob := Schema.dereference_ordered hot hr hd
    exact .reference hn hk ih ht'
      ((Schema.dereference_eq_ok_iff hob (h.ordered hr)).mp hself) ho

end ExpandsTo

end Repository

namespace Schema

/-- A schema that can be expanded comes to the same if the schemas it refers to are expanded
first. -/
theorem dereference_of_expanded {r expanded : Repository} (hr : r.Ordered)
    (h : r.ExpandsTo expanded) {schema result : Json} (hs : schema.Ordered)
    (hd : dereference schema r = .ok result) : dereference schema expanded = .ok result :=
  (dereference_eq_ok_iff hs (h.ordered hr)).mpr
    (h.expands hr ((dereference_eq_ok_iff hs hr).mp hd))

/-- A reference to a place that refers to a place that refers to a schema, each with a title of its
own or an array on the way. -/
theorem dereference_of_expanded_chain :
    let reference := fun (text : String) (title : List (String × Json)) =>
      Json.obj (("$ref", .str text) :: title)
    let title := fun text : String => [("title", Json.str text)]
    let text := fun title : List (String × Json) => Json.obj (title ++ [("type", .str "string")])
    let schemas := fun first second : Json => [
      ("Account", Json.obj [("anyOf", .arr [.null, .obj [("owner", first)]])]),
      ("Address", text (title "address")), ("Pair", .obj [("left~", second)])]
    let r : Repository := ⟨schemas
      (reference "#/components/schemas/Pair/left~0" (title "owner"))
      (reference "#/components/schemas/Address" [])⟩
    let expanded : Repository := ⟨schemas (text (title "owner")) (text (title "address"))⟩
    let schema := Json.obj [("items",
      reference "#/components/schemas/Account/anyOf/1/owner" [])]
    let result := Json.obj [("items", text (title "owner"))]
    r.Ordered ∧ r.ExpandsTo expanded ∧ schema.Ordered ∧ dereference schema r = .ok result ∧
      dereference schema expanded = .ok result := by
  intro reference title text schemas r expanded schema result
  have hr : r.Ordered := by decide +zetaReduce
  have hx : r.ExpandsTo expanded := by
    refine .cons ⟨rfl, ?_⟩ (.cons ⟨rfl, ?_⟩ (.cons ⟨rfl, ?_⟩ .nil)) <;>
      decide +kernel +zetaReduce
  have hs : schema.Ordered := by decide +zetaReduce
  have hd : dereference schema r = .ok result := by decide +kernel +zetaReduce
  exact ⟨hr, hx, hs, hd, dereference_of_expanded hr hx hs hd⟩

end Schema

end RpcContract
