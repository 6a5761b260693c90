import RpcContract.Proofs.Json.Tree
import RpcContract.Yaml.Value

/-! The values of YAML texts. What the parts of a construct keep holds of all it makes, and so a
JSON value that is read from YAML is ordered, however its mappings are written. -/

namespace RpcContract.Yaml

namespace Follow

variable {α β : Type}

theorem bind_eq_some_iff {x : Follow α} {f : α → Follow β} {jumps : Nat} {p : β × Nat} :
    (x >>= f) jumps = some p ↔ ∃ a jumps', x jumps = some (a, jumps') ∧ f a jumps' = some p := by
  simp [bind, StateT.bind, Option.bind_eq_some_iff]

theorem pure_eq_some_iff {a : α} {jumps : Nat} {p : α × Nat} :
    (pure a : Follow α) jumps = some p ↔ (a, jumps) = p := by
  show some (a, jumps) = some p ↔ _
  exact Option.some_inj

/-- Each of the values that a list of nodes gives is given by one of them. -/
theorem exists_of_mapM {f : β → Follow α} {xs : List β} {ys : List α} {jumps jumps' : Nat}
    (h : xs.mapM f jumps = some (ys, jumps')) :
    ∀ y ∈ ys, ∃ x ∈ xs, ∃ j j', f x j = some (y, j') := by
  induction xs generalizing ys jumps jumps' with
  | nil =>
    obtain ⟨rfl, -⟩ := Prod.mk.inj (pure_eq_some_iff.mp h)
    simp
  | cons x xs ih =>
    rw [List.mapM_cons] at h
    obtain ⟨y, j, hy, h⟩ := bind_eq_some_iff.mp h
    obtain ⟨rest, j', hs, h⟩ := bind_eq_some_iff.mp h
    obtain ⟨rfl, -⟩ := Prod.mk.inj (pure_eq_some_iff.mp h)
    rintro z (_ | ⟨_, hz⟩)
    · exact ⟨x, List.mem_cons_self, jumps, j, hy⟩
    · obtain ⟨x', hx', hz⟩ := ih hs z hz
      exact ⟨x', List.mem_cons_of_mem _ hx', hz⟩

end Follow

namespace Construct

variable {α : Type}

theorem given_eq_some_iff {a : Option α} {jumps : Nat} {p : α × Nat} :
    given a jumps = some p ↔ a = some p.1 ∧ jumps = p.2 := by
  obtain ⟨v, j⟩ := p
  simp [given]

/-- What a construct makes has every property that its scalars have and that its sequences and
mappings take over from their parts. -/
structure Keeps (c : Construct α) (C : α → Prop) : Prop where
  scalar : ∀ {tag text plain a}, c.scalar tag text plain = some a → C a
  sequence : ∀ {tag items a}, (∀ x ∈ items, C x) → c.sequence tag items = some a → C a
  mapping : ∀ {tag members a}, (∀ m ∈ members, C m.2) → c.mapping tag members = some a → C a

namespace Keeps

variable {c : Construct α} {C : α → Prop} {r : Reading} {a : α} {jumps jumps' : Nat}

theorem leaf (hc : c.Keeps C) {n : Node} (h : c.leaf n jumps = some (a, jumps')) : C a := by
  cases n with
  | scalar tag text plain => exact hc.scalar (given_eq_some_iff.mp h).1
  | _ => cases h

theorem value (hc : c.Keeps C) {depth : Nat} {n : Node}
    (h : c.value r depth n jumps = some (a, jumps')) : C a := by
  induction depth generalizing n a jumps jumps' with
  | zero =>
    obtain ⟨n', j, -, h⟩ := Follow.bind_eq_some_iff.mp h
    exact hc.leaf h
  | succ depth ih =>
    obtain ⟨n', j, -, h⟩ := Follow.bind_eq_some_iff.mp h
    cases n' with
    | sequence tag items =>
      obtain ⟨vs, j', hvs, h⟩ := Follow.bind_eq_some_iff.mp h
      refine hc.sequence (fun v hv => ?_) (given_eq_some_iff.mp h).1
      obtain ⟨item, -, _, _, hx⟩ := Follow.exists_of_mapM hvs v hv
      exact ih hx
    | mapping tag entries =>
      obtain ⟨members, j', hms, h⟩ := Follow.bind_eq_some_iff.mp h
      refine hc.mapping (fun m hm => ?_) (given_eq_some_iff.mp h).1
      obtain ⟨⟨k, v⟩, -, j₀, j₁, hx⟩ := Follow.exists_of_mapM hms m hm
      obtain ⟨key, j₂, -, hx⟩ := Follow.bind_eq_some_iff.mp hx
      obtain ⟨w, j₃, hw, hx⟩ := Follow.bind_eq_some_iff.mp hx
      obtain ⟨rfl, -⟩ := Prod.mk.inj (Follow.pure_eq_some_iff.mp hx)
      exact ih hw
    | _ => exact hc.leaf h

end Keeps

end Construct

/-! Scalars -/

variable {P : Json.Members → Prop} {text : String} {v : Json}

theorem float?_every (h : float? text = some v) : v.Every P := by
  unfold float? at h
  extract_lets body at h
  split at h
  · obtain rfl := Option.some.inj h
    exact .null
  · obtain ⟨bits, -, rfl⟩ := Option.map_eq_some_iff.mp h
    exact .num _

theorem plainValue?_every (h : plainValue? text = some v) : v.Every P := by
  unfold plainValue? at h
  split at h
  · obtain rfl := Option.some.inj h
    exact .null
  · split at h
    · obtain rfl := Option.some.inj h
      exact .bool _
    · split at h
      · obtain rfl := Option.some.inj h
        exact .num _
      · cases h
      · split at h
        · obtain rfl := Option.some.inj h
          exact .str _
        · obtain rfl := Option.some.inj h
          cases hf : float? text with
          | none => exact .str _
          | some w => exact float?_every hf

theorem scalarValue?_every {tag : Option String} {plain : Bool}
    (h : scalarValue? tag text plain = some v) : v.Every P := by
  have htext : some (Json.str text) = some v → v.Every P := by
    rintro ⟨⟩
    exact .str _
  cases tag with
  | none =>
    simp only [scalarValue?] at h
    split at h
    · exact plainValue?_every h
    · exact htext h
  | some tag =>
    simp only [scalarValue?] at h
    split at h
    · cases h
    · split at h
      · obtain ⟨b, -, rfl⟩ := Option.map_eq_some_iff.mp h
        exact .bool b
      · split at h
        · split at h
          · obtain rfl := Option.some.inj h
            exact .num _
          · cases h
        · split at h
          · exact float?_every h
          · split at h
            · split at h
              · obtain rfl := Option.some.inj h
                exact .null
              · cases h
            · exact htext h

theorem keeps_ordered : jsonConstruct.Keeps Json.Ordered where
  scalar h := scalarValue?_every h
  sequence hitems h := by
    simp only [jsonConstruct] at h
    split at h
    · cases h
    · obtain rfl := Option.some.inj h
      exact .arr hitems
  mapping hmembers h := by
    simp only [jsonConstruct] at h
    split at h
    · cases h
    · obtain rfl := Option.some.inj h
      exact .obj (Dict.sorted_ofList _) fun m hm => hmembers m (Dict.mem_ofList hm)

end Yaml

theorem Json.ordered_ofYaml {text : String} {v : Json} (h : Json.ofYaml? text = some v) :
    v.Ordered := by
  obtain ⟨w, hw, rfl⟩ := Option.map_eq_some_iff.mp h
  unfold Yaml.Construct.ofText? at hw
  simp only [Option.bind_eq_bind, Option.bind_eq_some_iff] at hw
  obtain ⟨tokens, -, ⟨n, r⟩, -, hw⟩ := hw
  cases n with
  | none =>
    obtain rfl := Option.some.inj hw
    exact .null
  | some n =>
    obtain ⟨⟨v, jumps⟩, hv, rfl⟩ := Option.map_eq_some_iff.mp hw
    exact Yaml.keeps_ordered.value hv

end RpcContract
