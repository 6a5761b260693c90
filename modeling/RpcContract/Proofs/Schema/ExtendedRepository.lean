import RpcContract.Proofs.Schema.Machine
import RpcContract.Schema.Resolve

/-! Adding schemas to a repository. Over the larger repository the machine takes the same steps, up
to a reference that names a schema the smaller one does not have; there it halts over the smaller
one. So whatever does not fail for want of a schema stays as it is. -/

namespace RpcContract

/-- The second repository has every schema of the first, unchanged. -/
def Repository.ExtendsTo (r extended : Repository) : Prop :=
  ∀ {name : String} {schema : Json}, r.get? name = some schema → extended.get? name = some schema

namespace Schema

open Reference (Entry)

variable {r extended : Repository}

/-- What is entered is the same, unless the smaller repository does not have the schema. -/
theorem enter_extended (h : r.ExtendsTo extended) (free : Entry → Prop) [DecidablePred free]
    (path : Json.Path) (text : String) :
    enter extended free path text = enter r free path text ∨
      enter r free path text = .error ⟨path, .schemaNotFound text⟩ := by
  unfold enter
  cases Reference.parse text with
  | error fault => exact .inl rfl
  | ok reference =>
    cases hg : r.get? reference.name with
    | none => simp [hg]
    | some schema => simp only [hg, h hg, true_or]

namespace State

def Wants (s : State) : Prop := ∃ path text, s = halt (.error ⟨path, .schemaNotFound text⟩)

theorem reference_extended (h : r.ExtendsTo extended) (path : Json.Path)
    (whole own : Json.Members) (frames : List Frame) :
    reference extended path whole own frames = reference r path whole own frames ∨
      (reference r path whole own frames).Wants := by
  unfold reference
  split
  · exact .inl rfl
  · next text _ =>
    rcases enter_extended h (· ∉ Schema.opened frames) path text with he | he
    · exact .inl (by rw [he])
    · exact .inr ⟨path, text, by rw [he]⟩
  · exact .inl rfl

theorem members_extended (h : r.ExtendsTo extended) (path : Json.Path)
    (whole done rest : Json.Members) (frames : List Frame) :
    members extended path whole done frames rest = members r path whole done frames rest ∨
      (members r path whole done frames rest).Wants := by
  induction rest with
  | nil => exact reference_extended h path whole done frames
  | cons m rest ih =>
    obtain ⟨key, value⟩ := m
    unfold members
    split
    · exact ih
    · exact .inl rfl

theorem resume_extended (h : r.ExtendsTo extended) (v : Json) (frames : List Frame) :
    resume extended v frames = resume r v frames ∨ (resume r v frames).Wants := by
  cases frames with
  | nil => exact .inl rfl
  | cons frame frames =>
    cases frame with
    | items path i done rest => exact .inl rfl
    | member path whole done key rest => exact members_extended h path whole _ rest frames
    | target entry own => cases v <;> exact .inl rfl

theorem step_extended (h : r.ExtendsTo extended) (s : State) :
    step extended s = step r s ∨ (step r s).Wants := by
  cases s with
  | expand path v frames =>
    cases v with
    | obj whole => exact members_extended h path whole [] whole frames
    | null | bool | num | str | arr => exact .inl rfl
  | give v frames => exact resume_extended h v frames
  | halt result => exact .inl rfl

/-- The runs are the same however long they are, unless the one over the smaller repository has
halted for want of a schema. -/
theorem run_extended (h : r.ExtendsTo extended) (s : State) (n : Nat) :
    (step extended)^[n] s = (step r)^[n] s ∨ ((step r)^[n] s).Wants := by
  induction n with
  | zero => exact .inl rfl
  | succ n ih =>
    rw [Function.iterate_succ_apply', Function.iterate_succ_apply']
    rcases ih with he | ⟨path, text, he⟩
    · rw [he]
      exact step_extended h _
    -- halted for want of a schema: it stays so
    · exact .inr ⟨path, text, by rw [he]; rfl⟩

theorem Leads.halt_unique {s : State} {x y : Except Error Json} (hx : Leads r s (halt x))
    (hy : Leads r s (halt y)) : x = y := by
  obtain ⟨n, hn⟩ := hx
  obtain ⟨m, hm⟩ := hy
  -- a machine that has halted stays as it is, so both results are the state after `n + m` steps
  have hstay : ∀ (k : Nat) z, (step r)^[k] (halt z) = halt z :=
    fun k z => Function.iterate_fixed rfl k
  have hn' : (step r)^[m + n] s = halt x := by rw [Function.iterate_add_apply, hn, hstay]
  have hm' : (step r)^[n + m] s = halt y := by rw [Function.iterate_add_apply, hm, hstay]
  rw [Nat.add_comm, hm'] at hn'
  exact (halt.inj hn').symm

end State

theorem dereference_extended (h : r.ExtendsTo extended) (schema : Json) :
    dereference schema extended = dereference schema r ∨
      ∃ path text, dereference schema r = .error ⟨path, .schemaNotFound text⟩ := by
  obtain ⟨n, hn⟩ := leads_dereference schema r
  have hrun := State.run_extended h (.start schema) n
  rw [hn] at hrun
  rcases hrun with he | ⟨path, text, he⟩
  · exact .inl (State.Leads.halt_unique (leads_dereference schema extended) ⟨n, he⟩)
  · exact .inr ⟨path, text, State.halt.inj he⟩

/-- Schemas that are added change neither the expansion of a schema nor what it resolves to, and no
error either, but that a schema is missing. -/
theorem resolution_of_extended (h : r.ExtendsTo extended) (schema : Json) :
    (dereference schema extended = dereference schema r ∧
      resolve schema extended = resolve schema r) ∨
    ∃ path text, dereference schema r = .error ⟨path, .schemaNotFound text⟩ ∧
      resolve schema r = .error ⟨path, .schemaNotFound text⟩ := by
  unfold resolve
  rcases dereference_extended h schema with he | ⟨path, text, he⟩
  · exact .inl ⟨he, by rw [he]⟩
  · exact .inr ⟨path, text, he, by rw [he]; rfl⟩

/-- A cycle that is met behind a finished member stays the error that it is, with its path; a schema
that is missing may be among those added. -/
theorem resolution_of_extended_cycle :
    let reference := fun text : String => Json.obj [("$ref", .str text)]
    let leaf := Json.obj [("type", .str "string")]
    let node := Json.obj [("items", .arr [reference "#/components/schemas/Node"])]
    let r : Repository := ⟨[("Node", node)]⟩
    let extended : Repository := ⟨[
      ("Leaf", leaf), ("Node", node), ("Other", reference "#/components/schemas/Node/items")]⟩
    let cyclic := Json.obj [("first", leaf), ("second", reference "#/components/schemas/Node")]
    let missing := reference "#/components/schemas/Leaf"
    let e : Error := ⟨[.key "second", .key "items", .index 0], .cycle "#/components/schemas/Node"⟩
    r.ExtendsTo extended ∧ dereference cyclic r = .error e ∧
      dereference cyclic extended = .error e ∧ resolve cyclic extended = .error e ∧
      dereference missing r = .error ⟨[], .schemaNotFound "#/components/schemas/Leaf"⟩ ∧
      dereference missing extended = .ok leaf := by
  intro reference leaf node r extended cyclic missing e
  have hx : r.ExtendsTo extended := by
    intro name schema hg
    obtain ⟨rfl, rfl⟩ : "Node" = name ∧ node = schema := by
      simpa [Repository.get?, Dict.get?, r] using hg
    rfl
  have he : dereference cyclic r = .error e := by decide +kernel +zetaReduce
  have hm : dereference missing r = .error ⟨[], .schemaNotFound "#/components/schemas/Leaf"⟩ := by
    decide +kernel +zetaReduce
  have hl : dereference missing extended = .ok leaf := by decide +kernel +zetaReduce
  rcases resolution_of_extended hx cyclic with ⟨hd, hr⟩ | ⟨path, text, hd, -⟩
  · refine ⟨hx, he, hd.trans he, hr.trans ?_, hm, hl⟩
    rw [resolve, he]
    rfl
  · rw [he] at hd
    simp [e] at hd

end Schema

end RpcContract
