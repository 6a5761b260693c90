import Mathlib.Data.List.Forall2

/-! Taking apart a computation that may fail: what it returned tells what its parts returned. And
two computations side by side, which fail alike or return what is related. -/

namespace Except

universe u v w

variable {ε ε' : Type u} {α : Type v} {β : Type w}

@[simp] theorem pure_eq_ok (a : α) : (pure a : Except ε α) = .ok a := rfl

@[simp] theorem monadBind_eq_bind {β : Type v} (x : Except ε α) (f : α → Except ε β) :
    x >>= f = x.bind f := rfl

@[simp] theorem bind_eq_ok_iff {x : Except ε α} {f : α → Except ε β} {b : β} :
    x.bind f = .ok b ↔ ∃ a, x = .ok a ∧ f a = .ok b := by
  cases x <;> simp [Except.bind]

@[simp] theorem bind_eq_error_iff {x : Except ε α} {f : α → Except ε β} {e : ε} :
    x.bind f = .error e ↔ x = .error e ∨ ∃ a, x = .ok a ∧ f a = .error e := by
  cases x <;> simp [Except.bind]

@[simp] theorem map_eq_ok_iff {x : Except ε α} {f : α → β} {b : β} :
    x.map f = .ok b ↔ ∃ a, x = .ok a ∧ f a = b := by
  cases x <;> simp [Except.map]

@[simp] theorem map_eq_error_iff {x : Except ε α} {f : α → β} {e : ε} :
    x.map f = .error e ↔ x = .error e := by
  cases x <;> simp [Except.map]

@[simp] theorem mapError_eq_ok_iff {x : Except ε α} {f : ε → ε'} {a : α} :
    x.mapError f = .ok a ↔ x = .ok a := by
  cases x <;> simp [Except.mapError]

@[simp] theorem mapError_eq_error_iff {x : Except ε α} {f : ε → ε'} {e : ε'} :
    x.mapError f = .error e ↔ ∃ e', x = .error e' ∧ f e' = e := by
  cases x <;> simp [Except.mapError]

theorem eq_ok_of_toOption {x : Except ε α} {a : α} (h : x.toOption = some a) : x = .ok a := by
  cases x with
  | error e => cases h
  | ok b => rw [Option.some.inj h]

/-! One computation after another that does not depend on it -/

section

variable {α β γ : Type} {x : Except ε α} {y : Except ε β} {f : α → β → γ}

theorem both_eq_ok_iff {c : γ} :
    (do let a ← x; let b ← y; return f a b) = .ok c ↔
      ∃ a b, x = .ok a ∧ y = .ok b ∧ f a b = c := by
  cases x <;> cases y <;> simp

theorem both_eq_error_iff {e : ε} :
    (do let a ← x; let b ← y; return f a b) = .error e ↔
      x = .error e ∨ (∃ a, x = .ok a) ∧ y = .error e := by
  cases x <;> cases y <;> simp

end

/-! Lists -/

section

variable {α : Type v} {β : Type w} {f : α → Except ε β} {as : List α}

theorem mapM_eq_ok_iff {bs : List β} :
    as.mapM f = .ok bs ↔ List.Forall₂ (fun a b => f a = .ok b) as bs := by
  induction as generalizing bs with
  | nil =>
    rw [List.mapM_nil, pure_eq_ok, List.forall₂_nil_left_iff, Except.ok.injEq, eq_comm]
  | cons a as ih =>
    rw [List.mapM_cons, List.forall₂_cons_left_iff]
    simp only [monadBind_eq_bind, bind_eq_ok_iff, ih, pure_eq_ok, Except.ok.injEq]
    constructor
    · rintro ⟨b, hb, bs, hbs, rfl⟩
      exact ⟨b, bs, hb, hbs, rfl⟩
    · rintro ⟨b, bs, hb, hbs, rfl⟩
      exact ⟨b, hb, bs, hbs, rfl⟩

theorem mapM_eq_error_iff {e : ε} :
    as.mapM f = .error e ↔
      ∃ pre a post, as = pre ++ a :: post ∧ (∀ b ∈ pre, ∃ c, f b = .ok c) ∧ f a = .error e := by
  constructor
  · intro h
    induction as with
    | nil => cases h
    | cons a as ih =>
      rw [List.mapM_cons, monadBind_eq_bind, bind_eq_error_iff] at h
      rcases h with h | ⟨b, hb, h⟩
      · exact ⟨[], a, as, rfl, by simp, h⟩
      · rw [monadBind_eq_bind, bind_eq_error_iff] at h
        rcases h with h | ⟨bs, -, h⟩
        · obtain ⟨pre, a', post, rfl, hpre, ha'⟩ := ih h
          exact ⟨a :: pre, a', post, rfl, List.forall_mem_cons.mpr ⟨⟨b, hb⟩, hpre⟩, ha'⟩
        · cases h
  · rintro ⟨pre, a, post, rfl, hpre, ha⟩
    induction pre with
    | nil =>
      rw [List.nil_append, List.mapM_cons, ha]
      rfl
    | cons b pre ih =>
      obtain ⟨⟨c, hc⟩, hpre⟩ := List.forall_mem_cons.mp hpre
      rw [List.cons_append, List.mapM_cons, hc]
      show ((pre ++ a :: post).mapM f).bind _ = .error e
      rw [ih hpre]
      rfl

end

/-! Folds -/

section

variable {σ : Type v} {α : Type w} {f : σ → α → Except ε σ} {s s' : σ} {as bs : List α} {e : ε}

/-- A fold that succeeds does so at each entry, in the state before it. -/
theorem foldlM_split_eq_ok_iff {a : α} :
    (as ++ a :: bs).foldlM f s = .ok s' ↔
      ∃ t u, as.foldlM f s = .ok t ∧ f t a = .ok u ∧ bs.foldlM f u = .ok s' := by
  rw [List.foldlM_append]
  simp only [monadBind_eq_bind, bind_eq_ok_iff, List.foldlM_cons, exists_and_left]

/-- A fold fails at the first entry that fails in the state before it. -/
theorem foldlM_eq_error_iff :
    as.foldlM f s = .error e ↔
      ∃ pre a post t, as = pre ++ a :: post ∧ pre.foldlM f s = .ok t ∧ f t a = .error e := by
  constructor
  · intro h
    induction as generalizing s with
    | nil => cases h
    | cons a as ih =>
      rw [List.foldlM_cons, monadBind_eq_bind, bind_eq_error_iff] at h
      rcases h with h | ⟨t, ht, h⟩
      · exact ⟨[], a, as, s, rfl, rfl, h⟩
      · obtain ⟨pre, b, post, u, rfl, hu, hb⟩ := ih h
        refine ⟨a :: pre, b, post, u, rfl, ?_, hb⟩
        rw [List.foldlM_cons, ht]
        exact hu
  · rintro ⟨pre, a, post, t, rfl, ht, ha⟩
    rw [List.foldlM_append, ht, monadBind_eq_bind]
    show (f t a).bind _ = .error e
    rw [ha]
    rfl

end

/-- Both fail with the same error, or both return and what they return is related. -/
inductive Alike (R : α → β → Prop) : Except ε α → Except ε β → Prop where
  | ok {a : α} {b : β} (h : R a b) : Alike R (.ok a) (.ok b)
  | error (e : ε) : Alike R (.error e) (.error e)

namespace Alike

variable {R : α → β → Prop} {x : Except ε α} {y : Except ε β}

theorem eq {x y : Except ε α} (h : Alike Eq x y) : x = y := by
  cases h with
  | ok h => rw [h]
  | error => rfl

theorem refl {R : α → α → Prop} (h : ∀ a, R a a) (x : Except ε α) : Alike R x x := by
  cases x with
  | ok a => exact .ok (h a)
  | error e => exact .error e

theorem mapError (h : Alike R x y) (f : ε → ε') : Alike R (x.mapError f) (y.mapError f) := by
  cases h with
  | ok h => exact .ok h
  | error e => exact .error (f e)

theorem map {γ δ : Type*} {S : γ → δ → Prop} (h : Alike R x y) {f : α → γ} {g : β → δ}
    (hfg : ∀ a b, R a b → S (f a) (g b)) : Alike S (x.map f) (y.map g) := by
  cases h with
  | ok h => exact .ok (hfg _ _ h)
  | error e => exact .error e

theorem bind {γ δ : Type*} {S : γ → δ → Prop} (h : Alike R x y) {f : α → Except ε γ}
    {g : β → Except ε δ} (hfg : ∀ a b, R a b → Alike S (f a) (g b)) :
    Alike S (x.bind f) (y.bind g) := by
  cases h with
  | ok h => exact hfg _ _ h
  | error e => exact .error e

theorem foldlM {σ : Type v} {τ : Type w} {S : σ → τ → Prop} {T : α → β → Prop}
    {f : σ → α → Except ε σ} {g : τ → β → Except ε τ}
    (hfg : ∀ s t a b, S s t → T a b → Alike S (f s a) (g t b)) {as : List α} {bs : List β}
    (h : List.Forall₂ T as bs) {s : σ} {t : τ} (hst : S s t) :
    Alike S (as.foldlM f s) (bs.foldlM g t) := by
  induction h generalizing s t with
  | nil => exact .ok hst
  | cons hab _ ih =>
    rw [List.foldlM_cons, List.foldlM_cons]
    exact (hfg _ _ _ _ hst hab).bind fun _ _ => ih

theorem mapM {γ : Type v} {δ : Type w} {S : γ → δ → Prop} {f : α → Except ε γ}
    {g : β → Except ε δ} {as : List α} {bs : List β}
    (h : List.Forall₂ (fun a b => Alike S (f a) (g b)) as bs) :
    Alike (List.Forall₂ S) (as.mapM f) (bs.mapM g) := by
  induction h with
  | nil => exact .ok .nil
  | cons hab _ ih =>
    rw [List.mapM_cons, List.mapM_cons]
    refine hab.bind fun c d hcd => ih.bind fun cs ds hs => ?_
    exact .ok (.cons hcd hs)

end Alike

end Except
