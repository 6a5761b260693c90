/-!
Finite maps from names to values, kept as lists in increasing order of the names. The order of
`String` is that of the code points, which is the order of the UTF-8 bytes. Main statements:
`insert` and `fill` through the view `get?`, and that they keep the order.
-/

namespace RpcContract

abbrev Dict (α : Type u) := List (String × α)

namespace Dict

variable {α β : Type u}

def get? : Dict α → String → Option α
  | [], _ => none
  | (k, v) :: d, key => if k = key then some v else get? d key

def contains (d : Dict α) (key : String) : Bool := (get? d key).isSome

def keys (d : Dict α) : List String := d.map (·.1)

def insert : Dict α → String → α → Dict α
  | [], key, val => [(key, val)]
  | (k, v) :: d, key, val =>
    if key < k then (key, val) :: (k, v) :: d
    else if key = k then (key, val) :: d
    else (k, v) :: insert d key val

def erase : Dict α → String → Dict α
  | [], _ => []
  | (k, v) :: d, key => if k = key then erase d key else (k, v) :: erase d key

/-- The map of a list of entries; of equal names the last entry counts. -/
def ofList (entries : List (String × α)) : Dict α :=
  entries.foldl (fun d e => insert d e.1 e.2) []

def insertNew (d : Dict α) (key : String) (val : α) : Dict α :=
  if contains d key then d else insert d key val

/-- `d` with the entries of `e` whose names `d` lacks. -/
def fill (d e : Dict α) : Dict α := e.foldl (fun d p => insertNew d p.1 p.2) d

def Sorted (d : Dict α) : Prop := (keys d).Pairwise (· < ·)

@[simp] theorem get?_nil (key : String) : get? ([] : Dict α) key = none := rfl

theorem get?_cons (k : String) (v : α) (d : Dict α) (key : String) :
    get? ((k, v) :: d) key = if k = key then some v else get? d key := rfl

theorem get?_insert (d : Dict α) (key : String) (val : α) (q : String) :
    get? (insert d key val) q = if key = q then some val else get? d q := by
  induction d with
  | nil => simp [insert, get?]
  | cons e d ih =>
    obtain ⟨k, v⟩ := e
    simp only [insert]
    split
    · simp [get?]
    · split
      · subst_vars; simp [get?]; split <;> simp_all
      · simp only [get?, ih]
        by_cases hk : k = q <;> by_cases hq : key = q <;> simp_all

theorem contains_iff_mem_keys (d : Dict α) (key : String) :
    contains d key = true ↔ key ∈ keys d := by
  induction d with
  | nil => simp [contains, keys]
  | cons e d ih =>
    obtain ⟨k, v⟩ := e
    simp only [contains, keys, get?, List.map_cons, List.mem_cons] at ih ⊢
    split
    · simp_all
    · rw [ih]; constructor
      · exact Or.inr
      · rintro (h | h)
        · exact absurd h.symm ‹_›
        · exact h

theorem get?_insertNew (d : Dict α) (key : String) (val : α) (q : String) :
    get? (insertNew d key val) q = (get? d q).or (if key = q then some val else none) := by
  unfold insertNew
  split
  · next h =>
    split
    · subst_vars
      obtain ⟨v, hv⟩ := Option.isSome_iff_exists.mp h
      simp [hv]
    · simp
  · next h =>
    have hn : get? d key = none := by simpa [contains] using h
    rw [get?_insert]
    split
    · subst_vars; simp [hn]
    · simp

/-- Filling a map keeps what it has and takes the rest from the other, first entries first. -/
theorem get?_fill (d e : Dict α) (q : String) : get? (fill d e) q = (get? d q).or (get? e q) := by
  induction e generalizing d with
  | nil => simp [fill]
  | cons p e ih =>
    obtain ⟨k, v⟩ := p
    have : fill d ((k, v) :: e) = fill (insertNew d k v) e := rfl
    rw [this, ih, get?_insertNew, get?_cons]
    split <;> cases get? d q <;> simp

theorem mem_keys_insert (d : Dict α) (key : String) (val : α) (q : String) :
    q ∈ keys (insert d key val) ↔ q = key ∨ q ∈ keys d := by
  rw [← contains_iff_mem_keys, ← contains_iff_mem_keys, contains, contains, get?_insert]
  by_cases h : key = q
  · simp [h]
  · simp [h, Ne.symm h]

theorem sorted_insert {d : Dict α} (h : Sorted d) (key : String) (val : α) :
    Sorted (insert d key val) := by
  induction d with
  | nil => simp [insert, Sorted, keys]
  | cons e d ih =>
    obtain ⟨k, v⟩ := e
    have hd : Sorted d := by
      simp only [Sorted, keys, List.map_cons, List.pairwise_cons] at h ⊢; exact h.2
    have hk : ∀ q ∈ keys d, k < q := by
      simp only [Sorted, keys, List.map_cons, List.pairwise_cons] at h; exact h.1
    simp only [insert]
    split
    · next hlt =>
      simp only [Sorted, keys, List.map_cons, List.pairwise_cons, List.mem_cons] at h ⊢
      refine ⟨?_, h⟩
      rintro q (rfl | hq)
      · exact hlt
      · exact String.lt_trans hlt (h.1 q hq)
    · next hnlt =>
      split
      · next heq =>
        subst heq
        simpa only [Sorted, keys, List.map_cons] using h
      · next hne =>
        have hlt : k < key := by
          refine Decidable.byContradiction fun hn => hne ?_
          exact String.le_antisymm (String.not_lt.mp hn) (String.not_lt.mp hnlt)
        simp only [Sorted, keys, List.map_cons, List.pairwise_cons]
        refine ⟨?_, ih hd⟩
        intro q hq
        have := (mem_keys_insert d key val q).mp hq
        rcases this with rfl | hq
        · exact hlt
        · exact hk q hq

theorem sorted_ofList (entries : List (String × α)) : Sorted (ofList entries) := by
  have : ∀ d : Dict α, Sorted d → Sorted (entries.foldl (fun d e => insert d e.1 e.2) d) := by
    induction entries with
    | nil => intro d h; exact h
    | cons e entries ih => intro d h; exact ih _ (sorted_insert h _ _)
  exact this [] (by simp [Sorted, keys])

end Dict

end RpcContract
