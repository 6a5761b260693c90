import RpcContract.Json.Pointer
import RpcContract.Proofs.Json.Place

/-! Writing pointers. Every path has a pointer, which leads wherever the path leads: its tokens are
escaped so that no slash is left in them, and an index is read back from its digits. -/

namespace RpcContract.Json

/-- A token as a pointer has it. -/
def escape : List Char → List Char
  | [] => []
  | '~' :: cs => '~' :: '0' :: escape cs
  | '/' :: cs => '~' :: '1' :: escape cs
  | c :: cs => c :: escape cs

/-- What a step goes down by: a key, or an index in decimal digits. -/
def Step.token : Step → String
  | .key name => name
  | .index i => toString i

def Step.written (step : Step) : List Char := '/' :: escape step.token.toList

/-- The pointer that leads the same way as a path. -/
def Path.pointer (path : Path) : String := String.ofList (path.flatMap Step.written)

namespace Pointer

theorem unescape_cons {c : Char} (hc : c ≠ '~') (cs : List Char) :
    unescape (c :: cs) = c :: unescape cs := by
  rw [unescape] <;> simp [hc]

theorem unescape_escape (cs : List Char) : unescape (escape cs) = cs := by
  fun_induction escape cs with
  | case1 => rfl
  | case2 cs ih | case3 cs ih => simp [unescape, ih]
  | case4 c cs htilde _ ih => rw [unescape_cons htilde, ih]

theorem slash_not_mem_escape (cs : List Char) : '/' ∉ escape cs := by
  fun_induction escape cs with
  | case1 => simp
  | case2 cs ih | case3 cs ih => simp [ih]
  | case4 c cs _ hslash ih => simp [ih, Ne.symm hslash]

theorem pieces_of_not_mem {p : List Char} (hp : '/' ∉ p) : pieces p = [p] := by
  induction p with
  | nil => rfl
  | cons c p ih =>
    obtain ⟨hc, hp⟩ := not_or.mp (List.mem_cons.not.mp hp)
    rw [pieces, ih hp]
    exact fun h => hc h.symm

theorem pieces_append_slash {p : List Char} (hp : '/' ∉ p) (cs : List Char) :
    pieces (p ++ '/' :: cs) = p :: pieces cs := by
  induction p with
  | nil => rfl
  | cons c p ih =>
    obtain ⟨hc, hp⟩ := not_or.mp (List.mem_cons.not.mp hp)
    rw [List.cons_append, pieces, ih hp]
    exact fun h => hc h.symm

theorem pieces_written (step : Step) (path : Path) :
    pieces (escape step.token.toList ++ path.flatMap Step.written) =
      (step :: path).map fun step => escape step.token.toList := by
  induction path generalizing step with
  | nil =>
    rw [List.flatMap_nil, List.append_nil]
    exact pieces_of_not_mem (slash_not_mem_escape _)
  | cons next path ih =>
    rw [List.flatMap_cons, Step.written, List.cons_append,
      pieces_append_slash (slash_not_mem_escape _), ih]
    rfl

theorem tokens?_pointer (path : Path) : tokens? path.pointer = some (path.map Step.token) := by
  unfold tokens?
  rw [Path.pointer, String.toList_ofList]
  cases path with
  | nil => rfl
  | cons step path =>
    simp only [List.flatMap_cons, Step.written, List.cons_append, pieces_written, List.map_map]
    simp [unescape_escape, Function.comp_def]

/-! Indices -/

theorem head?_toDigits_ne_zero {i : Nat} (hi : i ≠ 0) : (Nat.toDigits 10 i).head? ≠ some '0' := by
  induction i using Nat.strongRecOn with
  | ind i ih =>
    rw [Nat.toDigits_eq_if (by decide)]
    split
    · simp [hi]
    · next h =>
      rw [List.head?_append_of_ne_nil _ Nat.toDigits_ne_nil]
      exact ih (i / 10) (by omega) (by omega)

theorem isDigit_of_mem_toDigits {i : Nat} {c : Char} (hc : c ∈ Nat.toDigits 10 i) :
    Decimal.isDigit c := by
  have h := Nat.isDigit_of_mem_toDigits (by decide) (by decide) hc
  simp only [Char.isDigit, Bool.and_eq_true, decide_eq_true_eq] at h
  exact Bool.and_eq_true_iff.mpr ⟨decide_eq_true h.1, decide_eq_true h.2⟩

theorem index?_toString (i : Nat) : index? (toString i) = some i := by
  have hlist : (toString i).toList = Nat.toDigits 10 i := by
    rw [Nat.toString_eq_ofList_toDigits, String.toList_ofList]
  have hdigits : (Nat.toDigits 10 i).all Decimal.isDigit :=
    List.all_eq_true.mpr fun c hc => isDigit_of_mem_toDigits hc
  have hplain : (Nat.toDigits 10 i).head? ≠ some '0' ∨ (Nat.toDigits 10 i).length = 1 := by
    by_cases hi : i = 0
    · subst hi
      exact .inr rfl
    · exact .inl (head?_toDigits_ne_zero hi)
  have hnat : Decimal.natOf (Nat.toDigits 10 i) = i := Nat.ofDigitChars_ten_toDigits
  unfold index?
  rw [hlist]
  simp only [hdigits, hplain, hnat, and_self, Nat.toDigits_ne_nil, ne_eq, not_false_eq_true,
    reduceIte]

theorem follow_of_at? {v w : Json} {path : Path} (h : v.at? path = some w) :
    follow v (path.map Step.token) = some w := by
  induction path generalizing v with
  | nil => exact h
  | cons step path ih =>
    obtain ⟨u, hu, hw⟩ := at?_cons_eq_some.mp h
    have hchild : child? v step.token = some u := by
      unfold step? at hu
      split at hu
      · exact hu
      · next items i => rw [Step.token, child?, index?_toString]; exact hu
      · cases hu
    rw [List.map_cons, follow, hchild]
    exact ih hw

end Pointer

/-- The pointer of a path leads where the path leads. -/
theorem atPointer?_of_at? {v w : Json} {path : Path} (h : v.at? path = some w) :
    v.atPointer? path.pointer = some w := by
  rw [atPointer?, Pointer.tokens?_pointer]
  exact Pointer.follow_of_at? h

end RpcContract.Json
