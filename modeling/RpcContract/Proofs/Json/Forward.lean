import RpcContract.Json.Skip
import RpcContract.Proofs.Outcome

/-! Reading goes forward. What is left of a text after a token, a value or a value that was passed
over is the end of what was left before it. -/

namespace RpcContract.Json.Cursor

/-- Where a read succeeds, what is left afterwards is the end of what was left before. -/
def Forward {α : Type} (left : α → Cursor) (c : Cursor) (r : Except ReadError α) : Prop :=
  ∀ a, r = .ok a → (left a).rest <:+ c.rest

namespace Forward

variable {α β : Type} {left : α → Cursor} {next : β → Cursor} {c c' : Cursor}
  {r : Except ReadError α}

theorem ok {a : α} (h : (left a).rest <:+ c.rest) : Forward left c (.ok a) := by
  rintro _ ⟨⟩
  exact h

theorem refl (a : α) : Forward left (left a) (.ok a) := ok (List.suffix_refl _)

theorem error (e : ReadError) : Forward left c (.error e) := by
  rintro _ ⟨⟩

theorem of_suffix (h : Forward left c' r) (hc : c'.rest <:+ c.rest) : Forward left c r :=
  fun a ha => (h a ha).trans hc

theorem ite {p : Prop} [Decidable p] {r' : Except ReadError α} (h : Forward left c r)
    (h' : Forward left c r') : Forward left c (if p then r else r') := by
  split
  · exact h
  · exact h'

theorem bind {f : α → Except ReadError β} (h : Forward left c r)
    (hf : ∀ a, Forward next (left a) (f a)) : Forward next c (r.bind f) := by
  intro b hb
  obtain ⟨a, ha, hb⟩ := Except.bind_eq_ok_iff.mp hb
  exact (hf a b hb).trans (h a ha)

end Forward

/-! Moves -/

theorem next_suffix (c : Cursor) : c.next.rest <:+ c.rest := by
  obtain ⟨_ | ⟨x, rest⟩, place⟩ := c
  · exact List.suffix_refl []
  · exact List.suffix_cons x rest

theorem length_next {c : Cursor} {x : Char} (h : c.rest.head? = some x) :
    c.next.rest.length < c.rest.length := by
  obtain ⟨_ | ⟨y, rest⟩, place⟩ := c
  · cases h
  · simp [next]

theorem advance_suffix (c : Cursor) (n : Nat) : (c.advance n).rest <:+ c.rest := by
  induction n generalizing c with
  | zero => exact List.suffix_refl _
  | succ n ih => exact (ih c.next).trans (next_suffix c)

theorem past_suffix (c : Cursor) (run : List Char) : (c.past run).rest <:+ c.rest :=
  advance_suffix c run.length

theorem peek_suffix (c : Cursor) : c.peek.2.rest <:+ c.rest := past_suffix c _

theorem next_peek_suffix (c : Cursor) : c.peek.2.next.rest <:+ c.rest :=
  (next_suffix _).trans (peek_suffix c)

theorem forward_word (c : Cursor) (xs : List Char) : Forward id c (c.word xs) := by
  induction xs generalizing c with
  | nil => exact .refl _
  | cons x xs ih =>
    rw [word]
    split
    · exact .error _
    split
    · exact (ih c.next).of_suffix (next_suffix c)
    · exact .error _

/-! Numbers -/

theorem forward_floatOf (c : Cursor) (negative : Bool) (significand : Nat) (exponent : Int) :
    Forward Prod.snd c (floatOf c negative significand exponent) := by
  unfold floatOf
  dsimp only
  split
  · exact .error _
  · exact .refl _

theorem forward_exponentPart (c : Cursor) (negative : Bool) (value : Nat) (exponent : Int) :
    Forward Prod.snd c (c.exponentPart negative value exponent) := by
  intro a ha
  unfold exponentPart at ha
  extract_lets at ha
  split at ha
  next down signed hsign =>
  have hsigned : signed.rest <:+ c.rest := by
    split at hsign <;> obtain ⟨-, rfl⟩ := Prod.mk.inj hsign
    · exact (next_suffix _).trans (next_suffix c)
    · exact (next_suffix _).trans (next_suffix c)
    · exact next_suffix c
  refine Forward.of_suffix ?_ hsigned a ha
  split
  · exact .error _
  split
  · exact .error _
  dsimp only
  split
  · split
    · exact .error _
    · exact .ok (past_suffix _ _)
  · exact (forward_floatOf _ _ _ _).of_suffix (past_suffix _ _)

theorem forward_fractionPart (c : Cursor) (negative : Bool) (value : Nat) (exponent : Int) :
    Forward Prod.snd c (c.fractionPart negative value exponent) := by
  unfold fractionPart
  dsimp only
  split
  · exact .error _
  have hpast : (c.next.past (c.next.rest.takeWhile Decimal.isDigit)).rest <:+ c.rest :=
    (past_suffix _ _).trans (next_suffix c)
  split
  · split
    · exact (forward_exponentPart _ _ _ _).of_suffix hpast
    · exact (forward_floatOf _ _ _ _).of_suffix hpast
  · exact (forward_floatOf _ _ _ _).of_suffix hpast

theorem forward_finish (c : Cursor) (negative : Bool) (value : Nat) (left : List Char) :
    Forward Prod.snd c (number.finish negative c value left) := by
  unfold number.finish
  split
  · exact forward_floatOf _ _ _ _
  split
  · exact .refl _
  split
  · exact forward_floatOf _ _ _ _
  · exact .refl _

theorem forward_number (c : Cursor) (negative : Bool) :
    Forward Prod.snd c (c.number negative) := by
  unfold number
  split
  · exact .error _
  split
  · exact .error _
  split
  · exact .error _
  have hpast := past_suffix c (c.rest.takeWhile Decimal.isDigit)
  dsimp only
  split
  · exact (forward_fractionPart _ _ _ _).of_suffix hpast
  · split
    · exact (forward_exponentPart _ _ _ _).of_suffix hpast
    · exact (forward_finish _ _ _ _).of_suffix hpast
  · exact (forward_finish _ _ _ _).of_suffix hpast

/-! Strings -/

theorem forward_hexEscape (c : Cursor) : Forward Prod.snd c c.hexEscape := by
  unfold hexEscape
  split
  · exact .error _
  split
  · exact .ok (advance_suffix c 4)
  · exact .error _

theorem forward_mark (c : Cursor) (x : Char) : Forward id c (unicodeEscape.mark c x) := by
  unfold unicodeEscape.mark
  split
  · exact .error _
  split
  · exact .ok (next_suffix c)
  · exact .error _

theorem forward_unicodeEscape (c : Cursor) : Forward Prod.snd c c.unicodeEscape := by
  refine (forward_hexEscape c).bind fun ⟨n, c⟩ => ?_
  dsimp only
  split
  · exact .error _
  split
  · refine (forward_mark c _).bind fun c => (forward_mark c _).bind fun c =>
      (forward_hexEscape c).bind fun ⟨m, c⟩ => ?_
    dsimp only
    split
    · exact .error _
    · exact .refl _
  · exact .refl _

theorem forward_escape (c : Cursor) : Forward Prod.snd c c.escape := by
  have hnext : ∀ y : Char, Forward Prod.snd c (.ok (y, c.next)) := fun y => .ok (next_suffix c)
  unfold escape
  split
  · exact .error _
  · exact .ite (hnext _) (.ite (hnext _) (.ite (hnext _) (.ite (hnext _) (.ite (hnext _)
      (.ite (hnext _) (.ite ((forward_unicodeEscape _).of_suffix (next_suffix c))
        (.error _)))))))

theorem forward_stringBody (fuel : Nat) (c : Cursor) (taken : List Char) :
    Forward Prod.snd c (stringBody fuel c taken) := by
  induction fuel generalizing c taken with
  | zero => exact .error _
  | succ fuel ih =>
    rw [stringBody]
    split
    · exact .error _
    split
    · exact .ok (next_suffix c)
    split
    · split
      · next hescape =>
        exact (ih _ _).of_suffix ((forward_escape _ _ hescape).trans (next_suffix c))
      · exact .error _
    split
    · exact .error _
    · exact (ih _ _).of_suffix (next_suffix c)

theorem forward_string (c : Cursor) : Forward Prod.snd c c.string := forward_stringBody _ c []

/-! Items and members -/

theorem forward_colon (c : Cursor) : Forward id c c.colon := by
  unfold colon
  dsimp only
  split
  · exact .ok (next_peek_suffix c)
  · exact .error _

theorem forward_key (c : Cursor) : Forward Prod.snd c c.key :=
  (forward_string c).bind fun ⟨_, c⟩ => (forward_colon c).bind fun c => .refl (_, c)

theorem suffix_of_toItem {c c' : Cursor} {first : Bool} (h : c.toItem first = .ok (some c')) :
    c'.rest <:+ c.rest := by
  unfold toItem at h
  dsimp only at h
  split at h
  · cases h
  split at h
  · split at h
    · cases h
    · obtain rfl := Option.some.inj (Except.ok.inj h)
      exact peek_suffix c
  split at h
  · split at h
    · cases h
    split at h
    · cases h
    · obtain rfl := Option.some.inj (Except.ok.inj h)
      exact (peek_suffix _).trans (next_peek_suffix c)
  · cases h

/-- On the way to a key its opening quote is passed over. -/
theorem exists_of_toKey {c c' : Cursor} {first : Bool} (h : c.toKey first = .ok (some c')) :
    ∃ before : Cursor, before.rest <:+ c.rest ∧ before.rest.head? = some '"' ∧
      c' = before.next := by
  unfold toKey at h
  dsimp only at h
  split at h
  · cases h
  split at h
  · split at h
    · next hquote => exact ⟨_, peek_suffix c, hquote, (Option.some.inj (Except.ok.inj h)).symm⟩
    · cases h
  split at h
  · split at h
    · next hquote =>
      exact ⟨_, (peek_suffix _).trans (next_peek_suffix c), hquote,
        (Option.some.inj (Except.ok.inj h)).symm⟩
    split at h
    · cases h
    · cases h
  · cases h

theorem suffix_of_toKey {c c' : Cursor} {first : Bool} (h : c.toKey first = .ok (some c')) :
    c'.rest <:+ c.rest := by
  obtain ⟨before, hbefore, -, rfl⟩ := exists_of_toKey h
  exact (next_suffix before).trans hbefore

theorem length_of_toKey {c c' : Cursor} {first : Bool} (h : c.toKey first = .ok (some c')) :
    c'.rest.length < c.rest.length := by
  obtain ⟨before, hbefore, hquote, rfl⟩ := exists_of_toKey h
  exact Nat.lt_of_lt_of_le (length_next hquote) hbefore.length_le

/-! Values -/

/-- So many steps go forward. -/
structure ReadsForward (fuel : Nat) : Prop where
  value : ∀ depth c, Forward Prod.snd c (valueWith depth fuel c)
  items : ∀ depth first c taken, Forward Prod.snd c (itemsWith depth fuel first c taken)
  members : ∀ depth first c taken, Forward Prod.snd c (membersWith depth fuel first c taken)

section

variable {fuel : Nat} (h : ReadsForward fuel)

include h

theorem ReadsForward.valueWith_succ (depth : Nat) (c : Cursor) :
    Forward Prod.snd c (valueWith depth (fuel + 1) c) := by
  have hpeek := peek_suffix c
  have hnext := next_peek_suffix c
  have hword : ∀ (v : Json) (xs : List Char),
      Forward Prod.snd c ((c.peek.2.next.word xs).bind fun c => .ok (v, c)) := fun v xs =>
    ((forward_word _ xs).of_suffix hnext).bind fun c => .refl (v, c)
  rw [valueWith]
  dsimp only
  split
  · exact .error _
  · exact hword _ _
  · exact hword _ _
  · exact hword _ _
  · exact ((forward_number _ _).of_suffix hnext).bind fun p => .refl (Json.num p.1, p.2)
  · exact ((forward_string _).of_suffix hnext).bind fun p => .refl (Json.str p.1, p.2)
  · split
    · exact .error _
    · exact (h.items _ _ _ _).of_suffix hnext
  · split
    · exact .error _
    · exact (h.members _ _ _ _).of_suffix hnext
  · split
    · exact ((forward_number _ _).of_suffix hpeek).bind fun p => .refl (Json.num p.1, p.2)
    · exact .error _

theorem ReadsForward.itemsWith_succ (depth : Nat) (first : Bool) (c : Cursor)
    (taken : List Json) : Forward Prod.snd c (itemsWith depth (fuel + 1) first c taken) := by
  rw [itemsWith]
  split
  · exact .error _
  · exact .ok (next_peek_suffix c)
  · next hitem =>
    split
    · exact .error _
    · next hvalue =>
      exact (h.items _ _ _ _).of_suffix ((h.value _ _ _ hvalue).trans (suffix_of_toItem hitem))

theorem ReadsForward.membersWith_succ (depth : Nat) (first : Bool) (c : Cursor)
    (taken : Members) : Forward Prod.snd c (membersWith depth (fuel + 1) first c taken) := by
  rw [membersWith]
  split
  · exact .error _
  · exact .ok (next_peek_suffix c)
  · next hopen =>
    split
    · exact .error _
    · next hkey =>
      split
      · exact .error _
      · next hvalue =>
        exact (h.members _ _ _ _).of_suffix ((h.value _ _ _ hvalue).trans
          ((forward_key _ _ hkey).trans (suffix_of_toKey hopen)))

end

theorem readsForward : ∀ fuel, ReadsForward fuel
  | 0 => ⟨fun _ _ => .error _, fun _ _ _ _ => .error _, fun _ _ _ _ => .error _⟩
  | fuel + 1 =>
    have h := readsForward fuel
    ⟨h.valueWith_succ, h.itemsWith_succ, h.membersWith_succ⟩

theorem forward_value (c : Cursor) (depth : Nat) : Forward Prod.snd c (c.value depth) :=
  (readsForward _).value depth c

/-! What is passed over -/

theorem forward_skipStringBody (fuel : Nat) (c : Cursor) :
    Forward id c (skipStringBody fuel c) := by
  induction fuel generalizing c with
  | zero => exact .error _
  | succ fuel ih =>
    have hnext := next_suffix c
    rw [skipStringBody]
    split
    · exact .error _
    split
    · exact .ok hnext
    split
    · split
      · split
        · next hescape =>
          exact (ih _).of_suffix
            ((forward_hexEscape _ _ hescape).trans ((next_suffix _).trans hnext))
        · exact .error _
      · split
        · next hescape => exact (ih _).of_suffix ((forward_escape _ _ hescape).trans hnext)
        · exact .error _
    split
    · exact .error _
    · exact (ih _).of_suffix hnext

theorem forward_skipString (c : Cursor) : Forward id c c.skipString :=
  forward_skipStringBody _ c

theorem forward_skipExponent (c : Cursor) : Forward id c c.skipExponent := by
  have hnext := next_suffix c
  unfold skipExponent
  dsimp only
  split
  · split
    · split
      · exact .ok ((past_suffix _ _).trans ((next_suffix _).trans hnext))
      · exact .error _
    · split
      · exact .ok ((past_suffix _ _).trans hnext)
      · exact .error _
  · exact .refl _

theorem forward_skipNumber (c : Cursor) : Forward id c c.skipNumber := by
  have hdigits : c.skipDigits.rest <:+ c.rest := past_suffix _ _
  unfold skipNumber
  dsimp only
  split
  · exact .error _
  split
  · exact .error _
  split
  · split
    · exact (forward_skipExponent _).of_suffix
        ((past_suffix _ _).trans ((next_suffix _).trans hdigits))
    · exact .error _
  · exact (forward_skipExponent _).of_suffix hdigits

theorem forward_skipStep (c : Cursor) : Forward Prod.snd c c.skipStep := by
  have hpeek := peek_suffix c
  have hnext := next_peek_suffix c
  have hscalar : ∀ {r : Except ReadError Cursor} {c' : Cursor}, Forward id c' r →
      c'.rest <:+ c.rest →
        Forward (Prod.snd (α := Option Open)) c (r.bind fun c => .ok (none, c)) :=
    fun hr hc => (hr.of_suffix hc).bind fun c => .refl (none, c)
  unfold skipStep
  dsimp only
  split
  · exact .error _
  · exact hscalar (forward_word _ _) hnext
  · exact hscalar (forward_word _ _) hnext
  · exact hscalar (forward_word _ _) hnext
  · exact hscalar (forward_skipNumber _) hnext
  · exact hscalar (forward_skipString _) hnext
  · exact .ok hnext
  · exact .ok hnext
  · split
    · exact hscalar (forward_skipNumber _) hpeek
    · exact .error _

theorem forward_skipClosing (fuel : Nat) (afterValue : Bool) (frames : List Open) (c : Cursor) :
    Forward Prod.snd c (skipClosing fuel afterValue frames c) := by
  induction fuel generalizing afterValue frames c with
  | zero =>
    cases frames with
    | nil => exact .refl _
    | cons frame frames => exact .error _
  | succ fuel ih =>
    have hnext := next_peek_suffix c
    cases frames with
    | nil => exact .refl _
    | cons frame frames =>
      unfold skipClosing
      exact .ite (.ok hnext) (.ite ((ih _ _ _).of_suffix hnext) (.ite (.error _)
        (.ite (.error _) (.ok (peek_suffix c)))))

theorem forward_skipKey (c : Cursor) : Forward id c c.skipKey := by
  unfold skipKey
  dsimp only
  split
  · exact ((forward_skipString _).of_suffix (next_peek_suffix c)).bind
      fun c => forward_colon c
  · exact .error _

theorem forward_skipWith (fuel : Nat) (frames : List Open) (c : Cursor) :
    Forward id c (skipWith fuel frames c) := by
  induction fuel generalizing frames c with
  | zero => exact .error _
  | succ fuel ih =>
    rw [skipWith]
    refine (forward_skipStep c).bind fun ⟨opened, c⟩ =>
      (forward_skipClosing _ _ _ c).bind fun ⟨frames, c⟩ => ?_
    dsimp only
    split
    · exact .refl _
    · exact ih _ c
    · exact (forward_skipKey c).bind fun c => ih _ c

theorem forward_skip (c : Cursor) : Forward id c c.skip := forward_skipWith _ [] c

end RpcContract.Json.Cursor
