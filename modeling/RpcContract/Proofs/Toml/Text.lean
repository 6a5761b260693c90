import RpcContract.Toml.Text

/-! A text that was written as a string is read back, whatever its characters are and whatever
follows it, if that is no quote. -/

namespace RpcContract.Toml

/-- What may follow a string: no quote, which might belong to it. -/
structure EndsString (rest : List Char) : Prop where
  double : rest.head? ≠ some '"'
  single : rest.head? ≠ some '\''

variable {rest : List Char}

/-! Escapes -/

/-- How a character is written in a string with escapes, if not as a plain quote. -/
def escapeOf (block : Bool) (c : Char) : List Char :=
  if c = '"' ∨ c = '\\' then ['\\', c]
  else if c = '\n' then if block then [c] else ['\\', 'n']
  else if c = '\x08' then ['\\', 'b']
  else if c = '\t' then ['\\', 't']
  else if c = '\x0C' then ['\\', 'f']
  else if c = '\r' then ['\\', 'r']
  else if isControl c then codeEscape c
  else [c]

/-- This is a plain quote in a block with fewer than two before it. -/
def PlainQuote (block : Bool) (quotes : Nat) (c : Char) : Prop := c = '"' ∧ block ∧ quotes < 2

theorem escaped_cons {block : Bool} {quotes : Nat} {c : Char} (h : ¬ PlainQuote block quotes c)
    (cs : List Char) :
    escaped block quotes (c :: cs) = escapeOf block c ++ escaped block 0 cs := by
  unfold PlainQuote at h
  unfold escapeOf
  rw [escaped]
  grind

theorem hexDigit?_hexUpper : ∀ d < 16, Json.Cursor.hexDigit? (hexUpper d) = some d := by decide

theorem toNat_lt_of_isControl {c : Char} (h : isControl c) : c.toNat < 128 := by
  simp [isControl] at h
  omega

/-- A character is read back from its escape. -/
theorem escapedFrom_escapeOf (block : Bool) (c : Char) (rest : List Char) :
    escapedFrom block .text (escapeOf block c ++ rest) =
      before c (escapedFrom block .text rest) := by
  unfold escapeOf
  split
  · next h => rcases h with rfl | rfl <;> simp [escapedFrom, shortEscape?]
  split
  · next h =>
    subst h
    cases block <;> simp [escapedFrom, shortEscape?]
  split
  · next h => simp [escapedFrom, shortEscape?, h]
  split
  · next h => simp [escapedFrom, shortEscape?, h]
  split
  · next h => simp [escapedFrom, shortEscape?, h]
  split
  · next h => simp [escapedFrom, shortEscape?, h]
  split
  · next h =>
    have hlt := toNat_lt_of_isControl h
    have hhigh := hexDigit?_hexUpper (c.toNat / 16) (by omega)
    have hlow := hexDigit?_hexUpper (c.toNat % 16) (by omega)
    have hzero : Json.Cursor.hexDigit? '0' = some 0 := by decide
    have hvalid : c.toNat.isValidChar := c.valid
    have hvalue : 16 * (c.toNat / 16) + c.toNat % 16 = c.toNat := by omega
    simp [codeEscape, escapedFrom, shortEscape?, codeLength?, hhigh, hlow, hzero, hvalue, hvalid]
  · next hquote hbreak _ _ _ hreturn hcontrol =>
    obtain ⟨hquote, hslash⟩ := not_or.mp hquote
    simp [escapedFrom, hquote, hslash, hbreak, hreturn, hcontrol]

/-- A quote and a carriage return do not stand for themselves, and no character begins the escape of
another one but a backslash. -/
theorem head?_escapeOf_ne {block : Bool} {c d : Char} (hd : d ≠ '\\')
    (h : d = '"' ∨ d = '\r' ∨ d ≠ c) (rest : List Char) :
    (escapeOf block c ++ rest).head? ≠ some d := by
  unfold escapeOf codeEscape
  grind

/-- A string on one line has no plain quotes. -/
theorem escapedFrom_escaped (cs rest : List Char) :
    escapedFrom false .text (escaped false 0 cs ++ '"' :: rest) = some (cs, rest) := by
  induction cs with
  | nil => simp [escaped, escapedFrom]
  | cons c cs ih =>
    rw [escaped_cons (by simp [PlainQuote]), List.append_assoc, escapedFrom_escapeOf, ih]
    rfl

/-! Blocks. A block ends with three quotes in a row, the last of its quotes if there are more, so
that its text has two in a row at most. -/

theorem afterBlock_of_head?_ne {quote : Char} (h : rest.head? ≠ some quote) :
    afterBlock quote rest = ([], rest) ∧ afterBlock quote (quote :: rest) = ([quote], rest) ∧
      afterBlock quote (quote :: quote :: rest) = ([quote, quote], rest) := by
  match rest with
  | [] => simp [afterBlock]
  | [a] => simp_all [afterBlock]
  | a :: b :: rest => simp_all [afterBlock]

/-- What a block has between its quotes, for a text that is read from it: plain quotes, some of
which come before it, and pieces that are read as one character. -/
inductive Pieces (quote : Char) (read : List Char → Option (List Char × List Char)) :
    Nat → List Char → List Char → Prop where
  | nil {quotes : Nat} : Pieces quote read quotes [] []
  | quote {quotes : Nat} {written text : List Char} (h : quotes < 2)
      (next : Pieces quote read (quotes + 1) written text) :
      Pieces quote read quotes (quote :: written) (quote :: text)
  | piece {quotes : Nat} {piece written text : List Char} {c : Char}
      (hhead : ∀ more, (piece ++ more).head? ≠ some quote)
      (hread : ∀ more, read (piece ++ more) = before c (read more))
      (next : Pieces quote read 0 written text) :
      Pieces quote read quotes (piece ++ written) (c :: text)

/-- Where a quote begins, the block ends if three are in a row. -/
def Closes (quote : Char) (read : List Char → Option (List Char × List Char)) : Prop :=
  ∀ more, read (quote :: more) =
    if more.take 2 = [quote, quote] then some (afterBlock quote (more.drop 2))
    else before quote (read more)

theorem take_two_ne {quote : Char} {cs : List Char} (h : cs.head? ≠ some quote) :
    cs.take 2 ≠ [quote, quote] ∧ (quote :: cs).take 2 ≠ [quote, quote] := by
  cases cs with
  | nil => simp
  | cons c cs =>
    have hc : c ≠ quote := by simpa using h
    simp [hc]

theorem Pieces.read_eq {quote : Char} {read : List Char → Option (List Char × List Char)}
    (hcloses : Closes quote read) (hrest : rest.head? ≠ some quote) {quotes : Nat}
    {written text : List Char} (h : Pieces quote read quotes written text) :
    read (written ++ quote :: quote :: quote :: rest) = some (text, rest) := by
  obtain ⟨hnone, hone, htwo⟩ := afterBlock_of_head?_ne hrest
  induction h with
  | nil => simp [hcloses _, hnone]
  | piece _ hread _ ih =>
    rw [List.append_assoc, hread, ih]
    rfl
  | quote h next ih =>
    rw [List.cons_append, hcloses]
    cases next with
    | nil => simp [hone]
    | piece hhead =>
      rw [if_neg, ih]
      · rfl
      · rw [List.append_assoc]
        exact (take_two_ne (hhead _)).1
    | quote h next =>
      cases next with
      | nil => simp [htwo]
      | quote h => omega
      | piece hhead =>
        rw [if_neg, ih]
        · rfl
        · rw [List.cons_append, List.append_assoc]
          exact (take_two_ne (hhead _)).2

theorem closes_escapedFrom : Closes '"' (escapedFrom true .text) := by
  intro more
  simp [escapedFrom]

theorem closes_literalFrom : Closes '\'' (literalFrom true) := by
  intro more
  simp [literalFrom]

theorem pieces_escaped (quotes : Nat) (cs : List Char) :
    Pieces '"' (escapedFrom true .text) quotes (escaped true quotes cs) cs := by
  induction cs generalizing quotes with
  | nil => exact .nil
  | cons c cs ih =>
    by_cases h : PlainQuote true quotes c
    · obtain ⟨rfl, -, h⟩ := h
      have hquote : escaped true quotes ('"' :: cs) = '"' :: escaped true (quotes + 1) cs := by
        simp [escaped, h]
      exact hquote ▸ .quote h (ih _)
    · rw [escaped_cons h]
      exact .piece (head?_escapeOf_ne (by decide) (.inl rfl)) (escapedFrom_escapeOf true c) (ih 0)

theorem le_longestRun (x : Char) (now : Nat) (cs : List Char) : now ≤ longestRun x now cs := by
  induction cs generalizing now with
  | nil => exact Nat.le_refl _
  | cons c cs ih =>
    have := ih (now + 1)
    rw [longestRun]
    split <;> omega

theorem pieces_literal {quotes : Nat} {cs : List Char} (hrun : longestRun '\'' quotes cs ≤ 2)
    (hplain : ∀ c ∈ cs, isControl c → c = '\n') :
    Pieces '\'' (literalFrom true) quotes cs cs := by
  induction cs generalizing quotes with
  | nil => exact .nil
  | cons c cs ih =>
    obtain ⟨hc, hcs⟩ := List.forall_mem_cons.mp hplain
    rw [longestRun] at hrun
    split at hrun
    · next hquote =>
      have := le_longestRun '\'' (quotes + 1) cs
      subst hquote
      exact .quote (by omega) (ih hrun hcs)
    · next hquote =>
      change Pieces '\'' (literalFrom true) quotes ([c] ++ cs) (c :: cs)
      refine .piece (by simpa using hquote) (fun more => ?_)
        (ih (by omega) hcs)
      have hreturn : c ≠ '\r' := fun h => absurd (hc (h ▸ by decide)) (h ▸ by decide)
      by_cases hbreak : c = '\n'
      · simp [literalFrom, hbreak]
      · simp [literalFrom, hquote, hreturn, hbreak, mt hc hbreak]

/-- Text without quotes, breaks and control characters stands between quotes as it is. -/
theorem literalFrom_append {cs : List Char} (hrun : longestRun '\'' 0 cs = 0)
    (hplain : ∀ c ∈ cs, ¬ isControl c) (rest : List Char) :
    literalFrom false (cs ++ '\'' :: rest) = some (cs, rest) := by
  induction cs with
  | nil => simp [literalFrom]
  | cons c cs ih =>
    obtain ⟨hc, hplain⟩ := List.forall_mem_cons.mp hplain
    rw [longestRun] at hrun
    split at hrun
    · have := le_longestRun '\'' (0 + 1) cs
      omega
    · next hquote =>
      rw [List.cons_append, literalFrom, ih (by omega) hplain]
      simp [hquote, hc, before]

/-! The whole string -/

theorem skipBreak_eq_self {cs : List Char} (hbreak : cs.head? ≠ some '\n')
    (hreturn : cs.head? ≠ some '\r') : skipBreak cs = cs := by
  unfold skipBreak lineBreak?
  split <;> simp_all

/-- The line break that is put before a block of several lines is passed over, and no other. -/
theorem skipBreak_blockStart (cs : List Char) {written : List Char}
    (hbreak : '\n' ∉ cs → written.head? ≠ some '\n') (hreturn : written.head? ≠ some '\r') :
    skipBreak (blockStart cs ++ written) = written := by
  unfold blockStart
  by_cases h : '\n' ∈ cs
  · simp [h, skipBreak, lineBreak?]
  · simpa [h] using skipBreak_eq_self (hbreak h) hreturn

theorem head?_escaped_ne {cs : List Char} {d : Char} (hd : d ≠ '\\') (hquote : d ≠ '"')
    (h : d = '\r' ∨ d ∉ cs) (quotes : Nat) (rest : List Char) :
    (escaped true quotes cs ++ '"' :: rest).head? ≠ some d := by
  cases cs with
  | nil => simpa [escaped] using hquote.symm
  | cons c cs =>
    by_cases hplain : PlainQuote true quotes c
    · obtain ⟨rfl, -, hplain⟩ := hplain
      simpa [escaped, hplain] using hquote.symm
    · rw [escaped_cons hplain, List.append_assoc]
      exact head?_escapeOf_ne hd (h.elim (.inr ∘ .inl) fun h => .inr (.inr (by grind))) _

/-- A quote begins a string on one line if no two of its kind follow. -/
theorem string?_cons {quote : Char} {cs : List Char} (h : cs.take 2 ≠ [quote, quote]) :
    string? (quote :: cs) = shortString? (quote :: cs) := by
  unfold string?
  split <;> simp_all

/-- What a style asks of a text that it writes as it is. -/
theorem plain_of_styleOf {cs : List Char} :
    (styleOf cs = .literal → longestRun '\'' 0 cs = 0 ∧ ∀ c ∈ cs, ¬ isControl c) ∧
      (styleOf cs = .literalBlock →
        longestRun '\'' 0 cs ≤ 2 ∧ ∀ c ∈ cs, isControl c → c = '\n') := by
  have hcodes : (cs.any fun c => isControl c && c != '\n') = false →
      ∀ c ∈ cs, isControl c → c = '\n' := by
    intro h c hc hcontrol
    simpa [hcontrol] using List.any_eq_false.mp h c hc
  have hlines : cs.contains '\n' = false → ∀ c ∈ cs, c ≠ '\n' := by
    rintro h c hc rfl
    simp [hc] at h
  unfold styleOf
  grind

section

variable {cs : List Char} (h : EndsString rest)

include h

theorem string?_basic :
    string? ('"' :: (escaped false 0 cs ++ '"' :: rest)) = some (cs, rest) := by
  have htwo : (escaped false 0 cs ++ '"' :: rest).take 2 ≠ ['"', '"'] := by
    cases cs with
    | nil => exact (take_two_ne h.double).2
    | cons c cs =>
      rw [escaped_cons (by simp [PlainQuote]), List.append_assoc]
      exact (take_two_ne (head?_escapeOf_ne (by decide) (.inl rfl) _)).1
  rw [string?_cons htwo]
  simp [shortString?, escapedFrom_escaped]

theorem string?_literal (hrun : longestRun '\'' 0 cs = 0) (hplain : ∀ c ∈ cs, ¬ isControl c) :
    string? ('\'' :: (cs ++ '\'' :: rest)) = some (cs, rest) := by
  have htwo : (cs ++ '\'' :: rest).take 2 ≠ ['\'', '\''] := by
    cases cs with
    | nil => exact (take_two_ne h.single).2
    | cons c cs =>
      have hquote : c ≠ '\'' := by
        rintro rfl
        have := le_longestRun '\'' (0 + 1) cs
        rw [longestRun, if_pos rfl] at hrun
        omega
      exact (take_two_ne (by simpa using hquote)).1
  rw [string?_cons htwo]
  simp [shortString?, literalFrom_append hrun hplain]

theorem string?_basicBlock :
    string? ('"' :: '"' :: '"' :: (blockStart cs ++ (escaped true 0 cs ++
      '"' :: '"' :: '"' :: rest))) = some (cs, rest) := by
  have hskip := skipBreak_blockStart cs
    (fun hbreak => head?_escaped_ne (by decide) (by decide) (.inr hbreak) 0 ('"' :: '"' :: rest))
    (head?_escaped_ne (by decide) (by decide) (.inl rfl) 0 _)
  have hread := (pieces_escaped 0 cs).read_eq closes_escapedFrom h.double
  simp [string?, hskip, hread]

theorem string?_literalBlock (hrun : longestRun '\'' 0 cs ≤ 2)
    (hplain : ∀ c ∈ cs, isControl c → c = '\n') :
    string? ('\'' :: '\'' :: '\'' :: (blockStart cs ++ (cs ++ '\'' :: '\'' :: '\'' :: rest))) =
      some (cs, rest) := by
  have hbreak : '\n' ∉ cs → (cs ++ '\'' :: '\'' :: '\'' :: rest).head? ≠ some '\n' := by
    cases cs <;> grind
  have hreturn : (cs ++ '\'' :: '\'' :: '\'' :: rest).head? ≠ some '\r' := by
    cases cs with
    | nil => simp
    | cons c cs =>
      have hne : c ≠ '\r' := fun h => by simpa [h] using hplain c (by simp) (h ▸ by decide)
      simpa using hne
  have hskip := skipBreak_blockStart cs hbreak hreturn
  have hread := (pieces_literal hrun hplain).read_eq closes_literalFrom h.single
  simp [string?, hskip, hread]

end

/-- A text is read back from its string, in whichever way it was written. -/
theorem string?_quotedText (cs : List Char) (h : EndsString rest) :
    string? (quotedText cs ++ rest) = some (cs, rest) := by
  unfold quotedText
  split
  · simpa using string?_basic h
  · next hstyle =>
    obtain ⟨hrun, hplain⟩ := plain_of_styleOf.1 hstyle
    simpa using string?_literal h hrun hplain
  · simpa using string?_basicBlock h
  · next hstyle =>
    obtain ⟨hrun, hplain⟩ := plain_of_styleOf.2 hstyle
    simpa using string?_literalBlock h hrun hplain

end RpcContract.Toml
