import RpcContract.Proofs.Toml.Text
import RpcContract.Toml.Printer
import RpcContract.Toml.Reader

/-! A document that was written is read back: every section as a table, with its entries in their
order. The names are to be such as need no quotes, and no two of one kind the same. -/

namespace RpcContract.Toml

/-! Keys -/

/-- A name that is written without quotes. -/
def IsKey (name : String) : Prop := name.toList ≠ [] ∧ ∀ c ∈ name.toList, isKeyChar c

instance : DecidablePred IsKey := fun name =>
  @instDecidableAnd _ _ _ (List.decidableBAll (isKeyChar ·) name.toList)

theorem skipBlanks_cons {c : Char} (h : ¬ isBlank c) (cs : List Char) :
    skipBlanks (c :: cs) = c :: cs := by
  simp [skipBlanks, h]

theorem skipBlanks_cons_of_isBlank {c : Char} (h : isBlank c) (cs : List Char) :
    skipBlanks (c :: cs) = skipBlanks cs := by
  simp [skipBlanks, h]

/-- What begins a key begins nothing else. -/
theorem ne_of_isKeyChar {c : Char} (h : isKeyChar c) :
    ¬ isBlank c ∧ c ≠ '"' ∧ c ≠ '\'' ∧ c ≠ '#' ∧ c ≠ '\n' ∧ c ≠ '\r' ∧ c ≠ '[' := by
  refine ⟨fun hblank => ?_, ?_⟩
  · simp only [isBlank, Bool.or_eq_true, decide_eq_true_eq] at hblank
    rcases hblank with rfl | rfl <;> exact absurd h (by decide)
  · refine ⟨?_, ?_, ?_, ?_, ?_, ?_⟩ <;> rintro rfl <;> exact absurd h (by decide)

theorem simpleKey?_append {name : String} (h : IsKey name) {c : Char} (hc : ¬ isKeyChar c)
    (rest : List Char) : simpleKey? (name.toList ++ c :: rest) = some (name, c :: rest) := by
  obtain ⟨hne, hall⟩ := h
  obtain ⟨d, cs, hname⟩ := List.exists_cons_of_ne_nil hne
  obtain ⟨-, hdouble, hsingle, -⟩ := ne_of_isKeyChar (hall d (hname ▸ List.mem_cons_self))
  have hquote : shortString? (name.toList ++ c :: rest) = none := by
    rw [hname, List.cons_append]
    unfold shortString?
    split <;> simp_all
  have htake : (name.toList ++ c :: rest).takeWhile isKeyChar = name.toList := by
    rw [List.takeWhile_append_of_pos hall]
    simp [hc]
  have hdrop : (name.toList ++ c :: rest).dropWhile isKeyChar = c :: rest := by
    rw [List.dropWhile_append_of_pos hall]
    simp [hc]
  simp [simpleKey?, hquote, htake, hdrop, hne]

/-- A key is read up to a character that ends it. -/
theorem key?_append {name : String} (h : IsKey name) {c d : Char} {cs rest : List Char}
    (hc : ¬ isKeyChar c) (hskip : skipBlanks (c :: cs) = d :: rest) (hd : d ≠ '.') :
    key? (name.toList ++ c :: cs) = some ([name], d :: rest) := by
  have hblanks : skipBlanks (name.toList ++ c :: cs) = name.toList ++ c :: cs := by
    obtain ⟨e, es, hname⟩ := List.exists_cons_of_ne_nil h.1
    rw [hname]
    exact skipBlanks_cons (ne_of_isKeyChar (h.2 e (hname ▸ List.mem_cons_self))).1 _
  rw [key?, keyFrom, hblanks, simpleKey?_append h hc]
  simp only [Option.bind_eq_bind, Option.bind_some, hskip]
  split
  · next heq => exact absurd (List.cons.inj heq).1 hd
  · rfl

/-! Values -/

/-- What an item is in a document. -/
def Item.value : Item → Value
  | .text s => .text s
  | .flag b => .bool b
  | .texts list => .array (list.map .text)

/-- A character at which the passing over of blanks, comments and empty lines stops. -/
def Stops (c : Char) : Prop := ¬ isBlank c ∧ c ≠ '#' ∧ c ≠ '\n' ∧ c ≠ '\r'

instance : DecidablePred Stops := fun _ => inferInstanceAs (Decidable (_ ∧ _))

theorem skipLines_cons {c : Char} (h : Stops c) (fuel : Nat) (cs : List Char) :
    skipLines (fuel + 1) (c :: cs) = some (c :: cs) := by
  obtain ⟨hblank, hcomment, hbreak, hreturn⟩ := h
  rw [skipLines, skipBlanks_cons hblank]
  split <;> simp_all

theorem quotedText_eq_cons (cs : List Char) :
    ∃ quote more, quotedText cs = quote :: more ∧ (quote = '"' ∨ quote = '\'') := by
  unfold quotedText
  split
  · exact ⟨_, _, rfl, .inl rfl⟩
  · exact ⟨_, _, rfl, .inr rfl⟩
  · exact ⟨_, _, rfl, .inl rfl⟩
  · exact ⟨_, _, rfl, .inr rfl⟩

variable {rest : List Char}

theorem valueFrom_quotedString (depth fuel : Nat) (s : String) (h : EndsString rest) :
    valueFrom depth (fuel + 1) (quotedString s ++ rest) = some (.text s, rest) := by
  have hread := string?_quotedText s.toList h
  obtain ⟨quote, more, hquoted, hquote⟩ := quotedText_eq_cons s.toList
  rw [hquoted, List.cons_append] at hread
  rw [quotedString, hquoted, List.cons_append, valueFrom, if_pos hquote, hread]
  simp

theorem skipLines_quotedString (fuel : Nat) (s : String) :
    skipLines (fuel + 1) (quotedString s ++ rest) = some (quotedString s ++ rest) := by
  obtain ⟨quote, more, hquoted, hquote⟩ := quotedText_eq_cons s.toList
  rw [quotedString, hquoted, List.cons_append]
  exact skipLines_cons (by rcases hquote with rfl | rfl <;> decide) _ _

theorem skipLines_blank {c : Char} (h : isBlank c) (fuel : Nat) (cs : List Char) :
    skipLines (fuel + 1) (c :: cs) = skipLines (fuel + 1) cs := by
  rw [skipLines, skipLines, skipBlanks_cons_of_isBlank h]

theorem skipLines_break (fuel : Nat) (cs : List Char) :
    skipLines (fuel + 1) ('\n' :: cs) = skipLines fuel cs := by
  rw [skipLines, skipBlanks_cons (by decide)]
  rfl

/-- An item that is a text is the last one before a bracket, and one of several before a comma. -/
theorem itemsFrom_quotedString {depth fuel : Nat} {cs : List Char} {s : String} {c : Char}
    (hc : Stops c ∧ EndsString (c :: rest))
    (hskip : skipLines (cs.length + 1) cs = some (quotedString s ++ c :: rest)) :
    (c = ']' → itemsFrom depth (fuel + 2) cs = some ([.text s], rest)) ∧
      ∀ items more, c = ',' → itemsFrom depth (fuel + 1) rest = some (items, more) →
        itemsFrom depth (fuel + 2) cs = some (.text s :: items, more) := by
  have hvalue := valueFrom_quotedString depth fuel s hc.2
  obtain ⟨quote, tail, hquoted, hquote⟩ := quotedText_eq_cons s.toList
  -- a string is not taken for the end of the list
  have hbracket : ∀ more, quotedString s ++ c :: rest ≠ ']' :: more := by
    intro more heq
    rw [quotedString, hquoted] at heq
    rcases hquote with rfl | rfl <;> simp at heq
  rw [itemsFrom, hskip]
  simp only [Option.bind_eq_bind, Option.bind_some, hvalue, skipLines_cons hc.1]
  refine ⟨?_, ?_⟩
  · rintro rfl
    rfl
  · rintro items more rfl hitems
    simp only [hitems]
    rfl

theorem itemsFrom_textLines (depth : Nat) (list : List String) {fuel : Nat}
    (hfuel : list.length < fuel) :
    itemsFrom depth fuel ('\n' :: textLines list ++ ']' :: rest) =
      some (list.map .text, rest) := by
  induction list generalizing fuel with
  | nil =>
    obtain ⟨fuel, rfl⟩ := Nat.exists_eq_add_of_lt hfuel
    simp [itemsFrom, textLines, skipLines, skipBlanks, isBlank]
  | cons s list ih =>
    obtain ⟨fuel, rfl⟩ : ∃ n, fuel = n + 2 := ⟨fuel - 2, by simp at hfuel; omega⟩
    have hnext := ih (show list.length < fuel + 1 by simpa using hfuel)
    have htext : '\n' :: textLines (s :: list) ++ ']' :: rest =
        '\n' :: ' ' :: ' ' :: ' ' :: ' ' :: (quotedString s ++
          ',' :: ('\n' :: textLines list ++ ']' :: rest)) := by
      simp [textLines]
    refine (itemsFrom_quotedString ⟨by decide, by simp, by simp⟩ ?_).2 _ _ rfl hnext
    rw [htext, List.length_cons, skipLines_break, List.length_cons, skipLines_blank (by decide),
      skipLines_blank (by decide), skipLines_blank (by decide), skipLines_blank (by decide),
      skipLines_quotedString]

theorem length_le_textLines (list : List String) : list.length ≤ (textLines list).length := by
  induction list with
  | nil => simp
  | cons s list ih => simp [textLines]; omega

/-- An item is read up to the end of its line. -/
theorem valueFrom_written (item : Item) {fuel : Nat} (hfuel : item.written.length < fuel) :
    valueFrom 0 fuel (item.written ++ '\n' :: rest) = some (item.value, '\n' :: rest) := by
  obtain ⟨fuel, rfl⟩ : ∃ n, fuel = n + 1 := ⟨fuel - 1, by omega⟩
  match item with
  | .text s => exact valueFrom_quotedString 0 fuel s ⟨by simp, by simp⟩
  | .flag b =>
    cases b <;> simp +decide [Item.written, Item.value, valueFrom, scalar?, scalarOf?]
  | .texts [] =>
    obtain ⟨fuel, rfl⟩ : ∃ n, fuel = n + 1 := ⟨fuel - 1, by simp [Item.written] at hfuel; omega⟩
    simp [Item.written, Item.value, valueFrom, itemsFrom, skipLines, skipBlanks, isBlank, maxDepth]
  | .texts [s] =>
    obtain ⟨fuel, rfl⟩ : ∃ n, fuel = n + 2 := ⟨fuel - 2, by simp [Item.written] at hfuel; omega⟩
    have hitems : itemsFrom 1 (fuel + 2) (quotedString s ++ ']' :: '\n' :: rest) =
        some ([.text s], '\n' :: rest) :=
      (itemsFrom_quotedString ⟨by decide, by simp, by simp⟩ (skipLines_quotedString _ s)).1 rfl
    simp [Item.written, Item.value, valueFrom, maxDepth, hitems]
  | .texts (s :: t :: list) =>
    have hlength := length_le_textLines (s :: t :: list)
    have hitems : itemsFrom 1 fuel ('\n' :: textLines (s :: t :: list) ++ ']' :: '\n' :: rest) =
        some ((s :: t :: list).map .text, '\n' :: rest) :=
      itemsFrom_textLines 1 _ (by simp [Item.written] at hfuel hlength ⊢; omega)
    have hwritten : (Item.texts (s :: t :: list)).written ++ '\n' :: rest =
        '[' :: ('\n' :: textLines (s :: t :: list) ++ ']' :: '\n' :: rest) := by
      simp [Item.written]
    rw [hwritten, valueFrom, hitems]
    simp [maxDepth, Item.value]

/-! Lines -/

/-- The lines that a text is read as, with any room for them. -/
def Reads (cs : List Char) (lines : List Line) : Prop :=
  ∀ fuel, cs.length < fuel → linesFrom fuel cs = some lines

variable {cs : List Char} {lines : List Line}

theorem lineEnd?_break (rest : List Char) : lineEnd? ('\n' :: rest) = some rest := by
  simp [lineEnd?, skipBlanks, isBlank, comment, lineBreak?]

theorem reads_nil : Reads [] [] := by
  intro fuel hfuel
  obtain ⟨fuel, rfl⟩ := Nat.exists_eq_add_of_lt hfuel
  simp [linesFrom, skipBlanks]

theorem reads_break (h : Reads cs lines) : Reads ('\n' :: cs) lines := by
  intro fuel hfuel
  obtain ⟨fuel, rfl⟩ : ∃ n, fuel = n + 1 := ⟨fuel - 1, by simp at hfuel; omega⟩
  rw [linesFrom, skipBlanks_cons (by decide), ← h fuel (by simpa using hfuel)]
  simp [lineEnd?_break]

theorem reads_line {c : Char} {written : List Char} {line : Line} (hc : Stops c)
    (hline : line? (c :: written ++ '\n' :: cs) = some (line, '\n' :: cs)) (h : Reads cs lines) :
    Reads (c :: written ++ '\n' :: cs) (line :: lines) := by
  intro fuel hfuel
  obtain ⟨fuel, rfl⟩ : ∃ n, fuel = n + 1 := ⟨fuel - 1, by simp at hfuel; omega⟩
  obtain ⟨hblank, hcomment, hbreak, hreturn⟩ := hc
  have hend : lineEnd? (c :: (written ++ '\n' :: cs)) = none := by
    rw [lineEnd?, skipBlanks_cons hblank]
    simp [comment, lineBreak?, hcomment, hbreak, hreturn]
  have hlines := h fuel (by simp at hfuel; omega)
  rw [List.cons_append] at hline ⊢
  rw [linesFrom, skipBlanks_cons hblank]
  simp [hend, hline, lineEnd?_break, hlines]

theorem stops_of_isKeyChar {c : Char} (h : isKeyChar c) : Stops c := by
  obtain ⟨hblank, -, -, hcomment, hbreak, hreturn, -⟩ := ne_of_isKeyChar h
  exact ⟨hblank, hcomment, hbreak, hreturn⟩

theorem exists_written_eq_cons (item : Item) : ∃ c more, item.written = c :: more ∧ Stops c := by
  match item with
  | .text s =>
    obtain ⟨quote, more, hquoted, hquote⟩ := quotedText_eq_cons s.toList
    exact ⟨quote, more, hquoted, by rcases hquote with rfl | rfl <;> decide⟩
  | .flag true => exact ⟨'t', _, rfl, by decide⟩
  | .flag false => exact ⟨'f', _, rfl, by decide⟩
  | .texts [] => exact ⟨'[', _, rfl, by decide⟩
  | .texts [s] => exact ⟨'[', _, rfl, by decide⟩
  | .texts (s :: t :: list) => exact ⟨'[', _, rfl, by decide⟩

theorem pair?_written {key : String} (hkey : IsKey key) (item : Item) (rest : List Char) :
    pair? (key.toList ++ ' ' :: '=' :: ' ' :: (item.written ++ '\n' :: rest)) =
      some (.pair [key] item.value, '\n' :: rest) := by
  have hread : key? (key.toList ++ ' ' :: '=' :: ' ' :: (item.written ++ '\n' :: rest)) =
      some ([key], '=' :: ' ' :: (item.written ++ '\n' :: rest)) :=
    key?_append hkey (by decide) rfl (by decide)
  have hblanks : skipBlanks (' ' :: (item.written ++ '\n' :: rest)) =
      item.written ++ '\n' :: rest := by
    obtain ⟨c, more, hwritten, hc⟩ := exists_written_eq_cons item
    rw [hwritten, skipBlanks_cons_of_isBlank (by decide)]
    exact skipBlanks_cons hc.1 _
  have hvalue : valueFrom 0 ((item.written ++ '\n' :: rest).length + 1)
      (item.written ++ '\n' :: rest) = some (item.value, '\n' :: rest) :=
    valueFrom_written item (by simp only [List.length_append, List.length_cons]; omega)
  simp only [pair?, hread, Option.bind_eq_bind, Option.bind_some, hblanks, hvalue]

theorem reads_entry {key : String} (hkey : IsKey key) (item : Item) (h : Reads rest lines) :
    Reads (key.toList ++ ' ' :: '=' :: ' ' :: (item.written ++ '\n' :: rest))
      (.pair [key] item.value :: lines) := by
  have hpair := pair?_written hkey item rest
  obtain ⟨c, name, hname⟩ := List.exists_cons_of_ne_nil hkey.1
  have hc := hkey.2 c (hname ▸ List.mem_cons_self)
  have hassoc : key.toList ++ ' ' :: '=' :: ' ' :: (item.written ++ '\n' :: rest) =
      c :: (name ++ ' ' :: '=' :: ' ' :: item.written) ++ '\n' :: rest := by
    simp [hname]
  rw [hassoc] at hpair ⊢
  refine reads_line (stops_of_isKeyChar hc) ?_ h
  have hhead : c ≠ '[' := (ne_of_isKeyChar hc).2.2.2.2.2.2
  rw [line?, if_neg (by simpa using hhead), hpair]

/-- The lines of entries. -/
def pairs (entries : List (String × Item)) : List Line :=
  entries.map fun e => .pair [e.1] e.2.value

theorem reads_entries {entries : List (String × Item)} (hkeys : ∀ e ∈ entries, IsKey e.1)
    (h : Reads rest lines) :
    Reads (entriesWritten entries ++ rest) (pairs entries ++ lines) := by
  induction entries with
  | nil => exact h
  | cons e entries ih =>
    obtain ⟨hkey, hkeys⟩ := List.forall_mem_cons.mp hkeys
    have hnext := reads_entry hkey e.2 (ih hkeys)
    simpa [entriesWritten, pairs] using hnext

/-- Names that need no quotes. -/
structure Section.Plain (s : Section) : Prop where
  name : IsKey s.name
  keys : ∀ e ∈ s.entries, IsKey e.1

def linesOf (s : Section) : List Line := .header [s.name] :: pairs s.entries

theorem reads_section {s : Section} (hs : s.Plain) (h : Reads rest lines) :
    Reads (s.written ++ rest) (linesOf s ++ lines) := by
  have hread : key? (s.name.toList ++ ']' :: '\n' :: (entriesWritten s.entries ++ rest)) =
      some ([s.name], ']' :: '\n' :: (entriesWritten s.entries ++ rest)) :=
    key?_append hs.name (by decide) rfl (by decide)
  have hassoc : s.written ++ rest =
      '[' :: (s.name.toList ++ [']']) ++ '\n' :: (entriesWritten s.entries ++ rest) := by
    simp [Section.written]
  have hheader : header? ('[' :: (s.name.toList ++ [']']) ++
      '\n' :: (entriesWritten s.entries ++ rest)) =
      some (.header [s.name], '\n' :: (entriesWritten s.entries ++ rest)) := by
    obtain ⟨c, name, hname⟩ := List.exists_cons_of_ne_nil hs.name.1
    have hhead : c ≠ '[' :=
      (ne_of_isKeyChar (hs.name.2 c (hname ▸ List.mem_cons_self))).2.2.2.2.2.2
    rw [hname, List.cons_append] at hread
    simp [header?, hname, hhead, hread]
  rw [hassoc]
  have hstops : Stops '[' := by decide
  exact reads_line hstops hheader (reads_entries hs.keys h)

theorem reads_sections {sections : List Section} (hs : ∀ s ∈ sections, s.Plain) :
    Reads (sectionsWritten sections) (sections.flatMap linesOf) := by
  induction sections with
  | nil => exact reads_nil
  | cons s sections ih =>
    obtain ⟨hhead, hrest⟩ := List.forall_mem_cons.mp hs
    cases sections with
    | nil => simpa [sectionsWritten] using reads_section hhead reads_nil
    | cons t sections =>
      have hnext := reads_section hhead (reads_break (ih hrest))
      rwa [List.flatMap_cons]

/-! Tables -/

namespace Entries

theorem get?_eq_none {es : Entries} {key : String} (h : key ∉ es.map Prod.fst) :
    get? es key = none := by
  rw [get?, List.lookup_eq_none_iff]
  intro e he
  have hne : key ≠ e.1 := fun heq => h (heq ▸ List.mem_map_of_mem he)
  simpa using hne

theorem addPair_eq {es : Entries} {key : String} (h : key ∉ es.map Prod.fst) (v : Value) :
    addPair es [key] v = some (es ++ [(key, .value v)]) := by
  simp [addPair, update, get?_eq_none h]

/-- What entries are in a table. -/
def ofItems (entries : List (String × Item)) : Entries :=
  entries.map fun e => (e.1, .value e.2.value)

theorem addPairs_eq {entries : List (String × Item)} {es : Entries}
    (h : (es.map Prod.fst ++ entries.map Prod.fst).Nodup) :
    addPairs (entries.map fun e => ([e.1], e.2.value)) es = some (es ++ ofItems entries) := by
  induction entries generalizing es with
  | nil => simp [addPairs, ofItems]
  | cons e entries ih =>
    have hnot : e.1 ∉ es.map Prod.fst := by
      rw [List.map_cons, List.nodup_append] at h
      exact fun hmem => h.2.2 _ hmem _ List.mem_cons_self rfl
    have hnext := ih (show ((es ++ [(e.1, Entry.value e.2.value)]).map Prod.fst ++
      entries.map Prod.fst).Nodup by simpa using h)
    simp [addPairs, addPair_eq hnot, hnext, ofItems]

theorem splitPairs_pairs (entries : List (String × Item)) {lines : List Line}
    (h : splitPairs lines = ([], lines)) :
    splitPairs (pairs entries ++ lines) =
      (entries.map fun e => ([e.1], e.2.value), lines) := by
  induction entries with
  | nil => exact h
  | cons e entries ih =>
    have hcons : splitPairs (pairs (e :: entries) ++ lines) =
        (([e.1], e.2.value) :: (splitPairs (pairs entries ++ lines)).1,
          (splitPairs (pairs entries ++ lines)).2) := rfl
    rw [hcons, ih]
    rfl

theorem splitPairs_sections (sections : List Section) :
    splitPairs (sections.flatMap linesOf) = ([], sections.flatMap linesOf) := by
  cases sections <;> rfl

/-- What a section is in a document. -/
def ofSection (s : Section) : String × Entry := (s.name, .table .defined (ofItems s.entries))

theorem addTable_eq {es : Entries} {s : Section} (h : s.name ∉ es.map Prod.fst)
    (hs : (s.entries.map Prod.fst).Nodup) :
    addTable es [s.name] (s.entries.map fun e => ([e.1], e.2.value)) =
      some (es ++ [ofSection s]) := by
  have hpairs : addPairs (s.entries.map fun e => ([e.1], e.2.value)) [] =
      some ([] ++ ofItems s.entries) := addPairs_eq (by simpa using hs)
  simp [addTable, update, get?_eq_none h, hpairs, ofSection]

theorem addSections_eq {sections : List Section} {es : Entries}
    (h : (es.map Prod.fst ++ sections.map (·.name)).Nodup)
    (hs : ∀ s ∈ sections, (s.entries.map Prod.fst).Nodup) :
    addSections es (sections.flatMap linesOf) = some (es ++ sections.map ofSection) := by
  induction sections generalizing es with
  | nil => simp [addSections]
  | cons s sections ih =>
    obtain ⟨hhead, hrest⟩ := List.forall_mem_cons.mp hs
    have hnot : s.name ∉ es.map Prod.fst := by
      rw [List.map_cons, List.nodup_append] at h
      exact fun hmem => h.2.2 _ hmem _ List.mem_cons_self rfl
    have hsplit := splitPairs_pairs s.entries (splitPairs_sections sections)
    have hnext := ih (show ((es ++ [ofSection s]).map Prod.fst ++
      sections.map (·.name)).Nodup by simpa [ofSection] using h) hrest
    rw [List.flatMap_cons, linesOf, List.cons_append, addSections, hsplit]
    simp [addTable_eq hnot hhead, hnext]

theorem close_eq_map (es : Entries) : close es = es.map fun e => (e.1, closeEntry e.2) := by
  induction es with
  | nil => rfl
  | cons e es ih => rw [List.map_cons, ← ih, close]

end Entries

/-- The table of a section. -/
def Section.table (s : Section) : String × Value :=
  (s.name, .table (s.entries.map fun e => (e.1, e.2.value)))

/-- Names are told apart. -/
structure Distinct (sections : List Section) : Prop where
  names : (sections.map (·.name)).Nodup
  keys : ∀ s ∈ sections, (s.entries.map Prod.fst).Nodup

theorem ofLines?_eq {sections : List Section} (h : Distinct sections) :
    Entries.ofLines? (sections.flatMap linesOf) = some (sections.map Section.table) := by
  have hsections : Entries.addSections [] (sections.flatMap linesOf) =
      some ([] ++ sections.map Entries.ofSection) :=
    Entries.addSections_eq (by simpa using h.names) h.keys
  have hclose : ∀ s : Section, Entries.closeEntry (Entries.ofSection s).2 = s.table.2 := by
    intro s
    simp [Entries.ofSection, Entries.closeEntry, Entries.close_eq_map, Entries.ofItems,
      Section.table]
  simp [Entries.ofLines?, Entries.splitPairs_sections, Entries.addPairs, hsections,
    Entries.close_eq_map, hclose]
  exact fun s _ => rfl

theorem sectionsWritten_ne_mark (sections : List Section) (cs : List Char) :
    sectionsWritten sections ≠ '\uFEFF' :: cs := by
  intro heq
  match sections with
  | [] => cases heq
  | [s] => simp [sectionsWritten, Section.written] at heq
  | s :: t :: rest => simp [sectionsWritten, Section.written] at heq

/-- A document is read as the tables of its sections. -/
theorem read?_document {sections : List Section} (hplain : ∀ s ∈ sections, s.Plain)
    (h : Distinct sections) :
    read? (document sections) = some (sections.map Section.table) := by
  have hlines := reads_sections hplain _ (Nat.lt_add_one _)
  rw [read?, document, String.toList_ofList]
  split
  · next heq => exact absurd heq (sectionsWritten_ne_mark _ _)
  · rw [hlines]
    exact ofLines?_eq h

end RpcContract.Toml
