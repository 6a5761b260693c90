import Mathlib.Data.List.TakeWhile
import RpcContract.Exchange.Fixture
import RpcContract.Proofs.Exchange.Message

/-! What a fixture may look like. Of its lines only those count that are neither blank nor
comments; these must be requests and responses in turn, and every pair is one exchange. -/

namespace RpcContract

namespace Text

/-- The text with the given lines. -/
def ofRows (rows : List (List Char)) : String := String.ofList (rows.flatMap (· ++ ['\n']))

theorem lines_append {row : List Char} (h : '\n' ∉ row) (rest : List Char) :
    lines (row ++ '\n' :: rest) = row :: lines rest := by
  induction row with
  | nil => simp [lines]
  | cons c row ih =>
    simp only [List.mem_cons, not_or] at h
    have hrow := ih h.2
    cases row with
    | nil => rw [List.cons_append, List.nil_append, lines]; grind
    | cons d row =>
      simp only [List.mem_cons, not_or] at h
      rw [List.cons_append] at hrow
      rw [List.cons_append, List.cons_append, lines, hrow] <;> grind

/-- Whole lines are the first lines of the text that they begin. -/
theorem lines_flatMap_append {rows : List (List Char)} (h : ∀ row ∈ rows, '\n' ∉ row)
    (rest : List Char) : lines (rows.flatMap (· ++ ['\n']) ++ rest) = rows ++ lines rest := by
  induction rows with
  | nil => rfl
  | cons row rows ih =>
    obtain ⟨hrow, hrows⟩ := List.forall_mem_cons.mp h
    rw [List.flatMap_cons, List.append_assoc, List.append_assoc, List.singleton_append,
      lines_append hrow, ih hrows, List.cons_append]

theorem lines_ofRows {rows : List (List Char)} (h : ∀ row ∈ rows, '\n' ∉ row) :
    lines (ofRows rows).toList = rows := by
  have hrows := lines_flatMap_append h []
  simpa [ofRows, lines] using hrows

theorem dropTrailing_append {p : Char → Bool} {cs post : List Char} (h : ∀ c ∈ post, p c) :
    dropTrailing p (cs ++ post) = dropTrailing p cs := by
  unfold dropTrailing
  rw [List.reverse_append, List.dropWhile_append_of_pos]
  intro c hc
  exact h c (List.mem_reverse.mp hc)

theorem trim_of_blank {cs : List Char} (h : ∀ c ∈ cs, isBlank c) : trim cs = [] := by
  unfold trim
  rw [List.dropWhile_eq_nil_iff.mpr h]
  rfl

/-- Blanks before and after a line do not change what is left when it is trimmed. -/
theorem trim_pad {indent row ending : List Char} (hi : ∀ c ∈ indent, isBlank c)
    (he : ∀ c ∈ ending, isBlank c) : trim (indent ++ row ++ ending) = trim row := by
  unfold trim
  rw [List.append_assoc, List.dropWhile_append_of_pos hi, List.dropWhile_append]
  split
  · next hrow =>
    rw [List.isEmpty_iff] at hrow
    rw [hrow, List.dropWhile_eq_nil_iff.mpr he]
  · rw [dropTrailing_append he]

theorem trim_comment {indent : List Char} (hi : ∀ c ∈ indent, isBlank c) (text : List Char) :
    ['/', '/'] <+: trim (indent ++ '/' :: '/' :: text) := by
  have hslash : isBlank '/' = false := by decide
  unfold trim dropTrailing
  rw [List.dropWhile_append_of_pos hi, List.dropWhile_cons_of_neg (by simp [hslash])]
  simp only [List.reverse_cons, List.append_assoc, List.dropWhile_append]
  split
  · simp [List.dropWhile, hslash]
  · simp

end Text

namespace Fixture

open Text (ofRows trim isBlank)

/-- A trimmed line counts if it is neither empty nor a comment. -/
def Counts (line : String) : Prop := line ≠ "" ∧ ¬ ['/', '/'] <+: line.toList

instance : DecidablePred Counts := fun line => by unfold Counts; infer_instance

def countedOf (rows : List (List Char)) : List String :=
  (rows.map fun row => String.ofList (trim row)).filter Counts

/-- The lines of a text, each trimmed, without the empty ones and the comments. -/
def counted (content : String) : List String := countedOf (Text.lines content.toList)

/-- A line asks for a method, with the parameters that it gives as an array or not at all. -/
inductive Requests : String → String → List Json → Prop where
  | without {body method : String} {entries : List (String × Json)}
      (hm : Message.Holds body entries) (h : Dict.get? entries "method" = some (.str method))
      (hp : Dict.get? entries "params" = none ∨ Dict.get? entries "params" = some .null) :
      Requests (">> " ++ body) method []
  | positional {body method : String} {params : List Json} {entries : List (String × Json)}
      (hm : Message.Holds body entries) (h : Dict.get? entries "method" = some (.str method))
      (hp : Dict.get? entries "params" = some (.arr params)) :
      Requests (">> " ++ body) method params

/-- A line answers: with its result if it has one, even null, and otherwise with an error. -/
inductive Answers : String → Response → Prop where
  | result {body : String} {v : Json} {entries : List (String × Json)}
      (hm : Message.Holds body entries) (h : Dict.get? entries "result" = some v) :
      Answers ("<< " ++ body) (.result v)
  | error {body : String} {v : Json} {entries : List (String × Json)}
      (hm : Message.Holds body entries) (hr : Dict.get? entries "result" = none)
      (h : Dict.get? entries "error" = some v) (hn : v ≠ .null) :
      Answers ("<< " ++ body) (.error v)

/-- Requests and responses in turn, and the exchanges that they are. -/
inductive Records (fixture : String) : List String → List Exchange → Prop where
  | nil : Records fixture [] []
  | exchange {q a method : String} {params : List Json} {response : Response}
      {lines : List String} {xs : List Exchange} (hq : Requests q method params)
      (ha : Answers a response) (h : Records fixture lines xs) :
      Records fixture (q :: a :: lines) (⟨method, fixture, params, response⟩ :: xs)

/-! One line after the other -/

/-- What a trimmed line is. -/
inductive Shows : String → Line → Prop where
  | ignored {line : String} (h : ¬ Counts line) : Shows line .ignored
  | request (body : String) : Shows (">> " ++ body) (.request body)
  | response (body : String) : Shows ("<< " ++ body) (.response body)
  | other {line : String} (h : Counts line) (hq : ∀ body, line ≠ ">> " ++ body)
      (ha : ∀ body, line ≠ "<< " ++ body) : Shows line (.other line)

theorem counts_of_head {line : String} {c : Char} {cs : List Char} (h : line.toList = c :: cs)
    (hc : c ≠ '/') : Counts line := by
  constructor
  · rintro rfl
    simp at h
  · rw [h]
    simp [hc.symm]

theorem counts_request (body : String) : Counts (">> " ++ body) :=
  counts_of_head (String.toList_append ..) (by decide)

theorem counts_response (body : String) : Counts ("<< " ++ body) :=
  counts_of_head (String.toList_append ..) (by decide)

theorem shows_ofChars (chars : List Char) :
    Shows (String.ofList (trim chars)) (Line.ofChars chars) := by
  unfold Line.ofChars
  generalize trim chars = text
  split
  · exact .ignored (by simp [Counts])
  · exact .ignored (by simp [Counts])
  · next body =>
    have hbody : String.ofList ('>' :: '>' :: ' ' :: body) = ">> " ++ String.ofList body := by
      rw [← String.toList_inj]; simp
    rw [hbody]
    exact .request _
  · next body =>
    have hbody : String.ofList ('<' :: '<' :: ' ' :: body) = "<< " ++ String.ofList body := by
      rw [← String.toList_inj]; simp
    rw [hbody]
    exact .response _
  · next hne hcomment hrequest hresponse =>
    have hprefix : ∀ (sign body : String), String.ofList text = sign ++ body →
        text = sign.toList ++ body.toList := by
      intro sign body h
      simpa using congrArg String.toList h
    refine .other ⟨?_, ?_⟩ ?_ ?_
    · intro h
      exact hne (by simpa using congrArg String.toList h)
    · rintro ⟨rest, hrest⟩
      exact hcomment rest (by simpa using hrest.symm)
    · intro body h
      exact hrequest body.toList (by simpa using hprefix _ _ h)
    · intro body h
      exact hresponse body.toList (by simpa using hprefix _ _ h)

/-- What may follow while a request is open, or while none is. -/
inductive Continues (fixture : String) : Option Message → List String → List Exchange → Prop where
  | nil : Continues fixture none [] []
  | request {body : String} {m : Message} {lines : List String} {xs : List Exchange}
      (hr : Message.read body = .ok m) (h : Continues fixture (some m) lines xs) :
      Continues fixture none ((">> " ++ body) :: lines) xs
  | response {body : String} {m m' : Message} {x : Exchange} {lines : List String}
      {xs : List Exchange} (hr : Message.read body = .ok m') (hp : pair fixture m m' = .ok x)
      (h : Continues fixture none lines xs) :
      Continues fixture (some m) (("<< " ++ body) :: lines) (x :: xs)

theorem request_ne_response (body body' : String) : ">> " ++ body ≠ "<< " ++ body' := by
  intro h
  simpa using congrArg String.toList h

theorem append_body_inj {sign body body' : String} (h : sign ++ body = sign ++ body') :
    body = body' := by
  have hl := congrArg String.toList h
  simp only [String.toList_append, List.append_cancel_left_eq] at hl
  exact String.toList_inj.mp hl

section

variable {fixture : String} {pending : Option Message} {line body : String} {lines : List String}
  {xs : List Exchange}

theorem continues_request_iff :
    Continues fixture pending ((">> " ++ body) :: lines) xs ↔
      pending = none ∧ ∃ m, Message.read body = .ok m ∧ Continues fixture (some m) lines xs := by
  constructor
  · generalize hline : ">> " ++ body = line
    intro h
    cases h with
    | request hr h =>
      obtain rfl := append_body_inj hline
      exact ⟨rfl, _, hr, h⟩
    | response hr hp h => exact (request_ne_response _ _ hline).elim
  · rintro ⟨rfl, m, hr, h⟩
    exact .request hr h

theorem continues_response_iff :
    Continues fixture pending (("<< " ++ body) :: lines) xs ↔
      ∃ m m' x xs', pending = some m ∧ Message.read body = .ok m' ∧ pair fixture m m' = .ok x ∧
        Continues fixture none lines xs' ∧ xs = x :: xs' := by
  constructor
  · generalize hline : "<< " ++ body = line
    intro h
    cases h with
    | request hr h => exact (request_ne_response _ _ hline.symm).elim
    | response hr hp h =>
      obtain rfl := append_body_inj hline
      exact ⟨_, _, _, _, rfl, hr, hp, h, rfl⟩
  · rintro ⟨m, m', x, xs', rfl, hr, hp, h, rfl⟩
    exact .response hr hp h

theorem not_continues_other (hq : ∀ body, line ≠ ">> " ++ body) (ha : ∀ body, line ≠ "<< " ++ body) :
    ¬ Continues fixture pending (line :: lines) xs := by
  intro h
  cases h with
  | request _ _ => exact hq _ rfl
  | response _ _ _ => exact ha _ rfl

end

theorem countedOf_cons (row : List Char) (rows : List (List Char)) :
    countedOf (row :: rows) =
      if Counts (String.ofList (trim row)) then String.ofList (trim row) :: countedOf rows
      else countedOf rows := by
  simp [countedOf, List.filter_cons]

/-- Reading line by line accepts exactly what may follow the request that is open. -/
theorem ofLines_eq_ok_iff (fixture : String) (rows : List (List Char × Nat)) (pending : Pending)
    (xs : List Exchange) :
    ofLines fixture pending (rows.map fun row => (row.2 + 1, Line.ofChars row.1)) = .ok xs ↔
      Continues fixture (pending.map (·.2)) (countedOf (rows.map (·.1))) xs := by
  induction rows generalizing pending xs with
  | nil =>
    cases pending with
    | none =>
      simp only [List.map_nil, ofLines, Except.ok.injEq]
      constructor
      · rintro rfl
        exact .nil
      · rintro ⟨⟩
        rfl
    | some _ =>
      constructor
      · rintro ⟨⟩
      · rintro ⟨⟩
  | cons row rows ih =>
    obtain ⟨chars, i⟩ := row
    have hs := shows_ofChars chars
    rw [List.map_cons, List.map_cons, countedOf_cons, ofLines]
    generalize Line.ofChars chars = line at hs ⊢
    generalize String.ofList (trim chars) = text at hs ⊢
    cases hs with
    | ignored h =>
      rw [if_neg h]
      simpa [step] using ih pending xs
    | request body =>
      rw [if_pos (counts_request body), continues_request_iff]
      cases pending with
      | some _ => simp [step]
      | none =>
        cases hr : Message.read body with
        | error e => simp [step, hr]
        | ok m =>
          have hopen := ih (some (i + 1, m)) xs
          simpa [step, hr] using hopen
    | response body =>
      rw [if_pos (counts_response body), continues_response_iff]
      cases pending with
      | none => simp [step]
      | some opened =>
        obtain ⟨number, request⟩ := opened
        have hclosed := ih none
        cases hr : Message.read body with
        | error e => simp [step, hr]
        | ok m =>
          cases hp : pair fixture request m with
          | error fault => simp [step, hr, hp, Except.map]
          | ok x =>
            have hstep : step fixture (some (number, request)) (.response body) (i + 1) =
                .ok (none, [x]) := by
              simp [step, hr, hp, Except.map]
            simp only [hstep, Except.map_eq_ok_iff, hclosed]
            simp [hp, eq_comm]
    | other h hq ha =>
      rw [if_pos h]
      constructor
      · rintro ⟨⟩
      · exact fun hc => (not_continues_other hq ha hc).elim

theorem parse_eq_ok_iff_continues {fixture content : String} {xs : List Exchange} :
    parse fixture content = .ok xs ↔ Continues fixture none (counted content) xs := by
  have hrows := ofLines_eq_ok_iff fixture (Text.lines content.toList).zipIdx none xs
  rw [List.zipIdx_map_fst] at hrows
  rw [parse, numbered, List.mapIdx_eq_zipIdx_map]
  exact hrows

theorem parse_of_pair {fixture content request response : String} {m m' : Message} {x : Exchange}
    (hlines : counted content = [">> " ++ request, "<< " ++ response])
    (hm : Message.read request = .ok m) (hm' : Message.read response = .ok m')
    (hx : pair fixture m m' = .ok x) : parse fixture content = .ok [x] := by
  rw [parse_eq_ok_iff_continues, hlines]
  exact .request hm (.response hm' hx .nil)

/-! Two lines at a time -/

theorem params_eq_ok_iff {entries : List (String × Json)} {ps : List Json} :
    params (Message.ofEntries entries) = .ok ps ↔
      (Dict.get? entries "params" = none ∨ Dict.get? entries "params" = some .null) ∧ ps = [] ∨
        Dict.get? entries "params" = some (.arr ps) := by
  cases hp : Dict.get? entries "params" with
  | none => simp [params, Message.ofEntries, hp, eq_comm]
  | some v => cases v <;> simp [params, Message.ofEntries, hp, Message.unlessNull, eq_comm]

theorem answer_eq_ok_iff {entries : List (String × Json)} {response : Response} :
    answer (Message.ofEntries entries) = .ok response ↔
      (∃ v, Dict.get? entries "result" = some v ∧ response = .result v) ∨
        Dict.get? entries "result" = none ∧
          ∃ v, Dict.get? entries "error" = some v ∧ v ≠ .null ∧ response = .error v := by
  cases hr : Dict.get? entries "result" with
  | some v => simp [answer, Message.ofEntries, hr, eq_comm]
  | none =>
    cases he : Dict.get? entries "error" with
    | none => simp [answer, Message.ofEntries, hr, he]
    | some v =>
      by_cases hn : v = .null <;>
        simp [answer, Message.ofEntries, hr, he, Message.unlessNull, hn, eq_comm]

theorem requests_iff {body method : String} {ps : List Json} :
    Requests (">> " ++ body) method ps ↔
      ∃ m, Message.read body = .ok m ∧ m.method = some method ∧ params m = .ok ps := by
  constructor
  · generalize hline : ">> " ++ body = line
    intro h
    cases h with
    | without hm h hp =>
      obtain rfl := append_body_inj hline
      exact ⟨_, hm.read, by simp [Message.ofEntries, h, Json.asString?],
        params_eq_ok_iff.mpr (.inl ⟨hp, rfl⟩)⟩
    | positional hm h hp =>
      obtain rfl := append_body_inj hline
      exact ⟨_, hm.read, by simp [Message.ofEntries, h, Json.asString?],
        params_eq_ok_iff.mpr (.inr hp)⟩
  · rintro ⟨m, hr, hmethod, hps⟩
    obtain ⟨entries, hm, rfl⟩ := Message.exists_holds_of_read hr
    obtain ⟨v, hv, hs⟩ := Option.bind_eq_some_iff.mp hmethod
    obtain rfl : v = .str method := by cases v <;> simp_all [Json.asString?]
    rcases params_eq_ok_iff.mp hps with ⟨hp, rfl⟩ | hp
    · exact .without hm hv hp
    · exact .positional hm hv hp

theorem answers_iff {body : String} {response : Response} :
    Answers ("<< " ++ body) response ↔
      ∃ m, Message.read body = .ok m ∧ answer m = .ok response := by
  constructor
  · generalize hline : "<< " ++ body = line
    intro h
    cases h with
    | result hm h =>
      obtain rfl := append_body_inj hline
      exact ⟨_, hm.read, answer_eq_ok_iff.mpr (.inl ⟨_, h, rfl⟩)⟩
    | error hm hr h hn =>
      obtain rfl := append_body_inj hline
      exact ⟨_, hm.read, answer_eq_ok_iff.mpr (.inr ⟨hr, _, h, hn, rfl⟩)⟩
  · rintro ⟨m, hr, ha⟩
    obtain ⟨entries, hm, rfl⟩ := Message.exists_holds_of_read hr
    rcases answer_eq_ok_iff.mp ha with ⟨v, hv, rfl⟩ | ⟨hnone, v, hv, hn, rfl⟩
    · exact .result hm hv
    · exact .error hm hnone hv hn

theorem pair_eq_ok_iff {fixture : String} {request response : Message} {x : Exchange} :
    pair fixture request response = .ok x ↔
      ∃ method ps a, request.method = some method ∧ params request = .ok ps ∧
        answer response = .ok a ∧ x = ⟨method, fixture, ps, a⟩ := by
  unfold pair
  cases request.method with
  | none => simp
  | some method => cases params request <;> cases answer response <;> simp [Except.bind, eq_comm]

theorem Requests.eq_append {line method : String} {ps : List Json} (h : Requests line method ps) :
    ∃ body, line = ">> " ++ body := by
  cases h <;> exact ⟨_, rfl⟩

theorem Answers.eq_append {line : String} {response : Response} (h : Answers line response) :
    ∃ body, line = "<< " ++ body := by
  cases h <;> exact ⟨_, rfl⟩

theorem records_of_continues {fixture : String} :
    ∀ {lines : List String} {xs : List Exchange}, Continues fixture none lines xs →
      Records fixture lines xs
  | [], _, .nil => .nil
  | _ :: _ :: _, _, .request hr (.response hr' hp h) => by
    obtain ⟨method, ps, a, hmethod, hps, ha, rfl⟩ := pair_eq_ok_iff.mp hp
    exact .exchange (requests_iff.mpr ⟨_, hr, hmethod, hps⟩) (answers_iff.mpr ⟨_, hr', ha⟩)
      (records_of_continues h)

theorem continues_of_records {fixture : String} {lines : List String} {xs : List Exchange}
    (h : Records fixture lines xs) : Continues fixture none lines xs := by
  induction h with
  | nil => exact .nil
  | exchange hq ha _ ih =>
    obtain ⟨body, rfl⟩ := hq.eq_append
    obtain ⟨body', rfl⟩ := ha.eq_append
    obtain ⟨m, hr, hmethod, hps⟩ := requests_iff.mp hq
    obtain ⟨m', hr', ha⟩ := answers_iff.mp ha
    exact .request hr (.response hr' (pair_eq_ok_iff.mpr ⟨_, _, _, hmethod, hps, ha, rfl⟩) ih)

theorem Records.length_eq {fixture : String} {lines : List String} {xs : List Exchange}
    (h : Records fixture lines xs) : lines.length = 2 * xs.length := by
  induction h with
  | nil => rfl
  | exchange _ _ _ ih =>
    simp only [List.length_cons]
    omega

theorem Records.fixture_eq {fixture : String} {lines : List String} {xs : List Exchange}
    (h : Records fixture lines xs) : ∀ x ∈ xs, x.fixture = fixture := by
  induction h with
  | nil => simp
  | exchange _ _ _ ih => exact List.forall_mem_cons.mpr ⟨rfl, ih⟩

/-- Every exchange carries the name of its fixture. -/
theorem fixture_eq_of_parse {fixture content : String} {xs : List Exchange}
    (h : parse fixture content = .ok xs) : ∀ x ∈ xs, x.fixture = fixture :=
  (records_of_continues (parse_eq_ok_iff_continues.mp h)).fixture_eq

/-! What does not count -/

/-- The same lines with other blanks around them, and blank lines and comments put in between. -/
inductive Restyled : List (List Char) → List (List Char) → Prop where
  | nil : Restyled [] []
  | padded {indent row ending : List Char} {rows rows' : List (List Char)}
      (hi : ∀ c ∈ indent, isBlank c) (he : ∀ c ∈ ending, isBlank c) (h : Restyled rows rows') :
      Restyled (row :: rows) ((indent ++ row ++ ending) :: rows')
  | blank {row : List Char} {rows rows' : List (List Char)} (hb : ∀ c ∈ row, isBlank c)
      (h : Restyled rows rows') : Restyled rows (row :: rows')
  | comment {indent text : List Char} {rows rows' : List (List Char)}
      (hi : ∀ c ∈ indent, isBlank c) (h : Restyled rows rows') :
      Restyled rows ((indent ++ '/' :: '/' :: text) :: rows')

theorem Restyled.countedOf_eq {rows rows' : List (List Char)} (h : Restyled rows rows') :
    countedOf rows' = countedOf rows := by
  induction h with
  | nil => rfl
  | padded hi he _ ih => rw [countedOf_cons, countedOf_cons, Text.trim_pad hi he, ih]
  | blank hb _ ih =>
    rw [countedOf_cons, Text.trim_of_blank hb, if_neg (by simp [Counts]), ih]
  | @comment _ text _ _ hi _ ih =>
    have hcomment := Text.trim_comment hi text
    rw [countedOf_cons, if_neg (by simp [Counts, hcomment]), ih]

theorem counted_ofRows {rows : List (List Char)} (h : ∀ row ∈ rows, '\n' ∉ row) :
    counted (ofRows rows) = countedOf rows := by
  rw [counted, Text.lines_ofRows h]

/-- A fixture is accepted exactly if its lines that count are requests and responses in turn, and
it records one exchange for each pair of them. What is recorded depends on these lines only: blanks
around lines, a carriage return before a line break, blank lines and comments change nothing. -/
theorem parse_accepts_protocol (fixture : String) :
    (∀ content xs, parse fixture content = .ok xs ↔ Records fixture (counted content) xs) ∧
    (∀ content xs, parse fixture content = .ok xs →
      (counted content).length = 2 * xs.length) ∧
    (∀ content content', counted content' = counted content → ∀ xs,
      parse fixture content' = .ok xs ↔ parse fixture content = .ok xs) ∧
    ∀ rows rows', Restyled rows rows' → (∀ row ∈ rows, '\n' ∉ row) →
      (∀ row ∈ rows', '\n' ∉ row) → ∀ xs,
        parse fixture (ofRows rows') = .ok xs ↔ parse fixture (ofRows rows) = .ok xs := by
  have hrecords : ∀ content xs,
      parse fixture content = .ok xs ↔ Records fixture (counted content) xs := by
    intro content xs
    rw [parse_eq_ok_iff_continues]
    exact ⟨records_of_continues, continues_of_records⟩
  have hsame : ∀ content content', counted content' = counted content → ∀ xs,
      parse fixture content' = .ok xs ↔ parse fixture content = .ok xs := by
    intro content content' h xs
    rw [hrecords, hrecords, h]
  refine ⟨hrecords, fun content xs h => ((hrecords content xs).mp h).length_eq, hsame, ?_⟩
  intro rows rows' h hrows hrows'
  apply hsame
  rw [counted_ofRows hrows, counted_ofRows hrows', h.countedOf_eq]

/-- A refused call with parameters and members that are no fields, then a call with null for its
parameters and null for its result, whatever stands around the lines. -/
theorem parse_accepts_restyled :
    let call := "\x7b\"jsonrpc\": \"2.0\", \"id\": 1, \"method\": \"eth_call\", " ++
      "\"params\": [\"0x1\", \x7b\"to\": null\x7d]\x7d"
    let refusal := "\x7b\"id\": 1, \"error\": \x7b\"code\": -32000\x7d, \"jsonrpc\": \"2.0\"\x7d"
    let request := "\x7b\"method\": \"eth_x\", \"params\": null\x7d"
    let response := "\x7b\"result\": null, \"error\": true\x7d"
    let q₁ := (">> " ++ call).toList
    let a₁ := ("<< " ++ refusal).toList
    let q₂ := (">> " ++ request).toList
    let a₂ := ("<< " ++ response).toList
    let rows := [q₁, a₁, q₂, a₂]
    let rows' := ['/' :: '/' :: " a comment\r".toList, [' '] ++ q₁ ++ [], [] ++ a₁ ++ ['\r'],
      ['\t'] ++ q₂ ++ ['\r'], [' ', '\r'], [] ++ a₂ ++ ['\r']]
    let xs : List Exchange := [
      ⟨"eth_call", "t", [.str "0x1", .obj [("to", .null)]],
        .error (.obj [("code", .num (.int (-32000)))])⟩,
      ⟨"eth_x", "t", [], .result .null⟩]
    Restyled rows rows' ∧ (∀ row ∈ rows, '\n' ∉ row) ∧ (∀ row ∈ rows', '\n' ∉ row) ∧
      counted (ofRows rows') = counted (ofRows rows) ∧ parse "t" (ofRows rows') = .ok xs ∧
      (counted (ofRows rows')).length = 4 := by
  intro call refusal request response q₁ a₁ q₂ a₂ rows rows' xs
  have hstyle : Restyled rows rows' := by
    refine .comment (List.forall_mem_nil _) (.padded ?_ ?_ (.padded ?_ ?_
      (.padded ?_ ?_ (.blank ?_ (.padded ?_ ?_ .nil)))))
    all_goals simp [Text.isBlank]
  have hrows : ∀ row ∈ rows, '\n' ∉ row := by decide
  have hrows' : ∀ row ∈ rows', '\n' ∉ row := by decide
  have hlines : counted (ofRows rows) =
      [">> " ++ call, "<< " ++ refusal, ">> " ++ request, "<< " ++ response] := by
    rw [counted_ofRows hrows]
    decide +kernel
  have hcall : Message.read call =
      .ok ⟨some "eth_call", some (.arr [.str "0x1", .obj [("to", .null)]]), none, none⟩ :=
    Except.eq_ok_of_toOption (by decide +kernel)
  have hrefusal : Message.read refusal =
      .ok ⟨none, none, none, some (.obj [("code", .num (.int (-32000)))])⟩ :=
    Except.eq_ok_of_toOption (by decide +kernel)
  have hrequest : Message.read request = .ok ⟨some "eth_x", none, none, none⟩ :=
    Except.eq_ok_of_toOption (by decide +kernel)
  have hresponse : Message.read response = .ok ⟨none, none, some .null, some (.bool true)⟩ :=
    Except.eq_ok_of_toOption (by decide +kernel)
  have hplain : parse "t" (ofRows rows) = .ok xs := by
    rw [(parse_accepts_protocol "t").1, hlines]
    exact .exchange (requests_iff.mpr ⟨_, hcall, rfl, rfl⟩)
      (answers_iff.mpr ⟨_, hrefusal, rfl⟩)
      (.exchange (requests_iff.mpr ⟨_, hrequest, rfl, rfl⟩)
        (answers_iff.mpr ⟨_, hresponse, rfl⟩) .nil)
  have hparse := ((parse_accepts_protocol "t").2.2.2 rows rows' hstyle hrows hrows' _).mpr hplain
  have hcounted : counted (ofRows rows') = counted (ofRows rows) := by
    rw [counted_ofRows hrows, counted_ofRows hrows', hstyle.countedOf_eq]
  exact ⟨hstyle, hrows, hrows', hcounted, hparse,
    (parse_accepts_protocol "t").2.1 _ _ hparse⟩

end Fixture

end RpcContract
