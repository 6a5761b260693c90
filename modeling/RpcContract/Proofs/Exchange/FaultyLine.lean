import Mathlib.Data.List.Induction
import RpcContract.Proofs.Exchange.Protocol

/-! The line that an error of a fixture names. It is the first line that may not stand where it
stands, and what follows it does not matter; or else the last line that counts, a request that
nothing answers. -/

namespace RpcContract

/-! Texts parted at a line -/

namespace Text

/-- Nothing, or a line break and more. -/
def EndsLine (rest : String) : Prop := rest = "" ∨ ∃ more, rest = "\n" ++ more

theorem lines_whole {row : List Char} (h : '\n' ∉ row) (hne : row ≠ []) : lines row = [row] := by
  induction row with
  | nil => exact absurd rfl hne
  | cons c row ih =>
    simp only [List.mem_cons, not_or] at h
    cases row with
    | nil => rw [lines]; grind
    | cons d row =>
      have hrow := ih h.2 (List.cons_ne_nil _ _)
      simp only [List.mem_cons, not_or] at h
      rw [lines, hrow] <;> grind

/-- A text has no line, or its last one, or a line and then others. -/
theorem lines_cases (cs : List Char) :
    cs = [] ∨ ('\n' ∉ cs ∧ lines cs = [cs]) ∨
      ∃ row rest, cs = row ++ '\n' :: rest ∧ '\n' ∉ row ∧ lines cs = row :: lines rest := by
  by_cases h : '\n' ∈ cs
  · obtain ⟨row, rest, hcs, hrow⟩ := List.eq_append_cons_of_mem h
    exact .inr (.inr ⟨row, rest, hcs, hrow, hcs ▸ lines_append hrow rest⟩)
  · by_cases hne : cs = []
    · exact .inl hne
    · exact .inr (.inl ⟨h, lines_whole h hne⟩)

/-- A text has its lines as they stand in it. -/
theorem exists_rest {rows more : List (List Char)} {row cs : List Char}
    (h : lines cs = rows ++ row :: more) :
    ∃ rest, cs = rows.flatMap (· ++ ['\n']) ++ row ++ rest ∧
      (rest = [] ∧ more = [] ∨ ∃ rest', rest = '\n' :: rest' ∧ more = lines rest') ∧
      (∀ r ∈ rows, '\n' ∉ r) ∧ '\n' ∉ row := by
  induction rows generalizing cs with
  | nil =>
    rcases lines_cases cs with rfl | ⟨hcs, hl⟩ | ⟨row', rest, rfl, hrow, hl⟩
    · simp [lines] at h
    · rw [hl] at h
      obtain ⟨rfl, rfl⟩ := List.cons.inj h
      exact ⟨[], by simp, .inl ⟨rfl, rfl⟩, by simp, hcs⟩
    · rw [hl] at h
      obtain ⟨rfl, rfl⟩ := List.cons.inj h
      exact ⟨'\n' :: rest, by simp, .inr ⟨rest, rfl, rfl⟩, by simp, hrow⟩
  | cons r rows ih =>
    rcases lines_cases cs with rfl | ⟨-, hl⟩ | ⟨r', rest', rfl, hr, hl⟩
    · simp [lines] at h
    · rw [hl] at h
      simp at h
    · rw [hl, List.cons_append] at h
      obtain ⟨rfl, htail⟩ := List.cons.inj h
      obtain ⟨rest, rfl, hrest, hrows, hrow⟩ := ih htail
      exact ⟨rest, by simp, hrest, List.forall_mem_cons.mpr ⟨hr, hrows⟩, hrow⟩

end Text

namespace Fixture

open Text (ofRows EndsLine)

/-! One line after the other -/

/-- What reading a line makes of the request that is open and the exchanges so far. -/
def advance (fixture : String) (s : Pending × List Exchange) (l : Nat × Line) :
    Except Error (Pending × List Exchange) :=
  match step fixture s.1 l.2 l.1 with
  | .error fault => .error (.invalidFixture fixture l.1 fault)
  | .ok (pending, done) => .ok (pending, s.2 ++ done)

def close (fixture : String) : Pending × List Exchange → Except Error (List Exchange)
  | (some (opened, _), _) => .error (.invalidFixture fixture opened .unhandledRequest)
  | (none, xs) => .ok xs

theorem ofLines_eq_foldlM (fixture : String) (s : Pending × List Exchange)
    (lines : List (Nat × Line)) :
    (ofLines fixture s.1 lines).map (s.2 ++ ·) =
      (lines.foldlM (advance fixture) s).bind (close fixture) := by
  induction lines generalizing s with
  | nil =>
    obtain ⟨_ | ⟨opened, m⟩, xs⟩ := s
    · simp [ofLines, close, Except.map, Except.bind]
    · rfl
  | cons l lines ih =>
    obtain ⟨number, line⟩ := l
    rw [ofLines, List.foldlM_cons, advance]
    cases hs : step fixture s.1 line number with
    | error fault => rfl
    | ok next =>
      obtain ⟨pending, done⟩ := next
      have hrest := ih (pending, s.2 ++ done)
      show ((ofLines fixture pending lines).map (done ++ ·)).map (s.2 ++ ·) =
        (lines.foldlM (advance fixture) (pending, s.2 ++ done)).bind (close fixture)
      rw [← hrest]
      cases ofLines fixture pending lines <;> simp [Except.map]

theorem parse_eq_foldlM (fixture content : String) :
    parse fixture content =
      ((numbered content).foldlM (advance fixture) (none, [])).bind (close fixture) := by
  rw [← ofLines_eq_foldlM, parse]
  cases ofLines fixture none (numbered content) <;> rfl

/-! The request that is open -/

/-- The last line that counts, if it is a request. -/
def unanswered? (lines : List (Nat × Line)) : Option (Nat × String) :=
  match (lines.filter (·.2 ≠ .ignored)).getLast? with
  | some (opened, .request body) => some (opened, body)
  | _ => none

theorem unanswered?_concat (lines : List (Nat × Line)) (number : Nat) (line : Line) :
    unanswered? (lines ++ [(number, line)]) =
      match line with
      | .ignored => unanswered? lines
      | .request body => some (number, body)
      | _ => none := by
  unfold unanswered?
  cases line <;> simp [List.filter_append]

/-- After these lines a request awaits its answer, or none does. -/
inductive Awaits (lines : List (Nat × Line)) : Pending → Prop where
  | nothing (h : unanswered? lines = none) : Awaits lines none
  | answer {opened : Nat} {body : String} {m : Message}
      (h : unanswered? lines = some (opened, body)) (hr : Message.read body = .ok m) :
      Awaits lines (some (opened, m))

/-- Why a response does not complete the request that it follows. -/
inductive Unpaired (request response : Message) : FixtureFault → Prop where
  | noMethod (h : request.method = none) : Unpaired request response .noMethod
  | notPositional {v : Json} (hm : request.method ≠ none) (h : request.params = some v)
      (hv : ∀ values, v ≠ .arr values) : Unpaired request response (.notPositional v)
  | noAnswer (hm : request.method ≠ none)
      (hp : request.params = none ∨ ∃ values, request.params = some (.arr values))
      (hr : response.result = none) (he : response.error = none) :
      Unpaired request response .noAnswer

/-- Why a line may not stand after others. -/
inductive Refuses (before : List (Nat × Line)) : Line → FixtureFault → Prop where
  | other (text : String) : Refuses before (.other text) (.invalidLine text)
  | opensAnother {opened : Nat} {q body : String} (h : unanswered? before = some (opened, q)) :
      Refuses before (.request body) (.openRequest opened)
  | malformedRequest {body : String} {e : Json.ReadError} (h : unanswered? before = none)
      (hr : Message.read body = .error e) : Refuses before (.request body) (.malformedRequest e)
  | answersNothing {body : String} (h : unanswered? before = none) :
      Refuses before (.response body) .noRequest
  | malformedResponse {opened : Nat} {q body : String} {e : Json.ReadError}
      (h : unanswered? before = some (opened, q)) (hr : Message.read body = .error e) :
      Refuses before (.response body) (.malformedResponse e)
  | unpaired {opened : Nat} {q body : String} {request response : Message} {fault : FixtureFault}
      (h : unanswered? before = some (opened, q)) (hq : Message.read q = .ok request)
      (hr : Message.read body = .ok response) (hp : Unpaired request response fault) :
      Refuses before (.response body) fault

theorem params_eq_error_iff {m : Message} {fault : FixtureFault} :
    params m = .error fault ↔
      ∃ v, m.params = some v ∧ (∀ values, v ≠ .arr values) ∧ fault = .notPositional v := by
  unfold params
  cases m.params with
  | none => simp
  | some v => cases v <;> simp [eq_comm]

theorem answer_eq_error_iff {m : Message} {fault : FixtureFault} :
    answer m = .error fault ↔ m.result = none ∧ m.error = none ∧ fault = .noAnswer := by
  unfold answer
  cases m.result <;> cases m.error <;> simp [eq_comm]

theorem exists_params_iff {m : Message} :
    (∃ ps, params m = .ok ps) ↔ m.params = none ∨ ∃ values, m.params = some (.arr values) := by
  unfold params
  cases m.params with
  | none => simp
  | some v => cases v <;> simp

theorem pair_eq_error_iff {fixture : String} {request response : Message} {fault : FixtureFault} :
    pair fixture request response = .error fault ↔ Unpaired request response fault := by
  have hpair : pair fixture request response = .error fault ↔
      request.method = none ∧ fault = .noMethod ∨
        request.method ≠ none ∧ (params request = .error fault ∨
          (∃ ps, params request = .ok ps) ∧ answer response = .error fault) := by
    unfold pair
    cases request.method with
    | none => simp [eq_comm]
    | some method => cases params request <;> cases answer response <;> simp [Except.bind]
  rw [hpair, params_eq_error_iff, exists_params_iff, answer_eq_error_iff]
  constructor
  · rintro (⟨hm, rfl⟩ | ⟨hm, ⟨v, hp, hv, rfl⟩ | ⟨hp, hr, he, rfl⟩⟩)
    · exact .noMethod hm
    · exact .notPositional hm hp hv
    · exact .noAnswer hm hp hr he
  · rintro (hm | ⟨hm, hp, hv⟩ | ⟨hm, hp, hr, he⟩)
    · exact .inl ⟨hm, rfl⟩
    · exact .inr ⟨hm, .inl ⟨_, hp, hv, rfl⟩⟩
    · exact .inr ⟨hm, .inr ⟨hp, hr, he, rfl⟩⟩

section

variable {fixture : String} {before : List (Nat × Line)} {pending pending' : Pending} {line : Line}
  {number : Nat} {done : List Exchange}

theorem step_eq_error_iff (h : Awaits before pending) {fault : FixtureFault} :
    step fixture pending line number = .error fault ↔ Refuses before line fault := by
  constructor
  · intro hs
    cases line with
    | ignored => cases hs
    | other text =>
      obtain rfl : FixtureFault.invalidLine text = fault := Except.error.inj hs
      exact .other text
    | request body =>
      cases h with
      | answer h _ =>
        obtain rfl := Except.error.inj hs
        exact .opensAnother h
      | nothing h =>
        cases hr : Message.read body with
        | ok m => simp [step, hr] at hs
        | error e =>
          simp only [step, hr, Except.error.injEq] at hs
          exact hs ▸ .malformedRequest h hr
    | response body =>
      cases h with
      | nothing h =>
        obtain rfl := Except.error.inj hs
        exact .answersNothing h
      | answer h hq =>
        cases hr : Message.read body with
        | error e =>
          simp only [step, hr, Except.error.injEq] at hs
          exact hs ▸ .malformedResponse h hr
        | ok response =>
          simp only [step, hr, Except.map_eq_error_iff] at hs
          exact .unpaired h hq hr (pair_eq_error_iff.mp hs)
  · intro hf
    cases hf with
    | other text => rfl
    | opensAnother ho =>
      cases h with
      | nothing h => simp [h] at ho
      | answer h hq =>
        obtain ⟨rfl, -⟩ := Prod.mk.inj (Option.some.inj (h.symm.trans ho))
        rfl
    | malformedRequest ho hr =>
      cases h with
      | nothing h => simp [step, hr]
      | answer h hq => simp [h] at ho
    | answersNothing ho =>
      cases h with
      | nothing h => rfl
      | answer h hq => simp [h] at ho
    | malformedResponse ho hr =>
      cases h with
      | nothing h => simp [h] at ho
      | answer h hq => simp [step, hr]
    | unpaired ho hq hr hp =>
      cases h with
      | nothing h => simp [h] at ho
      | answer h hq' =>
        obtain ⟨-, rfl⟩ := Prod.mk.inj (Option.some.inj (h.symm.trans ho))
        obtain rfl := Except.ok.inj (hq'.symm.trans hq)
        simp [step, hr, pair_eq_error_iff.mpr hp]

theorem Awaits.step (h : Awaits before pending)
    (hs : step fixture pending line number = .ok (pending', done)) :
    Awaits (before ++ [(number, line)]) pending' := by
  cases line with
  | ignored =>
    obtain ⟨rfl, -⟩ := Prod.mk.inj (Except.ok.inj hs)
    cases h with
    | nothing h => exact .nothing (by rw [unanswered?_concat]; exact h)
    | answer h hr => exact .answer (by rw [unanswered?_concat]; exact h) hr
  | other text => cases hs
  | request body =>
    cases h with
    | answer => cases hs
    | nothing h =>
      cases hr : Message.read body with
      | error e => simp [Fixture.step, hr] at hs
      | ok m =>
        simp only [Fixture.step, hr, Except.ok.injEq, Prod.mk.injEq] at hs
        obtain ⟨rfl, -⟩ := hs
        exact .answer (unanswered?_concat ..) hr
  | response body =>
    cases h with
    | nothing => cases hs
    | answer h hq =>
      cases hr : Message.read body with
      | error e => simp [Fixture.step, hr] at hs
      | ok response =>
        simp only [Fixture.step, hr, Except.map_eq_ok_iff, Prod.mk.injEq] at hs
        obtain ⟨x, -, rfl, -⟩ := hs
        exact .nothing (unanswered?_concat ..)

end

/-! All lines -/

section

variable {fixture : String} {lines pre post : List (Nat × Line)} {s : Pending × List Exchange}

theorem advance_eq_ok_iff {l : Nat × Line} {s' : Pending × List Exchange} :
    advance fixture s l = .ok s' ↔
      ∃ done, step fixture s.1 l.2 l.1 = .ok (s'.1, done) ∧ s'.2 = s.2 ++ done := by
  obtain ⟨pending', xs'⟩ := s'
  unfold advance
  cases step fixture s.1 l.2 l.1 with
  | error fault => simp
  | ok next => simp [Prod.ext_iff, eq_comm]

theorem advance_eq_error_iff {l : Nat × Line} {e : Error} :
    advance fixture s l = .error e ↔
      ∃ fault, step fixture s.1 l.2 l.1 = .error fault ∧ e = .invalidFixture fixture l.1 fault := by
  unfold advance
  cases step fixture s.1 l.2 l.1 <;> simp [eq_comm]

theorem awaits_of_foldlM (h : lines.foldlM (advance fixture) (none, []) = .ok s) :
    Awaits lines s.1 := by
  induction lines using List.reverseRecOn generalizing s with
  | nil =>
    obtain rfl := Except.ok.inj h
    exact .nothing rfl
  | append_singleton lines l ih =>
    obtain ⟨t, u, ht, hu, hs⟩ := Except.foldlM_split_eq_ok_iff.mp h
    obtain rfl := Except.ok.inj hs
    obtain ⟨done, hstep, -⟩ := advance_eq_ok_iff.mp hu
    exact (ih ht).step hstep

/-- Of lines that were all read, none is refused. -/
theorem not_refuses_of_foldlM (h : lines.foldlM (advance fixture) (none, []) = .ok s)
    {l : Nat × Line} (hl : lines = pre ++ l :: post) (fault : FixtureFault) :
    ¬ Refuses pre l.2 fault := by
  intro hf
  subst hl
  obtain ⟨t, u, ht, hu, -⟩ := Except.foldlM_split_eq_ok_iff.mp h
  obtain ⟨done, hstep, -⟩ := advance_eq_ok_iff.mp hu
  have herror : step fixture t.1 l.2 l.1 = .error fault :=
    (step_eq_error_iff (awaits_of_foldlM ht)).mpr hf
  rw [hstep] at herror
  cases herror

theorem exists_of_unanswered {opened : Nat} {body : String}
    (h : unanswered? lines = some (opened, body)) :
    ∃ pre post, lines = pre ++ (opened, .request body) :: post ∧ ∀ l ∈ post, l.2 = .ignored := by
  induction lines using List.reverseRecOn with
  | nil => cases h
  | append_singleton lines l ih =>
    obtain ⟨number, line⟩ := l
    rw [unanswered?_concat] at h
    cases line with
    | ignored =>
      obtain ⟨pre, post, rfl, hpost⟩ := ih h
      refine ⟨pre, post ++ [(number, .ignored)], by simp, fun l hl => ?_⟩
      rcases List.mem_append.mp hl with hl | hl
      · exact hpost l hl
      · rw [List.mem_singleton.mp hl]
    | request body' =>
      obtain ⟨rfl, rfl⟩ := Prod.mk.inj (Option.some.inj h)
      exact ⟨lines, [], rfl, by simp⟩
    | response | other => cases h

end

/-! Lines of a text -/

theorem numbered_of_lines {content : String} {rows more : List (List Char)} {row : List Char}
    (h : Text.lines content.toList = rows ++ row :: more) (hrows : ∀ r ∈ rows, '\n' ∉ r) :
    numbered content = numbered (ofRows rows) ++ (rows.length + 1, Line.ofChars row) ::
      more.mapIdx fun i chars => (rows.length + i + 2, Line.ofChars chars) := by
  have hnumber : ∀ i, i + 1 + rows.length + 1 = rows.length + i + 2 := by
    intro i
    omega
  rw [numbered, h, numbered, Text.lines_ofRows hrows, List.mapIdx_append, List.mapIdx_cons]
  simp only [hnumber, Nat.zero_add]

/-- What follows a whole line is not part of the lines up to it. -/
theorem numbered_parted {rows : List (List Char)} {row : List Char}
    (hrows : ∀ r ∈ rows, '\n' ∉ r) (hrow : '\n' ∉ row) (hne : row ≠ []) {rest : String}
    (hrest : EndsLine rest) :
    ∃ post, numbered (ofRows rows ++ String.ofList row ++ rest) =
      numbered (ofRows rows) ++ (rows.length + 1, Line.ofChars row) :: post := by
  have hlines : ∃ more, Text.lines (ofRows rows ++ String.ofList row ++ rest).toList =
      rows ++ row :: more := by
    rw [String.toList_append, String.toList_append, ofRows, String.toList_ofList,
      String.toList_ofList, List.append_assoc, Text.lines_flatMap_append hrows]
    rcases hrest with rfl | ⟨more, rfl⟩
    · exact ⟨[], by simp [Text.lines_whole hrow hne]⟩
    · exact ⟨Text.lines more.toList, by simp [Text.lines_append hrow]⟩
  obtain ⟨more, hmore⟩ := hlines
  exact ⟨_, numbered_of_lines hmore hrows⟩

theorem exists_rows_of_numbered {content : String} {pre post : List (Nat × Line)} {l : Nat × Line}
    (h : numbered content = pre ++ l :: post) :
    ∃ rows row rest, content = ofRows rows ++ String.ofList row ++ rest ∧
      (∀ r ∈ rows, '\n' ∉ r) ∧ '\n' ∉ row ∧ EndsLine rest ∧
      pre = numbered (ofRows rows) ∧ l = (rows.length + 1, Line.ofChars row) ∧
      ∀ r ∈ Text.lines rest.toList, r = [] ∨ ∃ k, (k, Line.ofChars r) ∈ post := by
  have hlength : pre.length < (Text.lines content.toList).length := by
    have hl := congrArg List.length h
    simp only [numbered, List.length_mapIdx, List.length_append, List.length_cons] at hl
    omega
  have hlines : Text.lines content.toList = (Text.lines content.toList).take pre.length ++
      (Text.lines content.toList)[pre.length] ::
        (Text.lines content.toList).drop (pre.length + 1) := by
    rw [← List.drop_eq_getElem_cons, List.take_append_drop]
  generalize hrows : (Text.lines content.toList).take pre.length = rows at hlines
  generalize (Text.lines content.toList)[pre.length] = row at hlines
  generalize (Text.lines content.toList).drop (pre.length + 1) = more at hlines
  obtain ⟨rest, hcontent, hrest, hwhole, hrow⟩ := Text.exists_rest hlines
  have hnumbered := numbered_of_lines hlines hwhole
  have hlen : pre.length = (numbered (ofRows rows)).length := by
    have htake := congrArg List.length hrows
    rw [List.length_take, Nat.min_eq_left hlength.le] at htake
    rw [numbered, List.length_mapIdx, Text.lines_ofRows hwhole, htake]
  rw [h] at hnumbered
  obtain ⟨hpre, htail⟩ := List.append_inj hnumbered hlen
  obtain ⟨hl, hpost⟩ := List.cons.inj htail
  refine ⟨rows, row, String.ofList rest, ?_, hwhole, hrow, ?_, hpre, hl, ?_⟩
  · rw [← String.toList_inj]
    simpa [ofRows] using hcontent
  · rcases hrest with ⟨rfl, -⟩ | ⟨rest', rfl, -⟩
    · exact .inl rfl
    · exact .inr ⟨String.ofList rest', by rw [← String.toList_inj]; simp⟩
  · intro r hr
    rw [String.toList_ofList] at hr
    rcases hrest with ⟨rfl, -⟩ | ⟨rest', rfl, rfl⟩
    · simp [Text.lines] at hr
    · rcases List.mem_cons.mp (by simpa [Text.lines] using hr) with rfl | hr
      · exact .inl rfl
      · obtain ⟨i, hi, rfl⟩ := List.mem_iff_getElem.mp hr
        refine .inr ⟨rows.length + i + 2, ?_⟩
        rw [hpost]
        exact List.mem_mapIdx.mpr ⟨i, hi, rfl⟩

/-! The line of an error -/

/-- The line after `rows` is a request that parses, nothing after it counts, and what stands before
it is a fixture. -/
structure LeftOpen (fixture : String) (rows : List (List Char)) (row : List Char)
    (rest : String) : Prop where
  request : ∃ body m, Line.ofChars row = .request body ∧ Message.read body = .ok m
  last : ∀ r ∈ Text.lines rest.toList, Line.ofChars r = .ignored
  before : ∃ xs, parse fixture (ofRows rows) = .ok xs

/-- The line after `rows` is the first that is refused. The error is the same whatever follows, and
without this line and what follows there is at most a request without an answer. -/
structure StopsAt (fixture : String) (rows : List (List Char)) (row : List Char)
    (fault : FixtureFault) : Prop where
  refused : Refuses (numbered (ofRows rows)) (Line.ofChars row) fault
  first : ∀ pre l post, numbered (ofRows rows) = pre ++ l :: post →
    ∀ fault', ¬ Refuses pre l.2 fault'
  always : ∀ rest, EndsLine rest →
    parse fixture (ofRows rows ++ String.ofList row ++ rest) =
      .error (.invalidFixture fixture (rows.length + 1) fault)
  before : (∃ xs, parse fixture (ofRows rows) = .ok xs) ∨
    ∃ opened, parse fixture (ofRows rows) =
      .error (.invalidFixture fixture opened .unhandledRequest)

section

variable {fixture : String} {rows : List (List Char)} {row : List Char}
  {s : Pending × List Exchange}

theorem stopsAt_of_step (hrows : ∀ r ∈ rows, '\n' ∉ r) (hrow : '\n' ∉ row)
    (hs : (numbered (ofRows rows)).foldlM (advance fixture) (none, []) = .ok s)
    {fault : FixtureFault}
    (hstep : step fixture s.1 (Line.ofChars row) (rows.length + 1) = .error fault) :
    StopsAt fixture rows row fault := by
  refine ⟨(step_eq_error_iff (awaits_of_foldlM hs)).mp hstep, ?_, ?_, ?_⟩
  · intro pre l post hl fault'
    exact not_refuses_of_foldlM hs hl fault'
  · intro rest hrest
    have hne : row ≠ [] := by
      rintro rfl
      cases hstep
    obtain ⟨post, hpost⟩ := numbered_parted hrows hrow hne hrest
    rw [parse_eq_foldlM, Except.bind_eq_error_iff]
    refine .inl (Except.foldlM_eq_error_iff.mpr ⟨_, _, post, s, hpost, hs, ?_⟩)
    exact advance_eq_error_iff.mpr ⟨fault, hstep, rfl⟩
  · obtain ⟨_ | ⟨opened, m⟩, xs⟩ := s
    · exact .inl ⟨xs, by rw [parse_eq_foldlM, hs]; rfl⟩
    · exact .inr ⟨opened, by rw [parse_eq_foldlM, hs]; rfl⟩

theorem leftOpen_of_close {content : String} {opened : Nat} {m : Message} {xs : List Exchange}
    (hs : (numbered content).foldlM (advance fixture) (none, []) = .ok (some (opened, m), xs)) :
    ∃ rows row rest, content = ofRows rows ++ String.ofList row ++ rest ∧
      (∀ r ∈ rows, '\n' ∉ r) ∧ '\n' ∉ row ∧ EndsLine rest ∧ opened = rows.length + 1 ∧
      LeftOpen fixture rows row rest := by
  cases awaits_of_foldlM hs with
  | @answer _ body _ ho hr =>
    obtain ⟨pre, post, hsplit, hpost⟩ := exists_of_unanswered ho
    obtain ⟨rows, row, rest, hcontent, hrows, hrow, hrest, rfl, hl, hafter⟩ :=
      exists_rows_of_numbered hsplit
    obtain ⟨rfl, hbody⟩ := Prod.mk.inj hl
    refine ⟨rows, row, rest, hcontent, hrows, hrow, hrest, rfl, ⟨body, m, hbody.symm, hr⟩, ?_, ?_⟩
    · intro r hr
      rcases hafter r hr with rfl | ⟨k, hk⟩
      · rfl
      · exact hpost _ hk
    · -- before the request nothing was open, or it had been refused
      rw [hsplit] at hs
      obtain ⟨t, u, ht, hu, -⟩ := Except.foldlM_split_eq_ok_iff.mp hs
      obtain ⟨done, hstep, -⟩ := advance_eq_ok_iff.mp hu
      obtain ⟨_ | ⟨opened', m'⟩, ys⟩ := t
      · exact ⟨ys, by rw [parse_eq_foldlM, ht]; rfl⟩
      · cases hstep

end

/-- Every error of a fixture names a line. Either this is the last line that counts, a request
without an answer; or it is the first line that may not stand where it stands. -/
theorem error_names_line (fixture content : String) (e : Error)
    (h : parse fixture content = .error e) :
    ∃ rows row rest fault, content = ofRows rows ++ String.ofList row ++ rest ∧
      (∀ r ∈ rows, '\n' ∉ r) ∧ '\n' ∉ row ∧ EndsLine rest ∧
      e = .invalidFixture fixture (rows.length + 1) fault ∧
      (fault = .unhandledRequest ∧ LeftOpen fixture rows row rest ∨
        StopsAt fixture rows row fault) := by
  rw [parse_eq_foldlM, Except.bind_eq_error_iff] at h
  rcases h with h | ⟨⟨_ | ⟨opened, m⟩, xs⟩, hs, hclose⟩
  · obtain ⟨pre, l, post, s, hsplit, hs, hl⟩ := Except.foldlM_eq_error_iff.mp h
    obtain ⟨fault, hstep, rfl⟩ := advance_eq_error_iff.mp hl
    obtain ⟨rows, row, rest, hcontent, hrows, hrow, hrest, rfl, rfl, -⟩ :=
      exists_rows_of_numbered hsplit
    exact ⟨rows, row, rest, fault, hcontent, hrows, hrow, hrest, rfl,
      .inr (stopsAt_of_step hrows hrow hs hstep)⟩
  · cases hclose
  · obtain rfl := Except.error.inj hclose
    obtain ⟨rows, row, rest, hcontent, hrows, hrow, hrest, rfl, hopen⟩ := leftOpen_of_close hs
    exact ⟨rows, row, rest, _, hcontent, hrows, hrow, hrest, rfl, .inl ⟨rfl, hopen⟩⟩

/-- The request without a method stands in the second line, and the error names its answer. -/
theorem error_names_line_of_answer :
    let content := "// no method\n>> \x7b\"params\":[]\x7d\n\n<< \x7b\"result\":1\x7d\n>> \x7b"
    parse "t" content = .error (.invalidFixture "t" 4 .noMethod) ∧
      ∃ rows row rest, content = ofRows rows ++ String.ofList row ++ rest ∧ rows.length = 3 ∧
        StopsAt "t" rows row .noMethod := by
  intro content
  have herror : parse "t" content = .error (.invalidFixture "t" 4 .noMethod) := by
    have hlines : numbered content = [(1, .ignored), (2, .request "\x7b\"params\":[]\x7d"),
        (3, .ignored), (4, .response "\x7b\"result\":1\x7d"), (5, .request "\x7b")] := by
      decide +kernel
    have hrequest : Message.read "\x7b\"params\":[]\x7d" =
        .ok ⟨none, some (.arr []), none, none⟩ := rfl
    have hresponse : Message.read "\x7b\"result\":1\x7d" =
        .ok ⟨none, none, some (.num (.int 1)), none⟩ := rfl
    rw [parse, hlines]
    simp [ofLines, step, pair, hrequest, hresponse, Except.map]
  obtain ⟨rows, row, rest, fault, hcontent, -, -, -, he, hline⟩ :=
    error_names_line "t" content _ herror
  obtain ⟨-, hnumber, rfl⟩ := Error.invalidFixture.inj he
  refine ⟨herror, rows, row, rest, hcontent, by omega, ?_⟩
  exact hline.resolve_left fun h => by cases h.1

end Fixture

end RpcContract
