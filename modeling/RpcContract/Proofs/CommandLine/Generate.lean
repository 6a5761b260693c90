import RpcContract.CommandLine.Generate
import RpcContract.Proofs.OpenRpc.Output

/-! A run of the program that generates a document. Until there is a valid document, nothing of what
stood in the files is touched; a run that succeeds has written all of it. -/

namespace RpcContract.CommandLine.Generate

open OpenRpc

namespace Request

variable (r : Request) (c : Config)

@[simp] theorem inlined_override :
    (r.override c).generate.inlined = (c.generate.inlined || r.inlined) := rfl

@[simp] theorem output_override :
    (r.override c).generate.output = r.output.or c.generate.output := rfl

@[simp] theorem layout_override : (r.override c).generate.layout = c.generate.layout := rfl

@[simp] theorem writeChecksum_override :
    (r.override c).generate.writeChecksum = c.generate.writeChecksum := rfl

@[simp] theorem dumpDir_override (s : Config.Surroundings) :
    (r.override c).dumpDir s = c.dumpDir s := rfl

end Request

/-- A run comes to no document: its configuration or its fragments cannot be loaded, or the document
does not expand or is not valid. -/
inductive Aborts (s : Config.Surroundings) (r : Request) : Fault → Prop where
  | config {fault : Config.LoadFault} (h : Config.load s r.config = .error fault) :
      Aborts s r (.config fault)
  | fragments {c : Config} {fault : EmissionFault} (hc : Config.load s r.config = .ok c)
      (h : loadFragments s.disk (r.override c) = .error fault) : Aborts s r (.emission fault)
  | document {c : Config} {loaded : Loaded} {e : Error} (hc : Config.load s r.config = .ok c)
      (hl : loadFragments s.disk (r.override c) = .ok loaded)
      (h : loaded.assembly.text (c.generate.inlined || r.inlined) c.generate.layout = .error e) :
      Aborts s r (.emission (.document e))

/-- A run comes to the text of a document: that of the fragments that were loaded, expanded where an
option or the configuration says so. -/
structure Assembles (s : Config.Surroundings) (r : Request) (c : Config) (loaded : Loaded)
    (text : String) : Prop where
  config : Config.load s r.config = .ok c
  fragments : loadFragments s.disk (r.override c) = .ok loaded
  text : (if c.generate.inlined || r.inlined then
      loaded.assembly.serializeExpanded c.generate.layout
    else loaded.assembly.serialize c.generate.layout) = .ok text

theorem aborts_or_assembles (s : Config.Surroundings) (r : Request) :
    (∃ fault, Aborts s r fault) ∨ ∃ c loaded text, Assembles s r c loaded text := by
  cases hc : Config.load s r.config with
  | error fault => exact .inl ⟨_, .config hc⟩
  | ok c =>
    cases hl : loadFragments s.disk (r.override c) with
    | error fault => exact .inl ⟨_, .fragments hc hl⟩
    | ok loaded =>
      cases ht : loaded.assembly.text (c.generate.inlined || r.inlined) c.generate.layout with
      | error e => exact .inl ⟨_, .document hc hl ht⟩
      | ok text => exact .inr ⟨c, loaded, text, hc, hl, ht⟩

/-- The files after a run that comes to no document. At most one is new, which holds a document that
is not valid; those that were there stay as they are. -/
structure LeavesFiles (s : Config.Surroundings) (r : Request) (stamp : String) (fault : Fault)
    (disk : Disk) : Prop where
  new : disk = s.disk ∨ ∃ c vs document, Config.load s r.config = .ok c ∧
    fault = .emission (.document (.invalidSpec vs document)) ∧
    Dumps s.disk (c.dumpDir s) stamp document disk
  kept : ∀ path content, s.disk.content path = .ok content → disk.content path = .ok content

variable {s : Config.Surroundings} {r : Request} {stamp : String} {fault : Fault} {c : Config}

theorem LeavesFiles.unchanged : LeavesFiles s r stamp fault s.disk :=
  ⟨.inl rfl, fun _ _ h => h⟩

theorem leavesFiles_dump (hc : Config.load s r.config = .ok c)
    (hfresh : FreshStamp s.disk (c.dumpDir s) stamp) (e : Error) :
    LeavesFiles s r stamp (.emission (.document e)) (dump s.disk (c.dumpDir s) stamp e) := by
  rcases dump_cases hfresh e with h | ⟨vs, document, rfl, h⟩
  · rw [h]
    exact .unchanged
  · exact ⟨.inr ⟨c, vs, document, hc, rfl, h⟩, fun _ _ => h.content_kept⟩

/-- What is answered where the configuration is there. -/
theorem answer_eq (hc : Config.load s r.config = .ok c) (hsave : r.writeConfig = none) :
    answer s stamp r =
      match loadFragments s.disk (r.override c) with
      | .error fault => (s.disk, .error (.emission fault))
      | .ok loaded =>
        match loaded.assembly.text (c.generate.inlined || r.inlined) c.generate.layout with
        | .error e => (dump s.disk (c.dumpDir s) stamp e, .error (.emission (.document e)))
        | .ok text =>
          match r.output.or c.generate.output with
          | none => (s.disk, .ok (.valid loaded.methods loaded.schemas))
          | some path =>
            let (disk, made) := writeOutput s.disk path text c.generate.writeChecksum
            (disk, made.mapError .emission) := by
  simp only [answer, hc, hsave, emit_eq, Request.inlined_override, Request.layout_override,
    Request.output_override, Request.writeChecksum_override, Request.dumpDir_override]
  cases loadFragments s.disk (r.override c) with
  | error => rfl
  | ok loaded =>
    simp only
    cases loaded.assembly.text (c.generate.inlined || r.inlined) c.generate.layout with
    | error => rfl
    | ok text => cases r.output.or c.generate.output <;> rfl

section

variable {words : List String} {given : Given} (hwords : readOptions forms words = .ok given)

include hwords

theorem run_of_answer {disk : Disk} {made : Except Fault Emitted}
    (h : answer s stamp (.ofGiven given) = (disk, made)) :
    run s stamp words = match made with
      | .ok made => .success disk (line made)
      | .error fault => .failure disk fault.message := by
  simp only [run, hwords, h]
  cases made <;> rfl

variable (hsave : (Request.ofGiven given).writeConfig = none) {loaded : Loaded}
  {text path : String}

include hsave

theorem run_of_aborts
    (hfresh : ∀ c, Config.load s (Request.ofGiven given).config = .ok c →
      FreshStamp s.disk (c.dumpDir s) stamp)
    (h : Aborts s (.ofGiven given) fault) :
    ∃ disk, run s stamp words = .failure disk fault.message ∧
      LeavesFiles s (.ofGiven given) stamp fault disk := by
  cases h with
  | @config fault h =>
    have hanswer : answer s stamp (.ofGiven given) = (s.disk, .error (.config fault)) := by
      simp only [answer, h]
    exact ⟨_, run_of_answer hwords hanswer, .unchanged⟩
  | @fragments c fault hc h =>
    have hanswer : answer s stamp (.ofGiven given) = (s.disk, .error (.emission fault)) := by
      rw [answer_eq hc hsave, h]
    exact ⟨_, run_of_answer hwords hanswer, .unchanged⟩
  | @document c loaded e hc hl h =>
    have hanswer : answer s stamp (.ofGiven given) =
        (dump s.disk (c.dumpDir s) stamp e, .error (.emission (.document e))) := by
      rw [answer_eq hc hsave, hl]
      simp only [h]
    exact ⟨_, run_of_answer hwords hanswer, leavesFiles_dump hc (hfresh c hc) e⟩

theorem run_of_no_output (h : Assembles s (.ofGiven given) c loaded text)
    (ho : (Request.ofGiven given).output.or c.generate.output = none) :
    run s stamp words = .success s.disk (line (.valid loaded.methods loaded.schemas)) := by
  have ht : loaded.assembly.text _ _ = .ok text := h.text
  have hanswer : answer s stamp (.ofGiven given) =
      (s.disk, .ok (.valid loaded.methods loaded.schemas)) := by
    rw [answer_eq h.config hsave, h.fragments]
    simp only [ht, ho]
  exact run_of_answer hwords hanswer

theorem holdsOutput_of_run (h : Assembles s (.ofGiven given) c loaded text)
    (ho : (Request.ofGiven given).output.or c.generate.output = some path)
    (hs : (run s stamp words).status = .success) :
    HoldsOutput (run s stamp words).disk path text c.generate.writeChecksum := by
  have ht : loaded.assembly.text _ _ = .ok text := h.text
  obtain ⟨disk, made, hw⟩ : ∃ disk made,
      writeOutput s.disk path text c.generate.writeChecksum = (disk, made) := ⟨_, _, rfl⟩
  have hanswer : answer s stamp (.ofGiven given) = (disk, made.mapError .emission) := by
    rw [answer_eq h.config hsave, h.fragments]
    simp only [ht, ho, hw]
  have hrun := run_of_answer hwords hanswer
  cases made with
  | error fault =>
    rw [hrun] at hs
    cases hs
  | ok made =>
    rw [hrun]
    exact holdsOutput_of_writeOutput hw

end

/-- A run that comes to no document leaves every file as it was, an output and its checksum among
them; only a document that is not valid is kept, in a new file. Without an output nothing else is
ever written. A run that succeeds has the text of the document in its output and, where that is
asked for, the checksum of this text beside it. -/
theorem run_keeps_or_writes (s : Config.Surroundings) (stamp : String) (words : List String) :
    (∀ e, readOptions forms words = .error e → (run s stamp words).disk = s.disk) ∧
    ∀ given, readOptions forms words = .ok given →
      let r := Request.ofGiven given
      let out := run s stamp words
      r.writeConfig = none →
      (∀ c, Config.load s r.config = .ok c → FreshStamp s.disk (c.dumpDir s) stamp) →
      (∀ fault, Aborts s r fault →
        out = .failure out.disk fault.message ∧ LeavesFiles s r stamp fault out.disk) ∧
      (∀ c, Config.load s r.config = .ok c → r.output.or c.generate.output = none →
        out.disk = s.disk ∨ ∃ document, Dumps s.disk (c.dumpDir s) stamp document out.disk) ∧
      (out.status = .success → ∃ c loaded text, Assembles s r c loaded text ∧
        ∀ path, r.output.or c.generate.output = some path →
          HoldsOutput out.disk path text c.generate.writeChecksum) := by
  constructor
  · intro e he
    simp only [run, he]
    cases e <;> rfl
  · intro given hwords r out hsave hfresh
    have haborts : ∀ fault, Aborts s r fault →
        out = .failure out.disk fault.message ∧ LeavesFiles s r stamp fault out.disk := by
      intro fault h
      obtain ⟨disk, hout, hleaves⟩ := run_of_aborts hwords hsave hfresh h
      have hdisk : out.disk = disk := congrArg Outcome.disk hout
      rw [hdisk]
      exact ⟨hout, hleaves⟩
    refine ⟨haborts, fun c hc hnone => ?_, fun hsuccess => ?_⟩
    · rcases aborts_or_assembles s r with ⟨fault, h⟩ | ⟨c', loaded, text, h⟩
      · rcases (haborts fault h).2.new with hdisk | ⟨c', vs, document, hc', -, hdumps⟩
        · exact .inl hdisk
        · obtain rfl := Except.ok.inj (hc.symm.trans hc')
          exact .inr ⟨document, hdumps⟩
      · obtain rfl := Except.ok.inj (hc.symm.trans h.config)
        exact .inl (congrArg Outcome.disk (run_of_no_output hwords hsave h hnone))
    · rcases aborts_or_assembles s r with ⟨fault, h⟩ | ⟨c, loaded, text, h⟩
      · rw [(haborts fault h).1] at hsuccess
        cases hsuccess
      · exact ⟨c, loaded, text, h, fun path ho => holdsOutput_of_run hwords hsave h ho hsuccess⟩

/-- An old output is kept where the new document is not valid, although a file is written. -/
theorem run_keeps_or_writes_invalid :
    let disk : Disk := ⟨.directory [
      ("m.json", .file (.text "[{}]")), ("out.json", .file (.text "old")),
      ("s.json", .file (.text "{}")), ("tmp", .directory [])], []⟩
    let s : Config.Surroundings := ⟨disk, [], "user.toml", "tmp"⟩
    let words := ["--methods", "m.json", "--schemas", "s.json", "-o", "out.json"]
    let given : Given := [("methods", "m.json"), ("schemas", "s.json"), ("output", "out.json")]
    let out := run s "x" words
    readOptions forms words = .ok given ∧ (Request.ofGiven given).writeConfig = none ∧
      (∀ c, Config.load s none = .ok c → FreshStamp disk (c.dumpDir s) "x") ∧
      (∃ fault, Aborts s (.ofGiven given) fault) ∧
      out.status = .failure ∧ out.disk.content "out.json" = .ok (.text "old") := by
  intro disk s words given out
  have hwords : readOptions forms words = .ok given := rfl
  have hsave : (Request.ofGiven given).writeConfig = none := by decide
  have hload : (Config.load s none).toOption = some Config.default := by decide +kernel
  have hconfig : ∀ c, Config.load s none = .ok c → c = Config.default := by
    intro c hc
    rw [hc] at hload
    exact Option.some.inj hload
  have hfresh : ∀ c, Config.load s none = .ok c → FreshStamp disk (c.dumpDir s) "x" := by
    intro c hc
    obtain rfl := hconfig c hc
    have hunused : (disk.at? (dumpPath (Config.default.dumpDir s) "x")).isNone := by decide +kernel
    exact ⟨by decide, Option.isNone_iff_eq_none.mp hunused⟩
  have hinvalid : ((loadFragments disk ((Request.ofGiven given).override .default)).toOption.bind
      fun loaded => (loaded.assembly.serialize .pretty).toOption) = none := by
    decide +kernel
  have haborts : ∃ fault, Aborts s (.ofGiven given) fault := by
    rcases aborts_or_assembles s (.ofGiven given) with h | ⟨c, loaded, text, h⟩
    · exact h
    · obtain rfl := hconfig c h.config
      have hfragments : loadFragments disk _ = .ok loaded := h.fragments
      have htext : loaded.assembly.serialize .pretty = .ok text := h.text
      rw [hfragments] at hinvalid
      simp [Except.toOption, htext] at hinvalid
  obtain ⟨fault, h⟩ := haborts
  obtain ⟨hruns, -⟩ := (run_keeps_or_writes s "x" words).2 given hwords hsave hfresh
  obtain ⟨hout, hleaves⟩ := hruns fault h
  exact ⟨hwords, hsave, hfresh, ⟨fault, h⟩, congrArg Outcome.status hout, hleaves.kept _ _ rfl⟩

end RpcContract.CommandLine.Generate
