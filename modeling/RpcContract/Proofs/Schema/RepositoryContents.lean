import Mathlib.Data.Finset.Card
import Mathlib.Data.Finset.Dedup
import Mathlib.Data.List.TakeWhile
import RpcContract.Proofs.Schema.RepositoryRun
import RpcContract.Proofs.Text.Bytes

/-! What a repository holds after any writes to it. A write that fails may leave entries behind: of
a fragment those whose names come before the first that stands for no object. -/

namespace RpcContract.Repository

/-- What is done to a repository in place. A failure undoes nothing. -/
abbrev InPlace := EStateM Fragment.Fault Repository

namespace InPlace

def insert (name : String) (schema : Json) : InPlace (Option Json) := do
  if schema.isObject then
    let r ← get
    set (Repository.mk (Dict.insert r.schemas name schema))
    return r.get? name
  else throw (.notObject name)

def enter (entry : String × Json) : InPlace PUnit := do
  let _ ← insert entry.1 entry.2

def extend : Json → InPlace Nat
  | .obj members => do
    members.forM enter
    return members.length
  | _ => throw .notMapping

end InPlace

inductive Write where
  | insert (name : String) (schema : Json)
  | extend (fragment : Json) (ordered : fragment.Ordered)

inductive Reply where
  | replaced (old : Option Json)
  | added (count : Nat)

def Write.perform : Write → InPlace Reply
  | insert name schema => do return .replaced (← InPlace.insert name schema)
  | extend fragment _ => do return .added (← InPlace.extend fragment)

/-- The repository that a write leaves, and the answer to it. -/
def answer (r : Repository) : Write → Repository × Except Fragment.Fault Reply
  | .insert name schema =>
    match r.insert name schema with
    | .ok (r', old) => (r', .ok (.replaced old))
    | .error fault => (r, .error fault)
  | .extend fragment _ => ((r.extend fragment).1, (r.extend fragment).2.map .added)

def receive (r : Repository) (w : Write) : Repository := (r.answer w).1

/-- An answer as it is given in place. -/
def settle : Repository × Except Fragment.Fault Reply →
    EStateM.Result Fragment.Fault Repository Reply
  | (r, .ok reply) => .ok reply r
  | (r, .error fault) => .error fault r

/-- The entries of a fragment up to the first that is no object. -/
def leading : Json → List (String × Json)
  | .obj members => members.takeWhile (·.2.isObject)
  | _ => []

/-- The entries that a write puts into the repository. -/
def Write.entries : Write → List (String × Json)
  | insert name schema => if schema.isObject then [(name, schema)] else []
  | extend fragment _ => leading fragment

/-- What a write to `r` puts into it, and how it is answered. -/
inductive Effect (r : Repository) :
    Write → List (String × Json) → Except Fragment.Fault Reply → Prop where
  | inserted {name : String} {schema : Json} (h : schema.isObject) :
      Effect r (.insert name schema) [(name, schema)] (.ok (.replaced (r.get? name)))
  | refused {name : String} {schema : Json} (h : ¬ schema.isObject) :
      Effect r (.insert name schema) [] (.error (.notObject name))
  | extended {members : Json.Members} {ordered : (Json.obj members).Ordered}
      (h : ∀ m ∈ members, m.2.isObject) :
      Effect r (.extend (.obj members) ordered) members (.ok (.added members.length))
  | halted {members : Json.Members} {ordered : (Json.obj members).Ordered} {name : String}
      {value : Json} (hmem : (name, value) ∈ members) (hvalue : ¬ value.isObject)
      (hfirst : ∀ m ∈ members, ¬ m.2.isObject →
        m = (name, value) ∨ Text.bytes name < Text.bytes m.1) :
      Effect r (.extend (.obj members) ordered)
        (members.filter fun m => Text.bytes m.1 < Text.bytes name) (.error (.notObject name))
  | noMapping {fragment : Json} {ordered : fragment.Ordered}
      (h : ∀ members, fragment ≠ .obj members) :
      Effect r (.extend fragment ordered) [] (.error .notMapping)

variable {r : Repository}

/-! In place -/

theorem run_insert (r : Repository) (name : String) (schema : Json) :
    (InPlace.insert name schema).run r =
      match r.insert name schema with
      | .ok (r', old) => .ok old r'
      | .error fault => .error fault r := by
  unfold InPlace.insert Repository.insert
  by_cases h : schema.isObject <;> simp only [h] <;> rfl

theorem run_forM_enter (r : Repository) (members : Json.Members) :
    (members.forM InPlace.enter).run r =
      match r.extendMembers members with
      | (r', none) => .ok ⟨⟩ r'
      | (r', some fault) => .error fault r' := by
  induction members generalizing r with
  | nil => rfl
  | cons m members ih =>
    have hone : (InPlace.enter m).run r =
        match r.insert m.1 m.2 with
        | .ok (r', _) => .ok ⟨⟩ r'
        | .error fault => .error fault r := by
      rw [InPlace.enter, EStateM.run_bind, run_insert]
      cases r.insert m.1 m.2 <;> rfl
    show (InPlace.enter m >>= fun _ => members.forM InPlace.enter).run r = _
    rw [EStateM.run_bind, hone, extendMembers]
    cases r.insert m.1 m.2 with
    | ok made => exact ih made.1
    | error fault => rfl

theorem run_extend (r : Repository) (fragment : Json) :
    (InPlace.extend fragment).run r =
      match r.extend fragment with
      | (r', .ok n) => .ok n r'
      | (r', .error fault) => .error fault r' := by
  cases fragment with
  | obj members =>
    rw [InPlace.extend, EStateM.run_bind, run_forM_enter, extend]
    rcases r.extendMembers members with ⟨r', _ | fault⟩ <;> rfl
  | null | bool | num | str | arr => rfl

theorem run_perform (r : Repository) (w : Write) : w.perform.run r = settle (r.answer w) := by
  cases w with
  | insert name schema =>
    rw [Write.perform, EStateM.run_bind, run_insert, answer]
    cases r.insert name schema <;> rfl
  | extend fragment ordered =>
    rw [Write.perform, EStateM.run_bind, run_extend, answer]
    rcases r.extend fragment with ⟨r', _ | n⟩ <;> rfl

/-! One write -/

theorem extendMembers_eq (r : Repository) (members : Json.Members) :
    r.extendMembers members =
      (⟨(members.takeWhile (·.2.isObject)).foldl (fun d m => Dict.insert d m.1 m.2) r.schemas⟩,
        (members.dropWhile (·.2.isObject)).head?.map fun m => .notObject m.1) := by
  induction members generalizing r with
  | nil => rfl
  | cons m members ih =>
    by_cases h : m.2.isObject
    · simp only [extendMembers, insert, h, if_true, ih, List.takeWhile_cons, List.dropWhile_cons,
        List.foldl_cons]
    · simp [extendMembers, insert, h]

theorem extend_eq (r : Repository) (fragment : Json) :
    (r.extend fragment).1 =
      ⟨(leading fragment).foldl (fun d m => Dict.insert d m.1 m.2) r.schemas⟩ := by
  cases fragment with
  | obj members =>
    rw [leading, extend, extendMembers_eq]
    cases (members.dropWhile (·.2.isObject)).head? <;> rfl
  | null | bool | num | str | arr => rfl

theorem receive_eq (r : Repository) (w : Write) :
    r.receive w = ⟨w.entries.foldl (fun d m => Dict.insert d m.1 m.2) r.schemas⟩ := by
  cases w with
  | insert name schema =>
    rw [receive, answer, insert, Write.entries]
    by_cases h : schema.isObject
    · rw [if_pos h, if_pos h]
      rfl
    · rw [if_neg h, if_neg h]
      rfl
  | extend fragment ordered => exact extend_eq r fragment

/-- In order, the entries before the first that is no object are those with lesser names. -/
theorem filter_of_sorted {pre post : Json.Members} {bad : String × Json}
    (h : Dict.Sorted (pre ++ bad :: post)) :
    (pre ++ bad :: post).filter (fun m => Text.bytes m.1 < Text.bytes bad.1) = pre := by
  have hpre : ∀ m ∈ pre, Text.bytes m.1 < Text.bytes bad.1 := by
    intro m hm
    exact Text.bytes_lt (h.lt_of_append m.1 (Dict.mem_keys_of_mem hm))
  have hpost : ∀ m ∈ bad :: post, ¬ Text.bytes m.1 < Text.bytes bad.1 := by
    intro m hm
    rw [← Text.lt_iff_bytes_lt]
    rcases List.mem_cons.mp hm with rfl | hm
    · exact String.lt_irrefl _
    · intro hlt
      have hgt := h.gt_of_append m.1 (Dict.mem_keys_of_mem hm)
      exact String.lt_irrefl _ (String.lt_trans hlt hgt)
  rw [List.filter_append, List.filter_eq_self.mpr (by simpa using hpre),
    List.filter_eq_nil_iff.mpr (by simpa using hpost), List.append_nil]

theorem answer_extend (r : Repository) {members : Json.Members}
    (ordered : (Json.obj members).Ordered) :
    (r.answer (.extend (.obj members) ordered)).2 =
      match (members.dropWhile (·.2.isObject)).head? with
      | none => .ok (.added members.length)
      | some m => .error (.notObject m.1) := by
  rw [answer, extend, extendMembers_eq]
  cases (members.dropWhile (·.2.isObject)).head? <;> rfl

theorem effect_extend (r : Repository) {members : Json.Members}
    (ordered : (Json.obj members).Ordered) :
    Effect r (.extend (.obj members) ordered) (members.takeWhile (·.2.isObject))
      (r.answer (.extend (.obj members) ordered)).2 := by
  have hsorted : Dict.Sorted members := (Json.every_obj.mp ordered).1
  have hsplit := List.takeWhile_append_dropWhile (p := fun m : String × Json => m.2.isObject)
    (l := members)
  rw [answer_extend]
  cases hdrop : members.dropWhile (·.2.isObject) with
  | nil =>
    rw [hdrop, List.append_nil] at hsplit
    rw [hsplit]
    exact .extended (List.dropWhile_eq_nil_iff.mp hdrop)
  | cons bad post =>
    obtain ⟨name, value⟩ := bad
    rw [hdrop] at hsplit
    have hvalue : ¬ value.isObject := by
      have hhead := List.head?_dropWhile_not (fun m : String × Json => m.2.isObject) members
      simpa [hdrop] using hhead
    have hsorted' := hsplit.symm ▸ hsorted
    have hfilter := filter_of_sorted hsorted'
    rw [hsplit] at hfilter
    rw [← hfilter]
    refine .halted (by rw [← hsplit]; simp) hvalue fun m hm hno => ?_
    rw [← hsplit] at hm
    rcases List.mem_append.mp hm with hm | hm
    · exact absurd (List.mem_takeWhile_imp hm) hno
    · rcases List.mem_cons.mp hm with rfl | hm
      · exact .inl rfl
      · exact .inr (Text.bytes_lt (hsorted'.gt_of_append m.1 (Dict.mem_keys_of_mem hm)))

theorem effect_write (r : Repository) (w : Write) : Effect r w w.entries (r.answer w).2 := by
  cases w with
  | insert name schema =>
    rw [answer, insert, Write.entries]
    by_cases h : schema.isObject
    · rw [if_pos h, if_pos h]
      exact .inserted h
    · rw [if_neg h, if_neg h]
      exact .refused h
  | extend fragment ordered =>
    cases fragment with
    | obj members => exact effect_extend r ordered
    | null | bool | num | str | arr => exact .noMapping (by simp)

/-! Many writes -/

theorem foldl_receive (r : Repository) (ws : List Write) :
    ws.foldl receive r =
      ⟨(ws.flatMap Write.entries).foldl (fun d m => Dict.insert d m.1 m.2) r.schemas⟩ := by
  induction ws generalizing r with
  | nil => rfl
  | cons w ws ih => rw [List.foldl_cons, ih, receive_eq, List.flatMap_cons, List.foldl_append]

/-! Names in order -/

theorem sorted_empty : Dict.Sorted empty.schemas := List.Pairwise.nil

theorem sorted_extend (h : Dict.Sorted r.schemas) (fragment : Json) :
    Dict.Sorted (r.extend fragment).1.schemas := by
  rw [extend_eq]
  exact Dict.sorted_foldl_insert h _

theorem sorted_ofFragment {fragment : Json} (h : ofFragment fragment = .ok r) :
    Dict.Sorted r.schemas := by
  have hextend : Dict.Sorted (empty.extend fragment).1.schemas :=
    sorted_extend sorted_empty fragment
  unfold ofFragment at h
  split at h
  · next he =>
    obtain rfl := Except.ok.inj h
    rwa [he] at hextend
  · cases h

theorem sorted_ofDocument {document : Json} (h : ofDocument document = .ok r) :
    Dict.Sorted r.schemas := by
  unfold ofDocument at h
  split at h
  · exact sorted_ofFragment h
  · exact Except.ok.inj h ▸ sorted_empty

theorem sorted_call (h : Dict.Sorted r.schemas) (c : Call) : Dict.Sorted (r.call c).schemas := by
  cases c with
  | new => exact sorted_empty
  | ofFragment fragment =>
    rw [call]
    cases ho : ofFragment fragment with
    | ok r' => exact sorted_ofFragment ho
    | error fault => exact h
  | ofDocument document =>
    rw [call]
    cases ho : ofDocument document with
    | ok r' => exact sorted_ofDocument ho
    | error fault => exact h
  | insert name schema =>
    rw [call, insert]
    by_cases hs : schema.isObject
    · rw [if_pos hs]
      exact Dict.sorted_insert h name schema
    · rwa [if_neg hs]
  | extend fragment => exact sorted_extend h fragment

theorem sorted_run (calls : List Call) : Dict.Sorted (run calls).schemas :=
  List.foldlRecOn calls call (motive := fun r => Dict.Sorted r.schemas) sorted_empty
    fun _ h c _ => sorted_call h c

/-- Under different names, there are as many entries as names. -/
theorem size_eq (h : Dict.Sorted r.schemas) : r.size = (Dict.keys r.schemas).toFinset.card := by
  rw [List.toFinset_card_of_nodup h.nodup, size, Dict.keys, List.length_map]

/-- A repository that calls have made holds under each name what was last written to it, and it has
one entry for every name that was ever written. In place, every write is answered in the same way
and leaves the same repository, also where it fails. -/
theorem holds_last_written (calls : List Call) (ws : List Write) :
    let r := run calls
    let r' := ws.foldl receive r
    (∀ name, r'.get? name = (Dict.last? (ws.flatMap Write.entries) name).or (r.get? name)) ∧
    r'.size = (Dict.keys r.schemas ++ Dict.keys (ws.flatMap Write.entries)).toFinset.card ∧
    ∀ w, Effect r' w w.entries (r'.answer w).2 ∧ w.perform.run r' = settle (r'.answer w) := by
  intro r r'
  have hr' : r'.schemas =
      (ws.flatMap Write.entries).foldl (fun d m => Dict.insert d m.1 m.2) r.schemas :=
    congrArg schemas (foldl_receive r ws)
  refine ⟨fun name => ?_, ?_, fun w => ⟨effect_write r' w, run_perform r' w⟩⟩
  · rw [get?, hr', Dict.get?_foldl_insert]
    rfl
  · have hsorted : Dict.Sorted r'.schemas := hr' ▸ Dict.sorted_foldl_insert (sorted_run calls) _
    have hkeys : ∀ name, name ∈ Dict.keys r'.schemas ↔
        name ∈ Dict.keys r.schemas ++ Dict.keys (ws.flatMap Write.entries) := by
      intro name
      rw [hr', Dict.mem_keys_foldl_insert, List.mem_append]
    rw [size_eq hsorted]
    congr 1
    ext name
    rw [List.mem_toFinset, List.mem_toFinset, hkeys]

/-- What comes before the failure stays, until it is replaced. -/
example :
    (empty.extend (.obj [("A", .obj []), ("B", .null), ("C", .obj [])])).1.insert "A"
        (.obj [("x", .null)]) =
      .ok (⟨[("A", .obj [("x", .null)])]⟩, some (.obj [])) := by
  decide +kernel

end RpcContract.Repository
