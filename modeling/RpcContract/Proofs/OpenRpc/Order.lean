import RpcContract.Proofs.OpenRpc.Accepted

/-! The order of fragments. Sorting by name makes one list of all that agree name by name, and a
map of schemas forgets what was overwritten; so runs that add the same to every name end in
documents that are the same once they are sorted. -/

namespace RpcContract

section

variable {α : Type} {name : α → String}

theorem name_le_trans (a b c : α) (hab : decide (name a ≤ name b) = true)
    (hbc : decide (name b ≤ name c) = true) : decide (name a ≤ name c) = true := by
  simp only [decide_eq_true_eq] at hab hbc ⊢
  exact String.le_trans hab hbc

theorem name_le_total (a b : α) : (decide (name a ≤ name b) || decide (name b ≤ name a)) = true := by
  simp only [Bool.or_eq_true, decide_eq_true_eq]
  exact String.le_total (name a) (name b)

theorem pairwise_mergeSort_name (as : List α) :
    (as.mergeSort fun a b => name a ≤ name b).Pairwise fun a b => name a ≤ name b := by
  have h : (as.mergeSort fun a b => name a ≤ name b).Pairwise
      fun a b => decide (name a ≤ name b) = true :=
    List.pairwise_mergeSort name_le_trans name_le_total as
  simpa using h

/-- Sorting keeps the order of what has one name. -/
theorem filter_mergeSort_name (as : List α) (n : String) :
    (as.mergeSort fun a b => name a ≤ name b).filter (name · = n) = as.filter (name · = n) := by
  have hsame : (as.filter (name · = n)).Pairwise fun a b => decide (name a ≤ name b) = true := by
    refine List.pairwise_of_forall_mem_list fun a ha b hb => ?_
    have hna : name a = n := by simpa using (List.mem_filter.mp ha).2
    have hnb : name b = n := by simpa using (List.mem_filter.mp hb).2
    simp [hna, hnb]
  have hsub := List.sublist_mergeSort name_le_trans name_le_total hsame List.filter_sublist
  have hfilter := hsub.filter (name · = n)
  rw [List.filter_filter] at hfilter
  simp only [Bool.and_self] at hfilter
  refine (hfilter.eq_of_length ?_).symm
  rw [← List.countP_eq_length_filter, ← List.countP_eq_length_filter]
  exact ((List.mergeSort_perm as _).countP_eq _).symm

/-- Lists that agree name by name have the same elements, each as often. -/
theorem perm_of_filter_name_eq [DecidableEq α] {as bs : List α}
    (h : ∀ n, as.filter (name · = n) = bs.filter (name · = n)) : as.Perm bs := by
  refine List.perm_iff_count.mpr fun a => ?_
  have hcount : ∀ cs : List α, (cs.filter (name · = name a)).count a = cs.count a :=
    fun cs => List.count_filter (by simp)
  rw [← hcount as, h, hcount bs]

/-- Lists in order of their names are equal if they agree name by name. -/
theorem eq_of_filter_name_eq {as bs : List α} (ha : as.Pairwise fun a b => name a ≤ name b)
    (hb : bs.Pairwise fun a b => name a ≤ name b)
    (h : ∀ n, as.filter (name · = n) = bs.filter (name · = n)) : as = bs := by
  induction as generalizing bs with
  | nil =>
    cases bs with
    | nil => rfl
    | cons b bs => simpa using h (name b)
  | cons a as ih =>
    cases bs with
    | nil => simpa using h (name a)
    | cons b bs =>
      obtain ⟨hla, has⟩ := List.pairwise_cons.mp ha
      obtain ⟨hlb, hbs⟩ := List.pairwise_cons.mp hb
      -- each head is among the other list, so neither name is below the other
      have hmb : a ∈ b :: bs := by
        have hm : a ∈ (a :: as).filter (name · = name a) := by simp
        rw [h] at hm
        exact (List.mem_filter.mp hm).1
      have hma : b ∈ a :: as := by
        have hm : b ∈ (b :: bs).filter (name · = name b) := by simp
        rw [← h] at hm
        exact (List.mem_filter.mp hm).1
      have hab : name a = name b := by
        apply String.le_antisymm
        · rcases List.mem_cons.mp hma with heq | hm
          · exact heq ▸ String.le_refl _
          · exact hla b hm
        · rcases List.mem_cons.mp hmb with heq | hm
          · exact heq ▸ String.le_refl _
          · exact hlb a hm
      have heq : a = b := by
        have hheads := h (name a)
        simp only [List.filter_cons, hab, decide_true, if_true] at hheads
        exact (List.cons.inj hheads).1
      subst heq
      congr 1
      refine ih has hbs fun n => ?_
      have hn := h n
      by_cases hname : name a = n
      · simpa [List.filter_cons, hname] using hn
      · simpa [List.filter_cons, hname] using hn

end

namespace OpenRpc

namespace Assembly

theorem filter_sorted (a : Assembly) (n : String) :
    a.sorted.methods.filter (nameOf · = n) = a.methods.filter (nameOf · = n) :=
  filter_mergeSort_name a.methods n

theorem methods_apply (a : Assembly) (op : Operation) (n : String) :
    (a.apply op).methods.filter (nameOf · = n) =
      a.methods.filter (nameOf · = n) ++ op.addition.definitions.filter (nameOf · = n) := by
  rw [apply_eq]
  cases op with
  | withInfo info => simp [withInfo, Operation.addition, Addition.empty]
  | sort =>
    simp only [Operation.addition, Addition.empty, List.filter_nil, List.append_nil]
    exact a.filter_sorted n
  | addMethods | addSchemas | addMethodsText | addSchemasText | loadMethods | loadSchemas =>
    simp [grow]

theorem schemas_apply (a : Assembly) (op : Operation) :
    (a.apply op).schemas =
      op.addition.schemas.foldl (fun d m => Dict.insert d m.1 m.2) a.schemas := by
  rw [apply_eq]
  cases op <;> rfl

theorem base_apply (a : Assembly) (op : Operation) :
    (a.apply op).base = match op.info? with
      | some info => (a.withInfo info).base
      | none => a.base := by
  rw [apply_eq]
  cases op <;> rfl

/-! Whole runs -/

theorem methods_run (ops : List Operation) (n : String) :
    (run ops).methods.filter (nameOf · = n) =
      (accepted ops).definitions.filter (nameOf · = n) := by
  have hrun : ∀ a : Assembly, (ops.foldl apply a).methods.filter (nameOf · = n) =
      a.methods.filter (nameOf · = n) ++ (accepted ops).definitions.filter (nameOf · = n) := by
    induction ops with
    | nil => simp [accepted]
    | cons op ops ih =>
      intro a
      rw [List.foldl_cons, ih, methods_apply]
      simp [accepted]
  have hstart : empty.methods = [] := rfl
  have h := hrun empty
  rwa [hstart, List.filter_nil, List.nil_append] at h

theorem schemas_run (ops : List Operation) :
    (run ops).schemas = Dict.ofList (accepted ops).schemas := by
  have hrun : ∀ a : Assembly, (ops.foldl apply a).schemas =
      (accepted ops).schemas.foldl (fun d m => Dict.insert d m.1 m.2) a.schemas := by
    induction ops with
    | nil => simp [accepted]
    | cons op ops ih =>
      intro a
      rw [List.foldl_cons, ih, schemas_apply]
      simp [accepted]
  exact hrun empty

/-- The members that stand in the document whatever is added depend on the information only. -/
theorem base_run (ops : List Operation) :
    (run ops).base =
      ((ops.filterMap Operation.info?).foldl withInfo empty).base := by
  have hrun : ∀ a b : Assembly, a.base = b.base →
      (ops.foldl apply a).base = ((ops.filterMap Operation.info?).foldl withInfo b).base := by
    induction ops with
    | nil => exact fun _ _ h => h
    | cons op ops ih =>
      intro a b hab
      have hop := base_apply a op
      rw [List.foldl_cons, List.filterMap_cons]
      cases hi : op.info? with
      | none =>
        rw [hi] at hop
        exact ih _ _ (hop.trans hab)
      | some info =>
        rw [hi] at hop
        refine ih _ _ (hop.trans ?_)
        simp [withInfo, hab]
  exact hrun empty empty rfl

theorem ordered_setText {members : Json.Members} (h : (Json.obj members).Ordered) (key : String)
    (text : Option String) : (Json.obj (setText members key text)).Ordered := by
  cases text with
  | none => exact h
  | some text => exact Json.ordered_insert h key (.str text)

theorem ordered_setWithin {members : Json.Members} (h : (Json.obj members).Ordered) (key : String)
    {f : Json.Members → Json.Members}
    (hf : ∀ {inner}, (Json.obj inner).Ordered → (Json.obj (f inner)).Ordered) :
    (Json.obj (setWithin members key f)).Ordered := by
  unfold setWithin
  split
  · next inner hg => exact Json.ordered_insert h key (hf (h.get? hg))
  · exact h
  · exact Json.ordered_insert h key (hf (by decide))

theorem ordered_setLicense {members : Json.Members} (h : (Json.obj members).Ordered) (info : Info) :
    (Json.obj (setLicense info members)).Ordered := by
  unfold setLicense
  split
  · exact ordered_setWithin h _ fun h => ordered_setText (ordered_setText h _ _) _ _
  · exact h

/-- Information about the document keeps the order of names. -/
theorem ordered_base (ops : List Operation) : (Json.obj (run ops).base).Ordered := by
  rw [base_run]
  have hstart : (Json.obj empty.base).Ordered := by decide
  refine List.foldlRecOn _ withInfo (motive := fun a => (Json.obj a.base).Ordered) hstart
    fun a h info _ => ?_
  refine ordered_setWithin (ordered_setText h _ _) _ fun h => ordered_setLicense ?_ info
  exact ordered_setText (ordered_setText (ordered_setText h _ _) _ _) _ _

theorem sorted_run_eq {ops ops' : List Operation}
    (hi : ops.filterMap Operation.info? = ops'.filterMap Operation.info?)
    (hm : ∀ name, (accepted ops).definitions.filter (nameOf · = name) =
      (accepted ops').definitions.filter (nameOf · = name))
    (hs : ∀ name, Dict.last? (accepted ops).schemas name = Dict.last? (accepted ops').schemas name) :
    (run ops).sorted = (run ops').sorted := by
  have hbase : (run ops).base = (run ops').base := by
    rw [base_run, base_run, hi]
  have hmethods : (run ops).sorted.methods = (run ops').sorted.methods := by
    refine eq_of_filter_name_eq (pairwise_mergeSort_name _) (pairwise_mergeSort_name _) fun n => ?_
    rw [filter_sorted, filter_sorted, methods_run, methods_run, hm]
  have hschemas : (run ops).schemas = (run ops').schemas := by
    rw [schemas_run, schemas_run]
    refine (Dict.sorted_ofList _).ext (Dict.sorted_ofList _) fun name => ?_
    rw [Dict.ofList, Dict.ofList, Dict.get?_foldl_insert, Dict.get?_foldl_insert, hs]
  unfold sorted at hmethods ⊢
  simp only at hmethods
  rw [hbase, hmethods, hschemas]

/-- Runs with the same information that accept the same definitions for every method, in the same
order, and the same last definition for every schema are written alike, raw and expanded: as the
same text, or not at all for the same violations or the same error. -/
theorem emission_order_free {ops ops' : List Operation}
    (hi : ops.filterMap Operation.info? = ops'.filterMap Operation.info?)
    (hm : ∀ name, (accepted ops).definitions.filter (nameOf · = name) =
      (accepted ops').definitions.filter (nameOf · = name))
    (hs : ∀ name, Dict.last? (accepted ops).schemas name = Dict.last? (accepted ops').schemas name)
    (layout : Layout) :
    (run ops).serialize layout = (run ops').serialize layout ∧
      (run ops).serializeExpanded layout = (run ops').serializeExpanded layout := by
  have h := sorted_run_eq hi hm hs
  constructor
  · rw [serialize, serialize, h]
  · rw [serializeExpanded, serializeExpanded, h]

/-- Fragments that are refused and schemas that are overwritten leave no trace, sorting in between
changes nothing, and a name that is no text counts as the empty one. -/
theorem emission_order_free_interleaved :
    let a := Json.obj [("name", .str "a")]
    let b := Json.obj [("name", .str "b")]
    let b' := Json.obj [("name", .str "b"), ("params", .arr [])]
    let unnamed := Json.obj [("name", .bool true)]
    let old := Json.obj [("S", .obj [("title", .str "old")])]
    let new := Json.obj [("S", .obj [("title", .str "new")])]
    let ops := [.addMethods (.arr [b, unnamed]) (by decide), .addSchemas old (by decide), .sort,
      .addMethods (.arr [a, .null]) (by decide), .addMethods (.arr [b', a]) (by decide),
      .addSchemas new (by decide)]
    let ops' := [.addSchemas new (by decide), .addMethods (.arr [a, b]) (by decide),
      .addMethods b (by decide), .addMethods (.arr [b', unnamed]) (by decide), .sort]
    ops.filterMap Operation.info? = ops'.filterMap Operation.info? ∧
      (∀ name, (accepted ops).definitions.filter (nameOf · = name) =
        (accepted ops').definitions.filter (nameOf · = name)) ∧
      (∀ name, Dict.last? (accepted ops).schemas name =
        Dict.last? (accepted ops').schemas name) ∧
      (accepted ops).definitions ≠ (accepted ops').definitions ∧
      ∀ layout, (run ops).serialize layout = (run ops').serialize layout ∧
        (run ops).serializeExpanded layout = (run ops').serializeExpanded layout := by
  intro a b b' unnamed old new ops ops'
  have hdefinitions : (accepted ops).definitions = [b, unnamed, b', a] := by rfl
  have hdefinitions' : (accepted ops').definitions = [a, b, b', unnamed] := by rfl
  have hnames : nameOf a = "a" ∧ nameOf b = "b" ∧ nameOf b' = "b" ∧ nameOf unnamed = "" := by
    decide
  have hm : ∀ name, (accepted ops).definitions.filter (nameOf · = name) =
      (accepted ops').definitions.filter (nameOf · = name) := by
    intro name
    obtain ⟨ha, hb, hb', hu⟩ := hnames
    simp only [hdefinitions, hdefinitions', List.filter_cons, ha, hb, hb', hu]
    by_cases hname : name = ""
    · subst hname; rfl
    · by_cases hname' : name = "b"
      · subst hname'; rfl
      · simp [Ne.symm hname, Ne.symm hname']
  have hs : ∀ name, Dict.last? (accepted ops).schemas name =
      Dict.last? (accepted ops').schemas name := by
    intro name
    have hlast : (accepted ops).schemas = [("S", .obj [("title", .str "old")]),
        ("S", .obj [("title", .str "new")])] := by rfl
    have hlast' : (accepted ops').schemas = [("S", .obj [("title", .str "new")])] := by rfl
    rw [hlast, hlast']
    by_cases hname : "S" = name <;> simp [Dict.last?, hname]
  have hne : (accepted ops).definitions ≠ (accepted ops').definitions := by
    rw [hdefinitions, hdefinitions']
    simp [a, b]
  exact ⟨rfl, hm, hs, hne, emission_order_free rfl hm hs⟩

end Assembly

end OpenRpc

end RpcContract
