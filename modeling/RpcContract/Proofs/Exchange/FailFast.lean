import Mathlib.Data.List.Infix
import RpcContract.Exchange.Check
import RpcContract.Proofs.Outcome

/-! Runs over exchanges. Each exchange has a verdict of its own; a run fails as the first exchange
that fails does, and otherwise it counts the others. -/

namespace RpcContract

theorem occursIn_iff {part cs : List Char} : occursIn part cs = true ↔ part <:+: cs := by
  induction cs with
  | nil => simp [occursIn]
  | cons c cs ih =>
    rw [occursIn, Bool.or_eq_true, List.isPrefixOf_iff_prefix, ih, List.infix_cons_iff]

/-- What a run makes of one exchange. -/
inductive Verdict where
  | skipped
  | passed
  | failed (error : Error)
deriving DecidableEq

/-- A method that is missing counts before the marker, and the marker before the values. -/
def Exchange.verdict (methods : Methods) (marker : String) (x : Exchange) : Verdict :=
  match Dict.get? methods x.method with
  | none => .failed (.undefinedMethod x.method)
  | some method =>
    if marker ≠ "" ∧ marker.toList <:+: x.fixture.toList then .skipped
    else
      match x.check method with
      | .ok () => .passed
      | .error e => .failed e

def Verdict.Fails (v : Verdict) : Prop := ∃ e, v = .failed e

/-- The share of one exchange in the report of a run. -/
def Verdict.report : Verdict → Except Error Report
  | .skipped => .ok ⟨0, 1⟩
  | .passed => .ok ⟨1, 0⟩
  | .failed e => .error e

section

variable {methods : Methods} {marker : String}

theorem checkOne_eq (x : Exchange) :
    checkOne methods marker x = (x.verdict methods marker).report := by
  unfold checkOne Exchange.verdict
  cases Dict.get? methods x.method with
  | none => rfl
  | some method =>
    have hmarked : isMarked marker x.fixture = true ↔
        marker ≠ "" ∧ marker.toList <:+: x.fixture.toList := by
      simp [isMarked, occursIn_iff]
    by_cases hm : marker ≠ "" ∧ marker.toList <:+: x.fixture.toList
    · simp only [hmarked.mpr hm, if_pos hm, reduceIte, Verdict.report]
    · simp only [hmarked, if_neg hm]
      cases x.check method <;> rfl

theorem checkOne_eq_error_iff {x : Exchange} {e : Error} :
    checkOne methods marker x = .error e ↔ x.verdict methods marker = .failed e := by
  rw [checkOne_eq]
  cases x.verdict methods marker <;> simp [Verdict.report]

theorem checkOne_eq_ok_iff {x : Exchange} {report : Report} :
    checkOne methods marker x = .ok report ↔
      ¬ (x.verdict methods marker).Fails ∧
        report.skipped = (if x.verdict methods marker = .skipped then 1 else 0) ∧
        report.checked + report.skipped = 1 := by
  obtain ⟨checked, skipped⟩ := report
  rw [checkOne_eq]
  cases x.verdict methods marker with
  | skipped => simp [Verdict.report, Verdict.Fails]; omega
  | passed => simp [Verdict.report, Verdict.Fails]; omega
  | failed e => simp [Verdict.report, Verdict.Fails]

theorem checkAll_cons (x : Exchange) (xs : List Exchange) :
    checkAll methods marker (x :: xs) =
      (checkOne methods marker x).bind fun first =>
        (checkAll methods marker xs).map first.add := by
  rw [checkAll]
  cases checkOne methods marker x <;> cases checkAll methods marker xs <;> rfl

theorem checkAll_eq_ok_iff {xs : List Exchange} {report : Report} :
    checkAll methods marker xs = .ok report ↔
      (∀ x ∈ xs, ¬ (x.verdict methods marker).Fails) ∧
        report.skipped = xs.countP (fun x => x.verdict methods marker = .skipped) ∧
        report.checked + report.skipped = xs.length := by
  induction xs generalizing report with
  | nil =>
    obtain ⟨checked, skipped⟩ := report
    simp [checkAll]
    omega
  | cons x xs ih =>
    rw [checkAll_cons, Except.bind_eq_ok_iff, List.forall_mem_cons, List.countP_cons,
      List.length_cons]
    simp only [Except.map_eq_ok_iff, checkOne_eq_ok_iff, ih, decide_eq_true_eq]
    constructor
    · rintro ⟨first, ⟨hx, hskip, hone⟩, rest, ⟨hxs, hskips, hall⟩, rfl⟩
      simp only [Report.add]
      exact ⟨⟨hx, hxs⟩, by omega, by omega⟩
    · rintro ⟨⟨hx, hxs⟩, hskips, hall⟩
      obtain ⟨checked, skipped⟩ := report
      have hle := xs.countP_le_length (p := fun x => x.verdict methods marker = .skipped)
      -- the exchange itself takes one of the counts, and the rest has what is left
      by_cases hskip : x.verdict methods marker = .skipped
      · rw [if_pos hskip] at hskips ⊢
        refine ⟨⟨0, 1⟩, ⟨hx, rfl, rfl⟩, ⟨checked, skipped - 1⟩, ⟨hxs, ?_, ?_⟩, ?_⟩
        · simp_all
        · simp only at hskips hall ⊢; omega
        · simp only at hskips hall; simp [Report.add]; omega
      · rw [if_neg hskip] at hskips ⊢
        refine ⟨⟨1, 0⟩, ⟨hx, rfl, rfl⟩, ⟨checked - 1, skipped⟩, ⟨hxs, hskips, ?_⟩, ?_⟩
        · simp only at hskips hall ⊢; omega
        · simp only at hskips hall; simp [Report.add]; omega

theorem checkAll_eq_error_iff {xs : List Exchange} {e : Error} :
    checkAll methods marker xs = .error e ↔
      ∃ before x after, xs = before ++ x :: after ∧
        (∀ y ∈ before, ¬ (y.verdict methods marker).Fails) ∧
        x.verdict methods marker = .failed e := by
  induction xs with
  | nil => simp [checkAll]
  | cons x xs ih =>
    rw [checkAll_cons, Except.bind_eq_error_iff, checkOne_eq_error_iff]
    simp only [Except.map_eq_error_iff, ih]
    constructor
    · rintro (hx | ⟨first, hx, before, y, after, rfl, hbefore, hy⟩)
      · exact ⟨[], x, xs, rfl, by simp, hx⟩
      · refine ⟨x :: before, y, after, rfl, ?_, hy⟩
        exact List.forall_mem_cons.mpr ⟨(checkOne_eq_ok_iff.mp hx).1, hbefore⟩
    · rintro ⟨before, y, after, heq, hbefore, hy⟩
      cases before with
      | nil =>
        obtain ⟨rfl, rfl⟩ := List.cons.inj heq
        exact .inl hy
      | cons z before =>
        obtain ⟨rfl, rfl⟩ := List.cons.inj heq
        obtain ⟨hx, hbefore⟩ := List.forall_mem_cons.mp hbefore
        refine .inr ?_
        cases hone : checkOne methods marker x with
        | ok first => exact ⟨first, rfl, before, y, after, rfl, hbefore, hy⟩
        | error e' => exact (hx ⟨e', checkOne_eq_error_iff.mp hone⟩).elim

theorem checkAll_append (xs ys : List Exchange) :
    checkAll methods marker (xs ++ ys) =
      (checkAll methods marker xs).bind fun a => (checkAll methods marker ys).map a.add := by
  induction xs with
  | nil =>
    have hzero : Report.add ⟨0, 0⟩ = id := by
      funext a
      simp [Report.add]
    simp only [List.nil_append, checkAll, Except.bind, hzero]
    cases checkAll methods marker ys <;> rfl
  | cons x xs ih =>
    rw [List.cons_append, checkAll_cons, checkAll_cons, ih]
    have hadd : ∀ a b c : Report, a.add (b.add c) = (a.add b).add c := by
      intro a b c
      simp [Report.add, Nat.add_assoc]
    cases checkOne methods marker x <;> cases checkAll methods marker xs <;>
      cases checkAll methods marker ys <;> simp [Except.bind, Except.map, hadd]

end

/-- A run returns a report exactly if no exchange fails, and then every exchange is counted once;
it fails exactly with the error of the first exchange that fails. Of two runs one after the other
the first that fails decides, and otherwise the reports are added up. -/
theorem checkAll_fails_fast (methods : Methods) (marker : String) :
    (∀ xs report, checkAll methods marker xs = .ok report ↔
      (∀ x ∈ xs, ¬ (x.verdict methods marker).Fails) ∧
        report.skipped = xs.countP (fun x => x.verdict methods marker = .skipped) ∧
        report.checked + report.skipped = xs.length) ∧
    (∀ xs e, checkAll methods marker xs = .error e ↔
      ∃ before x after, xs = before ++ x :: after ∧
        (∀ y ∈ before, ¬ (y.verdict methods marker).Fails) ∧
        x.verdict methods marker = .failed e) ∧
    ∀ ys zs, checkAll methods marker (ys ++ zs) =
      match checkAll methods marker ys, checkAll methods marker zs with
      | .error e, _ => .error e
      | .ok _, .error e => .error e
      | .ok a, .ok b => .ok ⟨a.checked + b.checked, a.skipped + b.skipped⟩ := by
  refine ⟨fun _ _ => checkAll_eq_ok_iff, fun _ _ => checkAll_eq_error_iff, fun ys zs => ?_⟩
  rw [checkAll_append]
  cases checkAll methods marker ys <;> cases checkAll methods marker zs <;> rfl

end RpcContract
