/-
  Reports that are repeated from farther out.

  A report that is repeated keeps its code and its message, and of every circumstance it tells what was
  learned last. The report before it becomes its cause, and nothing is done to that one: going back from
  the last report, every earlier one is found as it was.

  * `Context.get?`, `Context.get?_merge`: one circumstance, alone and where two sets of them meet.
  * `Context.IsLast`, `Context.get?_foldl_merge`: one circumstance of several sets, by induction on them.
  * `Diagnostic.chain_foldl`: the reports that a repeated report goes back to.
  * `Diagnostic.repeats_merge_and_keep`: the reports made by repeating one, with any circumstances.
-/
import GridSketch.Fault
import Mathlib.Data.List.Basic

namespace GridSketch

/-! ## Circumstances -/

namespace Context

/-- What a set of circumstances may tell. -/
inductive Key where
  | input | name | value | region | offset
  deriving DecidableEq, Repr

/-- In what a circumstance is told. -/
def Key.Value : Key → Type
  | offset => Int
  | _ => Text

/-- A circumstance, if it is set. -/
def get? (c : Context) : (key : Key) → Option key.Value
  | .input => c.input
  | .name => c.name
  | .value => c.value
  | .region => c.region
  | .offset => c.offset

/-- The value of a key in the last of several sets of circumstances that sets it. -/
def IsLast (cs : List Context) (key : Key) (v : key.Value) : Prop :=
  ∃ before c after, cs = before ++ c :: after ∧ c.get? key = some v ∧
    ∀ later ∈ after, later.get? key = none

variable {key : Key}

/-- Where two sets of circumstances meet, the later one decides if it can. -/
theorem get?_merge (earlier later : Context) :
    (earlier.merge later).get? key = (later.get? key).or (earlier.get? key) := by
  cases key <;> exact Option.orElse_eq_or

/-- Of several sets of circumstances, the last that can decide does. -/
theorem get?_foldl_merge (c : Context) (cs : List Context) :
    (cs.foldl merge c).get? key = (c :: cs).reverse.findSome? fun c => c.get? key := by
  induction cs generalizing c with
  | nil => simp
  | cons next cs ih =>
    rw [List.foldl_cons, ih, List.reverse_cons, List.findSome?_append, List.reverse_cons,
      List.reverse_cons, List.findSome?_append, List.findSome?_append, Option.or_assoc]
    simp [get?_merge]

theorem findSome?_reverse_eq_some_iff {cs : List Context} {v : key.Value} :
    (cs.reverse.findSome? fun c => c.get? key) = some v ↔ IsLast cs key v := by
  rw [List.findSome?_eq_some_iff, IsLast]
  constructor
  · rintro ⟨after, c, before, hcs, hc, hafter⟩
    refine ⟨before.reverse, c, after.reverse, ?_, hc, fun later h => ?_⟩
    · simpa using congrArg List.reverse hcs
    · exact hafter later (List.mem_reverse.mp h)
  · rintro ⟨before, c, after, rfl, hc, hafter⟩
    refine ⟨after.reverse, c, before.reverse, by simp, hc, fun later h => ?_⟩
    exact hafter later (List.mem_reverse.mp h)

end Context

/-! ## Reports -/

namespace Diagnostic

/-- What repeating a report once keeps, repeating it any number of times keeps. -/
theorem foldl_withContext_of_kept {α : Type} {part : Diagnostic → α}
    (h : ∀ d c, part (d.withContext c) = part d) (d : Diagnostic) (cs : List Context) :
    part (cs.foldl withContext d) = part d := by
  induction cs generalizing d with
  | nil => rfl
  | cons c cs ih => exact (ih (d.withContext c)).trans (h d c)

theorem context_foldl (d : Diagnostic) (cs : List Context) :
    (cs.foldl withContext d).context = cs.foldl Context.merge d.context :=
  (List.foldl_hom context fun _ _ => rfl).symm

/-- A repeated report goes back to what the first one goes back to, and to every report since. -/
theorem chain_foldl (d : Diagnostic) (cs : List Context) :
    (cs.foldl withContext d).chain = d.chain ++ (cs.scanl withContext d).tail := by
  induction cs generalizing d with
  | nil => simp
  | cons c cs ih =>
    have hnext : (d.withContext c).chain = d.chain ++ [d.withContext c] := rfl
    rw [List.foldl_cons, ih, hnext, List.scanl_cons, List.tail_cons, List.append_assoc]
    cases cs <;> simp

/-- A report repeated with one set of circumstances after the other: each report keeps the code and the
    message, tells each circumstance as the last set that has it, and has the report before it as its
    cause. Going back from it, the earlier reports are found as they were, and before them those that the
    first one went back to. -/
theorem repeats_merge_and_keep (d : Diagnostic) (cs : List Context) :
    let reports := cs.scanl withContext d
    reports.length = cs.length + 1 ∧ reports.head? = some d ∧
      (∀ k report, reports[k]? = some report →
        report.code = d.code ∧ report.message = d.message ∧
        (∀ key v, report.context.get? key = some v ↔
          Context.IsLast (d.context :: cs.take k) key v) ∧
        (∀ key, report.context.get? key = none ↔ ∀ c ∈ d.context :: cs.take k, c.get? key = none) ∧
        report.chain = d.chain ++ (reports.take (k + 1)).tail) ∧
      ∀ k report, reports[k + 1]? = some report → report.cause? = reports[k]? := by
  have hfold : ∀ k report, (cs.scanl withContext d)[k]? = some report →
      report = (cs.take k).foldl withContext d := by
    intro k report h
    rw [List.getElem?_scanl] at h
    split at h
    · exact (Option.some.inj h).symm
    · cases h
  refine ⟨List.length_scanl, by cases cs <;> simp, fun k report h => ?_, fun k report h => ?_⟩
  · rw [hfold k report h]
    have hget : ∀ key, ((cs.take k).foldl withContext d).context.get? key =
        (d.context :: cs.take k).reverse.findSome? fun c => c.get? key := by
      intro key
      rw [context_foldl, Context.get?_foldl_merge]
    refine ⟨foldl_withContext_of_kept (fun _ _ => rfl) d _,
      foldl_withContext_of_kept (fun _ _ => rfl) d _, fun key v => ?_, fun key => ?_, ?_⟩
    · rw [hget, Context.findSome?_reverse_eq_some_iff]
    · rw [hget, List.findSome?_eq_none_iff]
      simp only [List.mem_reverse]
    · rw [chain_foldl, List.take_scanl]
  · rw [List.getElem?_succ_scanl] at h
    obtain ⟨cause, hcause, hreport⟩ := Option.bind_eq_some_iff.mp h
    obtain ⟨c, -, rfl⟩ := Option.map_eq_some_iff.mp hreport
    exact hcause.symm

/-- An entry that was found in a region, and an outer report that knows the region better. -/
theorem repeats_merge_and_keep_region :
    let d := (Fault.entryUnrecognized "q1".toList).diagnostic
    let found : Context := { region := some "a".toList, offset := some 3 }
    let outer : Context := { region := some "b".toList }
    let first := d.withContext found
    let last := first.withContext outer
    last.code = .embeddedConstraintUnrecognized ∧ last.context.get? .input = some "q1".toList ∧
      last.context.get? .region = some "b".toList ∧ last.context.get? .offset = some (3 : Int) ∧
      last.context.get? .name = none ∧ last.cause? = some first ∧ last.chain = [d, first, last] := by
  intro d found outer first last
  obtain ⟨-, -, hreports, hcauses⟩ := repeats_merge_and_keep d [found, outer]
  obtain ⟨hcode, -, hset, hunset, hchain⟩ := hreports 2 last rfl
  refine ⟨hcode, ?_, ?_, ?_, ?_, hcauses 1 last rfl, hchain⟩
  · exact (hset .input _).mpr ⟨[], d.context, [found, outer], rfl, rfl, by decide⟩
  · exact (hset .region _).mpr ⟨[d.context, found], outer, [], rfl, rfl, by decide⟩
  · exact (hset .offset _).mpr ⟨[d.context], found, [outer], rfl, rfl, by decide⟩
  · exact (hunset .name).mpr (by decide)

end Diagnostic

end GridSketch
