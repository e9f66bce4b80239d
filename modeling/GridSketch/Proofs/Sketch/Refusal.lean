/-
  The sketches that are refused, and the report of it.

  A sketch is refused for an identifier with an embedded entry that starts with no name of a
  constraint, and for nothing else: neither for the arrangement of its tokens nor for what an
  identifier has behind its second separator. The report is about the first such identifier and the
  first such entry in it. All readers here stop at the first part that fails, and whether a part fails
  does not depend on the parts before it; hence the failure of the whole is the first failure of a
  part (`failure?_bind`).

  * `Embedded.failure?_expand`: the first entry without a name.
  * `Draft.failure?_run`: the first identifier with such an entry, by induction on the tokens.
  * `Registry.fails_at_first_unnamed`: sketches.
-/
import GridSketch.Proofs.Constraint.Embedded
import GridSketch.Proofs.Constraint.Leading

namespace GridSketch

/-! ## Failures -/

section

variable {ε α β : Type}

/-- The failure of an outcome, if it is one. -/
def failure? : Except ε α → Option ε
  | .ok _ => none
  | .error e => some e

theorem failure?_eq_some_iff {x : Except ε α} {e : ε} : failure? x = some e ↔ x = .error e := by
  cases x <;> simp [failure?]

@[simp] theorem failure?_map (f : α → β) (x : Except ε α) : failure? (x.map f) = failure? x := by
  cases x <;> rfl

/-- Work done one after the other, where what was reached does not matter for the later failure. -/
theorem failure?_bind {x : Except ε α} {f : α → Except ε β} {later : Option ε}
    (h : ∀ a, failure? (f a) = later) : failure? (x.bind f) = (failure? x).or later := by
  cases x with
  | error e => rfl
  | ok a => exact h a

end

/-! ## Entries -/

namespace Embedded

/-- An entry that starts with no name of a constraint, in any case of the ASCII letters. -/
def IsUnnamed (entry : Text) : Prop := ∀ m ∈ Mnemonic.table, ¬ m.Starts entry

instance (entry : Text) : Decidable (IsUnnamed entry) :=
  inferInstanceAs (Decidable (∀ m ∈ Mnemonic.table, _))

/-- The first entry of an embedded text that starts with no name. -/
def firstUnnamed? (spec : Text) : Option Text := (entries spec).find? fun e => decide (IsUnnamed e)

theorem isUnnamed_iff {entry : Text} : IsUnnamed entry ↔ Mnemonic.leading? entry = none :=
  Mnemonic.leading?_eq_none_iff.symm

theorem failure?_splitEntry (entry : Text) :
    failure? (splitEntry entry) =
      (Option.guard (fun e => decide (IsUnnamed e)) entry).map Fault.entryUnrecognized := by
  simp only [splitEntry, Option.guard, isUnnamed_iff]
  cases Mnemonic.leading? entry <;> rfl

theorem failure?_splitEntries (es : List Text) :
    failure? (splitEntries es) =
      (es.find? fun e => decide (IsUnnamed e)).map Fault.entryUnrecognized := by
  rw [← List.findSome?_guard, List.map_findSome?]
  induction es with
  | nil => rfl
  | cons entry rest ih =>
    have hlater : ∀ pair : Text × Text, failure? ((splitEntries rest).map (pair :: ·)) = _ :=
      fun pair => (failure?_map _ _).trans ih
    rw [List.findSome?_cons, Function.comp_apply, ← failure?_splitEntry]
    refine (failure?_bind hlater).trans ?_
    cases failure? (splitEntry entry) <;> rfl

/-- An embedded text fails with its first entry that starts with no name. -/
theorem failure?_expand (spec : Text) :
    failure? (expand spec) = (firstUnnamed? spec).map Fault.entryUnrecognized := by
  rw [expand_eq, failure?_map, failure?_splitEntries, firstUnnamed?]

end Embedded

/-! ## Identifiers -/

namespace Token

/-- An identifier that has something between its first separator and its second, or its end, and in
    it an entry that starts with no name. -/
def IsRefused : Token → Prop
  | mark .. => False
  | identifier text _ => Region.specOf text ≠ [] ∧
    ∃ entry ∈ Text.pieces Embedded.entrySeparator (Region.specOf text), Embedded.IsUnnamed entry

/-- The report of a token that is refused. -/
def refusal? : Token → Option Diagnostic
  | mark .. => none
  | identifier text offset => (Embedded.firstUnnamed? (Region.specOf text)).map fun entry =>
    (Fault.entryUnrecognized entry).diagnostic.withContext
      { region := some (Region.nameOf text), offset := some offset }

theorem isRefused_iff {t : Token} : t.IsRefused ↔ t.refusal?.isSome = true := by
  cases t with
  | mark m offset => simp [IsRefused, refusal?]
  | identifier text offset =>
    simp only [IsRefused, refusal?, Option.isSome_map, Embedded.firstUnnamed?,
      List.find?_isSome, decide_eq_true_eq, Embedded.entries]
    by_cases hspec : Region.specOf text = [] <;> simp [hspec]

instance (t : Token) : Decidable t.IsRefused := decidable_of_iff _ isRefused_iff.symm

end Token

theorem Region.failure?_ofIdentifier (text : Text) (offset : Nat) (row col : Int) :
    failure? (ofIdentifier text offset row col) = (Token.identifier text offset).refusal? := by
  have hexpand := Embedded.failure?_expand (specOf text)
  rw [ofIdentifier_eq, Token.refusal?]
  cases hfound : Embedded.firstUnnamed? (specOf text) with
  | none =>
    cases h : Embedded.expand (specOf text) with
    | ok constraints => rfl
    | error fault => rw [hfound, h] at hexpand; cases hexpand
  | some entry =>
    rw [hfound] at hexpand
    rw [failure?_eq_some_iff.mp hexpand]
    rfl

/-! ## Sketches -/

namespace Draft

/-- A token fails in every draft or in none. -/
theorem failure?_step (d : Draft) (t : Token) : failure? (d.step t).outcome = t.refusal? := by
  cases t with
  | identifier text offset =>
    rw [step_outcome_identifier, failure?_map, Region.failure?_ofIdentifier]
  | mark m offset =>
    cases m with
    | rowStart => rfl
    | rowEnd => rfl
    | filler => rfl
    | widen => rw [step_outcome_widen]; rfl
    | lengthen => rw [step_outcome_lengthen]; rfl

/-- Tokens fail with the first of them that is refused. -/
theorem failure?_run (d : Draft) (tokens : List Token) :
    failure? (d.run tokens).outcome = tokens.findSome? Token.refusal? := by
  induction tokens generalizing d with
  | nil => rfl
  | cons t rest ih =>
    rw [run_outcome_cons, failure?_bind ih, failure?_step, List.findSome?_cons]
    cases t.refusal? <;> rfl

end Draft

namespace Registry

theorem failure?_read? (sketch : Text) :
    failure? (read? (some sketch)).outcome = (Token.scan sketch).findSome? Token.refusal? := by
  have hlater : ∀ d : Draft, failure? (pure (ofList d.regions) : Traced Diagnostic _).outcome = none :=
    fun _ => rfl
  rw [read?, read, Traced.outcome_bind, failure?_bind hlater, Draft.failure?_run, Option.or_none]

/-- A sketch is refused exactly if one of its identifiers is. The report is about the first such
    identifier and the first entry in it that starts with no name: it has the entry, the name and the
    offset of the identifier, and repeats the message of a report about the entry alone. -/
theorem fails_at_first_unnamed (sketch : Text) :
    ((∃ report, (read? (some sketch)).outcome = .error report) ↔
        ∃ t ∈ Token.scan sketch, t.IsRefused) ∧
      ∀ report, (read? (some sketch)).outcome = .error report →
        ∃ text offset entry cause,
          (Token.scan sketch).find? (fun t => decide t.IsRefused) =
            some (.identifier text offset) ∧
          (Embedded.entries (Region.specOf text)).find?
            (fun e => decide (Embedded.IsUnnamed e)) = some entry ∧
          report.code = .embeddedConstraintUnrecognized ∧
          report.context = { input := some entry, region := some (Region.nameOf text),
                             offset := some (offset : Int) } ∧
          report.cause? = some cause ∧ cause.message = report.message ∧
          cause.context = { input := some entry } := by
  have hfailure := failure?_read? sketch
  constructor
  · simp only [← failure?_eq_some_iff, hfailure, ← Option.isSome_iff_exists,
      List.findSome?_isSome_iff, Token.isRefused_iff]
  · intro report hreport
    rw [← failure?_eq_some_iff, hfailure, List.findSome?_eq_some_iff] at hreport
    obtain ⟨before, t, after, hscan, ht, hbefore⟩ := hreport
    cases t with
    | mark m offset => cases ht
    | identifier text offset =>
      have hrefused : (Token.identifier text offset).IsRefused := by
        rw [Token.isRefused_iff, ht]
        rfl
      obtain ⟨entry, hentry, rfl⟩ := Option.map_eq_some_iff.mp ht
      refine ⟨text, offset, entry, _, ?_, hentry, rfl, rfl, rfl, rfl, rfl⟩
      rw [List.find?_eq_some_iff_append, hscan]
      refine ⟨decide_eq_true hrefused, before, after, rfl, fun u hu => ?_⟩
      simp [Token.isRefused_iff, hbefore u hu]

/-- The first identifier that is refused has no name, and its second entry is empty. The one before it
    has an unknown name behind its second separator, and the one after it would be refused too. -/
theorem fails_at_empty_entry :
    let sketch := "\x7ba:wx1:zz :fxy,,5:b c:zz\x7d".toList
    let report := (Fault.entryUnrecognized []).diagnostic.withContext
      { region := some [], offset := some 10 }
    (read? (some sketch)).outcome = .error report ∧
      ∃ text, (Token.scan sketch).find? (fun t => decide t.IsRefused) =
          some (.identifier text 10) ∧ Region.nameOf text = [] ∧
        (Embedded.entries (Region.specOf text)).find?
          (fun e => decide (Embedded.IsUnnamed e)) = some [] := by
  intro sketch report
  have hread : (read? (some sketch)).outcome = .error report := rfl
  obtain ⟨text, offset, entry, cause, hfirst, hentry, -, hcontext, -⟩ :=
    (fails_at_first_unnamed sketch).2 report hread
  obtain ⟨hinput, -, -, hname, hoffset⟩ := Context.mk.inj hcontext
  obtain rfl : [] = entry := Option.some.inj hinput
  obtain rfl : 10 = offset := Int.ofNat.inj (Option.some.inj hoffset)
  exact ⟨hread, text, hfirst, (Option.some.inj hname).symm, hentry⟩

end Registry

end GridSketch
