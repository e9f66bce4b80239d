/-
  Constraints one after the other, and what a text leaves behind that fails.

  Work that ended early is not gone on with; otherwise the next part goes on with the record that was
  reached. Pairs that are put behind other pairs are such a next part. A text is refused as a whole if
  a word is left over. If not, it stops at the first pair that cannot be read, and the record has all
  pairs before that one and nothing of it, not even in one of several parameters that it sets.

  * `Record.applyPairs_append`: pairs behind other pairs.
  * `Record.applyPairs_of_rejected`: pairs with one that cannot be read.
  * `Record.applyText_stops_at_rejected`: texts.
-/
import GridSketch.Proofs.Constraint.Fields

namespace GridSketch

namespace Applied

/-- Further work on the record that was reached, unless something ended the work early. -/
def andThen (a : Applied) (f : Record → Applied) : Applied :=
  match a.fault with
  | some _ => a
  | none => { f a.record with done := a.done ++ (f a.record).done }

variable {a : Applied} {f : Record → Applied}

theorem andThen_of_fault {fault : Fault} (h : a.fault = some fault) : a.andThen f = a := by
  rw [andThen, h]

theorem andThen_of_none (h : a.fault = none) :
    a.andThen f = { f a.record with done := a.done ++ (f a.record).done } := by
  rw [andThen, h]

/-- A pair that was carried out before all of it. -/
theorem andThen_cons (pair : Text × Text) :
    { a with done := pair :: a.done }.andThen f =
      { a.andThen f with done := pair :: (a.andThen f).done } := by
  obtain ⟨record, done, fault⟩ := a
  cases fault <;> rfl

end Applied

namespace Record

/-! ## Pairs -/

/-- A single pair carried out. -/
def interpret (r : Record) (pair : Text × Text) : Applied := r.applyPairs [pair]

theorem fault_interpret (r : Record) (pair : Text × Text) :
    (r.interpret pair).fault = faultOf pair := by
  rw [interpret, fault_applyPairs, List.findSome?_singleton]

theorem record_interpret (r : Record) (pair : Text × Text) :
    (r.interpret pair).record = r.carryOut pair := by
  rw [interpret, applyPairs, carryOut]
  cases Assignment.read pair.1 pair.2 <;> rfl

/-- A pair that cannot be read leaves every record as it is. -/
theorem interpret_of_fault {pair : Text × Text} {fault : Fault} (h : faultOf pair = some fault)
    (r : Record) : r.interpret pair = ⟨r, [], some fault⟩ := by
  rw [faultOf] at h
  rw [interpret, applyPairs]
  cases hread : Assignment.read pair.1 pair.2 with
  | ok assignment => rw [hread] at h; cases h
  | error found => rw [hread] at h; cases h; rfl

/-- Pairs behind other pairs are carried out on the record that these leave, unless they fail. -/
theorem applyPairs_append (r : Record) (first second : List (Text × Text)) :
    r.applyPairs (first ++ second) = (r.applyPairs first).andThen fun s => s.applyPairs second := by
  induction first generalizing r with
  | nil => rfl
  | cons pair rest ih =>
    rw [List.cons_append, applyPairs, applyPairs]
    cases Assignment.read pair.1 pair.2 with
    | error fault => rfl
    | ok assignment =>
      refine Eq.trans ?_ (Applied.andThen_cons _).symm
      rw [← ih]

/-- The pairs that are carried out, with their names in lower case. -/
theorem done_applyPairs (r : Record) (pairs : List (Text × Text)) :
    (r.applyPairs pairs).done =
      (pairs.takeWhile fun pair => (faultOf pair).isNone).map fun pair =>
        (Text.lower pair.1, pair.2) := by
  induction pairs generalizing r with
  | nil => rfl
  | cons pair rest ih =>
    rw [applyPairs, List.takeWhile_cons, faultOf]
    cases Assignment.read pair.1 pair.2 with
    | error fault => rfl
    | ok assignment => exact congrArg _ (ih (assignment.apply r))

/-- Pairs stop at the first that cannot be read, with the effect of those before it. -/
theorem applyPairs_of_rejected {before after : List (Text × Text)} {first : Text × Text}
    {fault : Fault} (hbefore : before.findSome? faultOf = none) (hfirst : faultOf first = some fault)
    (r : Record) :
    r.applyPairs (before ++ first :: after) = { r.applyPairs before with fault := some fault } := by
  have hreached : (r.applyPairs before).fault = none := (fault_applyPairs r before).trans hbefore
  have hstop : ∀ s : Record, s.applyPairs (first :: after) = ⟨s, [], some fault⟩ := fun s => by
    have hsingle : (s.applyPairs [first]).fault = some fault := by
      rw [fault_applyPairs, List.findSome?_singleton, hfirst]
    rw [← List.singleton_append, applyPairs_append, Applied.andThen_of_fault hsingle]
    exact interpret_of_fault hfirst s
  rw [applyPairs_append, Applied.andThen_of_none hreached, hstop, List.append_nil]

/-- Pairs of which one cannot be read have a first such pair. -/
theorem exists_first_rejected {pairs : List (Text × Text)} {pair : Text × Text}
    (hpair : pair ∈ pairs) (h : faultOf pair ≠ none) :
    ∃ before first after fault, pairs = before ++ first :: after ∧
      before.findSome? faultOf = none ∧ faultOf first = some fault := by
  have hsome : (pairs.findSome? faultOf).isSome = true :=
    List.findSome?_isSome_iff.mpr ⟨pair, hpair, Option.isSome_iff_ne_none.mpr h⟩
  obtain ⟨fault, hfault⟩ := Option.isSome_iff_exists.mp hsome
  obtain ⟨before, first, after, hpairs, hfirst, hbefore⟩ := List.findSome?_eq_some_iff.mp hfault
  exact ⟨before, first, after, fault, hpairs, List.findSome?_eq_none_iff.mpr hbefore, hfirst⟩

/-! ## Texts -/

/-- A text with a word left over is refused for its last word and has no effect. A text of pairs of
    which one cannot be read fails as the first such pair does; the record has the effect of the pairs
    before that one, so that the last of these for a parameter decides its value. What fails and what
    was carried out before does not depend on the record. -/
theorem applyText_stops_at_rejected (t : Text) :
    ((Text.words t).length % 2 = 1 →
        ∃ fault : Fault, fault.code = .constraintPairIncomplete ∧
          fault.context = { input := some t, name := (Text.words t).getLast? } ∧
          ∀ r : Record, r.applyText t = ⟨r, [], some fault⟩) ∧
      ((Text.words t).length % 2 = 0 →
        ∀ pair ∈ pairsOf (Text.words t), ∀ s : Record, (s.interpret pair).fault ≠ none →
          ∃ before first after fault,
            pairsOf (Text.words t) = before ++ first :: after ∧
            (∀ p ∈ before, ∀ s : Record, (s.interpret p).fault = none) ∧
            (∀ s : Record, s.interpret first = ⟨s, [], some fault⟩) ∧
            ∀ r : Record, (r.applyText t).fault = some fault ∧
              (r.applyText t).record = before.foldl (fun s p => (s.interpret p).record) r ∧
              ∀ f, Decides f before (r.get f) ((r.applyText t).record.get f)) ∧
      ∀ r s : Record, (r.applyText t).fault = (s.applyText t).fault ∧
        (r.applyText t).done = (s.applyText t).done := by
  refine ⟨fun hodd => ?_, fun heven pair hpair s hrejected => ?_, fun r s => ?_⟩
  · obtain ⟨last, hend, hlast⟩ := applyText_of_odd hodd
    exact ⟨.valueMissing t last, rfl, by rw [hend]; rfl, hlast⟩
  · rw [fault_interpret] at hrejected
    obtain ⟨before, first, after, fault, hpairs, hreadable, hfirst⟩ :=
      exists_first_rejected hpair hrejected
    refine ⟨before, first, after, fault, hpairs, fun p hp s => ?_, interpret_of_fault hfirst,
      fun r => ?_⟩
    · rw [fault_interpret, List.findSome?_eq_none_iff.mp hreadable p hp]
    · have hrecord := record_applyPairs_of_readable hreadable r
      rw [applyText_of_even heven, hpairs, applyPairs_of_rejected hreadable hfirst]
      refine ⟨rfl, ?_, fun f => ?_⟩
      · simp only [record_interpret]
        exact hrecord
      · rw [hrecord]
        exact decides_foldl_carryOut hreadable r f
  · rcases Nat.mod_two_eq_zero_or_one (Text.words t).length with heven | hodd
    · simp only [applyText_of_even heven, fault_applyPairs, done_applyPairs, and_self]
    · obtain ⟨last, -, hlast⟩ := applyText_of_odd hodd
      simp only [hlast, and_self]

/-- The second of three pairs would set two parameters, to a value that is no integer. -/
theorem applyText_stops_at_pads :
    let t := "w* 2 P* 1.5 fill xy".toList
    let pair := ("P*".toList, "1.5".toList)
    (Text.words t).length % 2 = 0 ∧ pair ∈ pairsOf (Text.words t) ∧
      (standard.interpret pair).fault ≠ none ∧
      ∀ r : Record, (r.applyText t).fault = some (.integerExpected "p*".toList "1.5".toList) ∧
        (r.applyText t).done = [("w*".toList, "2".toList)] := by
  intro t pair
  have heven : (Text.words t).length % 2 = 0 := by decide
  have hpair : pair ∈ pairsOf (Text.words t) := by decide
  have hrejected : (standard.interpret pair).fault ≠ none := by decide +kernel
  have hfault : (standard.applyText t).fault =
      some (.integerExpected "p*".toList "1.5".toList) := by decide +kernel
  have hdone : (standard.applyText t).done = [("w*".toList, "2".toList)] := by decide +kernel
  obtain ⟨-, hstops, hsame⟩ := applyText_stops_at_rejected t
  obtain ⟨before, first, after, fault, -, -, -, hrecords⟩ :=
    hstops heven pair hpair standard hrejected
  have hfound : some fault = some (.integerExpected "p*".toList "1.5".toList) :=
    (hrecords standard).1.symm.trans hfault
  exact ⟨heven, hpair, hrejected, fun r => ⟨(hrecords r).1.trans hfound,
    (hsame r standard).2.trans hdone⟩⟩

end Record

end GridSketch
