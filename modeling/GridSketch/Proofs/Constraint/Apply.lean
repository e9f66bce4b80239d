/-
  What a constraint text does to a record, in closed form.

  The pairs of a text are its words taken two by two. The first pair that cannot be read is the
  failure of the text, and the pairs before it are carried out one after the other; a text with an
  odd number of words fails as a whole.

  * `Record.fault_applyPairs`, `Record.record_applyPairs`: the failure and the record.
  * `Record.applyText_of_even`, `Record.applyText_of_odd`, `Record.record_applyParts`: texts and
    arguments.
  * `Assignment.read_measure`, `Assignment.read_weight`: notations of numbers as values.
-/
import GridSketch.Constraint.Apply
import GridSketch.Proofs.Number.Notation
import Mathlib.Data.List.TakeWhile

namespace GridSketch

/-! ## Pairs of words -/

/-- The words taken two by two, without a word that is left over. -/
def pairsOf : List Text → List (Text × Text)
  | name :: value :: rest => (name, value) :: pairsOf rest
  | _ => []

theorem pairUp_of_even {ws : List Text} (h : ws.length % 2 = 0) : pairUp ws = .ok (pairsOf ws) := by
  induction ws using pairUp.induct with
  | case1 => rfl
  | case2 last => simp at h
  | case3 name value rest pairs hrest ih =>
    rw [pairUp, ih (by rw [List.length_cons, List.length_cons] at h; omega)]
    rfl
  | case4 name value rest last hrest ih =>
    rw [pairUp, ih (by rw [List.length_cons, List.length_cons] at h; omega)]
    rfl

/-- The word left over is the last. -/
theorem pairUp_of_odd {ws : List Text} (h : ws.length % 2 = 1) :
    ∃ last, ws.getLast? = some last ∧ pairUp ws = .error last := by
  induction ws using pairNames.induct with
  | case1 => simp at h
  | case2 last => exact ⟨last, rfl, rfl⟩
  | case3 name value rest ih =>
    obtain ⟨last, hend, hlast⟩ := ih (by rw [List.length_cons, List.length_cons] at h; omega)
    refine ⟨last, ?_, by rw [pairUp, hlast]⟩
    rw [List.getLast?_cons_cons, List.getLast?_cons, hend]
    rfl

theorem pairNames_of_even {ws : List Text} (h : ws.length % 2 = 0) :
    pairNames ws = (pairsOf ws).map Prod.fst := by
  induction ws using pairNames.induct with
  | case1 => rfl
  | case2 name => simp at h
  | case3 name value rest ih =>
    rw [pairNames, pairsOf, List.map_cons, ih (by rw [List.length_cons, List.length_cons] at h; omega)]

theorem pairsOf_append {first : List Text} (h : first.length % 2 = 0) (second : List Text) :
    pairsOf (first ++ second) = pairsOf first ++ pairsOf second := by
  induction first using pairsOf.induct with
  | case1 name value rest ih =>
    rw [pairsOf, List.cons_append, List.cons_append, pairsOf, ih (by rw [List.length_cons, List.length_cons] at h; omega)]
    rfl
  | case2 ws hws =>
    match ws with
    | [] => rfl
    | [_] => simp at h
    | name :: value :: rest => exact absurd rfl (hws name value rest)

/-- Pairs written as words are found again. -/
theorem pairsOf_flatMap (pairs : List (Text × Text)) :
    pairsOf (pairs.flatMap fun pair => [pair.1, pair.2]) = pairs := by
  induction pairs with
  | nil => rfl
  | cons pair rest ih => exact congrArg (pair :: ·) ih

theorem length_flatMap (pairs : List (Text × Text)) :
    (pairs.flatMap fun pair => [pair.1, pair.2]).length % 2 = 0 := by
  induction pairs with
  | nil => rfl
  | cons pair rest ih =>
    rw [List.flatMap_cons, List.length_append, List.length_cons, List.length_singleton]
    omega

/-! ## Pairs carried out -/

/-- What keeps a pair from being carried out. -/
def faultOf (pair : Text × Text) : Option Fault :=
  match Assignment.read pair.1 pair.2 with
  | .ok _ => none
  | .error fault => some fault

namespace Record

/-- The record with one pair carried out, if the pair can be read. -/
def carryOut (r : Record) (pair : Text × Text) : Record :=
  match Assignment.read pair.1 pair.2 with
  | .ok assignment => assignment.apply r
  | .error _ => r

/-- Pairs fail with the first of them that cannot be read. -/
theorem fault_applyPairs (r : Record) (pairs : List (Text × Text)) :
    (r.applyPairs pairs).fault = pairs.findSome? faultOf := by
  induction pairs generalizing r with
  | nil => rfl
  | cons pair rest ih =>
    rw [applyPairs, List.findSome?_cons, faultOf]
    cases Assignment.read pair.1 pair.2 with
    | error fault => rfl
    | ok assignment => exact ih _

/-- The pairs before the first that cannot be read are carried out in order. -/
theorem record_applyPairs (r : Record) (pairs : List (Text × Text)) :
    (r.applyPairs pairs).record =
      (pairs.takeWhile fun pair => (faultOf pair).isNone).foldl carryOut r := by
  induction pairs generalizing r with
  | nil => rfl
  | cons pair rest ih =>
    rw [applyPairs, List.takeWhile_cons]
    cases h : Assignment.read pair.1 pair.2 with
    | error fault => simp [faultOf, h]
    | ok assignment => simp [faultOf, carryOut, h, ih]

/-- Pairs that can all be read are all carried out. -/
theorem record_applyPairs_of_readable {pairs : List (Text × Text)}
    (h : pairs.findSome? faultOf = none) (r : Record) :
    (r.applyPairs pairs).record = pairs.foldl carryOut r := by
  rw [record_applyPairs, List.takeWhile_eq_self_iff.mpr]
  intro pair hpair
  rw [List.findSome?_eq_none_iff.mp h pair hpair]
  rfl

/-! ## Texts -/

theorem applyText_of_even {t : Text} (h : (Text.words t).length % 2 = 0) (r : Record) :
    r.applyText t = r.applyPairs (pairsOf (Text.words t)) := by
  rw [applyText, pairUp_of_even h]

/-- A text with an odd number of words fails because of the last, without an effect. -/
theorem applyText_of_odd {t : Text} (h : (Text.words t).length % 2 = 1) :
    ∃ last, (Text.words t).getLast? = some last ∧
      ∀ r : Record, r.applyText t = ⟨r, [], some (.valueMissing t last)⟩ := by
  obtain ⟨last, hend, hlast⟩ := pairUp_of_odd h
  exact ⟨last, hend, fun r => by rw [applyText, hlast]⟩

end Record

/-! ## Arguments -/

namespace Part

/-- The pairs of arguments. -/
def pairs (parts : List Part) : List (Text × Text) := pairsOf (words parts)

/-- The pairs of arguments that are carried out: those before the first that cannot be read, and
    none if a word is left over. -/
def carried (parts : List Part) : List (Text × Text) :=
  if (words parts).length % 2 = 1 then []
  else (pairs parts).takeWhile fun pair => (faultOf pair).isNone

end Part

namespace Record

/-- Arguments have the effect of the pairs that are carried out, whether they fail or not. -/
theorem record_applyParts (r : Record) (parts : List Part) :
    (r.applyParts parts).record = (Part.carried parts).foldl carryOut r := by
  have hwords := Part.words_join parts
  rw [applyParts, Part.carried]
  rcases Nat.mod_two_eq_zero_or_one (Part.words parts).length with heven | hodd
  · rw [applyText_of_even (by rw [hwords, heven]), record_applyPairs, hwords, if_neg (by omega)]
    rfl
  · obtain ⟨last, -, hlast⟩ := applyText_of_odd (t := Part.join parts) (by rw [hwords, hodd])
    rw [hlast, if_pos hodd]
    rfl

/-- Arguments that do not fail have the effect of all their pairs. -/
theorem record_applyParts_of_fault {r : Record} {parts : List Part}
    (h : (r.applyParts parts).fault = none) :
    (r.applyParts parts).record = (Part.pairs parts).foldl carryOut r := by
  have hwords := Part.words_join parts
  rw [applyParts] at h ⊢
  rcases Nat.mod_two_eq_zero_or_one (Part.words parts).length with heven | hodd
  · rw [applyText_of_even (by rw [hwords, heven]), hwords] at h ⊢
    rw [fault_applyPairs] at h
    exact record_applyPairs_of_readable h r
  · obtain ⟨last, -, hlast⟩ := applyText_of_odd (t := Part.join parts) (by rw [hwords, hodd])
    rw [hlast] at h
    exact absurd h (by simp)

end Record

/-! ## Notations of numbers as values -/

namespace Assignment

/-- The notation of an integer in range sets the integer parameters of a name. -/
theorem read_measure {name : Text} {ms : List Measure} {n : Int}
    (htarget : Mnemonic.target? (Text.lower name) = some (.measures ms))
    (hn : n.natAbs ≤ Integer.limit) :
    read name (Integer.write n) = .ok (.measures ms n) := by
  rw [read, htarget, Text.lower_of_isNumeral (Integer.isNumeral_write n)]
  simp only [Target.read, Value.integer, Integer.read?_write hn]
  rfl

/-- The notation of a finite double, unless it is negative zero, sets the weights of a name. -/
theorem read_weight {name : Text} {axes : List Axis}
    (htarget : Mnemonic.target? (Text.lower name) = some (.weights axes)) (negative : Bool)
    {m k : Nat} (h : Binary64.Canonical m k) (hzero : m = 0 → negative = false) :
    read name (Binary64.finite negative m k h).write =
      .ok (.weights axes (.finite negative m k h)) := by
  rw [read, htarget, Text.lower_of_isNumeral (Binary64.isNumeral_write negative h)]
  simp only [Target.read, Value.weight, Binary64.read?_write negative h hzero]
  rfl

end Assignment

end GridSketch
