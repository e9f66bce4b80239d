/-
  Placements of regions against their meaning.

  A placement writes the sizes and the weights of a region into a constraint text and reads that
  text again. Its meaning needs no text: the pairs of the region and then those of the caller are
  carried out on the defaults, the sizes are set, and so are the weights that no pair sets
  (`Placer.meaning`). The two agree for every region of a sketch whose sizes are integers in range.

  * `Region.words_mergedConstraints`: the words of the text that is read again.
  * `Record.applyPairs_sizePairs`: what the pairs behind those of the caller do.
  * `Placer.place_eq_meaning`: placements agree with their meaning.
-/
import GridSketch.Placer
import GridSketch.Proofs.Constraint.Apply
import GridSketch.Proofs.Sketch.Geometry
import GridSketch.Proofs.Sketch.Scan

namespace GridSketch

namespace Region

/-! ## The meaning -/

/-- The words of a placement: those of the region, then those of the caller. -/
def givenWords (r : Region) (parts : List Part) : List Text :=
  Text.words r.constraints ++ Part.words parts

/-- Whether a pair has a name that sets the weight of an axis, in any letter case. -/
def setsWeight (axis : Axis) (pair : Text × Text) : Bool :=
  Mnemonic.weighs axis (Text.lower pair.1)

/-- The record with the sizes of a region, and with the weights that no pair sets. -/
def fit (r : Region) (pairs : List (Text × Text)) (record : Record) : Record :=
  { record with
    gridwidth := r.width
    gridheight := r.height
    weightx := if pairs.any (setsWeight .x) then record.weightx else derivedWeight r.width
    weighty := if pairs.any (setsWeight .y) then record.weighty else derivedWeight r.height }

end Region

/-- The meaning of placing a region: the placement, or the code of the failure. -/
def Placer.meaning (defaults : Record) (r : Region) (name : Text) (parts : List Part) :
    Except Code Placement :=
  let words := r.givenWords parts
  let pairs := pairsOf words
  if words.length % 2 = 1 then .error .constraintPairIncomplete
  else
    match (defaults.applyPairs pairs).fault with
    | some fault => .error fault.code
    | none => .ok ⟨some name, r.row, r.col, r.fit pairs (defaults.applyPairs pairs).record⟩

/-! ## The text that is read again -/

namespace Region

/-- The sizes of a region are integers that can be read. -/
def IsReadable (r : Region) : Prop :=
  (0 ≤ r.width ∧ r.width ≤ Integer.limit) ∧ (0 ≤ r.height ∧ r.height ≤ Integer.limit)

/-- The weight derived from a size in range is a finite double without a sign. -/
theorem derivedWeight_eq {size : Int} (hsize : 0 ≤ size ∧ size ≤ Integer.limit) :
    ∃ m k canonical, derivedWeight size = .finite false m k canonical := by
  have hnegative : decide (size < 0) = false := decide_eq_false (by omega)
  have hlt : size.natAbs < Integer.limit + 1 := by omega
  rw [derivedWeight, hnegative]
  exact Binary64.exists_ofRatio_eq false (by decide) hlt

theorem isWord_derivedWeight {size : Int} (hsize : 0 ≤ size ∧ size ≤ Integer.limit) :
    Text.IsWord (derivedWeight size).write := by
  obtain ⟨m, k, canonical, heq⟩ := derivedWeight_eq hsize
  rw [heq]
  exact Binary64.isWord_write false canonical fun _ => rfl

/-- The words that set a weight, unless one of the names does. -/
def weightWords (names : List Text) (axis : Axis) (name : Text) (size : Int) : List Text :=
  if names.any (Mnemonic.weighs axis) then [] else [name, (derivedWeight size).write]

theorem words_weightParts {size : Int} (hsize : 0 ≤ size ∧ size ≤ Integer.limit)
    (names : List Text) (axis : Axis) {name : Text} (hname : Text.IsWord name) :
    Part.words (weightParts names axis name size) = weightWords names axis name size := by
  rw [weightParts, weightWords]
  split
  · rfl
  · simp [Part.write, Text.words_of_isWord hname,
      Text.words_of_isWord (isWord_derivedWeight hsize)]

/-- The words behind those of the caller: sizes and weights. -/
def sizeWords (r : Region) (names : List Text) : List Text :=
  ["gridwidth".toList, Integer.write r.width, "gridheight".toList, Integer.write r.height] ++
    weightWords names .x "weightx".toList r.width ++
    weightWords names .y "weighty".toList r.height

/-- The words of the text that is read again. -/
theorem words_mergedConstraints {r : Region} (hr : r.IsReadable) (parts : List Part) :
    Text.words (r.mergedConstraints parts) =
      r.givenWords parts ++ r.sizeWords ((pairNames (r.givenWords parts)).map Text.lower) := by
  have hgiven : Text.words (Part.join (.text r.constraints :: parts)) = r.givenWords parts := by
    rw [Part.words_join, Part.words_cons]
    rfl
  have hinteger : ∀ n, Text.words (Integer.write n) = [Integer.write n] := fun n =>
    Text.words_of_isWord (Integer.isWord_write n)
  have hwidth : Text.words "gridwidth".toList = ["gridwidth".toList] := by decide
  have hheight : Text.words "gridheight".toList = ["gridheight".toList] := by decide
  rw [mergedConstraints, Part.words_join, hgiven]
  simp only [Part.words_append, Part.words_cons, Part.words_nil, Part.write, hgiven, hinteger,
    hwidth, hheight, words_weightParts hr.1 _ .x (by decide : Text.IsWord "weightx".toList),
    words_weightParts hr.2 _ .y (by decide : Text.IsWord "weighty".toList)]
  simp only [sizeWords, List.append_assoc, List.cons_append, List.nil_append]

theorem length_sizeWords (r : Region) (names : List Text) : (r.sizeWords names).length % 2 = 0 := by
  unfold sizeWords weightWords
  split <;> split <;> simp

/-- The appended words do not change whether a word is left over. -/
theorem length_mergedConstraints {r : Region} (hr : r.IsReadable) (parts : List Part) :
    (Text.words (r.mergedConstraints parts)).length % 2 = (r.givenWords parts).length % 2 := by
  have hsizes := length_sizeWords r ((pairNames (r.givenWords parts)).map Text.lower)
  rw [words_mergedConstraints hr, List.length_append]
  omega

/-! ## Sizes and weights as pairs -/

/-- The pair that sets a weight, unless one of the given pairs does. -/
def weightPairs (pairs : List (Text × Text)) (axis : Axis) (name : Text) (size : Int) :
    List (Text × Text) :=
  if pairs.any (setsWeight axis) then [] else [(name, (derivedWeight size).write)]

/-- The pairs behind those of the caller: sizes and weights. -/
def sizePairs (r : Region) (pairs : List (Text × Text)) : List (Text × Text) :=
  [("gridwidth".toList, Integer.write r.width), ("gridheight".toList, Integer.write r.height)] ++
    weightPairs pairs .x "weightx".toList r.width ++
    weightPairs pairs .y "weighty".toList r.height

/-- The names that are asked about weights are those of the given pairs. -/
theorem any_weighs (pairs : List (Text × Text)) (axis : Axis) :
    ((pairs.map Prod.fst).map Text.lower).any (Mnemonic.weighs axis) =
      pairs.any (setsWeight axis) := by
  rw [List.any_map, List.any_map]
  rfl

theorem pairsOf_sizeWords (r : Region) (pairs : List (Text × Text)) :
    pairsOf (r.sizeWords ((pairs.map Prod.fst).map Text.lower)) = r.sizePairs pairs := by
  unfold sizeWords sizePairs weightWords weightPairs
  rw [any_weighs, any_weighs]
  split <;> split <;> rfl

/-- The pairs of the text that is read again: without a word left over, the given ones come first. -/
theorem pairsOf_mergedConstraints {r : Region} (hr : r.IsReadable) {parts : List Part}
    (heven : (r.givenWords parts).length % 2 = 0) :
    pairsOf (Text.words (r.mergedConstraints parts)) =
      pairsOf (r.givenWords parts) ++ r.sizePairs (pairsOf (r.givenWords parts)) := by
  rw [words_mergedConstraints hr, pairNames_of_even heven, pairsOf_append heven, pairsOf_sizeWords]

end Region

/-! ## Sizes and weights carried out -/

namespace Record

open Region (setsWeight derivedWeight weightPairs sizePairs)

theorem faultOf_of_read {name value : Text} {a : Assignment}
    (h : Assignment.read name value = .ok a) : faultOf (name, value) = none := by
  rw [faultOf, h]

theorem carryOut_of_read {name value : Text} {a : Assignment}
    (h : Assignment.read name value = .ok a) (record : Record) :
    record.carryOut (name, value) = a.apply record := by
  rw [carryOut, h]

theorem read_derivedWeight {name : Text} {axes : List Axis} {size : Int}
    (htarget : Mnemonic.target? (Text.lower name) = some (.weights axes))
    (hsize : 0 ≤ size ∧ size ≤ Integer.limit) :
    Assignment.read name (derivedWeight size).write = .ok (.weights axes (derivedWeight size)) := by
  obtain ⟨m, k, canonical, heq⟩ := Region.derivedWeight_eq hsize
  rw [heq]
  exact Assignment.read_weight htarget false canonical fun _ => rfl

section

variable {name : Text} {axis : Axis} {size : Int}
  (htarget : Mnemonic.target? (Text.lower name) = some (.weights [axis]))
  (hsize : 0 ≤ size ∧ size ≤ Integer.limit) (pairs : List (Text × Text))
include htarget hsize

theorem findSome?_weightPairs : (weightPairs pairs axis name size).findSome? faultOf = none := by
  unfold weightPairs
  split
  · rfl
  · rw [List.findSome?_cons, faultOf_of_read (read_derivedWeight htarget hsize)]
    rfl

theorem foldl_weightPairs (record : Record) :
    (weightPairs pairs axis name size).foldl carryOut record =
      if pairs.any (setsWeight axis) then record
      else record.setWeight axis (derivedWeight size) := by
  unfold weightPairs
  split
  · rfl
  · rw [List.foldl_cons, carryOut_of_read (read_derivedWeight htarget hsize)]
    rfl

end

section

variable {r : Region} (hr : r.IsReadable) (pairs : List (Text × Text))
include hr

theorem read_gridwidth : Assignment.read "gridwidth".toList (Integer.write r.width) =
    .ok (.measures [.gridwidth] r.width) :=
  Assignment.read_measure (by decide) (by have := hr.1; omega)

theorem read_gridheight : Assignment.read "gridheight".toList (Integer.write r.height) =
    .ok (.measures [.gridheight] r.height) :=
  Assignment.read_measure (by decide) (by have := hr.2; omega)

/-- Sizes and weights can always be read: they never make a placement fail. -/
theorem findSome?_sizePairs : (r.sizePairs pairs).findSome? faultOf = none := by
  rw [sizePairs, List.findSome?_append, List.findSome?_append,
    findSome?_weightPairs (by decide) hr.1, findSome?_weightPairs (by decide) hr.2,
    List.findSome?_cons, faultOf_of_read (read_gridwidth hr),
    List.findSome?_cons, faultOf_of_read (read_gridheight hr)]
  rfl

/-- Sizes and weights carried out. -/
theorem foldl_sizePairs (record : Record) :
    (r.sizePairs pairs).foldl carryOut record = r.fit pairs record := by
  rw [sizePairs, List.foldl_append, List.foldl_append, foldl_weightPairs (by decide) hr.2,
    foldl_weightPairs (by decide) hr.1, List.foldl_cons, carryOut_of_read (read_gridwidth hr),
    List.foldl_cons, carryOut_of_read (read_gridheight hr)]
  unfold Region.fit
  cases pairs.any (setsWeight .x) <;> cases pairs.any (setsWeight .y) <;>
    simp [Assignment.apply, setMeasure, setWeight]

/-- Sizes and weights behind the given pairs: a failure is that of the given pairs, and without one
    the sizes and weights are set in the end. -/
theorem applyPairs_sizePairs (record : Record) :
    (record.applyPairs (pairs ++ r.sizePairs pairs)).fault = (record.applyPairs pairs).fault ∧
      ((record.applyPairs pairs).fault = none →
        (record.applyPairs (pairs ++ r.sizePairs pairs)).record =
          r.fit pairs (record.applyPairs pairs).record) := by
  have hfault : (pairs ++ r.sizePairs pairs).findSome? faultOf = pairs.findSome? faultOf := by
    rw [List.findSome?_append, findSome?_sizePairs hr, Option.or_none]
  rw [fault_applyPairs, fault_applyPairs]
  refine ⟨hfault, fun hnone => ?_⟩
  rw [record_applyPairs_of_readable (hfault.trans hnone), record_applyPairs_of_readable hnone,
    List.foldl_append, foldl_sizePairs hr]

end

end Record

/-! ## Placements -/

namespace Placer

theorem outcome_traced (a : Applied) :
    a.traced.outcome = match a.fault with
      | none => .ok a.record
      | some fault => .error fault.diagnostic := rfl

/-- The outcome of placing a region that is there. -/
theorem outcome_place {placer : Placer} {name : Text} {r : Region}
    (hregion : placer.region name = .ok r) (parts : List Part) :
    (placer.place name parts).outcome =
      match (placer.defaults.applyText (r.mergedConstraints parts)).fault with
      | none => .ok ⟨some name, r.row, r.col,
          (placer.defaults.applyText (r.mergedConstraints parts)).record⟩
      | some fault => .error fault.diagnostic := by
  rw [place, hregion]
  simp only [Traced.outcome_bind, Traced.outcome_ofExcept, Traced.outcome_tell,
    Traced.outcome_pure, Except.mapError, Except.bind, outcome_traced]
  cases (placer.defaults.applyText (r.mergedConstraints parts)).fault <;> rfl

/-- Placing a region whose sizes are in range. -/
theorem place_of_isReadable {placer : Placer} {name : Text} {r : Region}
    (hregion : placer.region name = .ok r) (hr : r.IsReadable) (parts : List Part) :
    (placer.place name parts).outcome.mapError Diagnostic.code =
      meaning placer.defaults r name parts := by
  have hlength := Region.length_mergedConstraints hr parts
  rw [outcome_place hregion, meaning]
  rcases Nat.mod_two_eq_zero_or_one (r.givenWords parts).length with heven | hodd
  · obtain ⟨hfault, hrecord⟩ :=
      Record.applyPairs_sizePairs hr (pairsOf (r.givenWords parts)) placer.defaults
    rw [if_neg (by omega), Record.applyText_of_even (hlength.trans heven),
      Region.pairsOf_mergedConstraints hr heven, hfault]
    cases hf : (placer.defaults.applyPairs (pairsOf (r.givenWords parts))).fault with
    | none => rw [hrecord hf]; rfl
    | some fault => rfl
  · obtain ⟨last, -, hlast⟩ := Record.applyText_of_odd (hlength.trans hodd)
    rw [if_pos hodd, hlast]
    rfl

/-- The regions of a sketch of fewer than `2 ^ 53` code units have sizes in range. -/
theorem isReadable_of_read {sketch : Text} {registry : Registry}
    (hsketch : Text.size16 sketch ≤ Integer.limit)
    (hread : (Registry.read sketch).outcome = .ok registry) {r : Region}
    (hr : r ∈ registry.regions) : r.IsReadable := by
  have hsize := Geometry.size_le_of_read hread hr
  have htokens : (Token.scan sketch).length ≤ Text.size16 sketch :=
    Token.length_scanFrom_le sketch 0
  unfold Region.IsReadable
  omega

end Placer

end GridSketch
