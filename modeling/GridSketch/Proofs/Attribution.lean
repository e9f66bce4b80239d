/-
  The word that the report of a failed placement points at.

  A placement reads the words that were given, those of the region and then those of the caller, and
  behind them the sizes and the weights, which can always be read. If the given words are pairs, the
  report points at one of these pairs. If a given word is left over, the words behind it make up for
  its value, and the word left over in the end is the last size or weight: the report names that one,
  and not the given word that lacks a value.

  * `Fault.pointsAt_of_faultOf`: the failure of a pair.
  * `Placer.pointsInto_place_iff`: placements.
-/
import GridSketch.Proofs.Constraint.Spelling
import GridSketch.Proofs.Placement

namespace GridSketch

namespace Diagnostic

/-- A report points at a pair by name and value: both in lower case, except that the value is as
    written if the name is unknown, and that a keyword stands for the names of anchors and fills. -/
def PointsAt (report : Diagnostic) (pair : Text × Text) : Prop :=
  match report.code with
  | .constraintNameUnknown =>
    report.context.name = some (Text.lower pair.1) ∧ report.context.value = some pair.2
  | .anchorValueUnknown =>
    report.context.name = some "anchor".toList ∧ report.context.value = some (Text.lower pair.2)
  | .fillValueUnknown =>
    report.context.name = some "fill".toList ∧ report.context.value = some (Text.lower pair.2)
  | _ => report.context.name = some (Text.lower pair.1) ∧
    report.context.value = some (Text.lower pair.2)

/-- A report points into words: at the last of them if it is left over, and else at a pair. -/
def PointsInto (report : Diagnostic) (words : List Text) : Prop :=
  if words.length % 2 = 1 then
    report.code = .constraintPairIncomplete ∧ report.context.name = words.getLast? ∧
      report.context.value = none
  else ∃ pair ∈ pairsOf words, report.PointsAt pair

end Diagnostic

/-- The failure of a pair points at it. -/
theorem Fault.pointsAt_of_faultOf {pair : Text × Text} {fault : Fault}
    (h : faultOf pair = some fault) : fault.diagnostic.PointsAt pair := by
  rw [faultOf] at h
  split at h
  next => cases h
  next found hfound =>
    cases h
    rw [Assignment.read] at hfound
    split at hfound
    next target htarget =>
      rcases Target.fault_cases hfound with rfl | rfl | rfl | rfl <;> exact ⟨rfl, rfl⟩
    next =>
      cases hfound
      exact ⟨rfl, rfl⟩

/-! ## Placements -/

namespace Region

/-- The words that are appended to the given ones: sizes and weights. -/
def appendedWords (r : Region) (parts : List Part) : List Text :=
  r.sizeWords ((pairNames (r.givenWords parts)).map Text.lower)

/-- The text that is read again ends in a size or a weight. -/
theorem getLast?_mergedConstraints {r : Region} (hr : r.IsReadable) (parts : List Part) :
    (Text.words (r.mergedConstraints parts)).getLast? = (r.appendedWords parts).getLast? := by
  have hne : r.appendedWords parts ≠ [] := by simp [appendedWords, sizeWords]
  rw [words_mergedConstraints hr, ← appendedWords, List.getLast?_append,
    List.getLast?_eq_some_getLast hne]
  rfl

end Region

namespace Placer

/-- The region of a name is the first of that name. -/
theorem region_of_find? {placer : Placer} {registry : Registry}
    (hlayout : placer.layout = some registry) {name : Text} {r : Region}
    (hr : (registry.regions.find? fun found => found.name == name) = some r) :
    placer.region name = .ok r := by
  rw [region, hlayout]
  simp only [Registry.get?, registry.indexed, hr]

/-- The failure behind the report of a placement. -/
theorem fault_of_place {placer : Placer} {name : Text} {r : Region}
    (hregion : placer.region name = .ok r) {parts : List Part} {report : Diagnostic}
    (h : (placer.place name parts).outcome = .error report) :
    ∃ fault, (placer.defaults.applyText (r.mergedConstraints parts)).fault = some fault ∧
      report = fault.diagnostic := by
  rw [outcome_place hregion] at h
  split at h
  next => cases h
  next fault hfault =>
    cases h
    exact ⟨fault, hfault, rfl⟩

section

variable {placer : Placer} {name : Text} {r : Region} {parts : List Part} {report : Diagnostic}
  (hregion : placer.region name = .ok r) (hr : r.IsReadable)
  (hfail : (placer.place name parts).outcome = .error report)
include hregion hr hfail

/-- Without a word left over, the report points at a given pair. -/
theorem pointsAt_of_even (heven : (r.givenWords parts).length % 2 = 0) :
    ∃ pair ∈ pairsOf (r.givenWords parts), report.PointsAt pair := by
  have hlength := Region.length_mergedConstraints hr parts
  obtain ⟨fault, hfault, rfl⟩ := fault_of_place hregion hfail
  rw [Record.applyText_of_even (hlength.trans heven), Region.pairsOf_mergedConstraints hr heven,
    (Record.applyPairs_sizePairs hr _ _).1, Record.fault_applyPairs] at hfault
  obtain ⟨pair, hpair, hfaultOf⟩ := List.exists_of_findSome?_eq_some hfault
  exact ⟨pair, hpair, Fault.pointsAt_of_faultOf hfaultOf⟩

/-- With a word left over, the report points at the last appended word. -/
theorem report_of_odd (hodd : (r.givenWords parts).length % 2 = 1) :
    report.code = .constraintPairIncomplete ∧
      report.context.name = (r.appendedWords parts).getLast? ∧ report.context.value = none := by
  have hlength := Region.length_mergedConstraints hr parts
  obtain ⟨fault, hfault, rfl⟩ := fault_of_place hregion hfail
  obtain ⟨last, hlast, hmissing⟩ := Record.applyText_of_odd (hlength.trans hodd)
  rw [hmissing] at hfault
  cases hfault
  rw [← Region.getLast?_mergedConstraints hr, hlast]
  exact ⟨rfl, rfl, rfl⟩

end

/-- The report of a failed placement points into the given words if and only if these are pairs, or
    the last of them equals the last appended word; with a word left over the report names the last
    appended word. -/
theorem pointsInto_place_iff (placer : Placer) (sketch : Text) (registry : Registry)
    (hsketch : Text.size16 sketch ≤ Integer.limit)
    (hread : (Registry.read sketch).outcome = .ok registry)
    (hlayout : placer.layout = some registry) (name : Text) (r : Region)
    (hr : (registry.regions.find? fun found => found.name == name) = some r) (parts : List Part)
    (report : Diagnostic) (hfail : (placer.place name parts).outcome = .error report) :
    (report.PointsInto (r.givenWords parts) ↔
        (r.givenWords parts).length % 2 = 0 ∨
          (r.givenWords parts).getLast? = (r.appendedWords parts).getLast?) ∧
      ((r.givenWords parts).length % 2 = 1 →
        report.code = .constraintPairIncomplete ∧
          report.context.name = (r.appendedWords parts).getLast?) := by
  have hregion := region_of_find? hlayout hr
  have hreadable := isReadable_of_read hsketch hread (List.mem_of_find?_eq_some hr)
  rcases Nat.mod_two_eq_zero_or_one (r.givenWords parts).length with heven | hodd
  · have hpair := pointsAt_of_even hregion hreadable hfail heven
    rw [Diagnostic.PointsInto, if_neg (by omega)]
    exact ⟨iff_of_true hpair (.inl heven), fun hodd => by omega⟩
  · obtain ⟨hcode, hname, hvalue⟩ := report_of_odd hregion hreadable hfail hodd
    rw [Diagnostic.PointsInto, if_pos hodd, hname]
    refine ⟨⟨fun h => .inr h.2.1.symm, fun h => ⟨hcode, ?_, hvalue⟩⟩, fun _ => ⟨hcode, rfl⟩⟩
    exact (h.resolve_left (by omega)).symm

/-- A fill of the caller that is unknown, behind a weight of the region. -/
theorem pointsInto_place_unknown_fill :
    let sketch := "\x7ba:wx1\x7d".toList
    let r : Region := ⟨"a".toList, 0, 0, 1, 1, "wx 1".toList⟩
    let placer : Placer := ⟨Record.standard, some (Registry.ofList [r])⟩
    let parts : List Part := [.text "Fill Bogus".toList]
    let report := (Fault.fillUnknown "bogus".toList).diagnostic
    (Registry.read sketch).outcome = .ok (Registry.ofList [r]) ∧
      (placer.place "a".toList parts).outcome = .error report ∧
      report.PointsInto (r.givenWords parts) := by
  intro sketch r placer parts report
  have hread : (Registry.read sketch).outcome = .ok (Registry.ofList [r]) := rfl
  have hregion : placer.region "a".toList = .ok r := region_of_find? rfl rfl
  have hfault : (placer.defaults.applyText (r.mergedConstraints parts)).fault =
      some (.fillUnknown "bogus".toList) := by decide +kernel
  have hfail : (placer.place "a".toList parts).outcome = .error report := by
    rw [outcome_place hregion, hfault]
  obtain ⟨hinto, -⟩ := pointsInto_place_iff placer sketch (Registry.ofList [r]) (by decide) hread rfl
    "a".toList r rfl parts report hfail
  exact ⟨hread, hfail, hinto.mpr (.inl (by decide +kernel))⟩

/-- The only given word is left over, and the report names the derived weight behind it. -/
theorem not_pointsInto_place_left_over :
    let sketch := "\x7ba:wx\x7d".toList
    let r : Region := ⟨"a".toList, 0, 0, 1, 1, "wx".toList⟩
    let placer : Placer := ⟨Record.standard, some (Registry.ofList [r])⟩
    let report := (Fault.valueMissing "wx gridwidth 1 gridheight 1 weighty 0.01".toList
      "0.01".toList).diagnostic
    (Registry.read sketch).outcome = .ok (Registry.ofList [r]) ∧
      r.givenWords [] = ["wx".toList] ∧
      (placer.place "a".toList []).outcome = .error report ∧
      report.context.name = some "0.01".toList ∧ ¬ report.PointsInto (r.givenWords []) := by
  intro sketch r placer report
  have hregion : placer.region "a".toList = .ok r := region_of_find? rfl rfl
  have hfault : (placer.defaults.applyText (r.mergedConstraints [])).fault =
      some (.valueMissing "wx gridwidth 1 gridheight 1 weighty 0.01".toList "0.01".toList) := by
    decide +kernel
  have hfail : (placer.place "a".toList []).outcome = .error report := by
    rw [outcome_place hregion, hfault]
  refine ⟨rfl, rfl, hfail, rfl, fun ⟨_, hname, _⟩ => ?_⟩
  exact absurd hname (by decide +kernel)

end Placer

end GridSketch
