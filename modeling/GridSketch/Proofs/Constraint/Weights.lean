/-
  When the weights of a record are finite.

  A weight is the double nearest to the literal that set it last. Literals have no limit to their digits
  or to their exponents, and the double nearest to a great one is an infinity, which JSON has no notation
  for: it is printed as null. So a weight is a number exactly as long as its literal does not overflow.

  * `Record.Made.weight_eq`: a weight in terms of the literal that decides it.
  * `Json.render_number_eq_null_iff`: the numbers that are printed as null.
  * `Record.isFinite_weight_of_made`: which weights are finite, and which are printed as null.
-/
import GridSketch.CommandLine.Run
import GridSketch.Proofs.Constraint.History
import GridSketch.Proofs.Number.Overflow

namespace GridSketch

/-- A text that denotes a double is one literal. -/
theorem Decimal.scan?_of_read? {t : Text} {w : Binary64} (h : read? t = some w) :
    ∃ d, scan? t = some (d, []) ∧ d.value = w := by
  obtain ⟨l, rfl, hvalue⟩ := read?_eq_some_iff.mp h
  exact ⟨l.decimal, scan?_text l, hvalue⟩

/-! ## Numbers in JSON -/

namespace Json

/-- The notation of a finite number is not that of null. -/
theorem write_ne_null {x : Binary64} (h : x.isFinite = true) : x.write ≠ "null".toList := by
  cases x with
  | nan => cases h
  | infinity negative => cases h
  | finite negative m k canonical =>
    intro hnull
    have hnumeral := Binary64.isNumeral_write negative canonical 'n' (by rw [hnull]; decide)
    exact absurd hnumeral (by decide)

/-- A number is printed as null exactly if it is not finite. -/
theorem render_number_eq_null_iff (style : Style) (x : Binary64) :
    render style (.number x) = render style .null ↔ x.isFinite = false := by
  have hnumber : render style (.number x) = writeNumber x := by simp only [render, write]
  have hnull : render style .null = "null".toList := by simp only [render, write]
  rw [hnumber, hnull, writeNumber]
  cases h : x.isFinite with
  | true => simpa using write_ne_null h
  | false => simp

end Json

/-! ## Weights -/

namespace Record

/-- The literal that decides the weight of an axis: that of the last pair whose name sets it. -/
def weightLiteral? (axis : Axis) (done : List (Text × Text)) : Option Decimal :=
  ((Field.weight axis).last? done).bind fun pair =>
    (Decimal.scan? (Text.lower pair.2)).map Prod.fst

/-- A weight is the value of the literal that decides it, or zero. -/
theorem Made.weight_eq {done : List (Text × Text)} {r : Record} (h : Made done r) (axis : Axis) :
    r.weight axis = ((weightLiteral? axis done).map Decimal.value).getD .zero := by
  have hdecides := h.decides (.weight axis)
  rw [Decides] at hdecides
  rw [weightLiteral?]
  cases hlast : (Field.weight axis).last? done with
  | none =>
    rw [hlast] at hdecides
    cases axis <;> exact hdecides
  | some pair =>
    rw [hlast] at hdecides
    obtain ⟨d, hscan, hvalue⟩ := Decimal.scan?_of_read? hdecides
    rw [Option.bind_some, hscan]
    exact hvalue.symm

/-- The weights of a record that constraints made are never the number that is none. A weight is finite
    exactly if no literal that overflows decides it, and else it is printed as null. -/
theorem isFinite_weight_of_made {done : List (Text × Text)} {r : Record} (h : Made done r)
    (axis : Axis) :
    r.weight axis ≠ .nan ∧
      ((r.weight axis).isFinite = true ↔ ∀ d ∈ weightLiteral? axis done, ¬ d.Overflows) ∧
      ∀ style, Json.render style (.number (r.weight axis)) = Json.render style .null ↔
        ∃ d ∈ weightLiteral? axis done, d.Overflows := by
  simp only [Json.render_number_eq_null_iff]
  rw [h.weight_eq axis]
  cases weightLiteral? axis done with
  | none => exact ⟨nofun, ⟨fun _ => nofun, fun _ => rfl⟩, fun _ => ⟨nofun, nofun⟩⟩
  | some d =>
    have hfinite := d.isFinite_value
    simp only [Option.map_some, Option.getD_some, Option.mem_some_iff, forall_eq', exists_eq_left']
    refine ⟨d.value_ne_nan, hfinite, fun _ => ?_⟩
    rw [← Bool.not_eq_true, hfinite, not_not]

/-- Of two literals the last decides: the greater one overflows, the other does not. -/
theorem isFinite_weight_of_made_twice :
    let applied := Record.standard.applyParts [.text "W* 17e307 WY".toList, .text "-18e307".toList]
    Made applied.done applied.record ∧
      weightLiteral? .x applied.done = some ⟨false, 17, 307⟩ ∧
      weightLiteral? .y applied.done = some ⟨true, 18, 307⟩ ∧
      applied.record.weightx.isFinite = true ∧
      Json.render .compact (.number applied.record.weighty) = "null".toList := by
  intro applied
  have hmade : Made ([] ++ applied.done) applied.record := Made.standard.parts _
  have hx : weightLiteral? .x applied.done = some ⟨false, 17, 307⟩ := by decide +kernel
  have hy : weightLiteral? .y applied.done = some ⟨true, 18, 307⟩ := by decide +kernel
  refine ⟨hmade, hx, hy, ?_, ?_⟩
  · refine (isFinite_weight_of_made hmade .x).2.1.mpr fun d hd => ?_
    rw [List.nil_append, hx] at hd
    cases hd
    decide +kernel
  · refine ((isFinite_weight_of_made hmade .y).2.2 .compact).mpr ⟨_, hy, ?_⟩
    decide +kernel

/-- A weight that is infinite, although its literal is a number, and how it is printed. -/
theorem infinite_weight_of_literal :
    let applied := Record.standard.applyText "wx 1e999".toList
    Made applied.done applied.record ∧ applied.fault = none ∧
      applied.record.weightx = .infinity false ∧
      CommandLine.run ⟨none, fun _ => .error .isDirectory⟩
          ["constraints".toList, "wx".toList, "1e999".toList, "--compact".toList] =
        ⟨0, ("\x7b\"gridwidth\":1,\"gridheight\":1,\"weightx\":null,\"weighty\":0," ++
          "\"anchor\":\"center\",\"fill\":\"none\",\"ipadx\":0,\"ipady\":0," ++
          "\"insets\":\x7b\"top\":0,\"bottom\":0,\"left\":0,\"right\":0\x7d\x7d\n").toList, []⟩ := by
  intro applied
  have hmade : Made ([] ++ applied.done) applied.record := Made.standard.text _
  refine ⟨hmade, ?_, ?_, ?_⟩
  · decide +kernel
  · decide +kernel
  · decide +kernel

end Record

end GridSketch
