/-
  Which texts are the values of numeric constraints.

  The value of an integer constraint is a sign, if any, and ASCII digits, of a magnitude below `2 ^ 53`;
  leading zeros and the number of digits make no difference. An anchor or a fill is a code exactly if its
  text is such a value. A greater integer is no value of any of the three: no keyword is the notation of
  an integer.

  The value of a weight is a decimal literal. To match the text with a pattern and then to read the number
  that it starts with is to read it from end to end: a text that matches has nothing behind that number.

  * `Choice.read?_of_beyond`: integers that are no codes of anchors or fills.
  * `Value.reads_integers_exactly`: integers.
  * `Value.weight_eq_ok_iff`, `Value.weight_of_integer`: literals, and integers among them.
  * `Value.reads_literals_whole`: weights.
-/
import GridSketch.Proofs.Constraint.Caseless
import GridSketch.Proofs.Number.Grammar
import GridSketch.Proofs.Number.Overflow

namespace GridSketch

-- What holds of all characters of a text is decided on its characters.
attribute [local instance (2000)] List.decidableBAll

variable {t : Text} {n : Int}

/-! ## Integers -/

/-- The greatest magnitude, as the power that it is next to. -/
theorem Integer.limit_eq : limit = 2 ^ 53 - 1 := by decide

/-- An integer out of range is not read. -/
theorem Integer.read?_of_beyond (hdenotes : Denotes t n) (hbeyond : limit < n.natAbs) :
    read? t = none := by
  rw [read?, parse?_eq_some_iff.mpr hdenotes, Option.filter_some_eq_none, decide_eq_true_eq]
  exact Nat.not_le_of_lt hbeyond

/-- An integer out of range is neither a code nor a keyword. -/
theorem Choice.read?_of_beyond {κ : Type} [Vocabulary κ] [LawfulVocabulary κ]
    (hdenotes : Integer.Denotes t n) (hbeyond : Integer.limit < n.natAbs) :
    (read? t : Option (Choice κ)) = none := by
  have hfind : (Vocabulary.find? t : Option κ) = none := by
    refine Option.eq_none_iff_forall_ne_some.mpr fun k hfound => ?_
    have hparse := Vocabulary.parse?_of_spells (Vocabulary.find?_eq_some_iff.mp hfound)
    rw [Integer.parse?_eq_some_iff.mpr hdenotes] at hparse
    cases hparse
  rw [read?, Integer.read?_of_beyond hdenotes hbeyond, hfind]
  rfl

namespace Value

variable {name value : Text}

/-- An integer constraint takes the notations of integers of magnitude below `2 ^ 53`, each for the
    integer that it denotes, and rejects every other text. To go by the nearest double of a notation, if
    that is an integer in range, is to read the same integer. Anchors and fills take the same texts as
    codes, and reject the notations of integers out of range. -/
theorem reads_integers_exactly (name value : Text) :
    (∀ n, integer name value = .ok n ↔ Integer.Denotes value n ∧ n.natAbs ≤ 2 ^ 53 - 1) ∧
      (integer name value = .error (.integerExpected name value) ↔
        ∀ n, Integer.Denotes value n → 2 ^ 53 - 1 < n.natAbs) ∧
      Integer.read? value = (Integer.nearest? value).bind Binary64.safeInteger? ∧
      (∀ n, anchor value = .ok (.raw n) ↔ integer name value = .ok n) ∧
      (∀ n, fill value = .ok (.raw n) ↔ integer name value = .ok n) ∧
      ∀ n, Integer.Denotes value n → 2 ^ 53 - 1 < n.natAbs →
        anchor value = .error (.anchorUnknown value) ∧ fill value = .error (.fillUnknown value) := by
  rw [← Integer.limit_eq]
  refine ⟨fun n => ?_, ?_, Integer.read?_eq_nearest value, fun n => ?_, fun n => ?_,
    fun n hdenotes hbeyond => ⟨?_, ?_⟩⟩
  · rw [integer, require_eq_ok_iff, Integer.read?_eq_some_iff]
  · rw [integer, require_eq_error_iff, eq_self, and_true, Option.eq_none_iff_forall_ne_some]
    refine forall_congr' fun n => ?_
    rw [Ne, Integer.read?_eq_some_iff, not_and, Nat.not_le]
  · rw [anchor, integer, require_eq_ok_iff, require_eq_ok_iff, Choice.read?_eq_raw_iff]
  · rw [fill, integer, require_eq_ok_iff, require_eq_ok_iff, Choice.read?_eq_raw_iff]
  · exact require_eq_error_iff.mpr ⟨Choice.read?_of_beyond hdenotes hbeyond, rfl⟩
  · exact require_eq_error_iff.mpr ⟨Choice.read?_of_beyond hdenotes hbeyond, rfl⟩

/-- An integer whose nearest double is another integer, behind leading zeros; the least integer in
    range; and four hundred nines, which are beyond every double. -/
theorem reads_integers_exactly_at_limit :
    let name := "width".toList
    let rounded := List.replicate 30 '0' ++ "9007199254740993".toList
    let greatest := "-00009007199254740991".toList
    let infinite := '+' :: List.replicate 400 '9'
    Integer.nearest? rounded = Integer.nearest? "9007199254740992".toList ∧
      anchor rounded = .error (.anchorUnknown rounded) ∧
      integer name greatest = .ok (-9007199254740991) ∧
      fill greatest = .ok (.raw (-9007199254740991)) ∧
      Integer.nearest? infinite = some (.infinity false) ∧
      fill infinite = .error (.fillUnknown infinite) := by
  intro name rounded greatest infinite
  have hrounded : Integer.Denotes rounded 9007199254740993 := .unsigned (by decide)
  have hgreatest : Integer.Denotes greatest (-9007199254740991) := .minus (by decide)
  have hinfinite : Integer.Denotes infinite (Integer.ofDigits (List.replicate 400 '9')) :=
    .plus (by decide +kernel)
  have hinteger := ((reads_integers_exactly name greatest).1 _).mpr ⟨hgreatest, by decide⟩
  refine ⟨by decide +kernel, ?_, hinteger, ?_, by decide +kernel, ?_⟩
  · exact ((reads_integers_exactly name rounded).2.2.2.2.2 _ hrounded (by decide)).1
  · exact ((reads_integers_exactly name greatest).2.2.2.2.1 _).mpr hinteger
  · exact ((reads_integers_exactly name infinite).2.2.2.2.2 _ hinfinite (by decide +kernel)).2

/-! ## Weights -/

/-- The values of weights are the decimal literals. -/
theorem weight_eq_ok_iff {w : Binary64} :
    weight name value = .ok w ↔ ∃ l : Decimal.Literal, l.text = value ∧ l.decimal.value = w := by
  rw [← Decimal.read?_eq_some_iff]
  exact require_eq_ok_iff

theorem weight_of_notMem (h : value ∉ Grammar.literal) :
    weight name value = .error (.numberExpected name value) := by
  refine require_eq_error_iff.mpr ⟨?_, rfl⟩
  cases hread : Decimal.read? value with
  | none => rfl
  | some w =>
    obtain ⟨l, htext, -⟩ := Decimal.read?_eq_some_iff.mp hread
    exact absurd (Grammar.mem_literal_iff.mpr ⟨l, htext⟩) h

/-- The value of an integer constraint is the value of a weight, for the same number. -/
theorem weight_of_integer (h : integer name value = .ok n) :
    ∃ w, weight name value = .ok w ∧ w.safeInteger? = some n := by
  obtain ⟨hdenotes, hlimit⟩ := Integer.read?_eq_some_iff.mp (require_eq_ok_iff.mp h)
  obtain ⟨l, negative, magnitude, htext, hdecimal, rfl⟩ := Decimal.exists_literal_of_denotes hdenotes
  refine ⟨l.decimal.value, weight_eq_ok_iff.mpr ⟨l, htext, rfl⟩, ?_⟩
  rw [Integer.natAbs_ofSign] at hlimit
  rw [hdecimal, Decimal.value_unscaled, Binary64.safeInteger?_ofRatio, if_pos hlimit]

/-- A weight takes the decimal literals and no other text. It is what a text that matches the pattern
    starts with, which is all of the text and a number; and in whatever text, what is scanned is the
    longest literal at its start. An integer constraint takes no text that a weight does not take for
    the same number. Every other text is reported together with the name. -/
theorem reads_literals_whole (name value : Text) :
    (∀ w, weight name value = .ok w ↔ value ∈ Grammar.pattern ∧ Decimal.Leads value w) ∧
      (value ∈ Grammar.literal → ∃ w, weight name value = .ok w ∧ w ≠ .nan ∧
        ∀ s, Grammar.IsLongestStart Grammar.numeral s (value.dropWhile Text.isBlank) ↔ s = value) ∧
      (∀ d rest, Decimal.scan? value = some (d, rest) ↔ ∃ l : Decimal.Literal, l.decimal = d ∧
        l.text ++ rest = value ∧ Grammar.IsLongestStart Grammar.literal l.text value) ∧
      (Decimal.scan? value = none ↔ ∀ s ∈ Grammar.literal, ¬ s <+: value) ∧
      (∀ n, integer name value = .ok n →
        ∃ w, weight name value = .ok w ∧ w.safeInteger? = some n) ∧
      (value ∉ Grammar.literal →
        let fault := Fault.numberExpected name value
        weight name value = .error fault ∧ fault.code = .constraintValueInvalid ∧
          fault.context = { name := some name, value := some value }) := by
  refine ⟨fun w => ?_, fun hliteral => ?_, fun d rest => Decimal.scan?_eq_some_iff,
    Decimal.scan?_eq_none_iff, fun n => weight_of_integer, fun hother => ⟨weight_of_notMem hother, rfl, rfl⟩⟩
  · rw [Grammar.pattern_eq_literal, weight_eq_ok_iff, Grammar.mem_literal_iff]
    constructor
    · rintro ⟨l, rfl, rfl⟩
      exact ⟨⟨l, rfl⟩, Decimal.leads_literal_iff.mpr rfl⟩
    · rintro ⟨⟨l, rfl⟩, hleads⟩
      exact ⟨l, rfl, (Decimal.leads_literal_iff.mp hleads).symm⟩
  · obtain ⟨l, rfl⟩ := Grammar.mem_literal_iff.mp hliteral
    refine ⟨l.decimal.value, weight_eq_ok_iff.mpr ⟨l, rfl, rfl⟩, Decimal.value_ne_nan _, fun s => ?_⟩
    rw [l.dropWhile_isBlank]
    exact Grammar.isLongestStart_self_iff l.mem_numeral

/-- A literal with a sign, no whole digits and a capital mark; an integer; and a text of which a literal
    is only the beginning. -/
theorem reads_literals_whole_or_not :
    let name := "wx".toList
    let literal : Decimal.Literal :=
      { sign := ['-'], whole := [], fraction := some "50".toList,
        exponent := some ⟨'E', ['+'], "02".toList, by decide, by decide, by decide⟩,
        isSign := by decide, isDigit_whole := by decide, isDigit_fraction := by decide,
        ne_nil := by decide }
    literal.text = "-.50E+02".toList ∧
      weight name "-.50E+02".toList = .ok (.ofRatio true 50 1) ∧
      (∃ w, weight name "+007".toList = .ok w ∧ w.safeInteger? = some 7) ∧
      Decimal.scan? "1e5.0".toList = some (⟨false, 1, 5⟩, ".0".toList) ∧
      "1e5.0".toList ∉ Grammar.literal ∧
      weight name "1e5.0".toList = .error (.numberExpected name "1e5.0".toList) := by
  intro name literal
  have htext : literal.text = "-.50E+02".toList := by decide
  have hvalue : literal.decimal.value = .ofRatio true 50 1 := by decide +kernel
  have hmem : "-.50E+02".toList ∈ Grammar.pattern := by
    rw [Grammar.pattern_eq_literal, Grammar.mem_literal_iff]
    exact ⟨literal, htext⟩
  have hother : "1e5.0".toList ∉ Grammar.literal := by
    rw [Grammar.mem_literal_iff]
    rintro ⟨l, hl⟩
    have hread := Decimal.read?_eq_some_iff.mpr ⟨l, hl, rfl⟩
    exact absurd hread (by rw [show Decimal.read? "1e5.0".toList = none by decide]; nofun)
  refine ⟨htext, ?_, ?_, by decide, hother, ?_⟩
  · refine ((reads_literals_whole name _).1 _).mpr ⟨hmem, ?_⟩
    rw [← htext, ← hvalue]
    exact Decimal.leads_literal_iff.mpr rfl
  · exact (reads_literals_whole name _).2.2.2.2.1 7 (by decide)
  · exact ((reads_literals_whole name _).2.2.2.2.2 hother).1

end Value

end GridSketch
