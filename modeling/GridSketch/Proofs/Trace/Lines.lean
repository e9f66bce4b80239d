/-
  The lines of a trace, read back.

  A line consists of fields with a space between any two. If no field has a space of its own, the line is
  cut at its spaces into these fields, and they tell the step.

  * `Event.read?`: the step that a line tells.
  * `Event.read?_line`: a step is read back from its line.
  * `Trace.read?_shown`: the steps of a trace are read back from the lines that are shown.
-/
import GridSketch.Proofs.Number.Notation
import GridSketch.Trace

namespace GridSketch

namespace Event

/-! ## Fields -/

/-- The fields of the line that tells a step. -/
def fields : Event → List Text
  | found name row col =>
    ["[Layout]".toList, "Region".toList, name, "at".toList, "row".toList,
      Integer.write row ++ [','], "col".toList, Integer.write col]
  | widened name width =>
    ["[Layout]".toList, "Widened".toList, name, "to".toList, Integer.write width]
  | lengthened name height =>
    ["[Layout]".toList, "Lengthened".toList, name, "to".toList, Integer.write height]
  | applied name value => ["[Constraint]".toList, name, "=".toList, value]
  | merged region constraints => ["[Placer]".toList, region, "->".toList, constraints]

theorem line_eq (e : Event) : e.line = Text.unwords e.fields := by
  cases e with
  | found name row col =>
    change "[Layout] Region ".toList ++ name ++ " at row ".toList ++ Integer.write row ++
      ", col ".toList ++ Integer.write col = _
    simp only [fields, Text.unwords_cons_cons, Text.unwords_singleton, List.append_assoc]
    rfl
  | widened name width =>
    change "[Layout] Widened ".toList ++ name ++ " to ".toList ++ Integer.write width = _
    simp only [fields, Text.unwords_cons_cons, Text.unwords_singleton, List.append_assoc]
    rfl
  | lengthened name height =>
    change "[Layout] Lengthened ".toList ++ name ++ " to ".toList ++ Integer.write height = _
    simp only [fields, Text.unwords_cons_cons, Text.unwords_singleton, List.append_assoc]
    rfl
  | applied name value =>
    change "[Constraint] ".toList ++ name ++ " = ".toList ++ value = _
    simp only [fields, Text.unwords_cons_cons, Text.unwords_singleton, List.append_assoc]
    rfl
  | merged region constraints =>
    change "[Placer] ".toList ++ region ++ " -> ".toList ++ constraints = _
    simp only [fields, Text.unwords_cons_cons, Text.unwords_singleton, List.append_assoc]
    rfl

/-- A step whose texts have no spaces. The constraints that are put together for a placement are words
    with spaces between them, so that step does not count. -/
def IsSpaceless : Event → Prop
  | found name _ _ => ' ' ∉ name
  | widened name _ => ' ' ∉ name
  | lengthened name _ => ' ' ∉ name
  | applied name value => ' ' ∉ name ∧ ' ' ∉ value
  | merged _ _ => False

theorem space_notMem_write (n : Int) : ' ' ∉ Integer.write n := fun h =>
  absurd (Integer.isNumeral_write n ' ' h) (by decide)

theorem space_notMem_fields {e : Event} (h : e.IsSpaceless) : ∀ f ∈ e.fields, ' ' ∉ f := by
  cases e with
  | found name row col => simp_all [fields, IsSpaceless, space_notMem_write]
  | widened name width => simp_all [fields, IsSpaceless, space_notMem_write]
  | lengthened name height => simp_all [fields, IsSpaceless, space_notMem_write]
  | applied name value => simp_all [fields, IsSpaceless]
  | merged region constraints => exact h.elim

/-! ## Reading lines -/

/-- The step that fields tell, if they are those of a step other than a merge. -/
def ofFields? : List Text → Option Event
  | [tag, name, sign, value] =>
    if [tag, sign] = ["[Constraint]".toList, "=".toList] then some (.applied name value) else none
  | [tag, verb, name, sign, size] =>
    if [tag, verb, sign] = ["[Layout]".toList, "Widened".toList, "to".toList] then
      (Integer.parse? size).map (widened name)
    else if [tag, verb, sign] = ["[Layout]".toList, "Lengthened".toList, "to".toList] then
      (Integer.parse? size).map (lengthened name)
    else none
  | [tag, verb, name, sign, rowSign, row, colSign, col] =>
    if [tag, verb, sign, rowSign, colSign] =
        ["[Layout]".toList, "Region".toList, "at".toList, "row".toList, "col".toList] ∧
      row.getLast? = some ',' then do
      return found name (← Integer.parse? row.dropLast) (← Integer.parse? col)
    else none
  | _ => none

theorem ofFields?_fields {e : Event} (h : e.IsSpaceless) : ofFields? e.fields = some e := by
  cases e with
  | found name row col => simp [fields, ofFields?, Integer.parse?_write]
  | widened name width => simp [fields, ofFields?, Integer.parse?_write]
  | lengthened name height => simp [fields, ofFields?, Integer.parse?_write]
  | applied name value => simp [fields, ofFields?]
  | merged region constraints => exact h.elim

/-- The step that a line tells. -/
def read? (line : Text) : Option Event := ofFields? (Text.pieces ' ' line)

/-- A step without spaces is read back from its line. -/
theorem read?_line {e : Event} (h : e.IsSpaceless) : read? e.line = some e := by
  have hne : e.fields ≠ [] := by cases e <;> exact List.cons_ne_nil _ _
  have hcut : Text.pieces ' ' (Text.unwords e.fields) = e.fields :=
    List.splitOn_intercalate ' ' (space_notMem_fields h) hne
  rw [read?, line_eq, hcut, ofFields?_fields h]

end Event

namespace Trace

/-- The steps that lines tell, in order. -/
def read? (lines : List Text) : Option (List Event) := lines.mapM Event.read?

/-- The steps of a trace are read back from its lines, if these are shown. -/
theorem read?_shown {debug : Option Text} {silenced : Bool} (hshown : enabled debug silenced = true)
    {trace : List Event} (h : ∀ e ∈ trace, e.IsSpaceless) :
    read? (shown debug silenced trace) = some trace := by
  rw [shown, if_pos hshown]
  induction trace with
  | nil => rfl
  | cons e rest ih =>
    have hrest := ih fun later hlater => h later (List.mem_cons_of_mem e hlater)
    rw [read?] at hrest ⊢
    rw [List.map_cons, List.mapM_cons, Event.read?_line (h e List.mem_cons_self), hrest]
    rfl

end Trace

end GridSketch
