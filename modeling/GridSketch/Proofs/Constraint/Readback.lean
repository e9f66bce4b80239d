/-
  Records written as constraints are read back.

  A record is written as the names of its parameters, each with the notation of its value. Carried out
  on any record this gives the record that was written, except that a weight of negative zero, whose
  notation is that of zero, comes back as zero. Integers are read in a limited range and infinite weights
  are not read at all; but the integers of a record that constraints made are within the range, since
  they were read once, so that finite weights suffice.

  * `Record.Made.natAbs_measure_le`: the integers of records that are made.
  * `Choice.read?_part`: a choice is read back from its notation.
  * `Record.read_part`: the written value of a parameter sets the parameter to it.
  * `Record.applyParts_parts_of_made`: records that are made are read back.
-/
import GridSketch.Proofs.Constraint.Caseless
import GridSketch.Proofs.Constraint.History

namespace GridSketch

/-! ## Records as arguments -/

/-- A choice as an argument: the name of a keyword, or the integer of a code. -/
def Choice.part {κ : Type} [Vocabulary κ] : Choice κ → Part
  | keyword k => .text (Vocabulary.name k)
  | raw code => .integer code

/-- A record as arguments: the name of each parameter and its value. -/
def Record.parts (r : Record) : List Part :=
  [.text "gridwidth".toList, .integer r.gridwidth, .text "gridheight".toList, .integer r.gridheight,
   .text "weightx".toList, .number r.weightx, .text "weighty".toList, .number r.weighty,
   .text "anchor".toList, r.anchor.part, .text "fill".toList, r.fill.part,
   .text "ipadx".toList, .integer r.ipadx, .text "ipady".toList, .integer r.ipady,
   .text "inset_top".toList, .integer r.insets.top,
   .text "inset_bottom".toList, .integer r.insets.bottom,
   .text "inset_left".toList, .integer r.insets.left,
   .text "inset_right".toList, .integer r.insets.right]

/-- A number, zero without its sign. -/
def Binary64.plainZero : Binary64 → Binary64
  | .finite _ 0 _ _ => .zero
  | x => x

/-- The record with its zero weights without a sign. -/
def Record.plainZeros (r : Record) : Record :=
  { r with weightx := r.weightx.plainZero, weighty := r.weighty.plainZero }

/-! ## Integers in range -/

namespace Choice

variable {κ : Type}

/-- A code that can be read. -/
def InRange (choice : Choice κ) : Prop := ∀ code, choice = raw code → code.natAbs ≤ Integer.limit

theorem inRange_keyword (k : κ) : (keyword k).InRange := by
  rintro code ⟨⟩

theorem inRange_of_read? [Vocabulary κ] {t : Text} {choice : Choice κ} (h : read? t = some choice) :
    choice.InRange := by
  rintro code rfl
  exact (Integer.read?_eq_some_iff.mp (read?_eq_raw_iff.mp h)).2

end Choice

namespace Record.Made

variable {done : List (Text × Text)} {r : Record}

theorem natAbs_measure_le (h : Made done r) (m : Measure) :
    (r.measure m).natAbs ≤ Integer.limit := by
  refine h.get_of_read (.measure m) (fun _ _ hread => (Integer.read?_eq_some_iff.mp hread).2) ?_
  cases m <;> decide

end Record.Made

/-! ## One parameter -/

namespace Field

/-- The parameters in the order in which they are written. -/
def inOrder : List Field :=
  [.measure .gridwidth, .measure .gridheight, .weight .x, .weight .y, .anchor, .fill,
   .measure .ipadx, .measure .ipady, .measure .insetTop, .measure .insetBottom,
   .measure .insetLeft, .measure .insetRight]

/-- The first of the names that set a parameter. It sets no other one. -/
def name (f : Field) : Text := f.names.headD []

/-- The target with one parameter. -/
def target : Field → Target
  | measure m => .measures [m]
  | weight axis => .weights [axis]
  | anchor => .anchor
  | fill => .fill

theorem mem_inOrder (f : Field) : f ∈ inOrder := by
  rcases f with m | axis | _ | _
  · cases m <;> decide
  · cases axis <;> decide
  · decide
  · decide

theorem name_of_mem_inOrder : ∀ f ∈ inOrder,
    Text.IsWord f.name ∧ Mnemonic.target? (Text.lower f.name) = some f.target := by
  decide +kernel

end Field

namespace Record

/-- The argument for the value of a parameter. -/
def part (r : Record) : Field → Part
  | .measure m => .integer (r.measure m)
  | .weight axis => .number (r.weight axis)
  | .anchor => r.anchor.part
  | .fill => r.fill.part

theorem parts_eq (r : Record) :
    r.parts = Field.inOrder.flatMap fun f => [.text f.name, r.part f] := rfl

/-- The constraint that sets a parameter to its value in a record. -/
def assignment (r : Record) : Field → Assignment
  | .measure m => .measures [m] (r.measure m)
  | .weight axis => .weights [axis] (r.weight axis)
  | .anchor => .anchor r.anchor
  | .fill => .fill r.fill

theorem value?_assignment (r : Record) (f g : Field) :
    (r.assignment f).value? g = if g = f then some (r.get g) else none := by
  cases f with
  | measure m =>
    cases g with
    | measure m' => by_cases h : m' = m <;> simp [assignment, Assignment.value?, get, h]
    | weight | anchor | fill => rfl
  | weight axis =>
    cases g with
    | weight axis' => by_cases h : axis' = axis <;> simp [assignment, Assignment.value?, get, h]
    | measure | anchor | fill => rfl
  | anchor => cases g <;> rfl
  | fill => cases g <;> rfl

theorem get_apply_assignment (r s : Record) (f g : Field) :
    ((r.assignment f).apply s).get g = if g = f then r.get g else s.get g := by
  rw [Assignment.get_apply, value?_assignment]
  split <;> rfl

/-- Of parameters that are set one after the other, those that are among them have the new value. -/
theorem get_foldl_assignment (r s : Record) (fs : List Field) (g : Field) :
    (fs.foldl (fun s f => (r.assignment f).apply s) s).get g =
      if g ∈ fs then r.get g else s.get g := by
  induction fs generalizing s with
  | nil => rfl
  | cons f fs ih =>
    rw [List.foldl_cons, ih, get_apply_assignment]
    by_cases hg : g = f <;> simp [hg]

/-- Setting all parameters to their values in a record gives that record. -/
theorem foldl_assignment_inOrder (r s : Record) :
    Field.inOrder.foldl (fun s f => (r.assignment f).apply s) s = r :=
  ext_get fun f => by rw [get_foldl_assignment, if_pos f.mem_inOrder]

end Record

/-! ## Values written and read -/

/-- The notation of a finite double sets the weights of a name; that of negative zero is that of
    zero. -/
theorem Assignment.read_weight_of_isFinite {name : Text} {axes : List Axis}
    (htarget : Mnemonic.target? (Text.lower name) = some (.weights axes)) {x : Binary64}
    (hx : x.isFinite = true) : read name x.write = .ok (.weights axes x.plainZero) := by
  cases x with
  | nan => cases hx
  | infinity negative => cases hx
  | finite negative m k canonical =>
    cases m with
    | zero =>
      have hwrite : (Binary64.finite negative 0 k canonical).write = ['0'] := by
        rw [Binary64.write, if_pos rfl]
      have hzero : Binary64.zero.write = ['0'] := by rw [Binary64.zero, Binary64.write, if_pos rfl]
      rw [hwrite, ← hzero]
      exact @read_weight name axes htarget false 0 0 (by decide) fun _ => rfl
    | succ m => exact read_weight htarget negative canonical fun h => absurd h (Nat.succ_ne_zero m)

/-- A choice is read back, if its code is in range. -/
theorem Choice.read?_part {κ : Type} [Vocabulary κ] [LawfulVocabulary κ] {choice : Choice κ}
    (h : choice.InRange) : read? (Text.lower choice.part.write) = some choice := by
  cases choice with
  | keyword k =>
    have hwrite : (Choice.part (keyword k)).write = Vocabulary.name k := rfl
    rw [hwrite, Vocabulary.lower_name]
    exact read?_eq_keyword_iff.mpr (Vocabulary.spells_name k)
  | raw code =>
    have hwrite : (Choice.part (raw code : Choice κ)).write = Integer.write code := rfl
    rw [hwrite, Text.lower_of_isNumeral (Integer.isNumeral_write code), read?,
      Integer.read?_write (h code rfl)]

namespace Record

variable {done : List (Text × Text)} {r : Record}

/-- The written value of a parameter is read as that value. -/
theorem read_part (h : Made done r) (hx : r.weightx.isFinite = true)
    (hy : r.weighty.isFinite = true) (f : Field) :
    Assignment.read f.name (r.part f).write = .ok (r.plainZeros.assignment f) := by
  have htarget := (Field.name_of_mem_inOrder f f.mem_inOrder).2
  cases f with
  | measure m =>
    have hmeasure : r.plainZeros.measure m = r.measure m := by cases m <;> rfl
    rw [assignment, hmeasure]
    exact Assignment.read_measure htarget (h.natAbs_measure_le m)
  | weight axis =>
    cases axis with
    | x => exact Assignment.read_weight_of_isFinite htarget hx
    | y => exact Assignment.read_weight_of_isFinite htarget hy
  | anchor =>
    have hrange : r.anchor.InRange :=
      h.get_of_read .anchor (fun _ _ => Choice.inRange_of_read?) (Choice.inRange_keyword _)
    have hanchor := Choice.read?_part hrange
    rw [Assignment.read, htarget]
    simp only [Field.target, Target.read, Value.anchor, part, hanchor]
    rfl
  | fill =>
    have hrange : r.fill.InRange :=
      h.get_of_read .fill (fun _ _ => Choice.inRange_of_read?) (Choice.inRange_keyword _)
    have hfill := Choice.read?_part hrange
    rw [Assignment.read, htarget]
    simp only [Field.target, Target.read, Value.fill, part, hfill]
    rfl

section

variable {fs : List Field} {part : Field → Part} {a : Field → Assignment}
  (h : ∀ f ∈ fs, Assignment.read f.name (part f).write = .ok (a f))
include h

/-- A name is one word, and so is a value that can be read. -/
theorem words_fields : Part.words (fs.flatMap fun f => [.text f.name, part f]) =
    (fs.map fun f => (f.name, (part f).write)).flatMap fun pair => [pair.1, pair.2] := by
  induction fs with
  | nil => rfl
  | cons f fs ih =>
    have hname : Text.words (Part.text f.name).write = [f.name] :=
      Text.words_of_isWord (Field.name_of_mem_inOrder f f.mem_inOrder).1
    have hvalue : Text.words (part f).write = [(part f).write] :=
      Text.words_of_isWord (Assignment.isWord_of_read (h f List.mem_cons_self))
    rw [List.flatMap_cons, Part.words_append, Part.words_cons, Part.words_cons, Part.words_nil,
      hname, hvalue, ih fun g hg => h g (List.mem_cons_of_mem _ hg)]
    rfl

theorem applyPairs_fields (s : Record) :
    (s.applyPairs (fs.map fun f => (f.name, (part f).write))).fault = none ∧
      (s.applyPairs (fs.map fun f => (f.name, (part f).write))).record =
        fs.foldl (fun s f => (a f).apply s) s := by
  induction fs generalizing s with
  | nil => exact ⟨rfl, rfl⟩
  | cons f fs ih =>
    rw [List.map_cons, applyPairs, h f List.mem_cons_self]
    exact ih (fun g hg => h g (List.mem_cons_of_mem _ hg)) ((a f).apply s)

/-- Parameters whose written values can all be read are set one after the other. -/
theorem applyParts_fields (s : Record) :
    (s.applyParts (fs.flatMap fun f => [.text f.name, part f])).fault = none ∧
      (s.applyParts (fs.flatMap fun f => [.text f.name, part f])).record =
        fs.foldl (fun s f => (a f).apply s) s := by
  have hwords := (Part.words_join _).trans (words_fields h)
  rw [applyParts, applyText_of_even (by rw [hwords, length_flatMap]), hwords, pairsOf_flatMap]
  exact applyPairs_fields h s

end

/-- A record that constraints made, with finite weights, is written as arguments that can be carried
    out on any record, and give it back; only its zero weights lose their sign. -/
theorem applyParts_parts_of_made (h : Made done r) (hx : r.weightx.isFinite = true)
    (hy : r.weighty.isFinite = true) (s : Record) :
    (s.applyParts r.parts).fault = none ∧ (s.applyParts r.parts).record = r.plainZeros := by
  have hread : ∀ f ∈ Field.inOrder,
      Assignment.read f.name (r.part f).write = .ok (r.plainZeros.assignment f) :=
    fun f _ => read_part h hx hy f
  obtain ⟨hfault, hrecord⟩ := applyParts_fields hread s
  rw [parts_eq]
  exact ⟨hfault, hrecord.trans (foldl_assignment_inOrder r.plainZeros s)⟩

/-- A code, an integer at the end of its range, the least weight and negative zero, written over a
    record with an infinite weight. -/
theorem applyParts_parts_of_negative_zero :
    let applied := Record.standard.applyText
      "width -9007199254740991 wx -0 wy 5e-324 a -7 f VH it 1".toList
    let r := { Record.standard with
      gridwidth := -9007199254740991
      weightx := .zeroOf true
      weighty := .finite false 1 0 (by decide)
      anchor := .raw (-7)
      fill := .keyword .both
      insets := ⟨1, 0, 0, 0⟩ }
    let s := { Record.standard with weightx := .infinity true, anchor := .keyword .north }
    Made applied.done r ∧ r.weightx.isFinite = true ∧ r.weighty.isFinite = true ∧
      (s.applyParts r.parts).fault = none ∧
      (s.applyParts r.parts).record = { r with weightx := .zero } := by
  intro applied r s
  have hrecord : applied.record = r := by decide +kernel
  have hmade : Made ([] ++ applied.done) applied.record := Made.standard.text _
  rw [hrecord] at hmade
  exact ⟨hmade, rfl, rfl, applyParts_parts_of_made hmade rfl rfl s⟩

end Record

end GridSketch
