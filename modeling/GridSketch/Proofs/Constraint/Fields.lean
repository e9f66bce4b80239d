/-
  The parameters of a record, one by one, under a constraint text.

  A name sets some parameters and leaves the others. Of all pairs of a text whose names set a
  parameter the last decides its value; a parameter that no name sets keeps its value. Hence only the
  parameters that are not set matter of the old record, and a text that is carried out twice has the
  effect of carrying it out once.

  * `Field.names_eq`: the names that set a parameter are those of the table with it as a target.
  * `Assignment.get_apply`: what one constraint does to a parameter.
  * `Record.decides_foldl_carryOut`: what pairs do to a parameter, by induction from the last pair.
  * `Record.last_pair_decides`: texts.
-/
import GridSketch.Proofs.Constraint.Apply
import GridSketch.Proofs.Constraint.Spelling
import Mathlib.Data.List.Induction

namespace GridSketch

/-- A parameter of a record. -/
inductive Field where
  | measure (m : Measure)
  | weight (axis : Axis)
  | anchor
  | fill
  deriving DecidableEq, Repr

namespace Field

/-- The values of a parameter. -/
def Value : Field → Type
  | measure _ => Int
  | weight _ => Binary64
  | anchor => Anchor
  | fill => Fill

/-- The names that set all insets at once. -/
def insetsNames : List Text := ["insets*".toList, "inset*".toList, "i*".toList]

/-- The names that set a parameter. -/
def names : Field → List Text
  | measure .gridwidth => ["gridwidth".toList, "width".toList, "wd".toList]
  | measure .gridheight => ["gridheight".toList, "height".toList, "ht".toList]
  | measure .ipadx => ["ipadx".toList, "px".toList, "ipad*".toList, "p*".toList]
  | measure .ipady => ["ipady".toList, "py".toList, "ipad*".toList, "p*".toList]
  | measure .insetTop => ["inset_top".toList, "insets_top".toList, "it".toList] ++ insetsNames
  | measure .insetBottom =>
    ["inset_bottom".toList, "insets_bottom".toList, "ib".toList] ++ insetsNames
  | measure .insetLeft => ["inset_left".toList, "insets_left".toList, "il".toList] ++ insetsNames
  | measure .insetRight =>
    ["inset_right".toList, "insets_right".toList, "ir".toList] ++ insetsNames
  | weight .x => ["weightx".toList, "wx".toList, "w*".toList, "weight*".toList]
  | weight .y => ["weighty".toList, "wy".toList, "w*".toList, "weight*".toList]
  | anchor => ["anchor".toList, "a".toList]
  | fill => ["fill".toList, "f".toList]

/-- Whether a pair has a name that sets a parameter, in any letter case. -/
def setBy (f : Field) (pair : Text × Text) : Bool := f.names.contains (Text.lower pair.1)

/-- The value of a parameter that a text denotes, in any letter case. -/
def read? (f : Field) (value : Text) : Option f.Value :=
  match f with
  | measure _ => Integer.read? (Text.lower value)
  | weight _ => Decimal.read? (Text.lower value)
  | anchor => (Choice.read? (Text.lower value) : Option Anchor)
  | fill => (Choice.read? (Text.lower value) : Option Fill)

end Field

namespace Record

/-- The value of an integer parameter. -/
def measure (r : Record) : Measure → Int
  | .gridwidth => r.gridwidth
  | .gridheight => r.gridheight
  | .ipadx => r.ipadx
  | .ipady => r.ipady
  | .insetTop => r.insets.top
  | .insetBottom => r.insets.bottom
  | .insetLeft => r.insets.left
  | .insetRight => r.insets.right

/-- The weight of an axis. -/
def weight (r : Record) : Axis → Binary64
  | .x => r.weightx
  | .y => r.weighty

/-- The value of a parameter. -/
def get (r : Record) : (f : Field) → f.Value
  | .measure m => r.measure m
  | .weight axis => r.weight axis
  | .anchor => r.anchor
  | .fill => r.fill

/-- A record is its parameters. -/
theorem ext_get {r s : Record} (h : ∀ f, r.get f = s.get f) : r = s := by
  obtain ⟨_, _, _, _, _, _, _, _, _, _, _, _⟩ := r
  obtain ⟨_, _, _, _, _, _, _, _, _, _, _, _⟩ := s
  cases h (.measure .gridwidth)
  cases h (.measure .gridheight)
  cases h (.measure .ipadx)
  cases h (.measure .ipady)
  cases h (.measure .insetTop)
  cases h (.measure .insetBottom)
  cases h (.measure .insetLeft)
  cases h (.measure .insetRight)
  cases h (.weight .x)
  cases h (.weight .y)
  cases h .anchor
  cases h .fill
  rfl

end Record

/-! ## Names and targets -/

/-- Whether a target has a parameter. -/
def Target.sets (target : Target) (f : Field) : Bool :=
  match target, f with
  | measures ms, .measure m => ms.contains m
  | weights axes, .weight axis => axes.contains axis
  | anchor, .anchor => true
  | fill, .fill => true
  | _, _ => false

namespace Field

/-- The names that set a parameter are those of the table that have it as a target. -/
theorem names_eq (f : Field) :
    f.names = (Mnemonic.table.filter fun m => m.target.sets f).map Mnemonic.spelling := by
  rcases f with m | axis | _ | _
  · cases m <;> decide +kernel
  · cases axis <;> decide +kernel
  · decide +kernel
  · decide +kernel

theorem setBy_iff {f : Field} {pair : Text × Text} :
    f.setBy pair = true ↔
      ∃ target, Mnemonic.target? (Text.lower pair.1) = some target ∧ target.sets f = true := by
  rw [setBy, List.contains_iff_mem, names_eq]
  constructor
  · intro h
    obtain ⟨m, hm, hspelling⟩ := List.mem_map.mp h
    obtain ⟨hm, hsets⟩ := List.mem_filter.mp hm
    exact ⟨m.target, hspelling ▸ Mnemonic.target?_spelling m hm, hsets⟩
  · rintro ⟨target, htarget, hsets⟩
    rw [Mnemonic.target?] at htarget
    obtain ⟨m, hm, rfl⟩ := Option.map_eq_some_iff.mp htarget
    have hspelling := List.find?_some hm
    refine List.mem_map.mpr ⟨m, List.mem_filter.mpr ⟨List.mem_of_find?_eq_some hm, hsets⟩, ?_⟩
    exact eq_of_beq hspelling

end Field

/-! ## One constraint -/

namespace Assignment

/-- The value that a constraint gives to a parameter, if it sets it. -/
def value? (a : Assignment) (f : Field) : Option f.Value :=
  match a, f with
  | measures ms n, .measure m => if ms.contains m then some n else none
  | weights axes w, .weight axis => if axes.contains axis then some w else none
  | anchor a, .anchor => some a
  | fill f, .fill => some f
  | _, _ => none

end Assignment

section

variable {ι α : Type} {set : Record → ι → Record}

/-- Setting parameters of one kind to one value, one after the other. -/
theorem Record.read_foldl_set [DecidableEq ι] {read : Record → ι → α} {v : α}
    (hset : ∀ r i j, read (set r i) j = if j = i then v else read r j) (is : List ι) (r : Record)
    (j : ι) : read (is.foldl set r) j = if is.contains j then v else read r j := by
  induction is generalizing r with
  | nil => rfl
  | cons first rest ih =>
    rw [List.foldl_cons, ih, hset, List.contains_cons]
    by_cases hfirst : j = first
    · simp [hfirst]
    · simp [hfirst]

/-- Setting parameters of one kind leaves what none of them is. -/
theorem Record.read_foldl_of_frame (read : Record → α) (hset : ∀ r i, read (set r i) = read r)
    (is : List ι) (r : Record) : read (is.foldl set r) = read r := by
  induction is generalizing r with
  | nil => rfl
  | cons first rest ih => rw [List.foldl_cons, ih, hset]

end

namespace Record

theorem measure_setMeasure (r : Record) (n : Int) (m m' : Measure) :
    (r.setMeasure m n).measure m' = if m' = m then n else r.measure m' := by
  cases m <;> cases m' <;> rfl

theorem weight_setWeight (r : Record) (w : Binary64) (axis axis' : Axis) :
    (r.setWeight axis w).weight axis' = if axis' = axis then w else r.weight axis' := by
  cases axis <;> cases axis' <;> rfl

theorem get_setMeasure {f : Field} (hf : ∀ m, f ≠ .measure m) (n : Int) (r : Record) (m : Measure) :
    (r.setMeasure m n).get f = r.get f := by
  cases f with
  | measure m' => exact absurd rfl (hf m')
  | weight axis => cases m <;> cases axis <;> rfl
  | anchor => cases m <;> rfl
  | fill => cases m <;> rfl

theorem get_setWeight {f : Field} (hf : ∀ axis, f ≠ .weight axis) (w : Binary64) (r : Record)
    (axis : Axis) : (r.setWeight axis w).get f = r.get f := by
  cases f with
  | measure m => cases axis <;> cases m <;> rfl
  | weight axis' => exact absurd rfl (hf axis')
  | anchor => cases axis <;> rfl
  | fill => cases axis <;> rfl

end Record

namespace Assignment

/-- A constraint gives its value to the parameters that it sets and leaves the others. -/
theorem get_apply (a : Assignment) (r : Record) (f : Field) :
    (a.apply r).get f = (a.value? f).getD (r.get f) := by
  cases a with
  | measures ms n =>
    have hframe : ∀ f : Field, (∀ m, f ≠ .measure m) →
        ((measures ms n).apply r).get f = r.get f := fun f hf =>
      Record.read_foldl_of_frame (fun r => r.get f) (Record.get_setMeasure hf n) ms r
    cases f with
    | measure m =>
      have hread := Record.read_foldl_set (fun r => r.measure_setMeasure n) ms r m
      rw [value?]
      refine hread.trans ?_
      split <;> rfl
    | weight axis => exact hframe (.weight axis) nofun
    | anchor => exact hframe .anchor nofun
    | fill => exact hframe .fill nofun
  | weights axes w =>
    have hframe : ∀ f : Field, (∀ axis, f ≠ .weight axis) →
        ((weights axes w).apply r).get f = r.get f := fun f hf =>
      Record.read_foldl_of_frame (fun r => r.get f) (Record.get_setWeight hf w) axes r
    cases f with
    | measure m => exact hframe (.measure m) nofun
    | weight axis =>
      have hread := Record.read_foldl_set (fun r => r.weight_setWeight w) axes r axis
      rw [value?]
      refine hread.trans ?_
      split <;> rfl
    | anchor => exact hframe .anchor nofun
    | fill => exact hframe .fill nofun
  | anchor anchor => cases f <;> rfl
  | fill fill => cases f <;> rfl

/-- A constraint that was read gives what its value denotes to the parameters that its name sets. -/
theorem value?_of_read {pair : Text × Text} {a : Assignment} (h : read pair.1 pair.2 = .ok a)
    (f : Field) : (f.setBy pair = true → ∃ v, f.read? pair.2 = some v ∧ a.value? f = some v) ∧
      (f.setBy pair = false → a.value? f = none) := by
  obtain ⟨target, htarget, hread⟩ := target_of_read h
  have hset : f.setBy pair = target.sets f := by
    rw [Bool.eq_iff_iff, Field.setBy_iff]
    simp [htarget]
  rw [hset]
  rcases Target.read_cases hread with
    ⟨ms, n, rfl, hvalue, rfl⟩ | ⟨axes, w, rfl, hvalue, rfl⟩ | ⟨choice, rfl, hvalue, rfl⟩ |
      ⟨choice, rfl, hvalue, rfl⟩
  · cases f with
    | measure m =>
      exact ⟨fun hm => ⟨n, hvalue, if_pos hm⟩, fun hm => if_neg (ne_true_of_eq_false hm)⟩
    | weight | anchor | fill => exact ⟨nofun, fun _ => rfl⟩
  · cases f with
    | weight axis =>
      exact ⟨fun hm => ⟨w, hvalue, if_pos hm⟩, fun hm => if_neg (ne_true_of_eq_false hm)⟩
    | measure | anchor | fill => exact ⟨nofun, fun _ => rfl⟩
  · cases f with
    | anchor => exact ⟨fun _ => ⟨choice, hvalue, rfl⟩, nofun⟩
    | measure | weight | fill => exact ⟨nofun, fun _ => rfl⟩
  · cases f with
    | fill => exact ⟨fun _ => ⟨choice, hvalue, rfl⟩, nofun⟩
    | measure | weight | anchor => exact ⟨nofun, fun _ => rfl⟩

end Assignment

/-! ## Pairs -/

/-- The last of the pairs whose names set a parameter. -/
def Field.last? (f : Field) (pairs : List (Text × Text)) : Option (Text × Text) :=
  (pairs.filter f.setBy).getLast?

namespace Record

/-- The value of a parameter as pairs leave it: what the last pair for it denotes, or the old value. -/
def Decides (f : Field) (pairs : List (Text × Text)) (old new : f.Value) : Prop :=
  match f.last? pairs with
  | some pair => f.read? pair.2 = some new
  | none => new = old

/-- One pair that can be read. -/
theorem get_carryOut {pair : Text × Text} (h : faultOf pair = none) (r : Record) (f : Field) :
    (f.setBy pair = true → f.read? pair.2 = some ((r.carryOut pair).get f)) ∧
      (f.setBy pair = false → (r.carryOut pair).get f = r.get f) := by
  rw [faultOf] at h
  rw [carryOut]
  split at h
  next a ha =>
    obtain ⟨hset, hkeep⟩ := Assignment.value?_of_read ha f
    rw [Assignment.get_apply]
    refine ⟨fun h => ?_, fun h => by rw [hkeep h]; rfl⟩
    obtain ⟨v, hread, hvalue⟩ := hset h
    rw [hread, hvalue]
    rfl
  next => cases h

/-- Of pairs that can be read the last for a parameter decides its value. -/
theorem decides_foldl_carryOut {pairs : List (Text × Text)} (h : pairs.findSome? faultOf = none)
    (r : Record) (f : Field) : Decides f pairs (r.get f) ((pairs.foldl carryOut r).get f) := by
  induction pairs using List.reverseRecOn with
  | nil => exact rfl
  | append_singleton pairs pair ih =>
    rw [List.findSome?_append, Option.or_eq_none_iff, List.findSome?_singleton] at h
    obtain ⟨hset, hkeep⟩ := get_carryOut h.2 (pairs.foldl carryOut r) f
    have hlast : f.last? (pairs ++ [pair]) = if f.setBy pair then some pair else f.last? pairs := by
      rw [Field.last?, List.filter_append, List.getLast?_append]
      cases hpair : f.setBy pair <;> simp [hpair, Field.last?]
    rw [Decides, List.foldl_append, hlast]
    cases hpair : f.setBy pair with
    | true => exact hset hpair
    | false =>
      have hbefore := ih h.1
      rw [← hkeep hpair] at hbefore
      exact hbefore

/-- What decides a value decides only one. -/
theorem eq_of_decides {f : Field} {pairs : List (Text × Text)} {old₁ old₂ new₁ new₂ : f.Value}
    (h₁ : Decides f pairs old₁ new₁) (h₂ : Decides f pairs old₂ new₂)
    (hold : (∀ pair ∈ pairs, f.setBy pair = false) → old₁ = old₂) : new₁ = new₂ := by
  rw [Decides] at h₁ h₂
  cases hlast : f.last? pairs with
  | some pair =>
    rw [hlast] at h₁ h₂
    exact Option.some.inj (h₁.symm.trans h₂)
  | none =>
    rw [hlast] at h₁ h₂
    have hnone : ∀ pair ∈ pairs, f.setBy pair = false := fun pair hpair =>
      Bool.eq_false_iff.mpr (List.filter_eq_nil_iff.mp (List.getLast?_eq_none_iff.mp hlast) pair hpair)
    exact h₁.trans ((hold hnone).trans h₂.symm)

/-! ## Texts -/

/-- A text that does not fail consists of pairs, and all of them can be read. -/
theorem readable_of_fault {r : Record} {t : Text} (h : (r.applyText t).fault = none) :
    (Text.words t).length % 2 = 0 ∧ (pairsOf (Text.words t)).findSome? faultOf = none := by
  rcases Nat.mod_two_eq_zero_or_one (Text.words t).length with heven | hodd
  · rw [applyText_of_even heven, fault_applyPairs] at h
    exact ⟨heven, h⟩
  · obtain ⟨last, -, hlast⟩ := applyText_of_odd hodd
    rw [hlast] at h
    cases h

/-- Whether a text fails does not depend on the record, and without a failure all pairs of the text
    are carried out. -/
theorem applyText_of_fault {r : Record} {t : Text} (h : (r.applyText t).fault = none) (s : Record) :
    (s.applyText t).fault = none ∧
      (s.applyText t).record = (pairsOf (Text.words t)).foldl carryOut s := by
  obtain ⟨heven, hreadable⟩ := readable_of_fault h
  rw [applyText_of_even heven]
  exact ⟨(fault_applyPairs s _).trans hreadable, record_applyPairs_of_readable hreadable s⟩

/-- A text that does not fail gives each parameter the value that the last pair for it denotes, and
    keeps a parameter without a pair. The record that results is that for every old record which
    agrees on the parameters without a pair, and the text has no effect on it. -/
theorem last_pair_decides (r : Record) (t : Text) (h : (r.applyText t).fault = none) :
    (∀ f, Decides f (pairsOf (Text.words t)) (r.get f) ((r.applyText t).record.get f)) ∧
      (∀ s : Record, (∀ f : Field, (∀ pair ∈ pairsOf (Text.words t), f.setBy pair = false) →
          s.get f = r.get f) →
        (s.applyText t).fault = none ∧ (s.applyText t).record = (r.applyText t).record) ∧
      ((r.applyText t).record.applyText t).fault = none ∧
      ((r.applyText t).record.applyText t).record = (r.applyText t).record := by
  have hreadable := (readable_of_fault h).2
  have hdecides : ∀ (s : Record) f,
      Decides f (pairsOf (Text.words t)) (s.get f) ((s.applyText t).record.get f) := fun s f => by
    rw [(applyText_of_fault h s).2]
    exact decides_foldl_carryOut hreadable s f
  have hother : ∀ s : Record, (∀ f : Field,
      (∀ pair ∈ pairsOf (Text.words t), f.setBy pair = false) → s.get f = r.get f) →
        (s.applyText t).fault = none ∧ (s.applyText t).record = (r.applyText t).record :=
    fun s hs => ⟨(applyText_of_fault h s).1,
      ext_get fun f => eq_of_decides (hdecides s f) (hdecides r f) (hs f)⟩
  -- What the text leaves of the old record is still there when it is carried out again.
  have hkept : ∀ f : Field, (∀ pair ∈ pairsOf (Text.words t), f.setBy pair = false) →
      (r.applyText t).record.get f = r.get f := fun f hf => by
    have hdecided := hdecides r f
    rw [Decides, Field.last?, List.filter_eq_nil_iff.mpr fun pair hpair =>
      ne_true_of_eq_false (hf pair hpair)] at hdecided
    exact hdecided
  exact ⟨hdecides r, hother, hother _ hkept⟩

/-- Names of several parameters and of one, in turn and in any letter case. -/
theorem last_pair_decides_in_turn :
    let t := "I* 1 it 5 wx 2 W* 3 Ipad* 4 py 6 INSET_TOP 7 p* 8".toList
    let result : Record := { Record.standard with
      insets := ⟨7, 1, 1, 1⟩
      weightx := .ofRatio false 3 1
      weighty := .ofRatio false 3 1
      ipadx := 8
      ipady := 8 }
    (Record.standard.applyText t).fault = none ∧
      (∀ f, Decides f (pairsOf (Text.words t)) (Record.standard.get f) (result.get f)) ∧
      (result.applyText t).record = result := by
  intro t result
  have hfault : (Record.standard.applyText t).fault = none := by decide +kernel
  have hresult : (Record.standard.applyText t).record = result := by decide +kernel
  obtain ⟨hdecides, -, -, hagain⟩ := last_pair_decides Record.standard t hfault
  rw [hresult] at hdecides hagain
  exact ⟨hfault, hdecides, hagain⟩

end Record

end GridSketch
