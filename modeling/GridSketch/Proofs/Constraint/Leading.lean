/-
  The name that an entry starts with.

  An entry is compared in lower case with the names of the table, and cut behind the first that it
  starts with. The comparison is one of ASCII letters only, whatever the entry goes on with, and the
  order of the table makes the first name the longest. So an entry is cut behind the longest name
  that it starts with, and refused if it starts with none.

  * `Mnemonic.prefix_lower_iff`: lower case in full and in ASCII give the same names.
  * `Mnemonic.isLongest_of_leading?`, `Mnemonic.leading?_eq_none_iff`: the search of the table.
  * `Embedded.splitEntry_cuts_longest`: entries.
-/
import GridSketch.Constraint.Embedded
import GridSketch.Proofs.Constraint.Spelling

namespace GridSketch

namespace Mnemonic

/-- Whether a text starts with a name, in any case of the ASCII letters. -/
def Starts (m : Mnemonic) (t : Text) : Prop := m.spelling <+: Text.fold t

instance (m : Mnemonic) (t : Text) : Decidable (m.Starts t) := inferInstanceAs (Decidable (_ <+: _))

/-- The longest of the names of the table that a text starts with. -/
structure IsLongest (m : Mnemonic) (t : Text) : Prop where
  mem : m ∈ table
  starts : m.Starts t
  longest : ∀ other ∈ table, other.Starts t → other.spelling.length ≤ m.spelling.length

section

variable {m : Mnemonic} {t : Text}

/-- The start of a text spells the name that the text starts with. -/
theorem spells_take_iff : m.Spells (t.take m.spelling.length) ↔ m.Starts t := by
  rw [Spells, Starts, List.prefix_iff_eq_take, Text.fold, Text.fold, List.map_take, eq_comm]

/-- A name of the table starts the lower-case image of a text exactly if the text starts with it in
    some case of the ASCII letters. No character beyond ASCII takes part in this. -/
theorem prefix_lower_iff (hm : m ∈ table) : m.spelling <+: Text.lower t ↔ m.Starts t := by
  rw [← spells_take_iff]
  constructor
  · intro hprefix
    obtain ⟨-, hplain, hlast⟩ := isPlainImage_spelling m hm
    exact Text.map_toLower_take_of_prefix hplain hlast hprefix
  · intro hspells
    obtain ⟨next, happend⟩ := Text.lowerAfter_append (isAscii_of_spells hm hspells) false
      (t.drop m.spelling.length)
    rw [List.take_append_drop] at happend
    rw [Text.lower, happend, show Text.fold _ = m.spelling from hspells]
    exact List.prefix_append _ _

/-- The first name of the table that a text starts with is the longest. -/
theorem isLongest_of_leading? (h : leading? t = some m) : m.IsLongest t := by
  obtain ⟨hm, hspells⟩ := spells_of_leading? h
  have hstarts := spells_take_iff.mp hspells
  rw [leading?, List.find?_eq_some_iff_append] at h
  obtain ⟨-, before, after, htable, hbefore⟩ := h
  refine ⟨hm, hstarts, fun other hother hstarts' => Nat.le_of_not_lt fun hlt => ?_⟩
  -- Both start the same text, so the longer one starts with the shorter one.
  have hle : m.spelling <+: other.spelling :=
    List.prefix_of_prefix_length_le hstarts hstarts' (Nat.le_of_lt hlt)
  have hprefix := (prefix_lower_iff hother).mpr hstarts'
  rw [htable] at hother
  rcases List.mem_append.mp hother with hearlier | hlater
  · -- An earlier name that starts the text would have been found.
    have hnot := hbefore other hearlier
    rw [Bool.not_eq_true', ← Bool.not_eq_true, List.isPrefixOf_iff_prefix] at hnot
    exact hnot hprefix
  · rcases List.mem_cons.mp hlater with rfl | hlater
    · exact Nat.lt_irrefl _ hlt
    · have hpairwise := pairwise_table
      rw [htable, List.pairwise_append, List.pairwise_cons] at hpairwise
      exact (hpairwise.2.1.1 other hlater).1 hle

/-- No name is found exactly if the text starts with none. -/
theorem leading?_eq_none_iff : leading? t = none ↔ ∀ m ∈ table, ¬ m.Starts t := by
  rw [leading?, List.find?_eq_none]
  refine forall₂_congr fun m hm => ?_
  rw [List.isPrefixOf_iff_prefix, prefix_lower_iff hm]

end

end Mnemonic

namespace Embedded

/-- An entry is cut exactly if it starts with a name of the table, in any case of the ASCII letters.
    It is cut behind the longest such name, which is then a known name of a constraint; otherwise it
    is refused, and the report has the entry. -/
theorem splitEntry_cuts_longest (entry : Text) :
    ((∃ cut, splitEntry entry = .ok cut) ↔ ∃ m ∈ Mnemonic.table, m.Starts entry) ∧
      (∀ name rest, splitEntry entry = .ok (name, rest) →
        name ++ rest = entry ∧ ∃ m : Mnemonic, m.IsLongest entry ∧ m.Spells name ∧
          Mnemonic.target? (Text.lower name) = some m.target) ∧
      ∀ fault, splitEntry entry = .error fault →
        fault.code = .embeddedConstraintUnrecognized ∧ fault.context = { input := some entry } := by
  rw [splitEntry]
  cases hfound : Mnemonic.leading? entry with
  | none =>
    have hnone := Mnemonic.leading?_eq_none_iff.mp hfound
    refine ⟨⟨nofun, fun ⟨m, hm, hstarts⟩ => absurd hstarts (hnone m hm)⟩, nofun, ?_⟩
    rintro fault ⟨⟩
    exact ⟨rfl, rfl⟩
  | some m =>
    have hlongest := Mnemonic.isLongest_of_leading? hfound
    refine ⟨⟨fun _ => ⟨m, hlongest.mem, hlongest.starts⟩, fun _ => ⟨_, rfl⟩⟩, ?_, nofun⟩
    rintro name rest ⟨⟩
    have hspells := Mnemonic.spells_take_iff.mpr hlongest.starts
    exact ⟨List.take_append_drop m.spelling.length entry, m, hlongest, hspells,
      Mnemonic.target?_of_spells hlongest.mem hspells⟩

/-- A shorter name starts the entry too, and the name keeps its spelling. -/
example : splitEntry "AnchorNW".toList = .ok ("Anchor".toList, "NW".toList) := by decide

/-- The capital I with dot is no spelling of an `i`, although its image starts with one. -/
example : splitEntry "\u0130*5".toList = .error (.entryUnrecognized "\u0130*5".toList) := by decide

end Embedded

end GridSketch
