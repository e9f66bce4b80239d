/-
  Arguments in groups.

  A constraint text is put together from arguments of any kind, and only their words matter: how the
  words are spread over the arguments, how many blanks are between them and which arguments are absent
  leave no trace in the text. It has one space between two words and no other blank, and putting it
  together again changes nothing. Groups of arguments that each make whole pairs may be carried out one
  after the other instead of at once.

  * `Record.applyParts_append`: groups carried out one after the other.
  * `Part.join_regroup`: all of it.
-/
import GridSketch.Proofs.Constraint.Sequence
import GridSketch.Proofs.Text.Spacing

namespace GridSketch

namespace Part

/-- Absent arguments have no words. -/
theorem words_eq_present (parts : List Part) :
    words parts =
      (parts.filter fun p => decide (p ≠ .absent)).flatMap fun p => Text.words p.write := by
  induction parts with
  | nil => rfl
  | cons p rest ih =>
    rw [words_cons, ih, List.filter_cons]
    split
    next => rfl
    next hp =>
      obtain rfl : p = .absent := by simpa using hp
      rfl

/-- The text of arguments in two groups. -/
theorem join_append (first second : List Part) :
    join (first ++ second) = join [.text (join first), .text (join second)] := by
  rw [join, join, words_append, words_cons, words_cons, words_nil, List.append_nil, write, write,
    words_join, words_join]

/-- Putting a text together again changes nothing. -/
theorem join_join (parts : List Part) : join [.text (join parts)] = join parts := by
  rw [join, words_cons, words_nil, List.append_nil, write, words_join, ← join]

end Part

/-- Groups that make whole pairs are carried out one after the other. -/
theorem Record.applyParts_append {first second : List Part}
    (hfirst : (Text.words (Part.join first)).length % 2 = 0)
    (hsecond : (Text.words (Part.join second)).length % 2 = 0) (r : Record) :
    r.applyParts (first ++ second) = (r.applyParts first).andThen fun s => s.applyParts second := by
  have hwords : Text.words (Part.join (first ++ second)) =
      Text.words (Part.join first) ++ Text.words (Part.join second) := by
    rw [Part.words_join, Part.words_append, Part.words_join, Part.words_join]
  have heven : (Text.words (Part.join (first ++ second))).length % 2 = 0 := by
    rw [hwords, List.length_append]
    omega
  simp only [applyParts, applyText_of_even hfirst, applyText_of_even hsecond]
  rw [applyText_of_even heven, hwords, pairsOf_append hfirst, applyPairs_append]

namespace Part

/-- The words of a text are those that it consists of. The text of arguments has the words of the
    arguments that are not absent, in order, with single spaces and no other blanks; it is the text of
    itself, and of the texts of any two groups. Where both groups make whole pairs, the arguments have
    the outcome of the first group and then, unless this fails, of the second. -/
theorem join_regroup (first second : List Part) :
    (∀ ws t, Text.words t = ws ↔ Text.Spaced ws t) ∧
      Text.words (join first) =
        ((first.filter fun p => decide (p ≠ .absent)).flatMap fun p => Text.words p.write) ∧
      join (first ++ second) = join [.text (join first), .text (join second)] ∧
      join [.text (join first)] = join first ∧ Text.SinglySpaced (join first) ∧
      ((Text.words (join first)).length % 2 = 0 → (Text.words (join second)).length % 2 = 0 →
        ∀ r : Record, r.applyParts (first ++ second) =
          (r.applyParts first).andThen fun s => s.applyParts second) :=
  ⟨fun _ _ => Text.words_eq_iff, (words_join first).trans (words_eq_present first),
    join_append first second, join_join first,
    Text.singlySpaced_unwords fun _ => isWord_of_mem_words,
    fun hfirst hsecond r => Record.applyParts_append hfirst hsecond r⟩

/-- A pair in three arguments, one of them absent, and a pair in one that cannot be read. -/
theorem join_regroup_half_pairs :
    let first : List Part := [.text "\tipadx".toList, .absent, .integer 4]
    let second : List Part := [.text "fill  Bogus\n".toList]
    join (first ++ second) = "ipadx 4 fill Bogus".toList ∧
      (Text.words (join first)).length % 2 = 0 ∧ (Text.words (join second)).length % 2 = 0 ∧
      (Record.standard.applyParts first).fault = none ∧
      ∀ r : Record, r.applyParts (first ++ second) =
        (r.applyParts first).andThen fun s => s.applyParts second := by
  intro first second
  have hfirst : (Text.words (join first)).length % 2 = 0 := by decide
  have hsecond : (Text.words (join second)).length % 2 = 0 := by decide
  obtain ⟨-, -, -, -, -, hgroups⟩ := join_regroup first second
  exact ⟨by decide, hfirst, hsecond, by decide +kernel, hgroups hfirst hsecond⟩

end Part

end GridSketch
