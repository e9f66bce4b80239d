/-
  Words and the texts they make: joining words by single spaces and cutting the text at its blanks
  gives the same words, so that a constraint text put together from arguments has exactly their
  words, however often it is put together again.

  * `Text.words_unwords`: words are read back from the text they make.
  * `Part.words_join`: the text of arguments has the words of the arguments.
-/
import GridSketch.Constraint.Part

namespace GridSketch

-- What holds of all characters of a text is decided on its characters.
attribute [local instance (2000)] List.decidableBAll

namespace Text

/-- A text that is one word: not empty, and free of blanks. -/
def IsWord (w : Text) : Prop := w ≠ [] ∧ ∀ c ∈ w, isBlank c = false

instance (w : Text) : Decidable (IsWord w) := inferInstanceAs (Decidable (_ ∧ _))

/-! ## Cutting a text -/

theorem isBlank_eq_false_of_mem_splitOnP {t w : Text} (h : w ∈ t.splitOnP isBlank) :
    ∀ c ∈ w, isBlank c = false := by
  induction t generalizing w with
  | nil =>
    rw [List.splitOnP_nil, List.mem_singleton] at h
    simp [h]
  | cons d rest ih =>
    rw [List.splitOnP_cons_eq_if_modifyHead] at h
    cases hd : isBlank d with
    | true =>
      rw [if_pos hd] at h
      rcases List.mem_cons.mp h with rfl | h
      · simp
      · exact ih h
    | false =>
      rw [if_neg (by simp [hd])] at h
      obtain ⟨first, others, hpieces⟩ :=
        List.exists_cons_of_ne_nil (List.splitOnP_ne_nil isBlank rest)
      rw [hpieces, List.modifyHead_cons] at h
      rw [hpieces] at ih
      rcases List.mem_cons.mp h with rfl | h
      · intro c hc
        rcases List.mem_cons.mp hc with rfl | hc
        · exact hd
        · exact ih (List.mem_cons_self ..) c hc
      · exact ih (List.mem_cons_of_mem first h)

theorem isWord_of_mem_words {t w : Text} (h : w ∈ words t) : IsWord w := by
  obtain ⟨hw, hne⟩ := List.mem_filter.mp h
  refine ⟨?_, isBlank_eq_false_of_mem_splitOnP hw⟩
  simpa using hne

theorem words_of_isWord {w : Text} (h : IsWord w) : words w = [w] := by
  rw [words, List.splitOnP_eq_singleton h.2]
  simp [h.1]

/-- A blank separates the words before it from those behind it. -/
theorem words_append_cons {c : Char} (hc : isBlank c = true) (s t : Text) :
    words (s ++ c :: t) = words s ++ words t := by
  rw [words, List.splitOnP_append_cons s t hc, List.filter_append]
  rfl

/-! ## Joining words -/

theorem unwords_singleton (w : Text) : unwords [w] = w := List.intercalate_singleton

theorem unwords_cons_cons (w v : Text) (rest : List Text) :
    unwords (w :: v :: rest) = w ++ ' ' :: unwords (v :: rest) := by
  simp [unwords, List.intercalate, List.intersperse]

/-- Words joined by single spaces are read back as they are. -/
theorem words_unwords {ws : List Text} (h : ∀ w ∈ ws, IsWord w) : words (unwords ws) = ws := by
  induction ws with
  | nil => rfl
  | cons w rest ih =>
    have hw : IsWord w := h w (List.mem_cons_self ..)
    cases rest with
    | nil =>
      rw [unwords_singleton]
      exact words_of_isWord hw
    | cons v rest =>
      have hrest := ih fun u hu => h u (List.mem_cons_of_mem w hu)
      rw [unwords_cons_cons, words_append_cons (by decide), words_of_isWord hw, hrest]
      rfl

end Text

namespace Part

@[simp] theorem words_nil : words [] = [] := rfl

@[simp] theorem words_cons (p : Part) (parts : List Part) :
    words (p :: parts) = Text.words p.write ++ words parts := List.flatMap_cons

@[simp] theorem words_append (first second : List Part) :
    words (first ++ second) = words first ++ words second := List.flatMap_append

theorem isWord_of_mem_words {parts : List Part} {w : Text} (h : w ∈ words parts) :
    Text.IsWord w := by
  obtain ⟨p, -, hw⟩ := List.mem_flatMap.mp h
  exact Text.isWord_of_mem_words hw

/-- The constraint text of arguments has their words, in order. -/
theorem words_join (parts : List Part) : Text.words (join parts) = words parts :=
  Text.words_unwords fun _ => isWord_of_mem_words

end Part

end GridSketch
