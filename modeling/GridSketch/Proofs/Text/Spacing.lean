/-
  Texts as words with blanks between them.

  The words of a text are told by the shape of the text: blanks, then a word up to the next blank or
  the end, and so on. Of all texts with the same words, the one that the words are joined to has the
  fewest blanks.

  * `Text.Spaced`: a text that consists of given words and of blanks.
  * `Text.words_eq_iff`: the words of a text are those that it consists of.
  * `Text.singlySpaced_unwords`: the blanks of words that are joined, by induction on the words.
-/
import GridSketch.Proofs.Text.Words

namespace GridSketch.Text

/-! ## Words of a text -/

/-- A text that consists of words and blanks: any blanks before the first word and behind the last,
    and at least one between two words. -/
inductive Spaced : List Text → Text → Prop
  | blanks {gap : Text} (hgap : ∀ c ∈ gap, isBlank c = true) : Spaced [] gap
  | word {gap w rest : Text} {ws : List Text} (hgap : ∀ c ∈ gap, isBlank c = true) (hw : IsWord w)
      (hend : ∀ c ∈ rest.head?, isBlank c = true) (h : Spaced ws rest) :
      Spaced (w :: ws) (gap ++ (w ++ rest))

theorem words_blanks_append {gap : Text} (h : ∀ c ∈ gap, isBlank c = true) (t : Text) :
    words (gap ++ t) = words t := by
  induction gap with
  | nil => rfl
  | cons c rest ih =>
    have hcut : words ([] ++ c :: (rest ++ t)) = words (rest ++ t) :=
      words_append_cons (h c List.mem_cons_self) [] _
    exact hcut.trans (ih fun d hd => h d (List.mem_cons_of_mem c hd))

/-- A word up to the next blank, or the end, is the first word of a text. -/
theorem words_word_append {w rest : Text} (hw : IsWord w)
    (hend : ∀ c ∈ rest.head?, isBlank c = true) : words (w ++ rest) = w :: words rest := by
  cases rest with
  | nil => rw [List.append_nil, words_of_isWord hw]; rfl
  | cons c rest =>
    have hc := hend c rfl
    have hgap : ∀ d ∈ [c], isBlank d = true := List.forall_mem_singleton.mpr hc
    have hskip : words (c :: rest) = words rest := words_blanks_append hgap rest
    rw [words_append_cons hc, words_of_isWord hw, hskip]
    rfl

theorem words_of_spaced {ws : List Text} {t : Text} (h : Spaced ws t) : words t = ws := by
  induction h with
  | @blanks gap hgap =>
    have hskip := words_blanks_append hgap []
    rwa [List.append_nil] at hskip
  | word hgap hw hend h ih => rw [words_blanks_append hgap, words_word_append hw hend, ih]

/-- A text that starts with a word. -/
theorem Spaced.of_word {w rest : Text} {ws : List Text} (hw : IsWord w)
    (hend : ∀ c ∈ rest.head?, isBlank c = true) (h : Spaced ws rest) :
    Spaced (w :: ws) (w ++ rest) :=
  show Spaced _ ([] ++ (w ++ rest)) from .word nofun hw hend h

theorem Spaced.cons_blank {ws : List Text} {t : Text} {c : Char} (hc : isBlank c = true)
    (h : Spaced ws t) : Spaced ws (c :: t) := by
  have hcons : ∀ {gap : Text}, (∀ d ∈ gap, isBlank d = true) → ∀ d ∈ c :: gap, isBlank d = true :=
    fun hgap => List.forall_mem_cons.mpr ⟨hc, hgap⟩
  cases h with
  | blanks hgap => exact .blanks (hcons hgap)
  | word hgap hw hend h => exact .word (hcons hgap) hw hend h

/-- A character in front of a text belongs to its first word, if no blanks precede that, and else is a
    word of its own. -/
theorem Spaced.cons_plain {ws : List Text} {t : Text} {c : Char} (hc : isBlank c = false)
    (h : Spaced ws t) : ∃ ws, Spaced ws (c :: t) := by
  have hsingle : IsWord [c] := ⟨List.cons_ne_nil c [], by simpa using hc⟩
  cases h with
  | blanks hgap =>
    have hend : ∀ d ∈ t.head?, isBlank d = true := fun d hd => hgap d (List.mem_of_mem_head? hd)
    exact ⟨_, .of_word hsingle hend (.blanks hgap)⟩
  | @word gap w rest ws hgap hw hend h =>
    cases gap with
    | nil =>
      have hlonger : IsWord (c :: w) :=
        ⟨List.cons_ne_nil c w, List.forall_mem_cons.mpr ⟨hc, hw.2⟩⟩
      exact ⟨_, .of_word hlonger hend h⟩
    | cons d gap =>
      have hd : ∀ e ∈ (d :: gap ++ (w ++ rest)).head?, isBlank e = true := by
        rintro e ⟨⟩
        exact hgap d List.mem_cons_self
      exact ⟨_, .of_word hsingle hd (.word hgap hw hend h)⟩

theorem exists_spaced (t : Text) : ∃ ws, Spaced ws t := by
  induction t with
  | nil => exact ⟨[], .blanks nofun⟩
  | cons c rest ih =>
    obtain ⟨ws, hws⟩ := ih
    cases hc : isBlank c with
    | true => exact ⟨ws, hws.cons_blank hc⟩
    | false => exact hws.cons_plain hc

/-- The words of a text are those that it consists of. -/
theorem words_eq_iff {ws : List Text} {t : Text} : words t = ws ↔ Spaced ws t := by
  refine ⟨?_, words_of_spaced⟩
  rintro rfl
  obtain ⟨ws, hws⟩ := exists_spaced t
  rwa [words_of_spaced hws]

/-! ## Words that are joined -/

/-- Every blank of a text is a space, and next to it on both sides are characters that are no blanks. -/
def SinglySpaced (t : Text) : Prop :=
  ∀ before c after, t = before ++ c :: after → isBlank c = true →
    c = ' ' ∧ (∃ b ∈ before.getLast?, isBlank b = false) ∧ ∃ a ∈ after.head?, isBlank a = false

theorem singlySpaced_of_forall {t : Text} (h : ∀ c ∈ t, isBlank c = false) : SinglySpaced t := by
  intro before c after ht hblank
  have hmem : c ∈ t := by simp [ht]
  simp [h c hmem] at hblank

/-- A word and a single space in front of a text that starts with no blank. -/
theorem singlySpaced_word_space {w rest : Text} (hw : IsWord w) (hrest : SinglySpaced rest)
    (hstart : ∃ a ∈ rest.head?, isBlank a = false) : SinglySpaced (w ++ ' ' :: rest) := by
  have hend : ∃ b ∈ w.getLast?, isBlank b = false :=
    ⟨w.getLast hw.1, List.getLast?_eq_some_getLast hw.1, hw.2 _ (List.getLast_mem hw.1)⟩
  intro before c after ht hblank
  rcases List.append_eq_append_iff.mp ht with ⟨skipped, rfl, htail⟩ | ⟨ahead, hword, htail⟩
  · cases skipped with
    | nil =>
      obtain ⟨rfl, rfl⟩ := List.cons.inj htail
      exact ⟨rfl, by rwa [List.append_nil], hstart⟩
    | cons space skipped =>
      obtain ⟨hspace, ⟨b, hb, hbefore⟩, hafter⟩ :=
        hrest skipped c after (List.cons.inj htail).2 hblank
      refine ⟨hspace, ⟨b, ?_, hbefore⟩, hafter⟩
      have hlast : skipped.getLast? = some b := hb
      simp [List.getLast?_append, List.getLast?_cons, hlast]
  · cases ahead with
    | nil =>
      obtain ⟨rfl, rfl⟩ := List.cons.inj htail
      rw [List.append_nil] at hword
      exact ⟨rfl, hword ▸ hend, hstart⟩
    | cons d ahead =>
      -- The blank would be a character of the word.
      obtain ⟨rfl, -⟩ := List.cons.inj htail
      have hmem : c ∈ w := by simp [hword]
      simp [hw.2 c hmem] at hblank

theorem head?_unwords_cons {w : Text} (hw : IsWord w) (ws : List Text) :
    ∃ a ∈ (unwords (w :: ws)).head?, isBlank a = false := by
  obtain ⟨c, rest, rfl⟩ := List.exists_cons_of_ne_nil hw.1
  refine ⟨c, ?_, hw.2 c List.mem_cons_self⟩
  cases ws with
  | nil => rfl
  | cons v ws => rw [unwords_cons_cons]; rfl

/-- Words joined by single spaces have no other blanks. -/
theorem singlySpaced_unwords {ws : List Text} (h : ∀ w ∈ ws, IsWord w) :
    SinglySpaced (unwords ws) := by
  induction ws with
  | nil => exact singlySpaced_of_forall nofun
  | cons w rest ih =>
    have hw := h w List.mem_cons_self
    have hrest : ∀ v ∈ rest, IsWord v := fun v hv => h v (List.mem_cons_of_mem w hv)
    cases rest with
    | nil =>
      rw [show unwords [w] = w by simp [unwords, List.intercalate]]
      exact singlySpaced_of_forall hw.2
    | cons v rest =>
      rw [unwords_cons_cons]
      exact singlySpaced_word_space hw (ih hrest)
        (head?_unwords_cons (hrest v List.mem_cons_self) rest)

end GridSketch.Text
