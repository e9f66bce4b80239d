/-
  Texts in another letter case.

  Putting the ASCII letters of a text in lower case leaves its lower-case image as it is: a letter has
  case in either form and is passed over in neither, so that the form of a sigma nearby stays too. No
  letter is a blank, so that the words stay apart. Hence two texts with the same `fold`, which differ in
  the case of ASCII letters only, have the same image and words that differ in the same way.

  * `Text.lower_fold`: images.
  * `Text.words_fold`: words.
-/
import GridSketch.Proofs.Text.LetterCase
import GridSketch.Proofs.Text.Spacing

namespace GridSketch.Text

/-! ## Characters -/

/-- What is the same for both cases of every letter is found by going through the codes of ASCII. -/
theorem apply_toLower {α : Type} [DecidableEq α] (f : Char → α) (c : Char)
    (h : ∀ code < 0x80, f (Char.ofNat code).toLower = f (Char.ofNat code)) : f c.toLower = f c := by
  by_cases hc : c.toNat < 0x80
  · exact of_toNat_lt hc (fun c => f c.toLower = f c) h
  · rw [toLower_of_le (Nat.le_of_not_lt hc)]

theorem isBlank_toLower (c : Char) : isBlank c.toLower = isBlank c :=
  apply_toLower isBlank c (by decide +kernel)

/-- Only the rows of a table that begin in ASCII tell anything about a letter of ASCII. -/
theorem inRanges_of_lt {ranges : List (Nat × Nat)} {c : Char} (hc : c.toNat < 0x80) :
    inRanges ranges c = inRanges (ranges.filter fun range => decide (range.1 < 0x80)) c := by
  rw [inRanges, inRanges, List.any_filter]
  congr 1
  funext range
  rw [← Bool.decide_and]
  exact decide_eq_decide.mpr ⟨fun h => ⟨by omega, h⟩, fun h => h.2⟩

theorem inRanges_toLower {ranges : List (Nat × Nat)} (ascii : List (Nat × Nat)) (c : Char)
    (hascii : (ranges.filter fun range => decide (range.1 < 0x80)) = ascii)
    (h : ∀ code < 0x80,
      inRanges ascii (Char.ofNat code).toLower = inRanges ascii (Char.ofNat code)) :
    inRanges ranges c.toLower = inRanges ranges c := by
  by_cases hc : c.toNat < 0x80
  · have hlower : c.toLower.toNat < 0x80 :=
      of_toNat_lt hc (fun c => c.toLower.toNat < 0x80) (by decide)
    rw [inRanges_of_lt hc, inRanges_of_lt hlower, hascii]
    exact apply_toLower (inRanges ascii) c h
  · rw [toLower_of_le (Nat.le_of_not_lt hc)]

theorem isCased_toLower (c : Char) : isCased c.toLower = isCased c :=
  inRanges_toLower [(0x41, 0x5A), (0x61, 0x7A)] c (by decide +kernel) (by decide +kernel)

theorem isCaseIgnorable_toLower (c : Char) : isCaseIgnorable c.toLower = isCaseIgnorable c :=
  inRanges_toLower [(0x27, 0x27), (0x2E, 0x2E), (0x3A, 0x3A), (0x5E, 0x5E), (0x60, 0x60)] c
    (by decide +kernel) (by decide +kernel)

theorem toLower_eq_sigma_iff (c : Char) : c.toLower = 'Σ' ↔ c = 'Σ' :=
  decide_eq_decide.mp (apply_toLower (fun c => decide (c = 'Σ')) c (by decide))

theorem lowerChar_toLower (c : Char) : lowerChar c.toLower = lowerChar c :=
  apply_toLower lowerChar c (by decide)

/-! ## Images -/

theorem startsCased_fold (t : Text) : startsCased (fold t) = startsCased t := by
  have hsame : (fun c => !isCaseIgnorable c) ∘ Char.toLower = fun c => !isCaseIgnorable c := by
    funext c
    exact congrArg (! ·) (isCaseIgnorable_toLower c)
  rw [startsCased, fold, List.find?_map, hsame, startsCased]
  cases t.find? fun c => !isCaseIgnorable c with
  | none => rfl
  | some c => exact isCased_toLower c

theorem lowerAfter_fold (afterCased : Bool) (t : Text) :
    lowerAfter afterCased (fold t) = lowerAfter afterCased t := by
  induction t generalizing afterCased with
  | nil => rfl
  | cons c rest ih =>
    have hrest : lowerAfter afterCased (fold (c :: rest)) =
        lowerAfter afterCased (c.toLower :: fold rest) := rfl
    simp only [hrest, lowerAfter, ih, startsCased_fold, toLower_eq_sigma_iff, lowerChar_toLower,
      isCaseIgnorable_toLower, isCased_toLower]

/-- The case of ASCII letters does not matter for the image of a text. -/
theorem lower_fold (t : Text) : lower (fold t) = lower t := lowerAfter_fold false t

/-! ## Words -/

theorem isBlank_of_mem_fold {t : Text} {b : Bool} (h : ∀ c ∈ t, isBlank c = b) :
    ∀ c ∈ fold t, isBlank c = b := by
  intro c hc
  obtain ⟨d, hd, rfl⟩ := List.mem_map.mp hc
  rw [isBlank_toLower, h d hd]

theorem isWord_fold {w : Text} (h : IsWord w) : IsWord (fold w) :=
  ⟨fun hnil => h.1 (List.map_eq_nil_iff.mp hnil), isBlank_of_mem_fold h.2⟩

theorem spaced_fold {ws : List Text} {t : Text} (h : Spaced ws t) :
    Spaced (ws.map fold) (fold t) := by
  induction h with
  | blanks hgap => exact .blanks (isBlank_of_mem_fold hgap)
  | @word gap w rest ws hgap hw hend h ih =>
    rw [fold, List.map_append, List.map_append]
    refine .word (isBlank_of_mem_fold hgap) (isWord_fold hw) (fun c hc => ?_) ih
    rw [List.head?_map] at hc
    obtain ⟨d, hd, rfl⟩ := Option.map_eq_some_iff.mp hc
    rw [isBlank_toLower, hend d hd]

/-- The case of ASCII letters does not matter for where the words of a text are. -/
theorem words_fold (t : Text) : words (fold t) = (words t).map fold :=
  words_eq_iff.mpr (spaced_fold (words_eq_iff.mp rfl))

end GridSketch.Text
