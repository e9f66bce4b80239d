/-
  Letter case and ASCII: which texts have lower-case images in ASCII.

  Two characters beyond ASCII have an image in which ASCII occurs: the Kelvin sign, whose image is
  `k`, and the capital I with dot, whose image is an `i` and a combining dot. Hence a text whose image
  has neither a `k` nor a character beyond ASCII is in ASCII itself, and its image is found letter by
  letter. The same holds for the part of a text whose image is such a start of the whole image, unless
  that start ends with an `i`, which might be the first half of an image.

  * `lower_of_isAscii`: the image of a text in ASCII.
  * `isAscii_of_lower`: a text with an image in ASCII.
  * `map_toLower_take_of_prefix`: the part of a text whose image is a given start.
-/
import GridSketch.Text.LowerCase

namespace GridSketch.Text

-- What holds of all rows of a table is decided on its rows.
attribute [local instance (2000)] List.decidableBAll

/-- A text in ASCII. -/
def IsAscii (t : Text) : Prop := ∀ c ∈ t, c.toNat < 0x80

instance (t : Text) : Decidable (IsAscii t) := inferInstanceAs (Decidable (∀ c ∈ t, _))

/-- What holds of every character of ASCII is found by going through the codes. -/
theorem of_toNat_lt {c : Char} (hc : c.toNat < 0x80) (p : Char → Prop)
    (h : ∀ code < 0x80, p (Char.ofNat code)) : p c := by
  have hcode := h c.toNat hc
  rwa [Char.ofNat_toNat] at hcode

/-- The lower-case image of a text letter by letter, where only ASCII letters have case. -/
def fold (t : Text) : Text := t.map Char.toLower

/-! ## Images of characters -/

theorem toLower_of_le {c : Char} (h : 0x80 ≤ c.toNat) : c.toLower = c := by
  have hnot : ¬ (c.val ≥ 'A'.val ∧ c.val ≤ 'Z'.val) := by
    rintro ⟨-, hle⟩
    have hz : c.toNat ≤ 0x5A := UInt32.le_iff_toNat_le.mp hle
    omega
  exact dif_neg hnot

theorem toNat_lt_of_toLower {c : Char} (h : c.toLower.toNat < 0x80) : c.toNat < 0x80 := by
  refine Nat.lt_of_not_le fun hle => ?_
  rw [toLower_of_le hle] at h
  omega

/-- Runs of capitals have images beyond ASCII, except for the Kelvin sign, and all images are
    characters. -/
theorem image_of_mem_caseRuns : ∀ run ∈ caseRuns,
    (0x80 ≤ run.image ∨ run.first = run.last ∧ run.image = 0x6B) ∧
      (run.image + (run.last - run.first) < 0xD800 ∨
        0xDFFF < run.image ∧ run.image + (run.last - run.first) < 0x110000) := by decide +kernel

theorem lowerChar_of_lt {c : Char} (h : c.toNat < 0x80) : lowerChar c = [c.toLower] := if_pos h

/-- The images of characters beyond ASCII. -/
def IsImageBeyond (image : Text) : Prop :=
  image = ['i', '\u0307'] ∨ image = ['k'] ∨ ∃ d : Char, image = [d] ∧ 0x80 ≤ d.toNat

theorem isImageBeyond_lowerChar {c : Char} (h : 0x80 ≤ c.toNat) : IsImageBeyond (lowerChar c) := by
  rw [lowerChar, if_neg (by omega)]
  split
  · exact .inl rfl
  · split
    next run hrun =>
      have hholds := List.find?_some hrun
      rw [CaseRun.holds, decide_eq_true_eq] at hholds
      obtain ⟨himage, hvalid⟩ := image_of_mem_caseRuns run (List.mem_of_find?_eq_some hrun)
      have hchar : (run.lower c.toNat).isValidChar := by
        unfold CaseRun.lower Nat.isValidChar
        omega
      rcases himage with himage | ⟨hsingle, hkelvin⟩
      · refine .inr (.inr ⟨_, rfl, ?_⟩)
        rw [Char.ofNat, dif_pos hchar]
        change 0x80 ≤ run.lower c.toNat
        rw [CaseRun.lower]
        omega
      · refine .inr (.inl ?_)
        rw [CaseRun.lower, hkelvin, show c.toNat - run.first = 0 by omega]
    next => exact .inr (.inr ⟨c, rfl, h⟩)

/-! ## Images of texts -/

theorem lowerAfter_cons_of_lt {c : Char} (h : c.toNat < 0x80) (afterCased : Bool) (rest : Text) :
    ∃ next, lowerAfter afterCased (c :: rest) = c.toLower :: lowerAfter next rest := by
  have hsigma : c ≠ 'Σ' := by
    rintro rfl
    exact absurd h (by decide)
  simp only [lowerAfter, hsigma, false_and, if_false, lowerChar_of_lt h]
  exact ⟨_, rfl⟩

theorem lowerAfter_cons_of_le {c : Char} (h : 0x80 ≤ c.toNat) (afterCased : Bool) (rest : Text) :
    ∃ image next, lowerAfter afterCased (c :: rest) = image ++ lowerAfter next rest ∧
      IsImageBeyond image := by
  rw [lowerAfter]
  refine ⟨_, _, rfl, ?_⟩
  split
  · exact .inr (.inr ⟨'ς', rfl, by decide⟩)
  · exact isImageBeyond_lowerChar h

/-- The image of a text that starts in ASCII, wherever the text stands. -/
theorem lowerAfter_append {s : Text} (hs : IsAscii s) (afterCased : Bool) (t : Text) :
    ∃ next, lowerAfter afterCased (s ++ t) = fold s ++ lowerAfter next t := by
  induction s generalizing afterCased with
  | nil => exact ⟨afterCased, rfl⟩
  | cons c rest ih =>
    obtain ⟨next, hcons⟩ := lowerAfter_cons_of_lt (hs c List.mem_cons_self) afterCased (rest ++ t)
    obtain ⟨last, hrest⟩ := ih (fun d hd => hs d (List.mem_cons_of_mem c hd)) next
    refine ⟨last, ?_⟩
    rw [List.cons_append, hcons, hrest]
    rfl

theorem lowerAfter_of_isAscii {t : Text} (h : IsAscii t) (afterCased : Bool) :
    lowerAfter afterCased t = fold t := by
  obtain ⟨next, happend⟩ := lowerAfter_append h afterCased []
  rwa [List.append_nil, lowerAfter, List.append_nil] at happend

theorem lower_of_isAscii {t : Text} (h : IsAscii t) : lower t = fold t :=
  lowerAfter_of_isAscii h false

theorem isAscii_of_fold {t : Text} (h : IsAscii (fold t)) : IsAscii t :=
  fun c hc => toNat_lt_of_toLower (h c.toLower (List.mem_map_of_mem hc))

/-! ## Images in ASCII -/

/-- Letters that are the image of an ASCII letter only, and other characters of ASCII. -/
def IsPlainImage (c : Char) : Prop := c.toNat < 0x80 ∧ c ≠ 'k'

instance (c : Char) : Decidable (IsPlainImage c) := inferInstanceAs (Decidable (_ ∧ _))

theorem exists_not_isPlainImage {image : Text} (h : IsImageBeyond image) :
    ∃ c ∈ image, ¬ IsPlainImage c := by
  rcases h with rfl | rfl | ⟨d, rfl, hd⟩
  · exact ⟨'\u0307', by decide, by decide⟩
  · exact ⟨'k', by decide, by decide⟩
  · exact ⟨d, List.mem_singleton_self d, fun hplain => Nat.not_lt_of_le hd hplain.1⟩

theorem isAscii_of_lowerAfter {t : Text} {afterCased : Bool}
    (h : ∀ c ∈ lowerAfter afterCased t, IsPlainImage c) : IsAscii t := by
  induction t generalizing afterCased with
  | nil => exact fun c hc => nomatch hc
  | cons c rest ih =>
    by_cases hc : c.toNat < 0x80
    · obtain ⟨next, hcons⟩ := lowerAfter_cons_of_lt hc afterCased rest
      rw [hcons] at h
      intro d hd
      rcases List.mem_cons.mp hd with rfl | hd
      · exact hc
      · exact ih (fun e he => h e (List.mem_cons_of_mem _ he)) d hd
    · obtain ⟨image, next, hcons, himage⟩ := lowerAfter_cons_of_le (Nat.le_of_not_lt hc) afterCased rest
      obtain ⟨d, hd, hplain⟩ := exists_not_isPlainImage himage
      rw [hcons] at h
      exact absurd (h d (List.mem_append_left _ hd)) hplain

/-- A text whose image is in ASCII and has no `k` is in ASCII. -/
theorem isAscii_of_lower {t : Text} (h : ∀ c ∈ lower t, IsPlainImage c) : IsAscii t :=
  isAscii_of_lowerAfter h

theorem map_toLower_take_of_prefix_lowerAfter {s t : Text} {afterCased : Bool}
    (hs : ∀ c ∈ s, IsPlainImage c) (hlast : s.getLast? ≠ some 'i')
    (h : s <+: lowerAfter afterCased t) : fold (t.take s.length) = s := by
  induction s generalizing t afterCased with
  | nil => rfl
  | cons d s ih =>
    have hd := hs d List.mem_cons_self
    have hs' : ∀ c ∈ s, IsPlainImage c := fun c hc => hs c (List.mem_cons_of_mem d hc)
    cases t with
    | nil => exact absurd (List.prefix_nil.mp h) (List.cons_ne_nil d s)
    | cons c rest =>
      by_cases hc : c.toNat < 0x80
      · obtain ⟨next, hcons⟩ := lowerAfter_cons_of_lt hc afterCased rest
        rw [hcons, List.cons_prefix_cons] at h
        obtain ⟨rfl, hrest⟩ := h
        have hlast' : s.getLast? ≠ some 'i' := by
          cases s with
          | nil => exact nofun
          | cons e s => rwa [List.getLast?_cons_cons] at hlast
        exact congrArg (c.toLower :: ·) (ih hs' hlast' hrest)
      · obtain ⟨image, next, hcons, himage⟩ := lowerAfter_cons_of_le (Nat.le_of_not_lt hc) afterCased rest
        rw [hcons] at h
        rcases himage with rfl | rfl | ⟨e, rfl, he⟩
        · -- The start would end within an image, or go on with a combining dot.
          rw [List.cons_append, List.cons_prefix_cons] at h
          obtain ⟨rfl, h⟩ := h
          cases s with
          | nil => exact absurd rfl hlast
          | cons e s =>
            rw [List.cons_append, List.cons_prefix_cons] at h
            obtain ⟨rfl, -⟩ := h
            exact absurd (hs' _ List.mem_cons_self) (by decide)
        · rw [List.cons_append, List.cons_prefix_cons] at h
          exact absurd h.1 hd.2
        · rw [List.cons_append, List.cons_prefix_cons] at h
          obtain ⟨rfl, -⟩ := h
          exact absurd hd.1 (Nat.not_lt_of_le he)

/-- Where the image of a text starts with a text in ASCII that has no `k` and does not end with an
    `i`, the text itself starts with a spelling of it. -/
theorem map_toLower_take_of_prefix {s t : Text} (hs : ∀ c ∈ s, IsPlainImage c)
    (hlast : s.getLast? ≠ some 'i') (h : s <+: lower t) : fold (t.take s.length) = s :=
  map_toLower_take_of_prefix_lowerAfter hs hlast h

end GridSketch.Text
