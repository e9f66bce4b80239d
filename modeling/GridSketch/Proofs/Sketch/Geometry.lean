/-
  The geometry of any sketch in closed form: where each region lies, read off the tokens of the
  sketch without running a draft over them.

  A region is known by the position of its identifier among the tokens. Every number of a region is
  a count of tokens: the row counts the rows ended before the identifier, the column the cells since
  the row last started, the width the widening marks that reach the identifier, and the height the
  lengthening marks whose target it is (`target?`). None of this asks the braces to match.

  * `Tracks`: a draft holds the regions of the tokens read so far; one step keeps this
    (`Tracks.step`), and so does a run (`Tracks.run`).
  * `regions_eq_of_read`: the regions of a sketch that can be read, in order.
-/
import GridSketch.Proofs.Sketch.Identifier
import GridSketch.Proofs.Sketch.Step
import Mathlib.Data.List.Count
import Mathlib.Data.List.TakeWhile

namespace GridSketch

namespace Token

/-- Whether a token is a given mark. -/
def isMark (m : Mark) : Token → Bool
  | mark found _ => found == m
  | identifier .. => false

/-- Whether a token takes up a cell: every token but a brace does. -/
def isCell : Token → Bool
  | mark m _ => m != .rowStart && m != .rowEnd
  | identifier .. => true

/-- Whether widening marks behind a token can no longer reach an identifier before it. -/
def closes (t : Token) : Bool := t.isIdentifier || t.isMark .rowEnd

end Token

namespace Geometry

/-! ## The closed form -/

/-- The positions of the identifiers. -/
def identifiers (tokens : List Token) : List Nat :=
  (List.range tokens.length).filter fun i => tokens[i]?.any Token.isIdentifier

/-- The text of the identifier at a position. -/
def textAt (tokens : List Token) (i : Nat) : Text :=
  match tokens[i]? with
  | some (.identifier text _) => text
  | _ => []

/-- The row of a position: how many rows ended before it. -/
def rowAt (tokens : List Token) (i : Nat) : Nat := (tokens.take i).countP (Token.isMark .rowEnd)

/-- The column of a position: how many cells stand before it and behind the last row start. -/
def colAt (tokens : List Token) (i : Nat) : Nat :=
  ((tokens.take i).reverse.takeWhile fun t => !t.isMark .rowStart).countP Token.isCell

/-- The width of the region at a position: one more than there are widening marks before the next
    identifier or row end. -/
def widthAt (tokens : List Token) (i : Nat) : Nat :=
  1 + ((tokens.drop (i + 1)).takeWhile fun t => !t.closes).countP (Token.isMark .widen)

/-- The position of the identifier that a lengthening mark at a position reaches: among those
    before it in its column and in a row above, the first in the lowest row. -/
def target? (tokens : List Token) (j : Nat) : Option Nat :=
  let above := (identifiers (tokens.take j)).filter fun i =>
    decide (colAt tokens i = colAt tokens j ∧ rowAt tokens i < rowAt tokens j)
  above.find? fun i => above.all fun k => decide (rowAt tokens k ≤ rowAt tokens i)

/-- The height of the region at a position: one more than there are lengthening marks that reach
    it. -/
def heightAt (tokens : List Token) (i : Nat) : Nat :=
  1 + (List.range tokens.length).countP fun j =>
    tokens[j]?.any (Token.isMark .lengthen) && target? tokens j == some i

/-- The region of the identifier at a position. -/
def regionAt (tokens : List Token) (i : Nat) : Region where
  name := Region.nameOf (textAt tokens i)
  row := rowAt tokens i
  col := colAt tokens i
  width := widthAt tokens i
  height := heightAt tokens i
  constraints := (Embedded.expand (Region.specOf (textAt tokens i))).toOption.getD []

/-! ## One token more -/

variable (before : List Token) (t : Token)

theorem mem_identifiers {tokens : List Token} {i : Nat} :
    i ∈ identifiers tokens ↔ i < tokens.length ∧ tokens[i]?.any Token.isIdentifier := by
  simp [identifiers]

theorem nodup_identifiers (tokens : List Token) : (identifiers tokens).Nodup :=
  List.nodup_range.filter _

theorem identifiers_concat :
    identifiers (before ++ [t]) =
      identifiers before ++ (if t.isIdentifier then [before.length] else []) := by
  have hold : ∀ i ∈ List.range before.length,
      (before ++ [t])[i]?.any Token.isIdentifier = before[i]?.any Token.isIdentifier := by
    intro i hi
    rw [List.getElem?_append_left (List.mem_range.mp hi)]
  rw [identifiers, List.length_append, List.length_singleton, List.range_succ,
    List.filter_append, List.filter_congr hold]
  simp [identifiers, List.filter_cons]

theorem rowAt_concat {i : Nat} (hi : i ≤ before.length) :
    rowAt (before ++ [t]) i = rowAt before i := by
  rw [rowAt, List.take_append_of_le_length hi, rowAt]

theorem colAt_concat {i : Nat} (hi : i ≤ before.length) :
    colAt (before ++ [t]) i = colAt before i := by
  rw [colAt, List.take_append_of_le_length hi, colAt]

theorem textAt_concat {i : Nat} (hi : i < before.length) :
    textAt (before ++ [t]) i = textAt before i := by
  rw [textAt, List.getElem?_append_left hi, textAt]

theorem rowAt_end_concat :
    rowAt (before ++ [t]) (before.length + 1) =
      rowAt before before.length + if t.isMark .rowEnd then 1 else 0 := by
  rw [rowAt, rowAt, List.take_of_length_le (by simp), List.take_length, List.countP_append,
    List.countP_singleton]

theorem colAt_end_concat :
    colAt (before ++ [t]) (before.length + 1) =
      if t.isMark .rowStart then 0
      else colAt before before.length + if t.isCell then 1 else 0 := by
  rw [colAt, colAt, List.take_of_length_le (by simp), List.take_length, List.reverse_append,
    List.reverse_singleton, List.singleton_append, List.takeWhile_cons]
  cases t.isMark .rowStart <;> simp [List.countP_cons]

theorem target?_concat {j : Nat} (hj : j ≤ before.length) :
    target? (before ++ [t]) j = target? before j := by
  have hlt : ∀ i ∈ identifiers (before.take j), i ≤ before.length := by
    intro i hi
    have := (mem_identifiers.mp hi).1
    rw [List.length_take] at this
    omega
  have hsame : (identifiers (before.take j)).filter (fun i =>
        decide (colAt (before ++ [t]) i = colAt (before ++ [t]) j ∧
          rowAt (before ++ [t]) i < rowAt (before ++ [t]) j)) =
      (identifiers (before.take j)).filter fun i =>
        decide (colAt before i = colAt before j ∧ rowAt before i < rowAt before j) := by
    refine List.filter_congr fun i hi => ?_
    rw [colAt_concat before t (hlt i hi), rowAt_concat before t (hlt i hi),
      colAt_concat before t hj, rowAt_concat before t hj]
  rw [target?, target?, List.take_append_of_le_length hj, hsame]
  refine List.find?_congr fun i hi => ?_
  rw [Bool.eq_iff_iff, List.all_eq_true, List.all_eq_true]
  refine forall₂_congr fun k hk => ?_
  rw [rowAt_concat before t (hlt i (List.mem_filter.mp hi).1),
    rowAt_concat before t (hlt k (List.mem_filter.mp hk).1)]

theorem lt_of_target? {tokens : List Token} {i j : Nat} (h : target? tokens j = some i) :
    i < j := by
  have hmem := (List.mem_filter.mp (List.mem_of_find?_eq_some h)).1
  have hlt := (mem_identifiers.mp hmem).1
  rw [List.length_take] at hlt
  omega

/-- Whether widening marks behind the tokens would reach the identifier at a position. -/
def isOpen (tokens : List Token) (i : Nat) : Prop := ∀ t ∈ tokens.drop (i + 1), t.closes = false

theorem isOpen_concat {i : Nat} (hi : i < before.length) :
    isOpen (before ++ [t]) i ↔ isOpen before i ∧ t.closes = false := by
  rw [isOpen, isOpen, List.drop_append_of_le_length hi]
  simp [or_imp, forall_and]

/-- A widening mark adds a column to the region that is open, and only to that one. -/
theorem widthAt_concat_of_isOpen {i : Nat} (hi : i < before.length) (ho : isOpen before i) :
    widthAt (before ++ [t]) i = widthAt before i + if t.isMark .widen then 1 else 0 := by
  have hall : ∀ u ∈ before.drop (i + 1), (!u.closes) = true := by
    intro u hu
    rw [ho u hu, Bool.not_false]
  have hself : (before.drop (i + 1)).takeWhile (fun u => !u.closes) = before.drop (i + 1) :=
    List.takeWhile_eq_self_iff.mpr hall
  rw [widthAt, widthAt, List.drop_append_of_le_length hi, List.takeWhile_append_of_pos hall,
    List.countP_append, hself]
  obtain ⟨m, o⟩ | ⟨text, o⟩ := t
  · cases m <;> rfl
  · rfl

theorem widthAt_concat_of_not_isOpen {i : Nat} (hi : i < before.length) (ho : ¬ isOpen before i) :
    widthAt (before ++ [t]) i = widthAt before i := by
  rw [widthAt, widthAt, List.drop_append_of_le_length hi, List.takeWhile_append, if_neg]
  intro hlen
  refine ho fun u hu => ?_
  have hself := (List.takeWhile_prefix (l := before.drop (i + 1))
    fun u : Token => !u.closes).eq_of_length hlen
  have := List.takeWhile_eq_self_iff.mp hself u hu
  simpa using this

theorem heightAt_concat (i : Nat) :
    heightAt (before ++ [t]) i =
      heightAt before i +
        if t.isMark .lengthen ∧ target? before before.length = some i then 1 else 0 := by
  have hold : ∀ j ∈ List.range before.length,
      ((before ++ [t])[j]?.any (Token.isMark .lengthen) && target? (before ++ [t]) j == some i) ↔
        (before[j]?.any (Token.isMark .lengthen) && target? before j == some i) := by
    intro j hj
    have hlt := List.mem_range.mp hj
    rw [List.getElem?_append_left hlt, target?_concat before t (Nat.le_of_lt hlt)]
  rw [heightAt, heightAt, List.length_append, List.length_singleton, List.range_succ,
    List.countP_append, List.countP_congr hold, List.countP_singleton,
    List.getElem?_concat_length, target?_concat before t (Nat.le_refl _)]
  simp [Nat.add_assoc]

theorem heightAt_of_length_le {i : Nat} (hi : before.length ≤ i) : heightAt before i = 1 := by
  have hnone : ∀ j ∈ List.range before.length,
      ¬ (before[j]?.any (Token.isMark .lengthen) && target? before j == some i) = true := by
    intro j hj
    have hlt := List.mem_range.mp hj
    rw [Bool.and_eq_true, beq_iff_eq]
    rintro ⟨-, htarget⟩
    have := lt_of_target? htarget
    omega
  rw [heightAt, List.countP_eq_zero.mpr hnone]

/-- A mark that neither widens the region at a position nor lengthens any leaves it as it is. -/
theorem regionAt_concat {i : Nat} (hi : i < before.length)
    (hw : isOpen before i → t.isMark .widen = false) (hl : t.isMark .lengthen = false) :
    regionAt (before ++ [t]) i = regionAt before i := by
  have hwidth : widthAt (before ++ [t]) i = widthAt before i := by
    by_cases ho : isOpen before i
    · rw [widthAt_concat_of_isOpen before t hi ho, hw ho]
      rfl
    · exact widthAt_concat_of_not_isOpen before t hi ho
  have hheight : heightAt (before ++ [t]) i = heightAt before i := by
    rw [heightAt_concat, hl]
    simp
  rw [regionAt, regionAt, textAt_concat before t hi, rowAt_concat before t (Nat.le_of_lt hi),
    colAt_concat before t (Nat.le_of_lt hi), hwidth, hheight]

theorem regionAt_concat_widen {i : Nat} (hi : i < before.length) (ho : isOpen before i)
    (o : Nat) :
    regionAt (before ++ [.mark .widen o]) i = (regionAt before i).wider := by
  have hheight : heightAt (before ++ [.mark .widen o]) i = heightAt before i := by
    rw [heightAt_concat]
    simp [Token.isMark]
  rw [regionAt, regionAt, textAt_concat before _ hi, rowAt_concat before _ (Nat.le_of_lt hi),
    colAt_concat before _ (Nat.le_of_lt hi), widthAt_concat_of_isOpen before _ hi ho, hheight]
  rfl

theorem regionAt_concat_lengthen {i : Nat} (hi : i < before.length) (o : Nat) :
    regionAt (before ++ [.mark .lengthen o]) i =
      match target? before before.length with
      | some k => Region.lengthened (regionAt before) k i
      | none => regionAt before i := by
  have hwidth : widthAt (before ++ [.mark .lengthen o]) i = widthAt before i := by
    by_cases ho : isOpen before i
    · exact widthAt_concat_of_isOpen before _ hi ho
    · exact widthAt_concat_of_not_isOpen before _ hi ho
  rw [regionAt, textAt_concat before _ hi, rowAt_concat before _ (Nat.le_of_lt hi),
    colAt_concat before _ (Nat.le_of_lt hi), hwidth, heightAt_concat]
  cases target? before before.length with
  | none => simp [regionAt]
  | some k =>
    by_cases h : i = k
    · subst h
      simp [Region.lengthened, Region.longer, regionAt, Token.isMark]
    · simp [Region.lengthened, regionAt, h, Ne.symm h]

/-- The region that an identifier at the end starts. -/
theorem regionAt_concat_identifier (text : Text) (o : Nat) :
    regionAt (before ++ [.identifier text o]) before.length =
      ⟨Region.nameOf text, rowAt before before.length, colAt before before.length, 1, 1,
        (Embedded.expand (Region.specOf text)).toOption.getD []⟩ := by
  have htext : textAt (before ++ [.identifier text o]) before.length = text := by
    rw [textAt, List.getElem?_concat_length]
  have hwidth : widthAt (before ++ [.identifier text o]) before.length = 1 := by
    rw [widthAt, List.drop_of_length_le (by simp)]
    rfl
  rw [regionAt, htext, rowAt_concat before _ (Nat.le_refl _),
    colAt_concat before _ (Nat.le_refl _), hwidth, heightAt_concat,
    heightAt_of_length_le before (Nat.le_refl _)]
  rfl

/-! ## Drafts -/

/-- A draft that has read some tokens: the regions of the closed form stand in it, the one that is
    still open, if there is one, apart from the others. -/
structure Tracks (before : List Token) (closed : List Nat) (last : Option Nat) (d : Draft) :
    Prop where
  positions : identifiers before = closed ++ last.toList
  not_isOpen : ∀ i ∈ closed, ¬ isOpen before i
  isOpen : ∀ i ∈ last, isOpen before i
  row : d.row = rowAt before before.length
  col : d.col = colAt before before.length
  settled : d.settled = closed.map (regionAt before)
  current : d.current = last.map (regionAt before)
  expands : ∀ i ∈ identifiers before,
    Embedded.expand (Region.specOf (textAt before i)) = .ok (regionAt before i).constraints

namespace Tracks

theorem start : Tracks [] [] none Draft.start where
  positions := rfl
  not_isOpen := by simp
  isOpen := by simp
  row := rfl
  col := rfl
  settled := rfl
  current := rfl
  expands := by simp [identifiers]

variable {before : List Token} {closed : List Nat} {last : Option Nat} {d : Draft}

theorem regions_eq (h : Tracks before closed last d) :
    d.regions = (identifiers before).map (regionAt before) := by
  rw [Draft.regions, h.settled, h.current, h.positions, List.map_append]
  cases last <;> rfl

theorem lt_length (h : Tracks before closed last d) {i : Nat} (hi : i ∈ closed ++ last.toList) :
    i < before.length := by
  rw [← h.positions] at hi
  exact (mem_identifiers.mp hi).1

/-- A token that names no region keeps the texts of those there are. -/
theorem expands_concat (h : Tracks before closed last d) (t : Token)
    (ht : t.isIdentifier = false) :
    ∀ i ∈ identifiers (before ++ [t]),
      Embedded.expand (Region.specOf (textAt (before ++ [t]) i)) =
        .ok (regionAt (before ++ [t]) i).constraints := by
  intro i hi
  rw [identifiers_concat, ht] at hi
  have hi' : i ∈ identifiers before := by simpa using hi
  have htext := textAt_concat before t (mem_identifiers.mp hi').1
  rw [htext, h.expands i hi']
  simp only [regionAt, htext]

theorem positions_concat (h : Tracks before closed last d) (t : Token)
    (ht : t.isIdentifier = false) : identifiers (before ++ [t]) = closed ++ last.toList := by
  rw [identifiers_concat, ht, h.positions]
  simp

/-- A token that closes no region keeps the positions; what it does to the regions is left to
    show. -/
theorem concat (h : Tracks before closed last d) (t : Token) (ht : t.closes = false) {d' : Draft}
    (hrow : d'.row = d.row)
    (hcol : d'.col = if t.isMark .rowStart then 0 else d.col + 1)
    (hsettled : d'.settled = closed.map (regionAt (before ++ [t])))
    (hcurrent : d'.current = last.map (regionAt (before ++ [t]))) :
    Tracks (before ++ [t]) closed last d' := by
  obtain ⟨hident, hend⟩ : t.isIdentifier = false ∧ t.isMark .rowEnd = false := by
    simpa [Token.closes] using ht
  have hlength : (before ++ [t]).length = before.length + 1 := by simp
  refine ⟨h.positions_concat t hident, ?_, ?_, ?_, ?_, hsettled, hcurrent,
    h.expands_concat t hident⟩
  · intro i hi ho
    have hlt := h.lt_length (List.mem_append_left _ hi)
    exact h.not_isOpen i hi ((isOpen_concat before t hlt).mp ho).1
  · intro i hi
    have hlt := h.lt_length (List.mem_append_right _ (by simpa using hi))
    exact (isOpen_concat before t hlt).mpr ⟨h.isOpen i hi, ht⟩
  · rw [hrow, h.row, hlength, rowAt_end_concat, hend]
    rfl
  · rw [hcol, h.col, hlength, colAt_end_concat]
    obtain ⟨m, o⟩ | ⟨text, o⟩ := t
    · cases m <;> simp_all [Token.isMark, Token.isCell]
    · simp [Token.isIdentifier] at hident

/-- A mark that takes up a cell or starts a row and changes no region. -/
theorem concat_neutral (h : Tracks before closed last d) (t : Token) (ht : t.closes = false)
    (hw : t.isMark .widen = false) (hl : t.isMark .lengthen = false) {d' : Draft}
    (hrow : d'.row = d.row) (hcol : d'.col = if t.isMark .rowStart then 0 else d.col + 1)
    (hsettled : d'.settled = d.settled) (hcurrent : d'.current = d.current) :
    Tracks (before ++ [t]) closed last d' := by
  have hsame : ∀ i ∈ closed ++ last.toList, regionAt (before ++ [t]) i = regionAt before i :=
    fun i hi => regionAt_concat before t (h.lt_length hi) (fun _ => hw) hl
  refine h.concat t ht hrow hcol ?_ ?_
  · rw [hsettled, h.settled]
    exact (List.map_congr_left fun i hi => hsame i (List.mem_append_left _ hi)).symm
  · rw [hcurrent, h.current]
    exact (Option.map_congr fun i hi => hsame i (List.mem_append_right _ (by simpa using hi))).symm

theorem concat_widen (h : Tracks before closed last d) (o : Nat) :
    Tracks (before ++ [.mark .widen o]) closed last
      { d.advance with current := d.current.map Region.wider } := by
  refine h.concat _ rfl rfl rfl ?_ ?_
  · show d.settled = _
    rw [h.settled]
    refine (List.map_congr_left fun i hi => ?_).symm
    exact regionAt_concat before _ (h.lt_length (List.mem_append_left _ hi))
      (fun ho => absurd ho (h.not_isOpen i hi)) rfl
  · rw [h.current, Option.map_map]
    refine (Option.map_congr fun i hi => ?_).symm
    exact regionAt_concat_widen before (h.lt_length (List.mem_append_right _ (by simpa using hi)))
      (h.isOpen i hi) o

/-- The region that is still open starts in the current row. -/
theorem rowAt_of_mem_last (h : Tracks before closed last d) {i : Nat} (hi : i ∈ last) :
    rowAt before i = rowAt before before.length := by
  have hmem : i ∈ identifiers before := by
    rw [h.positions]
    exact List.mem_append_right _ (by simpa using hi)
  obtain ⟨hlt, hident⟩ := mem_identifiers.mp hmem
  have hself : before[i].isMark .rowEnd = false := by
    rw [List.getElem?_eq_getElem hlt, Option.any_some] at hident
    cases hb : before[i] with
    | mark m o => rw [hb] at hident; cases hident
    | identifier text o => rfl
  have hlater : (before.drop (i + 1)).countP (Token.isMark .rowEnd) = 0 := by
    rw [List.countP_eq_zero]
    intro t ht
    have := h.isOpen i hi t ht
    simp_all [Token.closes]
  conv => rhs; rw [rowAt, List.take_length, ← List.take_append_drop i before]
  rw [List.countP_append, List.drop_eq_getElem_cons hlt, List.countP_cons, hself, hlater]
  rfl

/-- The draft finds the region to lengthen where the closed form does: the region that is still
    open starts too low to be reached. -/
theorem nearestAbove?_eq (h : Tracks before closed last d) :
    Region.nearestAbove? (regionAt before) closed d.row d.col =
      target? before before.length := by
  have hlast : last.toList.filter (fun i =>
      decide (colAt before i = colAt before before.length ∧
        rowAt before i < rowAt before before.length)) = [] := by
    rw [List.filter_eq_nil_iff]
    intro i hi
    rw [h.rowAt_of_mem_last (by simpa using hi)]
    simp
  rw [target?, List.take_length, h.positions, List.filter_append, hlast, List.append_nil,
    Region.nearestAbove?, h.row, h.col]
  simp only [regionAt, Int.ofNat_inj, Int.ofNat_lt, Int.ofNat_le]

theorem concat_lengthen (h : Tracks before closed last d) (o : Nat) :
    Tracks (before ++ [.mark .lengthen o]) closed last
      { d.advance with
        settled := ((Region.lengthenAbove d.row d.col d.settled).map Prod.snd).getD d.settled } := by
  have hnodup : (closed ++ last.toList).Nodup := h.positions ▸ nodup_identifiers before
  have hclosed := (List.nodup_append.mp hnodup).1
  rw [h.settled, Region.lengthenAbove_map _ _ _ _ hclosed, h.nearestAbove?_eq]
  refine h.concat _ rfl rfl rfl ?_ ?_
  · rw [Option.map_map]
    have hstep := fun i hi => regionAt_concat_lengthen before
      (h.lt_length (List.mem_append_left last.toList hi)) o (i := i)
    cases htarget : target? before before.length with
    | none =>
      simp only [htarget] at hstep
      exact (List.map_congr_left hstep).symm
    | some k =>
      simp only [htarget] at hstep
      exact (List.map_congr_left hstep).symm
  · show d.current = _
    rw [h.current]
    refine (Option.map_congr fun i hi => ?_).symm
    rw [regionAt_concat_lengthen before
      (h.lt_length (List.mem_append_right _ (by simpa using hi)))]
    cases htarget : target? before before.length with
    | none => rfl
    | some k =>
      have hk : k ∈ closed := by
        rw [← h.nearestAbove?_eq] at htarget
        exact (List.mem_filter.mp (List.mem_of_find?_eq_some htarget)).1
      have hne : i ≠ k := by
        rintro rfl
        exact (List.nodup_append.mp hnodup).2.2 i hk i (by simpa using hi) rfl
      simp only [Region.lengthened, if_neg hne]

/-- A token that ends the widening of regions changes none of them. -/
theorem regions_concat_closing (h : Tracks before closed last d) (t : Token)
    (ht : t.closes = true) :
    d.regions = (closed ++ last.toList).map (regionAt (before ++ [t])) := by
  rw [h.regions_eq, h.positions]
  refine (List.map_congr_left fun i hi => ?_).symm
  have hkeep : t.isMark .widen = false ∧ t.isMark .lengthen = false := by
    obtain ⟨m, o⟩ | ⟨text, o⟩ := t
    · cases m <;> simp_all [Token.closes, Token.isMark, Token.isIdentifier]
    · exact ⟨rfl, rfl⟩
  exact regionAt_concat before t (h.lt_length hi) (fun _ => hkeep.1) hkeep.2

theorem not_isOpen_concat_closing (h : Tracks before closed last d) (t : Token)
    (ht : t.closes = true) :
    ∀ i ∈ closed ++ last.toList, ¬ Geometry.isOpen (before ++ [t]) i := by
  intro i hi ho
  have := ((isOpen_concat before t (h.lt_length hi)).mp ho).2
  rw [ht] at this
  cases this

theorem concat_rowEnd (h : Tracks before closed last d) (o : Nat) :
    Tracks (before ++ [.mark .rowEnd o]) (closed ++ last.toList) none
      { d with row := d.row + 1, settled := d.regions, current := none } where
  positions := by
    rw [h.positions_concat _ rfl]
    simp
  not_isOpen := h.not_isOpen_concat_closing _ rfl
  isOpen := by simp
  row := by
    rw [h.row, List.length_append, List.length_singleton, rowAt_end_concat]
    rfl
  col := by
    rw [List.length_append, List.length_singleton, colAt_end_concat]
    exact h.col
  settled := h.regions_concat_closing _ rfl
  current := rfl
  expands := h.expands_concat _ rfl

theorem concat_identifier (h : Tracks before closed last d) {text : Text} {o : Nat} {r : Region}
    (hr : Region.ofIdentifier text o d.row d.col = .ok r) :
    Tracks (before ++ [.identifier text o]) (closed ++ last.toList) (some before.length)
      { d.advance with settled := d.regions, current := some r } := by
  have hexpand : ∃ constraints, Embedded.expand (Region.specOf text) = .ok constraints ∧
      r = ⟨Region.nameOf text, d.row, d.col, 1, 1, constraints⟩ := by
    rw [Region.ofIdentifier_eq] at hr
    cases hc : Embedded.expand (Region.specOf text) with
    | error fault => simp [hc] at hr
    | ok constraints => exact ⟨constraints, rfl, by simpa [hc] using hr.symm⟩
  obtain ⟨constraints, hok, rfl⟩ := hexpand
  have hnew := regionAt_concat_identifier before text o
  refine ⟨?_, h.not_isOpen_concat_closing _ rfl, ?_, ?_, ?_, h.regions_concat_closing _ rfl, ?_, ?_⟩
  · rw [identifiers_concat, h.positions]
    rfl
  · intro i hi t ht
    cases hi
    rw [List.drop_of_length_le (by simp)] at ht
    cases ht
  · rw [List.length_append, List.length_singleton, rowAt_end_concat]
    exact h.row
  · rw [List.length_append, List.length_singleton, colAt_end_concat]
    show d.col + 1 = _
    rw [h.col]
    rfl
  · rw [Option.map_some, hnew, hok, h.row, h.col]
    rfl
  · intro i hi
    rw [identifiers_concat, List.mem_append] at hi
    rcases hi with hi | hi
    · have htext := textAt_concat before (.identifier text o) (mem_identifiers.mp hi).1
      rw [htext, h.expands i hi]
      simp only [regionAt, htext]
    · have hi' : i = before.length := by simpa [Token.isIdentifier] using hi
      have htext : textAt (before ++ [.identifier text o]) before.length = text := by
        rw [textAt, List.getElem?_concat_length]
      rw [hi', htext, hnew, hok]
      rfl

/-- One token keeps a draft in step with the closed form. -/
theorem step (h : Tracks before closed last d) {t : Token} {next : Draft}
    (hstep : (d.step t).outcome = .ok next) :
    ∃ closed last, Tracks (before ++ [t]) closed last next := by
  cases t with
  | mark m o =>
    cases m with
    | rowStart =>
      rw [Draft.step_outcome_rowStart] at hstep
      cases hstep
      exact ⟨closed, last, h.concat_neutral _ rfl rfl rfl rfl rfl rfl rfl⟩
    | rowEnd =>
      rw [Draft.step_outcome_rowEnd] at hstep
      cases hstep
      exact ⟨_, _, h.concat_rowEnd o⟩
    | lengthen =>
      rw [Draft.step_outcome_lengthen] at hstep
      cases hstep
      exact ⟨closed, last, h.concat_lengthen o⟩
    | widen =>
      rw [Draft.step_outcome_widen] at hstep
      cases hstep
      exact ⟨closed, last, h.concat_widen o⟩
    | filler =>
      rw [Draft.step_outcome_filler] at hstep
      cases hstep
      exact ⟨closed, last, h.concat_neutral _ rfl rfl rfl rfl rfl rfl rfl⟩
  | identifier text o =>
    rw [Draft.step_outcome_identifier] at hstep
    cases hr : Region.ofIdentifier text o d.row d.col with
    | error report => simp [hr, Except.map] at hstep
    | ok r =>
      rw [hr] at hstep
      cases hstep
      exact ⟨_, _, h.concat_identifier hr⟩

/-- So does a run. -/
theorem run (h : Tracks before closed last d) {tokens : List Token} {final : Draft}
    (hrun : (d.run tokens).outcome = .ok final) :
    ∃ closed last, Tracks (before ++ tokens) closed last final := by
  induction tokens generalizing before closed last d with
  | nil =>
    rw [Draft.run_outcome_nil] at hrun
    cases hrun
    rw [List.append_nil]
    exact ⟨closed, last, h⟩
  | cons t rest ih =>
    rw [Draft.run_outcome_cons] at hrun
    cases hstep : (d.step t).outcome with
    | error report => simp [hstep, Except.bind] at hrun
    | ok next =>
      rw [hstep] at hrun
      obtain ⟨closed', last', hnext⟩ := h.step hstep
      have hfinal := ih hnext hrun
      rwa [List.append_assoc, List.singleton_append] at hfinal

end Tracks

/-! ## Sketches -/

/-- A sketch that can be read was run to its end. -/
theorem run_of_read {sketch : Text} {registry : Registry}
    (h : (Registry.read sketch).outcome = .ok registry) :
    ∃ d, (Draft.start.run (Token.scan sketch)).outcome = .ok d ∧ registry.regions = d.regions := by
  rw [Registry.read, Traced.outcome_bind] at h
  cases hrun : (Draft.start.run (Token.scan sketch)).outcome with
  | error report => simp [hrun, Except.bind] at h
  | ok d =>
    rw [hrun] at h
    cases h
    exact ⟨d, rfl, rfl⟩

theorem widthAt_le {tokens : List Token} {i : Nat} (hi : i < tokens.length) :
    widthAt tokens i ≤ tokens.length := by
  have hcount := List.countP_le_length (p := Token.isMark .widen)
    (l := (tokens.drop (i + 1)).takeWhile fun t => !t.closes)
  have hrun := (List.takeWhile_sublist (l := tokens.drop (i + 1)) fun t => !t.closes).length_le
  rw [List.length_drop] at hrun
  unfold widthAt
  omega

/-- The identifier itself is no lengthening mark. -/
theorem heightAt_le {tokens : List Token} {i : Nat} (hi : i ∈ identifiers tokens) :
    heightAt tokens i ≤ tokens.length := by
  obtain ⟨hlt, hidentifier⟩ := mem_identifiers.mp hi
  have hcount : ((List.range tokens.length).countP fun j =>
      tokens[j]?.any (Token.isMark .lengthen) && target? tokens j == some i) <
      (List.range tokens.length).length := by
    refine List.countP_lt_length_iff.mpr ⟨i, List.mem_range.mpr hlt, ?_⟩
    rw [List.getElem?_eq_getElem hlt] at hidentifier ⊢
    cases h : tokens[i] with
    | mark m o => simp [h, Token.isIdentifier] at hidentifier
    | identifier text o => simp [Token.isMark]
  rw [List.length_range] at hcount
  unfold heightAt
  omega

/-- A region is at least one cell wide and high, and at most as many as its sketch has tokens. -/
theorem size_le_of_read {sketch : Text} {registry : Registry}
    (h : (Registry.read sketch).outcome = .ok registry) {r : Region} (hr : r ∈ registry.regions) :
    (1 ≤ r.width ∧ r.width ≤ (Token.scan sketch).length) ∧
      (1 ≤ r.height ∧ r.height ≤ (Token.scan sketch).length) := by
  obtain ⟨d, hrun, hregions⟩ := run_of_read h
  obtain ⟨closed, last, htracks⟩ := Tracks.start.run hrun
  rw [List.nil_append] at htracks
  rw [hregions, htracks.regions_eq] at hr
  obtain ⟨i, hi, rfl⟩ := List.mem_map.mp hr
  have hwidth := widthAt_le (mem_identifiers.mp hi).1
  have hheight := heightAt_le hi
  unfold regionAt
  dsimp only
  unfold widthAt heightAt at *
  omega

/-- The regions of a sketch that can be read are those of the closed form, in the order of their
    identifiers, and their constraints are the embedded entries written out. -/
theorem regions_eq_of_read (sketch : Text) (registry : Registry)
    (h : (Registry.read sketch).outcome = .ok registry) :
    registry.regions = (identifiers (Token.scan sketch)).map (regionAt (Token.scan sketch)) ∧
      ∀ i ∈ identifiers (Token.scan sketch),
        Embedded.expand (Region.specOf (textAt (Token.scan sketch) i)) =
          .ok (regionAt (Token.scan sketch) i).constraints := by
  obtain ⟨d, hrun, hregions⟩ := run_of_read h
  obtain ⟨closed, last, htracks⟩ := Tracks.start.run hrun
  rw [List.nil_append] at htracks
  exact ⟨hregions.trans htracks.regions_eq, htracks.expands⟩

/-- A sketch without order: the first row starts twice, the mark at the very start has nothing to
    widen, and of the two regions in one cell the lengthening marks reach the first. -/
theorem regions_of_disorderly_sketch :
    let sketch := "+\x7ba + \x7ba:wx2 +\x7d ^ \x7b | b < \x7b |".toList
    let regions : List Region :=
      [⟨"a".toList, 0, 0, 2, 3, []⟩, ⟨"a".toList, 0, 0, 2, 1, "wx 2".toList⟩,
        ⟨"b".toList, 1, 1, 2, 1, []⟩]
    (Registry.read sketch).outcome = .ok (Registry.ofList regions) ∧
      regions = (identifiers (Token.scan sketch)).map (regionAt (Token.scan sketch)) ∧
      ∀ i ∈ identifiers (Token.scan sketch),
        Embedded.expand (Region.specOf (textAt (Token.scan sketch) i)) =
          .ok (regionAt (Token.scan sketch) i).constraints :=
  ⟨rfl, regions_eq_of_read _ (Registry.ofList _) rfl⟩

end Geometry

end GridSketch
