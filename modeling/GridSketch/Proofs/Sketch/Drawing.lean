/-
  Drawings: rectangles on a grid, written as a sketch and read back.

  The top left cell of a rectangle holds its name, with its embedded entries if it has any; the rest
  of its first row holds widening marks, the rest of its first column lengthening marks, and every
  other cell of the grid a filler. Reading the sketch gives the rectangles back, whatever they are
  called and however they are packed, and whatever blanks stand between the cells.

  While row `r` is read up to column `c`, the draft holds the rectangles that start before that cell,
  each cut off there (`Box.clip`). `Drawn` says so; `drawn_cell` takes it across one cell,
  `drawn_line` across one row.

  * `read_text`: a drawing, written down and read, gives its rectangles in row-major order.
-/
import GridSketch.Proofs.Sketch.Identifier
import GridSketch.Proofs.Sketch.Scan
import GridSketch.Proofs.Sketch.Step
import Mathlib.Data.List.Pairwise

namespace GridSketch

-- What holds of all characters of a text is decided on its characters.
attribute [local instance (2000)] List.decidableBAll

/-! ## Rectangles -/

/-- A rectangle of cells with a name and perhaps embedded entries. -/
structure Box where
  name : Text
  /-- The embedded entries. -/
  spec : Option Text
  /-- The constraint text that the entries stand for. -/
  constraints : Text
  row : Nat
  col : Nat
  width : Nat
  height : Nat
  named : name ≠ []
  name_plain : ∀ c ∈ name, Token.isPlain c = true ∧ c ≠ Region.specSeparator
  spec_plain : ∀ c ∈ spec.getD [], Token.isPlain c = true ∧ c ≠ Region.specSeparator
  expands : Embedded.expand (spec.getD []) = .ok constraints
  one_le_width : 1 ≤ width
  one_le_height : 1 ≤ height

namespace Box

/-- The region that a rectangle stands for. -/
def region (b : Box) : Region := ⟨b.name, b.row, b.col, b.width, b.height, b.constraints⟩

/-- Whether a cell belongs to a rectangle. -/
def Covers (b : Box) (r c : Nat) : Prop :=
  (b.row ≤ r ∧ r < b.row + b.height) ∧ b.col ≤ c ∧ c < b.col + b.width

instance (b : Box) (r c : Nat) : Decidable (b.Covers r c) := inferInstanceAs (Decidable (_ ∧ _))

/-- No cell belongs to both rectangles. -/
def Disjoint (a b : Box) : Prop := ∀ r c, ¬ (a.Covers r c ∧ b.Covers r c)

/-- What is written into the top left cell. -/
def label (b : Box) : Text :=
  match b.spec with
  | none => b.name
  | some spec => b.name ++ Region.specSeparator :: spec

/-- What is written into a cell of a rectangle. -/
def content (b : Box) (r c : Nat) : Text :=
  if r = b.row then if c = b.col then b.label else ['+']
  else if c = b.col then ['|'] else ['-']

end Box

/-- A grid with rectangles in it, in any order. -/
structure Drawing where
  rows : Nat
  cols : Nat
  boxes : List Box
  inside : ∀ b ∈ boxes, b.row + b.height ≤ rows ∧ b.col + b.width ≤ cols
  disjoint : boxes.Pairwise Box.Disjoint

/-- A text of blanks only. -/
abbrev Blanks : Type := { g : Text // ∀ c ∈ g, Text.isBlank c = true }

/-- The blanks of a written drawing. Between two cells there is one at least. -/
structure Spacing where
  /-- Before a row starts. -/
  beforeRow : Nat → Blanks
  /-- Before a cell of a row. -/
  beforeCell : Nat → Nat → Blanks
  /-- Before a row ends. -/
  beforeEnd : Nat → Blanks
  /-- Behind the last row. -/
  atEnd : Blanks
  apart : ∀ r c, 0 < c → (beforeCell r c).val ≠ []

namespace Drawing

/-- What is written into a cell of the grid. -/
def cell (d : Drawing) (r c : Nat) : Text :=
  match d.boxes.find? fun b => decide (b.Covers r c) with
  | some b => b.content r c
  | none => ['-']

/-- The first cells of a row as they are written. -/
def cells (d : Drawing) (s : Spacing) (r n : Nat) : Text :=
  (List.range n).flatMap fun c => (s.beforeCell r c).val ++ d.cell r c

/-- A row as it is written. -/
def line (d : Drawing) (s : Spacing) (r : Nat) : Text :=
  (s.beforeRow r).val ++ '\x7b' :: (d.cells s r d.cols ++ ((s.beforeEnd r).val ++ ['\x7d']))

/-- The sketch of a drawing. -/
def text (d : Drawing) (s : Spacing) : Text :=
  (List.range d.rows).flatMap (d.line s) ++ s.atEnd.val

end Drawing

/-! ## Rectangles in order -/

namespace Box

/-- Row-major order of the top left cells. -/
def Before (a b : Box) : Prop := a.row < b.row ∨ (a.row = b.row ∧ a.col < b.col)

/-- Whether a rectangle starts before a cell, in row-major order. -/
def StartsBefore (b : Box) (r c : Nat) : Prop := b.row < r ∨ (b.row = r ∧ b.col < c)

instance (b : Box) (r c : Nat) : Decidable (b.StartsBefore r c) :=
  inferInstanceAs (Decidable (_ ∨ _))

theorem covers_start (b : Box) : b.Covers b.row b.col := by
  have := b.one_le_width
  have := b.one_le_height
  unfold Covers
  omega

theorem Disjoint.symm {a b : Box} (h : a.Disjoint b) : b.Disjoint a :=
  fun r c hc => h r c ⟨hc.2, hc.1⟩

instance : Std.Symm Disjoint := ⟨fun _ _ => Disjoint.symm⟩

/-- Rectangles are disjoint exactly if a row or a column separates them. -/
theorem disjoint_iff {a b : Box} :
    a.Disjoint b ↔ a.row + a.height ≤ b.row ∨ b.row + b.height ≤ a.row ∨
      a.col + a.width ≤ b.col ∨ b.col + b.width ≤ a.col := by
  have := a.one_le_width
  have := a.one_le_height
  have := b.one_le_width
  have := b.one_le_height
  constructor
  · intro h
    have hcorner := h (max a.row b.row) (max a.col b.col)
    unfold Covers at hcorner
    omega
  · rintro h r c ⟨ha, hb⟩
    unfold Covers at ha hb
    omega

instance (a b : Box) : Decidable (a.Disjoint b) := decidable_of_iff _ disjoint_iff.symm

theorem Disjoint.start_ne {a b : Box} (h : a.Disjoint b) : ¬ (a.row = b.row ∧ a.col = b.col) := by
  rintro ⟨hrow, hcol⟩
  exact h b.row b.col ⟨hrow ▸ hcol ▸ a.covers_start, b.covers_start⟩

end Box

namespace Drawing

variable (d : Drawing)

/-- The rectangles in row-major order. -/
def inOrder : List Box :=
  d.boxes.mergeSort fun a b => decide (a.row < b.row ∨ (a.row = b.row ∧ a.col ≤ b.col))

theorem inOrder_perm : d.inOrder.Perm d.boxes := List.mergeSort_perm _ _

theorem mem_inOrder {b : Box} : b ∈ d.inOrder ↔ b ∈ d.boxes := d.inOrder_perm.mem_iff

theorem pairwise_inOrder : d.inOrder.Pairwise Box.Before := by
  have hsorted : d.inOrder.Pairwise fun a b =>
      a.row < b.row ∨ (a.row = b.row ∧ a.col ≤ b.col) := by
    have : d.inOrder.Pairwise fun a b =>
        decide (a.row < b.row ∨ (a.row = b.row ∧ a.col ≤ b.col)) = true := by
      refine List.pairwise_mergeSort (fun a b c hab hbc => ?_) (fun a b => ?_) _
      · simp only [decide_eq_true_eq] at *
        omega
      · simp only [Bool.or_eq_true, decide_eq_true_eq]
        omega
    exact this.imp fun h => of_decide_eq_true h
  have hdisjoint : d.inOrder.Pairwise Box.Disjoint :=
    d.disjoint.perm d.inOrder_perm.symm Box.Disjoint.symm
  refine (hsorted.and hdisjoint).imp fun {a b} h => ?_
  have := h.2.start_ne
  unfold Box.Before
  omega

theorem nodup_inOrder : d.inOrder.Nodup :=
  d.pairwise_inOrder.imp fun {a b} h => by
    rintro rfl
    unfold Box.Before at h
    omega

/-- A cell belongs to one rectangle at most. -/
theorem eq_of_covers {a b : Box} (ha : a ∈ d.boxes) (hb : b ∈ d.boxes) {r c : Nat}
    (hac : a.Covers r c) (hbc : b.Covers r c) : a = b := by
  by_contra hne
  exact d.disjoint.forall ha hb hne r c ⟨hac, hbc⟩

/-- In a cell of a rectangle, away from its start, nothing starts. -/
theorem not_start_of_covers {b : Box} (hb : b ∈ d.boxes) {r c : Nat} (hbc : b.Covers r c)
    (hstart : ¬ (b.row = r ∧ b.col = c)) : ∀ a ∈ d.boxes, ¬ (a.row = r ∧ a.col = c) := by
  rintro a ha ⟨rfl, rfl⟩
  have heq := d.eq_of_covers ha hb a.covers_start hbc
  subst heq
  exact hstart ⟨rfl, rfl⟩

theorem cell_eq_content {b : Box} (hb : b ∈ d.boxes) {r c : Nat} (hbc : b.Covers r c) :
    d.cell r c = b.content r c := by
  rw [cell]
  cases hf : d.boxes.find? fun b => decide (b.Covers r c) with
  | none =>
    have := List.find?_eq_none.mp hf b hb
    simp [hbc] at this
  | some a =>
    have hac : a.Covers r c := by simpa using List.find?_some hf
    rw [d.eq_of_covers (List.mem_of_find?_eq_some hf) hb hac hbc]

theorem cell_eq_filler {r c : Nat} (h : ∀ b ∈ d.boxes, ¬ b.Covers r c) : d.cell r c = ['-'] := by
  rw [cell, List.find?_eq_none.mpr (by simpa using h)]

/-! ## Rectangles cut off at a cell -/

/-- The rectangles that start before a cell, in order. -/
def started (r c : Nat) : List Box := d.inOrder.filter fun b => decide (b.StartsBefore r c)

theorem mem_started {r c : Nat} {b : Box} :
    b ∈ d.started r c ↔ b ∈ d.boxes ∧ b.StartsBefore r c := by
  rw [started, List.mem_filter, mem_inOrder, decide_eq_true_eq]

theorem nodup_started (r c : Nat) : (d.started r c).Nodup := d.nodup_inOrder.filter _

theorem pairwise_started (r c : Nat) : (d.started r c).Pairwise Box.Before :=
  d.pairwise_inOrder.filter _

theorem started_succ_of_start {b : Box} (hb : b ∈ d.boxes) :
    d.started b.row (b.col + 1) = d.started b.row b.col ++ [b] := by
  obtain ⟨s, t, hst⟩ := List.append_of_mem (d.mem_inOrder.mpr hb)
  have hpairwise := d.pairwise_inOrder
  rw [hst, List.pairwise_append, List.pairwise_cons] at hpairwise
  obtain ⟨-, ⟨hafter, -⟩, hcross⟩ := hpairwise
  -- the rectangles before this one start before both cells, those after it before neither
  have hsplit : ∀ c, b.col ≤ c → c ≤ b.col + 1 →
      d.started b.row c = s ++ if b.col < c then [b] else [] := by
    intro c hle hlt
    have hs : ∀ a ∈ s, decide (a.StartsBefore b.row c) = true := by
      intro a ha
      have := hcross a ha b List.mem_cons_self
      rw [decide_eq_true_eq]
      unfold Box.Before at this
      unfold Box.StartsBefore
      omega
    have ht : ∀ a ∈ t, ¬ decide (a.StartsBefore b.row c) = true := by
      intro a ha
      have := hafter a ha
      rw [decide_eq_true_eq]
      unfold Box.Before at this
      unfold Box.StartsBefore
      omega
    rw [started, hst, List.filter_append, List.filter_cons, List.filter_eq_self.mpr hs,
      List.filter_eq_nil_iff.mpr ht]
    simp [Box.StartsBefore]
  rw [hsplit _ (Nat.le_succ _) (Nat.le_refl _), hsplit _ (Nat.le_refl _) (Nat.le_succ _)]
  simp

theorem started_succ_of_no_start {r c : Nat} (h : ∀ b ∈ d.boxes, ¬ (b.row = r ∧ b.col = c)) :
    d.started r (c + 1) = d.started r c := by
  refine List.filter_congr fun b hb => ?_
  have := h b (d.mem_inOrder.mp hb)
  rw [decide_eq_decide]
  unfold Box.StartsBefore
  omega

/-- At the end of a row nothing is left to start in it. -/
theorem started_row_end (r : Nat) : d.started r d.cols = d.started (r + 1) 0 := by
  refine List.filter_congr fun b hb => ?_
  have := (d.inside b (d.mem_inOrder.mp hb)).2
  have := b.one_le_width
  rw [decide_eq_decide]
  unfold Box.StartsBefore
  omega

theorem started_end : d.started d.rows 0 = d.inOrder := by
  refine List.filter_eq_self.mpr fun b hb => ?_
  have := (d.inside b (d.mem_inOrder.mp hb)).1
  have := b.one_le_height
  rw [decide_eq_true_eq]
  unfold Box.StartsBefore
  omega

end Drawing

namespace Box

/-- The part of a rectangle that lies before a cell, in row-major order. -/
def clip (r c : Nat) (b : Box) : Region :=
  { b.region with
    width := (if b.row = r then min b.width (c - b.col) else b.width : Nat)
    height := (min b.height (r - b.row + if b.col < c then 1 else 0) : Nat) }

/-- A cell that does not extend a rectangle by a mark leaves its part as it is. -/
theorem clip_succ {b : Box} {r c : Nat} (hs : b.StartsBefore r c)
    (h : b.Covers r c → b.row ≠ r ∧ b.col ≠ c) : b.clip r (c + 1) = b.clip r c := by
  have := b.one_le_width
  have := b.one_le_height
  have hwidth : (if b.row = r then min b.width (c + 1 - b.col) else b.width) =
      if b.row = r then min b.width (c - b.col) else b.width := by
    unfold StartsBefore at hs
    unfold Covers at h
    split <;> omega
  have hheight : min b.height (r - b.row + if b.col < c + 1 then 1 else 0) =
      min b.height (r - b.row + if b.col < c then 1 else 0) := by
    unfold StartsBefore at hs
    unfold Covers at h
    split <;> split <;> omega
  rw [clip, clip, hwidth, hheight]

theorem clip_start (b : Box) :
    b.clip b.row (b.col + 1) = ⟨b.name, b.row, b.col, 1, 1, b.constraints⟩ := by
  have := b.one_le_width
  have := b.one_le_height
  have hwidth : min b.width (b.col + 1 - b.col) = 1 := by omega
  have hheight : min b.height (b.row - b.row + 1) = 1 := by omega
  rw [clip, if_pos rfl, if_pos (Nat.lt_succ_self _), hwidth, hheight]
  rfl

theorem clip_succ_wider {b : Box} {c : Nat} (hc : b.Covers b.row c) (hcol : b.col < c) :
    b.clip b.row (c + 1) = (b.clip b.row c).wider := by
  have hwidth : min b.width (c + 1 - b.col) = min b.width (c - b.col) + 1 := by
    unfold Covers at hc
    omega
  rw [clip, clip, if_pos rfl, if_pos rfl, if_pos hcol, if_pos (Nat.lt_succ_of_lt hcol), hwidth]
  rfl

theorem clip_succ_longer {b : Box} {r : Nat} (hc : b.Covers r b.col) (hrow : b.row < r) :
    b.clip r (b.col + 1) = (b.clip r b.col).longer := by
  have hheight : min b.height (r - b.row + 1) = min b.height (r - b.row + 0) + 1 := by
    unfold Covers at hc
    omega
  rw [clip, clip, if_neg (Nat.ne_of_lt hrow), if_pos (Nat.lt_succ_self _),
    if_neg (Nat.lt_irrefl _), hheight]
  simp [Region.longer, if_neg (Nat.ne_of_lt hrow)]

end Box

/-! ## Reading a text piece by piece -/

namespace Draft

/-- Reading a text up to some rest of it takes one draft to another, wherever the text stands in a
    sketch. -/
def Reads (d : Draft) (t : Text) (next : Draft) (rest : Text) : Prop :=
  ∀ o, ∃ o', (d.run (Token.scanFrom o t)).outcome = (next.run (Token.scanFrom o' rest)).outcome

theorem Reads.refl (d : Draft) (t : Text) : d.Reads t d t := fun o => ⟨o, rfl⟩

theorem Reads.trans {d₁ d₂ d₃ : Draft} {t₁ t₂ t₃ : Text} (h : d₁.Reads t₁ d₂ t₂)
    (h' : d₂.Reads t₂ d₃ t₃) : d₁.Reads t₁ d₃ t₃ := by
  intro o
  obtain ⟨o₂, h₂⟩ := h o
  obtain ⟨o₃, h₃⟩ := h' o₂
  exact ⟨o₃, h₂.trans h₃⟩

theorem reads_blanks (d : Draft) (g : Blanks) (rest : Text) : d.Reads (g.val ++ rest) d rest :=
  fun o => ⟨_, by rw [Token.scanFrom_blanks g.property o rest]⟩

theorem reads_mark {d next : Draft} {c : Char} {m : Mark} (hc : Mark.ofChar? c = some m)
    (hstep : ∀ o, (d.step (.mark m o)).outcome = .ok next) (rest : Text) :
    d.Reads (c :: rest) next rest := by
  intro o
  refine ⟨o + Text.units c, ?_⟩
  rw [Token.scanFrom_mark hc, run_outcome_cons, hstep]
  rfl

theorem reads_word {d next : Draft} {w : Text} (hne : w ≠ [])
    (hw : ∀ c ∈ w, Token.isPlain c = true)
    (hstep : ∀ o, (d.step (.identifier w o)).outcome = .ok next) {rest : Text}
    (hrest : Token.StartsApart rest) : d.Reads (w ++ rest) next rest := by
  intro o
  refine ⟨o + Text.size16 w, ?_⟩
  rw [Token.scanFrom_word hne hw hrest, run_outcome_cons, hstep]
  rfl

end Draft

namespace Box

theorem label_ne_nil (b : Box) : b.label ≠ [] := by
  rw [label]
  cases b.spec with
  | none => exact b.named
  | some spec => simp

theorem label_plain (b : Box) : ∀ c ∈ b.label, Token.isPlain c = true := by
  have hname := b.name_plain
  have hspec := b.spec_plain
  rw [label]
  cases h : b.spec with
  | none => exact fun c hc => (hname c hc).1
  | some spec =>
    rw [h] at hspec
    intro c hc
    rcases List.mem_append.mp hc with hc | hc
    · exact (hname c hc).1
    · rcases List.mem_cons.mp hc with rfl | hc
      · decide
      · exact (hspec c hc).1

theorem splitIdentifier_label (b : Box) :
    Region.splitIdentifier b.label = (b.name, b.spec.getD []) := by
  have hname : Region.specSeparator ∉ b.name := fun h => (b.name_plain _ h).2 rfl
  have hspec : Region.specSeparator ∉ b.spec.getD [] := fun h => (b.spec_plain _ h).2 rfl
  rw [label]
  cases h : b.spec with
  | none => exact Region.splitIdentifier_name hname
  | some spec =>
    rw [h] at hspec
    exact Region.splitIdentifier_name_spec hname hspec

/-- The label of a rectangle starts its region. -/
theorem ofIdentifier_label (b : Box) (o : Nat) :
    Region.ofIdentifier b.label o b.row b.col = .ok (b.clip b.row (b.col + 1)) := by
  rw [Region.ofIdentifier, splitIdentifier_label]
  simp only [b.expands, clip_start]

end Box

/-! ## Drafts of a drawing -/

namespace Drawing

/-- A draft that has read a drawing up to a cell: it holds the parts of the rectangles that lie
    before the cell, and the one named last in the row apart from the others. -/
structure Drawn (d : Drawing) (r c : Nat) (closed : List Box) (last : Option Box) (s : Draft) :
    Prop where
  started : d.started r c = closed ++ last.toList
  row : s.row = r
  col : s.col = c
  settled : s.settled = closed.map (Box.clip r c)
  current : s.current = last.map (Box.clip r c)
  row_last : ∀ b ∈ last, b.row = r
  row_closed : last = none → ∀ b ∈ closed, b.row < r

namespace Drawn

variable {d : Drawing} {r c : Nat} {closed : List Box} {last : Option Box} {s : Draft}

theorem mem_boxes (h : Drawn d r c closed last s) {b : Box} (hb : b ∈ closed ++ last.toList) :
    b ∈ d.boxes ∧ b.StartsBefore r c := by
  rw [← h.started] at hb
  exact d.mem_started.mp hb

theorem nodup (h : Drawn d r c closed last s) : (closed ++ last.toList).Nodup :=
  h.started ▸ d.nodup_started r c

/-- The rectangle named last is not among the others. -/
theorem ne_last (h : Drawn d r c closed last s) {a b : Box} (ha : a ∈ closed) (hb : b ∈ last) :
    a ≠ b := by
  have hcross := (List.nodup_append.mp h.nodup).2.2
  exact hcross a ha b (by simpa using hb)

/-- A rectangle of a row above is no longer the last. -/
theorem mem_closed (h : Drawn d r c closed last s) {b : Box} (hb : b ∈ d.boxes) (hrow : b.row < r) :
    b ∈ closed := by
  have hmem : b ∈ closed ++ last.toList := by
    rw [← h.started, mem_started]
    exact ⟨hb, Or.inl hrow⟩
  rcases List.mem_append.mp hmem with hclosed | hlast
  · exact hclosed
  · have := h.row_last b (by simpa using hlast)
    omega

/-- In the row of a cell, the rectangle that the cell belongs to is the last one that started. -/
theorem last_eq_of_covers (h : Drawn d r c closed last s) {b : Box} (hb : b ∈ d.boxes)
    (hc : b.Covers r c) (hrow : b.row = r) (hcol : b.col < c) : last = some b := by
  have hmem : b ∈ closed ++ last.toList := by
    rw [← h.started, mem_started]
    exact ⟨hb, Or.inr ⟨hrow, hcol⟩⟩
  cases hlast : last with
  | none =>
    subst hlast
    have := h.row_closed rfl b (by simpa using hmem)
    omega
  | some a =>
    subst hlast
    rcases List.mem_append.mp hmem with hclosed | hsame
    · exfalso
      have hpairwise := d.pairwise_started r c
      rw [h.started, List.pairwise_append] at hpairwise
      have hbefore := hpairwise.2.2 b hclosed a List.mem_cons_self
      obtain ⟨ha, hstart⟩ := h.mem_boxes (b := a) (by simp)
      have harow := h.row_last a rfl
      unfold Box.Before at hbefore
      unfold Box.StartsBefore at hstart
      -- the later one would start inside the earlier one
      have hcover : b.Covers a.row a.col := by
        unfold Box.Covers at hc ⊢
        omega
      have := d.eq_of_covers hb ha hcover a.covers_start
      subst this
      omega
    · simp_all

/-- A cell in which nothing starts keeps the rectangles; what it does to them is left to show. -/
theorem next (h : Drawn d r c closed last s)
    (hstart : ∀ b ∈ d.boxes, ¬ (b.row = r ∧ b.col = c)) {s' : Draft} (hrow : s'.row = s.row)
    (hcol : s'.col = s.col + 1) (hsettled : s'.settled = closed.map (Box.clip r (c + 1)))
    (hcurrent : s'.current = last.map (Box.clip r (c + 1))) :
    Drawn d r (c + 1) closed last s' where
  started := by rw [d.started_succ_of_no_start hstart, h.started]
  row := by rw [hrow, h.row]
  col := by
    rw [hcol, h.col]
    rfl
  settled := hsettled
  current := hcurrent
  row_last := h.row_last
  row_closed := h.row_closed

/-- A filler, in a cell that extends no rectangle by a mark. -/
theorem next_filler (h : Drawn d r c closed last s)
    (hcover : ∀ b ∈ d.boxes, b.Covers r c → b.row ≠ r ∧ b.col ≠ c) :
    Drawn d r (c + 1) closed last s.advance := by
  have hclip : ∀ b ∈ closed ++ last.toList, b.clip r (c + 1) = b.clip r c := by
    intro b hb
    obtain ⟨hbox, hs⟩ := h.mem_boxes hb
    exact Box.clip_succ hs (hcover b hbox)
  refine h.next ?_ rfl rfl ?_ ?_
  · rintro b hb ⟨hrow, hcol⟩
    exact (hcover b hb (hrow ▸ hcol ▸ b.covers_start)).1 hrow
  · show s.settled = _
    rw [h.settled]
    exact (List.map_congr_left fun b hb => hclip b (List.mem_append_left _ hb)).symm
  · show s.current = _
    rw [h.current]
    exact (Option.map_congr fun b hb =>
      hclip b (List.mem_append_right _ (by simpa using hb))).symm

/-- The other rectangles are not extended by a cell of one of them. -/
theorem clip_succ_of_ne (h : Drawn d r c closed last s) {a b : Box} (hb : b ∈ d.boxes)
    (hc : b.Covers r c) (ha : a ∈ closed ++ last.toList) (hne : a ≠ b) :
    a.clip r (c + 1) = a.clip r c := by
  obtain ⟨hbox, hs⟩ := h.mem_boxes ha
  exact Box.clip_succ hs fun hac => absurd (d.eq_of_covers hbox hb hac hc) hne

theorem next_label {b : Box} (h : Drawn d b.row b.col closed last s) (hb : b ∈ d.boxes) :
    Drawn d b.row (b.col + 1) (closed ++ last.toList) (some b)
      { s.advance with settled := s.regions, current := some (b.clip b.row (b.col + 1)) } where
  started := by rw [d.started_succ_of_start hb, h.started, Option.toList_some]
  row := h.row
  col := by
    show s.col + 1 = _
    rw [h.col]
    rfl
  settled := by
    show s.regions = _
    have hregions : s.regions = (closed ++ last.toList).map (Box.clip b.row b.col) := by
      rw [Draft.regions, h.settled, h.current, List.map_append]
      cases last <;> rfl
    rw [hregions]
    refine (List.map_congr_left fun a ha => ?_).symm
    refine h.clip_succ_of_ne hb b.covers_start ha ?_
    rintro rfl
    have := (h.mem_boxes ha).2
    unfold Box.StartsBefore at this
    omega
  current := rfl
  row_last := by
    rintro a ha
    cases ha
    rfl
  row_closed := nofun

theorem next_widen {b : Box} (h : Drawn d b.row c closed last s) (hb : b ∈ d.boxes)
    (hc : b.Covers b.row c) (hcol : b.col < c) :
    Drawn d b.row (c + 1) closed last
      { s.advance with current := s.current.map Region.wider } := by
  have hlast : last = some b := h.last_eq_of_covers hb hc rfl hcol
  subst hlast
  refine h.next (d.not_start_of_covers hb hc (by omega)) rfl rfl ?_ ?_
  · show s.settled = _
    rw [h.settled]
    refine (List.map_congr_left fun a ha => ?_).symm
    exact h.clip_succ_of_ne hb hc (List.mem_append_left _ ha) (h.ne_last ha rfl)
  · show s.current.map Region.wider = _
    rw [h.current, Option.map_some, Option.map_some, Option.map_some, Box.clip_succ_wider hc hcol]

/-- A lengthening mark in the first column of a rectangle finds that rectangle: one that starts
    lower in the column would start inside it. -/
theorem nearestAbove?_eq {b : Box} (h : Drawn d r b.col closed last s) (hb : b ∈ d.boxes)
    (hc : b.Covers r b.col) (hrow : b.row < r) :
    Region.nearestAbove? (Box.clip r b.col) closed s.row s.col = some b := by
  rw [h.row, h.col]
  refine Region.nearestAbove?_eq_some _ (h.mem_closed hb hrow) rfl (Int.ofNat_lt.mpr hrow) ?_
  intro a ha hacol harow hne
  have hacol' : a.col = b.col := Int.ofNat_inj.mp hacol
  have harow' : a.row < r := Int.ofNat_lt.mp harow
  refine Int.ofNat_lt.mpr (Nat.lt_of_not_le fun hle => hne ?_)
  have hcover : b.Covers a.row a.col := by
    unfold Box.Covers at hc ⊢
    omega
  exact d.eq_of_covers (h.mem_boxes (List.mem_append_left _ ha)).1 hb a.covers_start hcover

theorem next_lengthen {b : Box} (h : Drawn d r b.col closed last s) (hb : b ∈ d.boxes)
    (hc : b.Covers r b.col) (hrow : b.row < r) :
    Drawn d r (b.col + 1) closed last
      { s.advance with
        settled := ((Region.lengthenAbove s.row s.col s.settled).map Prod.snd).getD s.settled } := by
  classical
  have hclosed := (List.nodup_append.mp h.nodup).1
  rw [h.settled, Region.lengthenAbove_map _ _ _ _ hclosed, h.nearestAbove?_eq hb hc hrow]
  refine h.next (d.not_start_of_covers hb hc (by omega)) rfl rfl ?_ ?_
  · refine (List.map_congr_left fun a ha => ?_).symm
    rw [Region.lengthened]
    split
    · next heq =>
      subst heq
      exact Box.clip_succ_longer hc hrow
    · next hne => exact h.clip_succ_of_ne hb hc (List.mem_append_left _ ha) hne
  · show s.current = _
    rw [h.current]
    refine (Option.map_congr fun a ha => ?_).symm
    have hlast : a ∈ last.toList := by simpa using ha
    exact h.clip_succ_of_ne hb hc (List.mem_append_right _ hlast)
      (h.ne_last (h.mem_closed hb hrow) ha).symm

end Drawn

/-- One cell of a drawing. -/
theorem drawn_cell {d : Drawing} {r c : Nat} {closed : List Box} {last : Option Box} {s : Draft}
    (h : Drawn d r c closed last s) :
    ∃ closed' last' s', Drawn d r (c + 1) closed' last' s' ∧
      ∀ rest, Token.StartsApart rest → s.Reads (d.cell r c ++ rest) s' rest := by
  by_cases hcover : ∃ b ∈ d.boxes, b.Covers r c
  · obtain ⟨b, hb, hc⟩ := hcover
    rw [d.cell_eq_content hb hc, Box.content]
    have hbounds := hc
    unfold Box.Covers at hbounds
    by_cases hrow : r = b.row
    · subst hrow
      by_cases hcol : c = b.col
      · subst hcol
        rw [if_pos rfl, if_pos rfl]
        refine ⟨_, _, _, h.next_label hb, fun rest hrest =>
          Draft.reads_word b.label_ne_nil b.label_plain (fun o => ?_) hrest⟩
        rw [Draft.step_outcome_identifier, h.row, h.col, b.ofIdentifier_label]
        rfl
      · rw [if_pos rfl, if_neg hcol]
        exact ⟨_, _, _, h.next_widen hb hc (by omega), fun rest _ =>
          Draft.reads_mark rfl (fun o => s.step_outcome_widen o) rest⟩
    · rw [if_neg hrow]
      by_cases hcol : c = b.col
      · subst hcol
        rw [if_pos rfl]
        exact ⟨_, _, _, h.next_lengthen hb hc (by omega), fun rest _ =>
          Draft.reads_mark rfl (fun o => s.step_outcome_lengthen o) rest⟩
      · rw [if_neg hcol]
        refine ⟨_, _, _, h.next_filler fun a ha hac => ?_, fun rest _ =>
          Draft.reads_mark rfl (fun o => s.step_outcome_filler o) rest⟩
        rw [d.eq_of_covers ha hb hac hc]
        omega
  · have hnone : ∀ b ∈ d.boxes, ¬ b.Covers r c := fun b hb hc => hcover ⟨b, hb, hc⟩
    rw [d.cell_eq_filler hnone]
    exact ⟨_, _, _, h.next_filler fun b hb hc => absurd hc (hnone b hb), fun rest _ =>
      Draft.reads_mark rfl (fun o => s.step_outcome_filler o) rest⟩

theorem startsApart_append {g : Blanks} (hg : g.val ≠ []) (rest : Text) :
    Token.StartsApart (g.val ++ rest) := by
  obtain ⟨g, hblank⟩ := g
  cases g with
  | nil => exact absurd rfl hg
  | cons b g =>
    rintro c hc
    cases hc
    exact Token.isPlain_eq_false_of_isBlank (hblank b List.mem_cons_self)

theorem startsApart_blanks_mark (g : Blanks) {c : Char} {m : Mark} (hc : Mark.ofChar? c = some m)
    (rest : Text) : Token.StartsApart (g.val ++ c :: rest) := by
  by_cases hg : g.val = []
  · rw [hg, List.nil_append]
    rintro c' hc'
    cases hc'
    exact Token.isPlain_eq_false_of_ofChar? hc
  · exact startsApart_append hg _

/-- The first cells of a row. -/
theorem drawn_cells {d : Drawing} (sp : Spacing) {r : Nat} {closed : List Box} {s : Draft}
    (h : Drawn d r 0 closed none s) (n : Nat) :
    ∃ closed' last' s', Drawn d r n closed' last' s' ∧
      ∀ rest, (0 < n → Token.StartsApart rest) → s.Reads (d.cells sp r n ++ rest) s' rest := by
  induction n with
  | zero => exact ⟨_, _, s, h, fun rest _ => Draft.Reads.refl s rest⟩
  | succ n ih =>
    obtain ⟨_, _, s₁, h₁, hreads₁⟩ := ih
    obtain ⟨_, _, s₂, h₂, hreads₂⟩ := drawn_cell h₁
    refine ⟨_, _, s₂, h₂, fun rest hrest => ?_⟩
    have hcells : d.cells sp r (n + 1) ++ rest =
        d.cells sp r n ++ ((sp.beforeCell r n).val ++ (d.cell r n ++ rest)) := by
      simp [cells, List.range_succ]
    rw [hcells]
    refine (hreads₁ _ fun hn => startsApart_append (sp.apart r n hn) _).trans ?_
    exact (s₁.reads_blanks _ _).trans (hreads₂ rest (hrest (Nat.succ_pos n)))

/-- Behind the last column, what lies before a cell is what lies before the next row. -/
theorem clip_row_end {d : Drawing} {b : Box} (hb : b ∈ d.boxes) {r : Nat}
    (hs : b.StartsBefore r d.cols) : b.clip r d.cols = b.clip (r + 1) 0 := by
  have hinside := (d.inside b hb).2
  have := b.one_le_width
  unfold Box.StartsBefore at hs
  have hwidth : (if b.row = r then min b.width (d.cols - b.col) else b.width) = b.width := by
    split <;> omega
  have hheight : min b.height (r - b.row + if b.col < d.cols then 1 else 0) =
      min b.height (r + 1 - b.row + if b.col < 0 then 1 else 0) := by
    rw [if_pos (by omega), if_neg (Nat.not_lt_zero _)]
    omega
  rw [Box.clip, Box.clip, hwidth, hheight, if_neg (show ¬ b.row = r + 1 by omega)]

/-- Below the grid, the rectangles are whole. -/
theorem clip_end {d : Drawing} {b : Box} (hb : b ∈ d.boxes) : b.clip d.rows 0 = b.region := by
  have hinside := (d.inside b hb).1
  have := b.one_le_height
  have hheight : min b.height (d.rows - b.row + if b.col < 0 then 1 else 0) = b.height := by
    rw [if_neg (Nat.not_lt_zero _)]
    omega
  rw [Box.clip, hheight, if_neg (by omega)]
  rfl

theorem drawn_row_end {d : Drawing} {r : Nat} {closed : List Box} {last : Option Box} {s : Draft}
    (h : Drawn d r d.cols closed last s) :
    Drawn d (r + 1) 0 (closed ++ last.toList) none
      { s with row := s.row + 1, col := 0, settled := s.regions, current := none } where
  started := by
    rw [← d.started_row_end, h.started]
    simp
  row := by
    show s.row + 1 = _
    rw [h.row]
    rfl
  col := rfl
  settled := by
    show s.regions = _
    have hregions : s.regions = (closed ++ last.toList).map (Box.clip r d.cols) := by
      rw [Draft.regions, h.settled, h.current, List.map_append]
      cases last <;> rfl
    rw [hregions]
    refine List.map_congr_left fun b hb => ?_
    obtain ⟨hbox, hs⟩ := h.mem_boxes hb
    exact clip_row_end hbox hs
  current := rfl
  row_last := nofun
  row_closed := by
    intro _ b hb
    obtain ⟨-, hs⟩ := h.mem_boxes hb
    unfold Box.StartsBefore at hs
    omega

/-- One row of a drawing. The column in which the draft stands between two rows does not matter. -/
theorem drawn_line {d : Drawing} (sp : Spacing) {r : Nat} {closed : List Box} {s : Draft}
    (h : Drawn d r 0 closed none { s with col := 0 }) :
    ∃ closed' s', Drawn d (r + 1) 0 closed' none { s' with col := 0 } ∧
      ∀ rest, s.Reads (d.line sp r ++ rest) s' rest := by
  obtain ⟨closed', last', s₁, h₁, hreads⟩ := drawn_cells sp h d.cols
  refine ⟨closed' ++ last'.toList,
    { s₁ with row := s₁.row + 1, settled := s₁.regions, current := none },
    drawn_row_end h₁, fun rest => ?_⟩
  have hline : d.line sp r ++ rest = (sp.beforeRow r).val ++
      '\x7b' :: (d.cells sp r d.cols ++ ((sp.beforeEnd r).val ++ '\x7d' :: rest)) := by
    simp [line]
  rw [hline]
  refine (s.reads_blanks _ _).trans ?_
  refine (Draft.reads_mark rfl (fun o => s.step_outcome_rowStart o) _).trans ?_
  refine (hreads _ fun _ => startsApart_blanks_mark _ rfl _).trans ?_
  refine (s₁.reads_blanks _ _).trans ?_
  exact Draft.reads_mark rfl (fun o => s₁.step_outcome_rowEnd o) rest

/-- The first rows of a drawing. -/
theorem drawn_lines (d : Drawing) (sp : Spacing) (n : Nat) :
    ∃ closed s, Drawn d n 0 closed none { s with col := 0 } ∧
      ∀ rest, Draft.start.Reads ((List.range n).flatMap (d.line sp) ++ rest) s rest := by
  induction n with
  | zero =>
    have hnone : d.started 0 0 = [] := by
      refine List.filter_eq_nil_iff.mpr fun b _ => ?_
      simp [Box.StartsBefore]
    exact ⟨[], Draft.start, ⟨hnone, rfl, rfl, rfl, rfl, nofun, nofun⟩,
      fun rest => Draft.Reads.refl _ rest⟩
  | succ n ih =>
    obtain ⟨_, s₁, h₁, hreads₁⟩ := ih
    obtain ⟨closed, s₂, h₂, hreads₂⟩ := drawn_line sp h₁
    refine ⟨closed, s₂, h₂, fun rest => ?_⟩
    rw [List.range_succ, List.flatMap_append, List.append_assoc]
    refine (hreads₁ _).trans ?_
    simpa using hreads₂ rest

end Drawing

/-- Row-major order of the top left cells. -/
def Region.Before (a b : Region) : Prop := a.row < b.row ∨ (a.row = b.row ∧ a.col < b.col)

/-- A drawing that is written down and read gives exactly its rectangles, in row-major order. -/
theorem Drawing.read_text (d : Drawing) (sp : Spacing) :
    ∃ registry, (Registry.read (d.text sp)).outcome = .ok registry ∧
      registry.regions.Perm (d.boxes.map Box.region) ∧
      registry.regions.Pairwise Region.Before := by
  obtain ⟨closed, s, h, hreads⟩ := d.drawn_lines sp d.rows
  have hregions : s.regions = d.inOrder.map Box.region := by
    have hstarted := h.started
    rw [d.started_end, Option.toList_none, List.append_nil] at hstarted
    have hsettled : s.settled = closed.map (Box.clip d.rows 0) := h.settled
    have hcurrent : s.current = none := h.current
    rw [Draft.regions, hsettled, hcurrent, Option.toList_none, List.append_nil, ← hstarted]
    exact List.map_congr_left fun b hb => clip_end (d.mem_inOrder.mp hb)
  have hrun : (Draft.start.run (Token.scan (d.text sp))).outcome = .ok s := by
    obtain ⟨o, ho⟩ := hreads sp.atEnd.val 0
    obtain ⟨o', ho'⟩ := s.reads_blanks sp.atEnd [] o
    rw [List.append_nil] at ho'
    exact ho.trans ho'
  refine ⟨Registry.ofList s.regions, ?_, ?_, ?_⟩
  · rw [Registry.read, Traced.outcome_bind, hrun]
    rfl
  · show s.regions.Perm _
    rw [hregions]
    exact d.inOrder_perm.map _
  · show s.regions.Pairwise _
    rw [hregions, List.pairwise_map]
    refine d.pairwise_inOrder.imp fun {a b} hab => ?_
    unfold Box.Before at hab
    unfold Region.Before Box.region
    simp only
    omega

/-- Two rectangles, one with embedded entries, around a gap. -/
example :
    ∃ (d : Drawing) (sp : Spacing),
      d.text sp = "\x7ba:wx2,fx + - \x7d\x7b| - b \x7d\x7b| - | \x7d".toList ∧
      d.boxes.map Box.region =
        [⟨"b".toList, 1, 2, 1, 2, []⟩, ⟨"a".toList, 0, 0, 2, 3, "wx 2 f x".toList⟩] :=
  let b : Box := ⟨"b".toList, none, [], 1, 2, 1, 2, by decide, by decide, by decide, by decide,
    by decide, by decide⟩
  let a : Box := ⟨"a".toList, some "wx2,fx".toList, "wx 2 f x".toList, 0, 0, 2, 3, by decide,
    by decide, by decide, by decide, by decide, by decide⟩
  let none : Blanks := ⟨[], by decide⟩
  let space : Blanks := ⟨[' '], by decide⟩
  let sp : Spacing := ⟨fun _ => none, fun _ c => if c = 0 then none else space, fun _ => space, none,
    fun _ c hc => by simp [Nat.ne_of_gt hc, space]⟩
  ⟨⟨3, 3, [b, a], by decide, by decide⟩, sp, by decide, by decide⟩

end GridSketch
