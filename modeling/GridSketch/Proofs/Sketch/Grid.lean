/-
  Sketches whose braces match: rows of cells, one behind the other. Whatever stands in the cells, the
  regions lie in the grid that the rows make up.

  Widths grow with their own row, so that a region ends before the cell being read. Heights grow from
  far below, by at most one in each row: the mark that lengthens a region stands in the column of the
  region, and each row passes that column once. `Draft.Fits` counts it, with the row in progress read
  up to some cell. A region is lengthened only while it is the lowest above the mark, so it never
  grows into a region below it that starts in its column.

  * `Draft.Fits.cell`, `Draft.Fits.cells`: one cell keeps a draft within the grid, and so do the cells
    of a row; `Draft.Fits.rows` is the run over all rows.
  * `inside_and_ordered_of_read`: the regions of such a sketch lie in its grid, in the order of their
    rows, and those of a row or of a column are apart.
-/
import GridSketch.Proofs.Sketch.Geometry

namespace GridSketch

/-! ## Rows -/

/-- A row of a sketch: cells of any kind between two braces. -/
structure Row where
  /-- The offset of the brace that starts the row. -/
  start : Nat
  cells : List Token
  /-- The offset of the brace that ends the row. -/
  stop : Nat
  cells_isCell : ∀ t ∈ cells, t.isCell = true

/-- The tokens of a row. -/
def Row.tokens (row : Row) : List Token :=
  .mark .rowStart row.start :: (row.cells ++ [.mark .rowEnd row.stop])

namespace Region

/-- A region lies in a grid whose rows have the given numbers of cells. -/
structure Inside (lengths : List Nat) (g : Region) : Prop where
  one_le_width : 1 ≤ g.width
  one_le_height : 1 ≤ g.height
  row_nonneg : 0 ≤ g.row
  col_nonneg : 0 ≤ g.col
  bottom : g.row + g.height ≤ lengths.length
  right : ∃ n ∈ lengths[g.row.toNat]?, g.col + g.width ≤ n

/-- A region stands before another one in the order of rows. In the same row it ends before the
    other starts, and in the same column too. -/
structure Precedes (a b : Region) : Prop where
  row_le : a.row ≤ b.row
  start_ne : ¬ (a.row = b.row ∧ a.col = b.col)
  right : a.row = b.row → a.col + a.width ≤ b.col
  bottom : a.col = b.col → a.row + a.height ≤ b.row

/-- Of the region that stands behind, only the start matters. -/
theorem Precedes.congr_start {a b c : Region} (h : a.Precedes b) (hrow : c.row = b.row)
    (hcol : c.col = b.col) : a.Precedes c where
  row_le := hrow ▸ h.row_le
  start_ne := hrow ▸ hcol ▸ h.start_ne
  right := hrow ▸ hcol ▸ h.right
  bottom := hrow ▸ hcol ▸ h.bottom

namespace Inside

variable {lengths : List Nat} {g : Region}

/-- The last row may still grow. -/
theorem mono {n m : Nat} (h : g.Inside (lengths ++ [n])) (hle : n ≤ m) :
    g.Inside (lengths ++ [m]) where
  one_le_width := h.one_le_width
  one_le_height := h.one_le_height
  row_nonneg := h.row_nonneg
  col_nonneg := h.col_nonneg
  bottom := by simpa using h.bottom
  right := by
    obtain ⟨k, hk, hright⟩ := h.right
    rw [List.getElem?_append] at hk ⊢
    split at hk
    · exact ⟨k, by simpa [*] using hk, hright⟩
    · rename_i hrow
      rw [if_neg hrow]
      obtain ⟨hi, rfl⟩ : g.row.toNat - lengths.length = 0 ∧ n = k := by
        simpa [List.getElem?_singleton] using hk
      exact ⟨m, by simp [hi], by omega⟩

/-- Rows below a grid change nothing in it. -/
theorem append (h : g.Inside lengths) (more : List Nat) : g.Inside (lengths ++ more) where
  one_le_width := h.one_le_width
  one_le_height := h.one_le_height
  row_nonneg := h.row_nonneg
  col_nonneg := h.col_nonneg
  bottom := by
    have := h.bottom
    rw [List.length_append]
    omega
  right := by
    obtain ⟨n, hn, hright⟩ := h.right
    obtain ⟨hlt, -⟩ := List.getElem?_eq_some_iff.mp hn
    exact ⟨n, by rwa [List.getElem?_append_left hlt], hright⟩

/-- A row in which no region ends may be left out. -/
theorem of_append {more : List Nat} (h : g.Inside (lengths ++ more))
    (hbottom : g.row + g.height ≤ lengths.length) : g.Inside lengths where
  one_le_width := h.one_le_width
  one_le_height := h.one_le_height
  row_nonneg := h.row_nonneg
  col_nonneg := h.col_nonneg
  bottom := hbottom
  right := by
    obtain ⟨n, hn, hright⟩ := h.right
    have := h.one_le_height
    have := h.row_nonneg
    rw [List.getElem?_append_left (by omega)] at hn
    exact ⟨n, hn, hright⟩

/-- A region of the last row ends in it. -/
theorem right_of_last {n : Nat} (h : g.Inside (lengths ++ [n])) (hrow : g.row = lengths.length) :
    g.col + g.width ≤ n := by
  obtain ⟨k, hk, hright⟩ := h.right
  rw [hrow, Int.toNat_natCast, List.getElem?_concat_length] at hk
  cases hk
  exact hright

end Inside

end Region

/-! ## Regions on the grid read so far -/

namespace Region

/-- A region lies on finished rows with the given numbers of cells and on some cells of the next row.
    It ends above the row in progress, unless its column was passed there. -/
structure Reached (done : List Nat) (n : Nat) (g : Region) : Prop extends
    Inside (done ++ [n]) g where
  above : g.row + g.height ≤ done.length ∨ g.col < n

namespace Reached

variable {done : List Nat} {n : Nat} {g : Region}

theorem row_le (h : g.Reached done n) : g.row ≤ done.length := by
  have hbottom := h.bottom
  have := h.one_le_height
  rw [List.length_append, List.length_singleton] at hbottom
  omega

/-- Another cell was read. -/
theorem cell (h : g.Reached done n) : g.Reached done (n + 1) where
  toInside := h.mono (Nat.le_succ n)
  above := by
    have := h.above
    omega

/-- The row ended. -/
theorem rowEnd (h : g.Reached done n) : g.Reached (done ++ [n]) 0 where
  toInside := h.append [0]
  above := .inl h.bottom

/-- The cell read was an identifier. -/
theorem single (done : List Nat) (n : Nat) (name constraints : Text) :
    Reached done (n + 1) ⟨name, done.length, n, 1, 1, constraints⟩ where
  one_le_width := Int.le_refl 1
  one_le_height := Int.le_refl 1
  row_nonneg := Int.natCast_nonneg _
  col_nonneg := Int.natCast_nonneg _
  bottom := by simp
  right := ⟨n + 1, by simp, by simp⟩
  above := .inr (Int.lt_succ n)

/-- The cell read was a mark that widened the region, which ended before that cell. -/
theorem wider (h : g.Reached done n) (hrow : g.row = done.length) :
    g.wider.Reached done (n + 1) where
  one_le_width := Int.le_trans h.one_le_width (Int.le_add_one (Int.le_refl _))
  one_le_height := h.one_le_height
  row_nonneg := h.row_nonneg
  col_nonneg := h.col_nonneg
  bottom := h.cell.bottom
  right := by
    have := h.right_of_last hrow
    refine ⟨n + 1, by simp [Region.wider, hrow], ?_⟩
    simp only [Region.wider]
    omega
  above := h.cell.above

/-- The cell read was a mark that lengthened the region, which ended above that cell. -/
theorem longer (h : g.Reached done n) (hcol : g.col = n) : g.longer.Reached done (n + 1) where
  one_le_width := h.one_le_width
  one_le_height := Int.le_trans h.one_le_height (Int.le_add_one (Int.le_refl _))
  row_nonneg := h.row_nonneg
  col_nonneg := h.col_nonneg
  bottom := by
    have := h.above
    simp only [Region.longer, List.length_append, List.length_singleton]
    omega
  right := h.cell.right
  above := .inr (by simp only [Region.longer]; omega)

end Reached

/-- Regions on the rows read so far, one behind the other. -/
structure Packed (done : List Nat) (n : Nat) (regions : List Region) : Prop where
  reached : ∀ g ∈ regions, g.Reached done n
  ordered : regions.Pairwise Precedes

namespace Packed

variable {done : List Nat} {n : Nat} {regions : List Region}

theorem cell (h : Packed done n regions) : Packed done (n + 1) regions :=
  ⟨fun g hg => (h.reached g hg).cell, h.ordered⟩

theorem rowEnd (h : Packed done n regions) : Packed (done ++ [n]) 0 regions :=
  ⟨fun g hg => (h.reached g hg).rowEnd, h.ordered⟩

/-- A new region stands behind all others. -/
theorem concat (h : Packed done n regions) (name constraints : Text) :
    Packed done (n + 1) (regions ++ [⟨name, done.length, n, 1, 1, constraints⟩]) where
  reached := by
    intro g hg
    rcases List.mem_append.mp hg with hg | hg
    · exact (h.reached g hg).cell
    · obtain rfl := List.mem_singleton.mp hg
      exact Reached.single done n name constraints
  ordered := by
    refine List.pairwise_append.mpr
      ⟨h.ordered, List.pairwise_singleton _ _, fun a ha b hb => ?_⟩
    obtain rfl := List.mem_singleton.mp hb
    have ha := h.reached a ha
    refine ⟨ha.row_le, ?_, ha.right_of_last, fun hcol => ?_⟩
    · rintro ⟨hrow, hcol⟩
      have := ha.right_of_last hrow
      have := ha.one_le_width
      dsimp only at hcol
      omega
    · have := ha.above
      dsimp only at hcol ⊢
      omega

/-- The last region may be widened in its row. -/
theorem widen {r : Region} (h : Packed done n (regions ++ [r])) (hrow : r.row = done.length) :
    Packed done (n + 1) (regions ++ [r.wider]) where
  reached := by
    intro g hg
    rcases List.mem_append.mp hg with hg | hg
    · exact (h.reached g (List.mem_append_left _ hg)).cell
    · obtain rfl := List.mem_singleton.mp hg
      exact (h.reached r (by simp)).wider hrow
  ordered := by
    obtain ⟨hfirst, -, hcross⟩ := List.pairwise_append.mp h.ordered
    refine List.pairwise_append.mpr ⟨hfirst, List.pairwise_singleton _ _, fun a ha b hb => ?_⟩
    obtain rfl := List.mem_singleton.mp hb
    exact (hcross a ha r (by simp)).congr_start rfl rfl

/-- No region stands before itself. -/
theorem nodup (h : Packed done n regions) : regions.Nodup :=
  h.ordered.imp fun hab heq => hab.start_ne ⟨congrArg row heq, congrArg col heq⟩

/-- A region lengthened by a mark stays clear of those behind it: one in its column would start lower
    and above the mark, or in the row in progress, which has not passed that column. -/
theorem longer_precedes {k b : Region} (hb : b.Reached done n) (h : k.Precedes b) (hcol : k.col = n)
    (hlow : b.col = n → b.row < done.length → b.row ≤ k.row) : k.longer.Precedes b where
  row_le := h.row_le
  start_ne := h.start_ne
  right := h.right
  bottom := by
    intro hcols
    have hbcol : b.col = n := hcols.symm.trans hcol
    exfalso
    rcases Int.lt_or_eq_of_le hb.row_le with hrow | hrow
    · have hle := hlow hbcol hrow
      exact h.start_ne ⟨Int.le_antisymm h.row_le hle, hcols⟩
    · have := hb.right_of_last hrow
      have := hb.one_le_width
      omega

/-- The lowest region above a mark in its column may be lengthened. -/
theorem lengthen (h : Packed done n regions) {k : Region} (hcol : k.col = n)
    (hlow : ∀ other ∈ regions, other.col = n → other.row < done.length → other.row ≤ k.row) :
    Packed done (n + 1) (regions.map (lengthened id k)) where
  reached := by
    intro g hg
    obtain ⟨a, ha, rfl⟩ := List.mem_map.mp hg
    unfold lengthened
    split
    · rename_i hak
      exact (h.reached a ha).longer (hak ▸ hcol)
    · exact (h.reached a ha).cell
  ordered := by
    rw [List.pairwise_map]
    refine h.ordered.imp_of_mem fun {a b} ha hb hab => ?_
    have hrow : (lengthened id k b).row = b.row := by
      unfold lengthened
      split <;> rfl
    have hcol' : (lengthened id k b).col = b.col := by
      unfold lengthened
      split <;> rfl
    refine Precedes.congr_start ?_ hrow hcol'
    by_cases hak : a = k
    · subst hak
      rw [lengthened, if_pos rfl]
      exact longer_precedes (h.reached b hb) hab hcol (hlow b hb)
    · rwa [lengthened, if_neg hak]

end Packed

end Region

/-! ## Drafts -/

namespace Draft

/-- A draft behind finished rows with the given numbers of cells and behind some cells of the next
    row. Only a region of that row can still be widened. -/
structure Fits (done : List Nat) (n : Nat) (d : Draft) : Prop where
  row : d.row = done.length
  row_of_current : ∀ g ∈ d.current, g.row = done.length
  packed : Region.Packed done n d.regions

namespace Fits

theorem start : Fits [] 0 Draft.start where
  row := rfl
  row_of_current := nofun
  packed := ⟨nofun, List.Pairwise.nil⟩

variable {done : List Nat} {n : Nat} {d next : Draft}

theorem widen (h : Fits done n d) :
    Fits done (n + 1) { d.advance with current := d.current.map Region.wider } where
  row := h.row
  row_of_current := by
    intro g hg
    obtain ⟨r, hr, rfl⟩ := Option.map_eq_some_iff.mp hg
    exact h.row_of_current r hr
  packed := by
    have hpacked := h.packed
    unfold regions at hpacked ⊢
    cases hcurrent : d.current with
    | none =>
      rw [hcurrent] at hpacked
      exact hpacked.cell
    | some r =>
      rw [hcurrent] at hpacked
      exact hpacked.widen (h.row_of_current r hcurrent)

theorem lengthen (h : Fits done n d) (hcol : d.col = n) :
    Fits done (n + 1)
      { d.advance with
        settled := ((Region.lengthenAbove d.row d.col d.settled).map Prod.snd).getD d.settled } where
  row := h.row
  row_of_current := h.row_of_current
  packed := by
    have hnodup : d.settled.Nodup := (List.nodup_append.mp h.packed.nodup).1
    have heq := Region.lengthenAbove_map id d.row d.col d.settled hnodup
    rw [List.map_id] at heq
    rw [heq]
    cases hk : Region.nearestAbove? id d.settled d.row d.col with
    | none => exact h.packed.cell
    | some k =>
      obtain ⟨⟨hmem, hkcol, hkrow⟩, hlow⟩ := Region.of_nearestAbove?_eq_some id hk
      have hcurrent : d.current.toList.map (Region.lengthened id k) = d.current.toList := by
        have hnot : k ∉ d.current.toList := by
          intro hin
          have := h.row_of_current k (by simpa using hin)
          have := h.row
          dsimp only [id] at hkrow
          omega
        rw [Region.map_lengthened_of_not_mem id hnot, List.map_id]
      have hpacked := h.packed.lengthen (k := k) (hkcol.trans hcol) ?_
      · rw [regions, List.map_append, hcurrent] at hpacked
        exact hpacked
      · intro other hother hocol horow
        rcases List.mem_append.mp hother with hother | hother
        · exact hlow other hother (hocol.trans hcol.symm) (h.row ▸ horow)
        · have := h.row_of_current other (by simpa using hother)
          omega

theorem identifier (h : Fits done n d) (hcol : d.col = n) {text : Text} {o : Nat} {r : Region}
    (hr : Region.ofIdentifier text o d.row d.col = .ok r) :
    Fits done (n + 1) { d.advance with settled := d.regions, current := some r } := by
  have hregion : ∃ constraints, r = ⟨Region.nameOf text, done.length, n, 1, 1, constraints⟩ := by
    rw [Region.ofIdentifier_eq, h.row, hcol] at hr
    cases hexpand : Embedded.expand (Region.specOf text) with
    | error fault => simp [hexpand] at hr
    | ok constraints => exact ⟨constraints, by simpa [hexpand] using hr.symm⟩
  obtain ⟨constraints, rfl⟩ := hregion
  refine ⟨h.row, ?_, h.packed.concat _ _⟩
  rintro g hg
  cases hg
  rfl

/-- One cell keeps a draft within the grid. -/
theorem cell (h : Fits done n d) (hcol : d.col = n) {t : Token} (ht : t.isCell = true)
    (hstep : (d.step t).outcome = .ok next) : Fits done (n + 1) next ∧ next.col = n + 1 := by
  cases t with
  | mark m o =>
    cases m with
    | rowStart => cases ht
    | rowEnd => cases ht
    | lengthen =>
      rw [step_outcome_lengthen] at hstep
      cases hstep
      exact ⟨h.lengthen hcol, congrArg (· + 1) hcol⟩
    | widen =>
      rw [step_outcome_widen] at hstep
      cases hstep
      exact ⟨h.widen, congrArg (· + 1) hcol⟩
    | filler =>
      rw [step_outcome_filler] at hstep
      cases hstep
      exact ⟨⟨h.row, h.row_of_current, h.packed.cell⟩, congrArg (· + 1) hcol⟩
  | identifier text o =>
    rw [step_outcome_identifier] at hstep
    cases hr : Region.ofIdentifier text o d.row d.col with
    | error report => simp [hr, Except.map] at hstep
    | ok r =>
      rw [hr] at hstep
      cases hstep
      exact ⟨h.identifier hcol hr, congrArg (· + 1) hcol⟩

/-- So do the cells of a row and the brace behind them. -/
theorem cells (h : Fits done n d) (hcol : d.col = n) {tokens : List Token}
    (htokens : ∀ t ∈ tokens, t.isCell = true) {o : Nat} {rest : List Token}
    (hrun : (d.run (tokens ++ .mark .rowEnd o :: rest)).outcome = .ok next) :
    ∃ d', Fits (done ++ [n + tokens.length]) 0 d' ∧ (d'.run rest).outcome = .ok next := by
  induction tokens generalizing n d with
  | nil =>
    rw [List.nil_append, run_outcome_cons, step_outcome_rowEnd] at hrun
    refine ⟨_, ⟨?_, ?_, ?_⟩, hrun⟩
    · simp [h.row]
    · intro g hg
      cases hg
    · have := h.packed.rowEnd
      simpa [regions] using this
  | cons t tokens ih =>
    rw [List.cons_append, run_outcome_cons] at hrun
    cases hstep : (d.step t).outcome with
    | error report => simp [hstep, Except.bind] at hrun
    | ok d' =>
      rw [hstep] at hrun
      obtain ⟨hfits, hcol'⟩ := h.cell hcol (htokens t List.mem_cons_self) hstep
      have hrest := ih hfits hcol' (fun u hu => htokens u (List.mem_cons_of_mem _ hu)) hrun
      rwa [Nat.add_right_comm, Nat.add_assoc] at hrest

/-- And so does a run over rows. -/
theorem rows (h : Fits done 0 d) {rows : List Row}
    (hrun : (d.run (rows.flatMap Row.tokens)).outcome = .ok next) :
    Fits (done ++ rows.map fun row => row.cells.length) 0 next := by
  induction rows generalizing done d with
  | nil =>
    rw [List.flatMap_nil, run_outcome_nil] at hrun
    cases hrun
    simpa using h
  | cons row rows ih =>
    rw [List.flatMap_cons, Row.tokens, List.cons_append, run_outcome_cons, step_outcome_rowStart,
      List.append_assoc, List.singleton_append] at hrun
    have hstart : Fits done 0 { d with col := 0 } := ⟨h.row, h.row_of_current, h.packed⟩
    obtain ⟨d', hfits, hrest⟩ := hstart.cells rfl row.cells_isCell hrun
    have := ih hfits hrest
    simpa using this

end Fits

end Draft

/-! ## Sketches -/

/-- The regions of a sketch made of rows lie in the grid of these rows, however odd the marks in them.
    They stand in the order of their rows; no two start in the same cell, and two that start in one
    row or in one column are apart there. -/
theorem Region.inside_and_ordered_of_read (sketch : Text) (rows : List Row) (registry : Registry)
    (hrows : Token.scan sketch = rows.flatMap Row.tokens)
    (hread : (Registry.read sketch).outcome = .ok registry) :
    (∀ g ∈ registry.regions, g.Inside (rows.map fun row => row.cells.length)) ∧
      registry.regions.Pairwise Region.Precedes := by
  obtain ⟨d, hrun, hregions⟩ := Geometry.run_of_read hread
  rw [hrows] at hrun
  have hfits := Draft.Fits.start.rows hrun
  rw [List.nil_append] at hfits
  rw [hregions]
  refine ⟨fun g hg => ?_, hfits.packed.ordered⟩
  have hg := hfits.packed.reached g hg
  refine hg.of_append ?_
  have := hg.above
  have := hg.col_nonneg
  omega

/-- A mark widens across a gap, one has nothing above it and one nothing to its left, and the region
    that starts below another takes the lengthening mark. -/
theorem Region.inside_and_ordered_of_odd_marks :
    let sketch := "\x7ba|+\x7d\x7bb-+\x7d\x7b|+\x7d".toList
    let rows : List Row :=
      [⟨0, [.identifier ['a'] 1, .mark .lengthen 2, .mark .widen 3], 4, by decide⟩,
        ⟨5, [.identifier ['b'] 6, .mark .filler 7, .mark .widen 8], 9, by decide⟩,
        ⟨10, [.mark .lengthen 11, .mark .widen 12], 13, by decide⟩]
    let regions : List Region := [⟨['a'], 0, 0, 2, 1, []⟩, ⟨['b'], 1, 0, 2, 2, []⟩]
    Token.scan sketch = rows.flatMap Row.tokens ∧
      (Registry.read sketch).outcome = .ok (Registry.ofList regions) ∧
      (∀ g ∈ regions, g.Inside [3, 3, 2]) ∧ regions.Pairwise Region.Precedes := by
  intro sketch rows regions
  exact ⟨rfl, rfl,
    Region.inside_and_ordered_of_read sketch rows (Registry.ofList regions) rfl rfl⟩

end GridSketch
