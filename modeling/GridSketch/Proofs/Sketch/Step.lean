/-
  What one token does to a draft: an equation for each kind of token.

  Regions are often listed by keys, such as the positions of their identifiers or the rectangles of
  a drawing. Lengthening then changes the region of one key and keeps the list of keys.

  * `Region.lengthenAbove_map`: the key whose region is lengthened is the first of the lowest ones
    above the cell (`Region.nearestAbove?`).
  * `Draft.run_outcome_cons`: a run is a step and the run of the rest.
-/
import GridSketch.Sketch.Draft
import Mathlib.Data.List.Find

namespace GridSketch

namespace Region

/-- The region with one more row. -/
def longer (r : Region) : Region := { r with height := r.height + 1 }

/-- The region with one more column. -/
def wider (r : Region) : Region := { r with width := r.width + 1 }

variable {κ : Type}

/-- Among the keys whose regions start in the column of a cell and above it, the first that starts
    in the lowest row. -/
def nearestAbove? (region : κ → Region) (keys : List κ) (row col : Int) : Option κ :=
  let above := keys.filter fun k => decide ((region k).col = col ∧ (region k).row < row)
  above.find? fun k => above.all fun other => decide ((region other).row ≤ (region k).row)

theorem rowAbove?_map (region : κ → Region) (row col : Int) (keys : List κ) :
    rowAbove? (keys.map region) row col =
      ((keys.filter fun k => decide ((region k).col = col ∧ (region k).row < row)).map
        fun k => (region k).row).max? := by
  rw [rowAbove?, List.filter_map, List.map_map]
  rfl

/-- A key in the column of a cell and above it, below all others that are, is the nearest. -/
theorem nearestAbove?_eq_some (region : κ → Region) {keys : List κ} {row col : Int} {k : κ}
    (hk : k ∈ keys) (hcol : (region k).col = col) (hrow : (region k).row < row)
    (hlow : ∀ other ∈ keys, (region other).col = col → (region other).row < row → other ≠ k →
      (region other).row < (region k).row) :
    nearestAbove? region keys row col = some k := by
  unfold nearestAbove?
  generalize habove :
    keys.filter (fun k => decide ((region k).col = col ∧ (region k).row < row)) = above
  have hmem : ∀ other, other ∈ above ↔
      other ∈ keys ∧ (region other).col = col ∧ (region other).row < row := by
    intro other
    rw [← habove, List.mem_filter, decide_eq_true_eq]
  have hkabove : k ∈ above := (hmem k).mpr ⟨hk, hcol, hrow⟩
  have hbelow : ∀ other ∈ above, other ≠ k → (region other).row < (region k).row := by
    intro other ho hne
    obtain ⟨hkeys, hocol, horow⟩ := (hmem other).mp ho
    exact hlow other hkeys hocol horow hne
  cases hf : above.find? fun k => above.all fun other =>
      decide ((region other).row ≤ (region k).row) with
  | none =>
    exfalso
    refine List.find?_eq_none.mp hf k hkabove (List.all_eq_true.mpr fun other ho => ?_)
    rw [decide_eq_true_eq]
    by_cases hne : other = k
    · rw [hne]
    · exact Int.le_of_lt (hbelow other ho hne)
  | some found =>
    have hfound := List.mem_of_find?_eq_some hf
    have hall := List.find?_some hf
    have hle := of_decide_eq_true (List.all_eq_true.mp hall k hkabove)
    by_cases hne : found = k
    · rw [hne]
    · have := hbelow found hfound hne
      omega

/-- The nearest key above a cell: its region starts there, and none that does starts lower. -/
theorem of_nearestAbove?_eq_some (region : κ → Region) {keys : List κ} {row col : Int} {k : κ}
    (h : nearestAbove? region keys row col = some k) :
    (k ∈ keys ∧ (region k).col = col ∧ (region k).row < row) ∧
      ∀ other ∈ keys, (region other).col = col → (region other).row < row →
        (region other).row ≤ (region k).row := by
  simp only [nearestAbove?] at h
  have hmem := List.mem_filter.mp (List.mem_of_find?_eq_some h)
  have hall := List.find?_some h
  simp only [List.all_eq_true] at hall
  refine ⟨⟨hmem.1, of_decide_eq_true hmem.2⟩, fun other ho hcol hrow => ?_⟩
  exact of_decide_eq_true (hall other (List.mem_filter.mpr ⟨ho, decide_eq_true ⟨hcol, hrow⟩⟩))

variable [DecidableEq κ]

/-- The regions of keys after the region of one of them was lengthened. -/
def lengthened (region : κ → Region) (k other : κ) : Region :=
  if other = k then (region other).longer else region other

theorem map_lengthened_of_not_mem (region : κ → Region) {k : κ} {keys : List κ} (h : k ∉ keys) :
    keys.map (lengthened region k) = keys.map region := by
  refine List.map_congr_left fun other ho => ?_
  rw [lengthened, if_neg]
  rintro rfl
  exact h ho

theorem lengthenAt_map (region : κ → Region) (row col : Int) (keys : List κ)
    (hn : keys.Nodup) :
    lengthenAt row col (keys.map region) =
      (keys.find? fun k => decide ((region k).row = row ∧ (region k).col = col)).map fun k =>
        ((region k).longer, keys.map (lengthened region k)) := by
  induction keys with
  | nil => rfl
  | cons key rest ih =>
    obtain ⟨hkey, hrest⟩ := List.nodup_cons.mp hn
    rw [List.map_cons, lengthenAt, List.find?_cons]
    by_cases h : (region key).row = row ∧ (region key).col = col
    · rw [if_pos h, decide_eq_true h]
      simp [map_lengthened_of_not_mem region hkey, lengthened, longer]
    · rw [if_neg h, ih hrest]
      simp only [h, decide_false, Option.map_map]
      cases hf : rest.find? fun k => decide ((region k).row = row ∧ (region k).col = col) with
      | none => rfl
      | some k =>
        have hne : key ≠ k := by
          rintro rfl
          exact hkey (List.mem_of_find?_eq_some hf)
        simp [lengthened, hne]

/-- Lengthening from a cell, for regions that are listed by keys. -/
theorem lengthenAbove_map (region : κ → Region) (row col : Int) (keys : List κ)
    (hn : keys.Nodup) :
    lengthenAbove row col (keys.map region) =
      (nearestAbove? region keys row col).map fun k =>
        ((region k).longer, keys.map (lengthened region k)) := by
  rw [lengthenAbove, rowAbove?_map, nearestAbove?]
  generalize habove :
    keys.filter (fun k => decide ((region k).col = col ∧ (region k).row < row)) = above
  cases hmax : (above.map fun k => (region k).row).max? with
  | none =>
    have hnil : above = [] := by simpa using hmax
    rw [hnil]
    rfl
  | some lowest =>
    obtain ⟨hmem, hle⟩ := List.max?_eq_some_iff.mp hmax
    obtain ⟨top, htop, rfl⟩ := List.mem_map.mp hmem
    have hbelow : (region top).row < row := by
      rw [← habove, List.mem_filter] at htop
      simp_all
    rw [Option.bind_some, lengthenAt_map _ _ _ _ hn, ← habove, List.find?_filter]
    congr 1
    refine List.find?_congr fun k hk => ?_
    -- a key is one of the lowest exactly if it is in the row of the lowest
    have hall : (above.all fun other => decide ((region other).row ≤ (region k).row)) = true ↔
        (region top).row ≤ (region k).row := by
      rw [List.all_eq_true]
      constructor
      · intro h
        simpa using h top htop
      · intro h other ho
        have := hle _ (List.mem_map_of_mem ho)
        simp only [decide_eq_true_eq]
        omega
    simp only [habove, hall, decide_eq_true_eq, decide_eq_decide]
    constructor
    · rintro ⟨hrow, hcol⟩
      omega
    · rintro ⟨⟨hcol, hrow⟩, hlow⟩
      have hk' : k ∈ above := by
        rw [← habove, List.mem_filter]
        exact ⟨hk, by simp [hcol, hrow]⟩
      have := hle _ (List.mem_map_of_mem hk')
      omega

end Region

namespace Draft

theorem step_outcome_rowStart (d : Draft) (o : Nat) :
    (d.step (.mark .rowStart o)).outcome = .ok { d with col := 0 } := rfl

theorem step_outcome_rowEnd (d : Draft) (o : Nat) :
    (d.step (.mark .rowEnd o)).outcome =
      .ok { d with row := d.row + 1, settled := d.regions, current := none } := rfl

theorem step_outcome_filler (d : Draft) (o : Nat) :
    (d.step (.mark .filler o)).outcome = .ok d.advance := rfl

theorem step_outcome_widen (d : Draft) (o : Nat) :
    (d.step (.mark .widen o)).outcome =
      .ok { d.advance with current := d.current.map Region.wider } := by
  obtain ⟨row, col, settled, current⟩ := d
  cases current <;> rfl

theorem step_outcome_lengthen (d : Draft) (o : Nat) :
    (d.step (.mark .lengthen o)).outcome =
      .ok { d.advance with
            settled := ((Region.lengthenAbove d.row d.col d.settled).map Prod.snd).getD d.settled } := by
  rw [step]
  cases h : Region.lengthenAbove d.row d.col d.settled <;> rfl

theorem step_outcome_identifier (d : Draft) (text : Text) (o : Nat) :
    (d.step (.identifier text o)).outcome =
      (Region.ofIdentifier text o d.row d.col).map fun r =>
        { d.advance with settled := d.regions, current := some r } := by
  rw [step, Traced.outcome_bind, Traced.outcome_ofExcept]
  cases Region.ofIdentifier text o d.row d.col <;> rfl

theorem run_outcome_nil (d : Draft) : (d.run []).outcome = .ok d := rfl

theorem run_outcome_cons (d : Draft) (t : Token) (rest : List Token) :
    (d.run (t :: rest)).outcome = (d.step t).outcome.bind fun next => (next.run rest).outcome := by
  rw [run, List.foldlM_cons, Traced.outcome_bind]
  rfl

end Draft

end GridSketch
