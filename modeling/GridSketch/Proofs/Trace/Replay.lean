/-
  A trace carried out again leads to what it tells of.

  Every effect is told once, and nothing else is. So the pairs that a trace tells make the record that was
  reached, whether all constraints were carried out or not. And the regions that it tells, set to the sizes
  that they grew to, are those of the sketch, as long as names tell them apart: the names so far are always
  the first of all names, so a name that occurs once in the end occurs at most once on the way.

  * `Record.applyPairs_told`: the pairs that arguments tell, carried out again.
  * `Region.Told`: regions that a trace makes of others; `Draft.told_step`, `Draft.told_run`: those of a
    draft, by induction on the tokens.
  * `Outline.replay`, `Region.Told.replay`: the steps of such a trace, carried out again.
  * `Trace.shown_replays`: what is shown.
-/
import GridSketch.Proofs.Constraint.History
import GridSketch.Proofs.Constraint.Sequence
import GridSketch.Proofs.Sketch.Geometry
import GridSketch.Proofs.Sketch.Scan
import GridSketch.Proofs.Trace.Lines

namespace GridSketch

theorem Traced.trace_bind_of_ok {ε α β : Type} {x : Traced ε α} {a : α} (h : x.outcome = .ok a)
    (f : α → Traced ε β) : (x >>= f).trace = x.trace ++ (f a).trace := by
  obtain ⟨trace, outcome⟩ := x
  cases h
  rfl

/-! ## Pairs -/

theorem mem_of_mem_pairsOf {ws : List Text} {pair : Text × Text} (h : pair ∈ pairsOf ws) :
    pair.1 ∈ ws ∧ pair.2 ∈ ws := by
  induction ws using pairsOf.induct with
  | case1 name value rest ih =>
    rw [pairsOf] at h
    rcases List.mem_cons.mp h with rfl | h
    · simp
    · obtain ⟨hname, hvalue⟩ := ih h
      simp [hname, hvalue]
  | case2 ws hws =>
    rw [pairsOf.eq_2 ws hws] at h
    cases h

/-- The name of a pair that can be read is one of the table, in lower case. -/
theorem exists_mnemonic_of_readable {pair : Text × Text} (h : faultOf pair = none) :
    ∃ m ∈ Mnemonic.table, Text.lower pair.1 = m.spelling := by
  rw [faultOf] at h
  cases hread : Assignment.read pair.1 pair.2 with
  | error fault => simp [hread] at h
  | ok a =>
    obtain ⟨target, htarget, -⟩ := Assignment.target_of_read hread
    obtain ⟨m, hm, -⟩ := Option.map_eq_some_iff.mp htarget
    have hspelling := List.find?_some hm
    exact ⟨m, List.mem_of_find?_eq_some hm, (beq_iff_eq.mp hspelling).symm⟩

namespace Part

/-- The pairs of arguments that are carried out, with their names in lower case. -/
def told (parts : List Part) : List (Text × Text) :=
  (carried parts).map fun pair => (Text.lower pair.1, pair.2)

theorem readable_of_mem_carried {parts : List Part} {pair : Text × Text} (h : pair ∈ carried parts) :
    pair ∈ pairs parts ∧ faultOf pair = none := by
  rw [carried] at h
  split at h
  · cases h
  · have hreadable := List.mem_takeWhile_imp h
    exact ⟨(List.takeWhile_sublist _).subset h, Option.isNone_iff_eq_none.mp hreadable⟩

/-- The names that are told are those of the table, and the values are words. -/
theorem names_of_mem_told {parts : List Part} {pair : Text × Text} (h : pair ∈ told parts) :
    (∃ m ∈ Mnemonic.table, pair.1 = m.spelling) ∧ Text.IsWord pair.2 := by
  obtain ⟨read, hread, rfl⟩ := List.mem_map.mp h
  obtain ⟨hmem, hreadable⟩ := readable_of_mem_carried hread
  exact ⟨exists_mnemonic_of_readable hreadable, isWord_of_mem_words (mem_of_mem_pairsOf hmem).2⟩

theorem lower_of_mem_told {parts : List Part} {pair : Text × Text} (h : pair ∈ told parts) :
    Text.lower pair.1 = pair.1 := by
  obtain ⟨⟨m, hm, hname⟩, -⟩ := names_of_mem_told h
  rw [hname, Mnemonic.lower_spelling m hm]

/-- Nothing is told of arguments with a word left over. -/
theorem told_of_odd {parts : List Part} (h : (words parts).length % 2 = 1) : told parts = [] := by
  rw [told, carried, if_pos h]
  rfl

/-- The pairs before the first that cannot be read are told, and no others. -/
theorem told_of_even {parts : List Part} {before rest : List (Text × Text)}
    (heven : (words parts).length % 2 = 0) (hpairs : pairs parts = before ++ rest)
    (hbefore : before.findSome? faultOf = none) (hrest : ∀ first ∈ rest.head?, faultOf first ≠ none) :
    told parts = before.map fun pair => (Text.lower pair.1, pair.2) := by
  have hreadable : ∀ pair ∈ before, (faultOf pair).isNone = true := fun pair hpair => by
    rw [List.findSome?_eq_none_iff.mp hbefore pair hpair]
    rfl
  have hend : (rest.takeWhile fun pair => (faultOf pair).isNone) = [] := by
    cases rest with
    | nil => rfl
    | cons first later =>
      exact List.takeWhile_cons_of_neg (by simpa using hrest first rfl)
  rw [told, carried, if_neg (by omega), hpairs, List.takeWhile_append_of_pos hreadable, hend,
    List.append_nil]

end Part

namespace Record

theorem done_applyParts (r : Record) (parts : List Part) :
    (r.applyParts parts).done = Part.told parts := by
  have hwords := Part.words_join parts
  rw [applyParts, Part.told, Part.carried]
  rcases Nat.mod_two_eq_zero_or_one (Part.words parts).length with heven | hodd
  · rw [applyText_of_even (by rw [hwords, heven]), done_applyPairs, hwords, if_neg (by omega)]
    rfl
  · obtain ⟨last, -, hlast⟩ := applyText_of_odd (t := Part.join parts) (by rw [hwords, hodd])
    rw [hlast, if_pos hodd]
    rfl

theorem trace_applyParts (r : Record) (parts : List Part) :
    (r.applyParts parts).traced.trace = (Part.told parts).map fun pair => .applied pair.1 pair.2 := by
  rw [← r.done_applyParts]
  rfl

/-- The pairs that arguments tell make the record that the arguments make, and can all be read. -/
theorem applyPairs_told (r : Record) (parts : List Part) :
    r.applyPairs (Part.told parts) = ⟨(r.applyParts parts).record, Part.told parts, none⟩ := by
  have hreplays := r.applyParts_replays parts
  rw [done_applyParts] at hreplays
  have hrecord : (r.applyPairs (Part.told parts)).record = (r.applyParts parts).record :=
    (record_applyPairs_of_readable hreplays.readable r).trans hreplays.record.symm
  have hfault : (r.applyPairs (Part.told parts)).fault = none :=
    (fault_applyPairs r _).trans hreplays.readable
  have hdone : (r.applyPairs (Part.told parts)).done = Part.told parts := by
    have hreadable : ∀ pair ∈ Part.told parts, (faultOf pair).isNone = true := fun pair hpair => by
      rw [List.findSome?_eq_none_iff.mp hreplays.readable pair hpair]
      rfl
    rw [done_applyPairs, List.takeWhile_eq_self_iff.mpr hreadable]
    refine (List.map_congr_left fun pair hpair => ?_).trans (List.map_id _)
    rw [Part.lower_of_mem_told hpair]
    rfl
  calc r.applyPairs (Part.told parts)
      = ⟨(r.applyPairs (Part.told parts)).record, (r.applyPairs (Part.told parts)).done,
          (r.applyPairs (Part.told parts)).fault⟩ := rfl
    _ = ⟨(r.applyParts parts).record, Part.told parts, none⟩ := by rw [hrecord, hdone, hfault]

end Record

/-! ## Regions -/

/-- Where a region is and how large. -/
structure Outline where
  name : Text
  row : Int
  col : Int
  width : Int
  height : Int
  deriving DecidableEq, Repr

/-- Where a region is and how large. -/
def Region.outline (r : Region) : Outline := ⟨r.name, r.row, r.col, r.width, r.height⟩

namespace Outline

/-- Changes the regions of a name. -/
def set (name : Text) (change : Outline → Outline) (outlines : List Outline) : List Outline :=
  outlines.map fun o => if o.name = name then change o else o

/-- Carries out a step: a region that is found has one cell, and one that grew has the new size. -/
def replay (outlines : List Outline) : Event → List Outline
  | .found name row col => outlines ++ [⟨name, row, col, 1, 1⟩]
  | .widened name width => set name (fun o => { o with width := width }) outlines
  | .lengthened name height => set name (fun o => { o with height := height }) outlines
  | .applied _ _ => outlines
  | .merged _ _ => outlines

/-- Of regions with different names, only one is changed by its name. -/
theorem set_of_nodup {before after : List Region} {r : Region}
    (h : ((before ++ r :: after).map Region.name).Nodup) (change : Outline → Outline) :
    set r.name change ((before ++ r :: after).map Region.outline) =
      before.map Region.outline ++ change r.outline :: after.map Region.outline := by
  have hother : ∀ {regions : List Region}, r.name ∉ regions.map Region.name →
      set r.name change (regions.map Region.outline) = regions.map Region.outline := by
    intro regions hregions
    rw [set, List.map_map]
    refine List.map_congr_left fun other ho => if_neg fun hname => hregions ?_
    exact List.mem_map.mpr ⟨other, ho, hname⟩
  rw [List.map_append, List.map_cons, List.perm_middle.nodup_iff, List.nodup_cons, List.mem_append,
    not_or] at h
  have hbefore := hother h.1.1
  have hafter := hother h.1.2
  rw [set] at hbefore hafter ⊢
  rw [List.map_append, List.map_cons, List.map_append, List.map_cons, hbefore, hafter]
  exact congrArg (_ ++ · :: _) (if_pos rfl)

end Outline

namespace Region

/-- Regions that are made of others by steps, with the trace of the steps. -/
inductive Told : List Region → List Event → List Region → Prop where
  | same (regions : List Region) : Told regions [] regions
  | found (regions : List Region) (name : Text) (row col : Int) (constraints : Text) :
      Told regions [.found name row col] (regions ++ [⟨name, row, col, 1, 1, constraints⟩])
  | widened (before : List Region) (r : Region) (after : List Region) :
      Told (before ++ r :: after) [.widened r.name r.wider.width] (before ++ r.wider :: after)
  | lengthened (before : List Region) (r : Region) (after : List Region) :
      Told (before ++ r :: after) [.lengthened r.name r.longer.height] (before ++ r.longer :: after)
  | append {first second third : List Region} {trace later : List Event}
      (h : Told first trace second) (h' : Told second later third) :
      Told first (trace ++ later) third

namespace Told

variable {first second : List Region} {trace : List Event}

/-- The names so far are the first names. -/
theorem names (h : Told first trace second) : first.map Region.name <+: second.map Region.name := by
  induction h with
  | same regions => exact List.prefix_rfl
  | found regions name row col constraints => simp
  | widened before r after => simp [wider]
  | lengthened before r after => simp [longer]
  | append h h' ih ih' => exact ih.trans ih'

/-- The steps carried out again, if names tell the regions apart. -/
theorem replay (h : Told first trace second) (hnodup : (second.map Region.name).Nodup) :
    trace.foldl Outline.replay (first.map Region.outline) = second.map Region.outline := by
  induction h with
  | same regions => rfl
  | found regions name row col constraints => simp [Outline.replay, outline]
  | widened before r after =>
    have hnames : ((before ++ r :: after).map Region.name).Nodup := by simpa [wider] using hnodup
    refine (Outline.set_of_nodup hnames _).trans ?_
    rw [List.map_append, List.map_cons]
    rfl
  | lengthened before r after =>
    have hnames : ((before ++ r :: after).map Region.name).Nodup := by simpa [longer] using hnodup
    refine (Outline.set_of_nodup hnames _).trans ?_
    rw [List.map_append, List.map_cons]
    rfl
  | append h h' ih ih' =>
    have hreached := ih (hnodup.sublist h'.names.sublist)
    rw [List.foldl_append, hreached, ih' hnodup]

/-- Every step names a region. -/
theorem isSpaceless (h : Told first trace second) (hnames : ∀ r ∈ second, ' ' ∉ r.name) :
    ∀ e ∈ trace, e.IsSpaceless := by
  induction h with
  | same regions => exact nofun
  | found regions name row col constraints =>
    have hname := hnames _ (List.mem_append_right regions List.mem_cons_self)
    exact List.forall_mem_singleton.mpr hname
  | widened before r after =>
    have hname := hnames _ (List.mem_append_right before List.mem_cons_self)
    exact List.forall_mem_singleton.mpr hname
  | lengthened before r after =>
    have hname := hnames _ (List.mem_append_right before List.mem_cons_self)
    exact List.forall_mem_singleton.mpr hname
  | append h h' ih ih' =>
    have hreached := ih fun r hr => by
      obtain ⟨other, hother, hname⟩ := List.mem_map.mp (h'.names.subset (List.mem_map_of_mem hr))
      exact hname ▸ hnames other hother
    exact List.forall_mem_append.mpr ⟨hreached, ih' hnames⟩

end Told

/-- Lengthening changes one of the regions. -/
theorem lengthenAt_eq_some {row col : Int} {regions later : List Region} {grown : Region}
    (h : lengthenAt row col regions = some (grown, later)) :
    ∃ before r after, regions = before ++ r :: after ∧ grown = r.longer ∧
      later = before ++ r.longer :: after := by
  induction regions generalizing later with
  | nil => cases h
  | cons r rest ih =>
    rw [lengthenAt] at h
    split at h
    · cases h
      exact ⟨[], r, rest, rfl, rfl, rfl⟩
    · obtain ⟨⟨found, others⟩, hrest, heq⟩ := Option.map_eq_some_iff.mp h
      cases heq
      obtain ⟨before, first, after, rfl, hgrown, rfl⟩ := ih hrest
      exact ⟨r :: before, first, after, rfl, hgrown, rfl⟩

theorem lengthenAbove_eq_some {row col : Int} {regions later : List Region} {grown : Region}
    (h : lengthenAbove row col regions = some (grown, later)) :
    ∃ before r after, regions = before ++ r :: after ∧ grown = r.longer ∧
      later = before ++ r.longer :: after := by
  obtain ⟨above, -, hat⟩ := Option.bind_eq_some_iff.mp h
  exact lengthenAt_eq_some hat

end Region

namespace Draft

/-- A token that can be read changes the regions as its steps tell. -/
theorem told_step {d next : Draft} {t : Token} (h : (d.step t).outcome = .ok next) :
    Region.Told d.regions (d.step t).trace next.regions := by
  obtain ⟨row, col, settled, current⟩ := d
  cases t with
  | mark m o =>
    cases m with
    | rowStart =>
      obtain rfl := Except.ok.inj h
      exact .same _
    | rowEnd =>
      obtain rfl := Except.ok.inj h
      change Region.Told _ [] (settled ++ current.toList ++ [])
      rw [List.append_nil]
      exact .same _
    | filler =>
      obtain rfl := Except.ok.inj h
      exact .same _
    | widen =>
      cases current with
      | none =>
        obtain rfl := Except.ok.inj h
        exact .same _
      | some r =>
        obtain rfl := Except.ok.inj h
        exact .widened settled r []
    | lengthen =>
      rw [step] at h ⊢
      dsimp only at h ⊢
      cases habove : Region.lengthenAbove row col settled with
      | none =>
        rw [habove] at h
        obtain rfl := Except.ok.inj h
        exact .same _
      | some found =>
        obtain ⟨grown, later⟩ := found
        rw [habove] at h
        obtain rfl := Except.ok.inj h
        obtain ⟨before, r, after, rfl, rfl, rfl⟩ := Region.lengthenAbove_eq_some habove
        rw [regions, regions, List.append_assoc, List.append_assoc]
        exact .lengthened before r (after ++ current.toList)
  | identifier text o =>
    rw [step, Region.ofIdentifier_eq] at h ⊢
    dsimp only at h ⊢
    cases hexpand : Embedded.expand (Region.specOf text) with
    | error fault => rw [hexpand] at h; cases h
    | ok constraints =>
      rw [hexpand] at h
      obtain rfl := Except.ok.inj h
      exact .found (regions _) (Region.nameOf text) row col constraints

/-- Tokens that can be read change the regions as their steps tell. -/
theorem told_run {d final : Draft} {tokens : List Token} (h : (d.run tokens).outcome = .ok final) :
    Region.Told d.regions (d.run tokens).trace final.regions := by
  induction tokens generalizing d with
  | nil =>
    obtain rfl := Except.ok.inj h
    exact .same _
  | cons t rest ih =>
    rw [run_outcome_cons] at h
    cases hstep : (d.step t).outcome with
    | error report => rw [hstep] at h; cases h
    | ok next =>
      rw [hstep] at h
      rw [run, List.foldlM_cons, Traced.trace_bind_of_ok hstep]
      exact (told_step hstep).append (ih h)

end Draft

namespace Registry

/-- The names of regions have no blanks. -/
theorem space_notMem_names {sketch : Text} {registry : Registry}
    (h : (read sketch).outcome = .ok registry) : ∀ r ∈ registry.regions, ' ' ∉ r.name := by
  rw [(Geometry.regions_eq_of_read sketch registry h).1, List.forall_mem_map]
  intro i hi hspace
  obtain ⟨hlt, hidentifier⟩ := Geometry.mem_identifiers.mp hi
  have htext : ' ' ∈ Geometry.textAt (Token.scan sketch) i :=
    (List.takeWhile_sublist _).subset hspace
  rw [List.getElem?_eq_getElem hlt, Option.any_some] at hidentifier
  rw [Geometry.textAt, List.getElem?_eq_getElem hlt] at htext
  have hmem : (Token.scan sketch)[i] ∈ Token.scan sketch := List.getElem_mem hlt
  cases htoken : (Token.scan sketch)[i] with
  | mark m o => rw [htoken] at hidentifier; cases hidentifier
  | identifier text o =>
    rw [htoken] at htext hmem
    have hplain := Token.isPlain_of_mem_scanFrom sketch 0 text o hmem ' ' htext
    exact absurd hplain (by decide)

/-- The regions of a sketch are made of none by its trace. -/
theorem told_read {sketch : Text} {registry : Registry} (h : (read sketch).outcome = .ok registry) :
    Region.Told [] (read sketch).trace registry.regions := by
  obtain ⟨d, hrun, hregions⟩ := Geometry.run_of_read h
  rw [read, Traced.trace_bind_of_ok hrun, hregions]
  exact (Draft.told_run hrun).append (.same d.regions)

end Registry

/-! ## What is shown -/

namespace Trace

/-- Steps that are shown lead to what they tell of. Those of constraints are the pairs that were carried
    out, in order: all that come before the first that cannot be read, and none if a word is left over.
    Whether the constraints fail or not, these pairs make of the same record what the constraints made
    of it. Those of a sketch that can be read, with a name of its own for every region, make the regions
    in order, each with its place and its size. -/
theorem shown_replays {debug : Option Text} {silenced : Bool} (hshown : enabled debug silenced = true) :
    (∀ (r : Record) (parts : List Part),
        read? (shown debug silenced (r.applyParts parts).traced.trace) =
            some ((Part.told parts).map fun pair => .applied pair.1 pair.2) ∧
          r.applyPairs (Part.told parts) = ⟨(r.applyParts parts).record, Part.told parts, none⟩ ∧
          ((Part.words parts).length % 2 = 1 → Part.told parts = []) ∧
          ∀ before rest, (Part.words parts).length % 2 = 0 → Part.pairs parts = before ++ rest →
            before.findSome? faultOf = none → (∀ first ∈ rest.head?, faultOf first ≠ none) →
            Part.told parts = before.map fun pair => (Text.lower pair.1, pair.2)) ∧
      ∀ sketch registry, (Registry.read? sketch).outcome = .ok registry → registry.names.Nodup →
        ∃ steps, read? (shown debug silenced (Registry.read? sketch).trace) = some steps ∧
          steps.foldl Outline.replay [] = registry.toList.map Region.outline := by
  refine ⟨fun r parts => ⟨?_, r.applyPairs_told parts, Part.told_of_odd, fun _ _ => Part.told_of_even⟩,
    fun sketch registry hread hnodup => ?_⟩
  · rw [r.trace_applyParts]
    refine read?_shown hshown (List.forall_mem_map.mpr fun pair hpair => ?_)
    obtain ⟨⟨m, hm, hname⟩, hvalue⟩ := Part.names_of_mem_told hpair
    have hspelling : ∀ m ∈ Mnemonic.table, ' ' ∉ m.spelling := by decide
    refine ⟨hname ▸ hspelling m hm, fun hspace => ?_⟩
    exact absurd (hvalue.2 ' ' hspace) (by decide)
  · cases sketch with
    | none => cases hread
    | some sketch =>
      have htold := Registry.told_read hread
      exact ⟨_, read?_shown hshown (htold.isSpaceless (Registry.space_notMem_names hread)),
        htold.replay hnodup⟩

/-- Two pairs are carried out before one that is no integer; and of three regions two grow, of which one
    grows both ways. -/
theorem shown_replays_grown :
    let debug := some "true".toList
    let parts : List Part := [.text "W* 2 a".toList, .text "TOP px".toList, .text "1.5 py 1".toList]
    let told := [("w*".toList, "2".toList), ("a".toList, "TOP".toList)]
    let sketch := "\x7ba:wx1 + b\x7d \x7b| c +\x7d".toList
    enabled debug false = true ∧
      read? (shown debug false (Record.standard.applyParts parts).traced.trace) =
        some [.applied "w*".toList "2".toList, .applied "a".toList "TOP".toList] ∧
      Record.standard.applyPairs told = ⟨(Record.standard.applyParts parts).record, told, none⟩ ∧
      ∃ steps, read? (shown debug false (Registry.read? (some sketch)).trace) = some steps ∧
        steps.foldl Outline.replay [] =
          [⟨"a".toList, 0, 0, 2, 2⟩, ⟨"b".toList, 0, 2, 1, 1⟩, ⟨"c".toList, 1, 1, 2, 1⟩] := by
  intro debug parts told sketch
  have hshown : enabled debug false = true := by decide
  obtain ⟨hparts, hsketches⟩ := shown_replays hshown
  have htold : Part.told parts = told := by decide +kernel
  obtain ⟨hread, happlied, -⟩ := hparts Record.standard parts
  rw [htold] at hread happlied
  have hregions : (Registry.read? (some sketch)).outcome = .ok (Registry.ofList
      [⟨"a".toList, 0, 0, 2, 2, "wx 1".toList⟩, ⟨"b".toList, 0, 2, 1, 1, []⟩,
        ⟨"c".toList, 1, 1, 2, 1, []⟩]) := rfl
  obtain ⟨steps, hsteps, hreplay⟩ := hsketches (some sketch) _ hregions (by decide)
  exact ⟨hshown, hread, happlied, steps, hsteps, hreplay⟩

end Trace

end GridSketch
