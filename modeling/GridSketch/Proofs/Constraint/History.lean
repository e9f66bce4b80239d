/-
  Records by their history: the pairs that were carried out to make them of the standard record.

  Constraints reach a record as single pairs, as texts and as arguments, through the defaults of a
  placer and through placements. Whichever way they take, and whether the work ends early or not, the
  record has the effect of the pairs that were carried out, in order, and these can all be read.

  * `Record.applyPairs_replays`: the pairs that a list of pairs reports as carried out.
  * `Record.Made`: the ways to make a record; one constructor for each.
  * `Record.Made.replays`, `Record.Made.decides`: records that are made, as a whole and field by field.
  * `Record.Made.get_of_read`: what reading guarantees of a value holds in every record that is made.
-/
import GridSketch.Proofs.Constraint.Fields
import GridSketch.Proofs.Placement

namespace GridSketch

/-! ## Names in lower case -/

theorem Mnemonic.lower_spelling : ∀ m ∈ table, Text.lower m.spelling = m.spelling := by
  decide +kernel

/-- A known name stays known in lower case. -/
theorem Assignment.read_lower {name value : Text} {a : Assignment} (h : read name value = .ok a) :
    read (Text.lower name) value = .ok a := by
  obtain ⟨target, htarget, hread⟩ := target_of_read h
  have hlower : Text.lower (Text.lower name) = Text.lower name := by
    rw [Mnemonic.target?] at htarget
    obtain ⟨m, hm, -⟩ := Option.map_eq_some_iff.mp htarget
    have hspelling : m.spelling = Text.lower name := by simpa using List.find?_some hm
    rw [← hspelling]
    exact Mnemonic.lower_spelling m (List.mem_of_find?_eq_some hm)
  rw [read, hlower, htarget]
  exact hread

namespace Record

/-! ## Pairs carried out -/

/-- Pairs that can all be read make a record of another one. -/
structure Replays (done : List (Text × Text)) (old new : Record) : Prop where
  readable : done.findSome? faultOf = none
  record : new = done.foldl carryOut old

namespace Replays

theorem nil (r : Record) : Replays [] r r := ⟨rfl, rfl⟩

theorem append {first second : List (Text × Text)} {r s t : Record} (h : Replays first r s)
    (h' : Replays second s t) : Replays (first ++ second) r t where
  readable := by
    rw [List.findSome?_append, h.readable, h'.readable]
    rfl
  record := by rw [h'.record, h.record, List.foldl_append]

/-- A pair that can be read. -/
theorem single {name value : Text} {a : Assignment} (h : Assignment.read name value = .ok a)
    (r : Record) : Replays [(name, value)] r (a.apply r) where
  readable := by simp [faultOf, h]
  record := by simp [carryOut, h]

end Replays

/-- The pairs reported as carried out are those that made the record. -/
theorem applyPairs_replays (r : Record) (pairs : List (Text × Text)) :
    Replays (r.applyPairs pairs).done r (r.applyPairs pairs).record := by
  induction pairs generalizing r with
  | nil => exact Replays.nil r
  | cons pair rest ih =>
    obtain ⟨name, value⟩ := pair
    rw [applyPairs]
    cases hread : Assignment.read name value with
    | error fault => exact Replays.nil r
    | ok a => exact (Replays.single (Assignment.read_lower hread) r).append (ih (a.apply r))

theorem applyText_replays (r : Record) (t : Text) :
    Replays (r.applyText t).done r (r.applyText t).record := by
  rw [applyText]
  cases pairUp (Text.words t) with
  | error last => exact Replays.nil r
  | ok pairs => exact r.applyPairs_replays pairs

theorem applyParts_replays (r : Record) (parts : List Part) :
    Replays (r.applyParts parts).done r (r.applyParts parts).record :=
  r.applyText_replays (Part.join parts)

/-! ## Records that are made -/

/-- The records that constraints make of the standard one, each with the pairs that were carried out
    on the way. Work that ends early makes a record too. -/
inductive Made : List (Text × Text) → Record → Prop where
  | standard : Made [] Record.standard
  | pair {done : List (Text × Text)} {r : Record} {name value : Text} {a : Assignment}
      (h : Made done r) (hread : Assignment.read name value = .ok a) :
      Made (done ++ [(name, value)]) (a.apply r)
  | text {done : List (Text × Text)} {r : Record} (h : Made done r) (t : Text) :
      Made (done ++ (r.applyText t).done) (r.applyText t).record
  | parts {done : List (Text × Text)} {r : Record} (h : Made done r) (parts : List Part) :
      Made (done ++ (r.applyParts parts).done) (r.applyParts parts).record
  /-- The defaults of a new placer. -/
  | created {parts : List Part} {placer : Placer}
      (h : (Placer.create parts).outcome = .ok placer) :
      Made (Record.standard.applyParts parts).done placer.defaults
  /-- The defaults of a placer that were adjusted. -/
  | adjusted {done : List (Text × Text)} {placer : Placer} (h : Made done placer.defaults)
      (parts : List Part) :
      Made (done ++ (placer.defaults.applyParts parts).done)
        (placer.step (.adjustDefaults parts)).1.defaults
  /-- A placement at a cell. -/
  | placedAt {done : List (Text × Text)} {placer : Placer} {row col : Int} {parts : List Part}
      {p : Placement} (h : Made done placer.defaults)
      (hplace : (placer.placeAt row col parts).outcome = .ok p) :
      Made (done ++ (placer.defaults.applyParts parts).done) p.constraints
  /-- A placement of a region. -/
  | placed {done : List (Text × Text)} {placer : Placer} {name : Text} {g : Region}
      {parts : List Part} {p : Placement} (h : Made done placer.defaults)
      (hregion : placer.region name = .ok g)
      (hplace : (placer.place name parts).outcome = .ok p) :
      Made (done ++ (placer.defaults.applyText (g.mergedConstraints parts)).done) p.constraints

end Record

/-- What is made of the record of constraints, if they do not fail. -/
theorem Applied.eq_of_outcome {α : Type} {a : Applied} {f : Record → α} {x : α}
    (h : (a.traced >>= fun r => pure (f r)).outcome = .ok x) : x = f a.record := by
  rw [Traced.outcome_bind, Placer.outcome_traced] at h
  split at h
  · exact (Except.ok.inj h).symm
  · cases h

namespace Placer

theorem defaults_of_create {parts : List Part} {placer : Placer}
    (h : (create parts).outcome = .ok placer) :
    placer.defaults = (Record.standard.applyParts parts).record :=
  congrArg defaults (Applied.eq_of_outcome h)

theorem constraints_of_placeAt {placer : Placer} {row col : Int} {parts : List Part} {p : Placement}
    (h : (placer.placeAt row col parts).outcome = .ok p) :
    p.constraints = (placer.defaults.applyParts parts).record :=
  congrArg Placement.constraints (Applied.eq_of_outcome h)

theorem constraints_of_place {placer : Placer} {name : Text} {g : Region} {parts : List Part}
    {p : Placement} (hregion : placer.region name = .ok g)
    (h : (placer.place name parts).outcome = .ok p) :
    p.constraints = (placer.defaults.applyText (g.mergedConstraints parts)).record := by
  rw [outcome_place hregion] at h
  split at h
  · cases h
    rfl
  · cases h

end Placer

namespace Record.Made

variable {done : List (Text × Text)} {r : Record}

/-- A record is made by the pairs of its history. -/
theorem replays (h : Made done r) : Replays done Record.standard r := by
  induction h with
  | standard => exact Replays.nil _
  | pair h hread ih => exact ih.append (Replays.single hread _)
  | text h t ih => exact ih.append (applyText_replays _ t)
  | parts h parts ih => exact ih.append (applyParts_replays _ parts)
  | created h =>
    rw [Placer.defaults_of_create h]
    exact applyParts_replays _ _
  | adjusted h parts ih => exact ih.append (applyParts_replays _ parts)
  | placedAt h hplace ih =>
    rw [Placer.constraints_of_placeAt hplace]
    exact ih.append (applyParts_replays _ _)
  | placed h hregion hplace ih =>
    rw [Placer.constraints_of_place hregion hplace]
    exact ih.append (applyText_replays _ _)

/-- Each field has the value that the last pair for it denotes, or its standard value. -/
theorem decides (h : Made done r) (f : Field) :
    Decides f done (Record.standard.get f) (r.get f) := by
  obtain ⟨hreadable, rfl⟩ := h.replays
  exact decides_foldl_carryOut hreadable Record.standard f

/-- What holds of all values of a field that can be read, and of its standard value, holds of its value
    in every record that is made. -/
theorem get_of_read (h : Made done r) (f : Field) {p : f.Value → Prop}
    (hread : ∀ t v, f.read? t = some v → p v) (hstandard : p (Record.standard.get f)) :
    p (r.get f) := by
  have hdecides := h.decides f
  rw [Decides] at hdecides
  split at hdecides
  · exact hread _ _ hdecides
  · rwa [hdecides]

end Record.Made

end GridSketch
