/-
  What the command for a placement prints.

  The command works in five stages: it reads its input, applies the defaults, reads the sketch, looks up
  the name, and applies the constraints. If all of them succeed, the run prints the placement that a
  session answers to the same requests, and nothing else. Otherwise it prints nothing but the report of
  the first stage that fails, whatever becomes of the later ones. The environment may ask for the steps or
  not.

  * `Placer.exists_placement_iff`: which placements by name succeed.
  * `CommandLine.Errand.Fails`, `CommandLine.Errand.FailsFirst`: failures of the stages.
  * `CommandLine.Errand.succeeds_or_failsFirst`: all stages succeed, or one fails first.
  * `CommandLine.placement_printed`: what is printed, and when.
-/
import GridSketch.Proofs.CommandLine.Regions
import GridSketch.Proofs.Json.Placements
import GridSketch.Proofs.Session
import GridSketch.Proofs.Sketch.Registry

namespace GridSketch

/-! ## Placers and sessions -/

namespace Placer

/-- A placer is created with the defaults that all its constraints make, or not at all. -/
theorem outcome_create_eq_ok_iff {parts : List Part} {placer : Placer} :
    (create parts).outcome = .ok placer ↔ (Record.standard.applyParts parts).fault = none ∧
      placer = ⟨(Record.standard.applyParts parts).record, none⟩ := by
  rw [create, Traced.outcome_bind, outcome_traced]
  cases (Record.standard.applyParts parts).fault with
  | none => simp [Except.bind, eq_comm]
  | some fault => simp [Except.bind]

theorem outcome_place_of_error {placer : Placer} {name : Text} {fault : Fault}
    (h : placer.region name = .error fault) (parts : List Part) :
    (placer.place name parts).outcome = .error fault.diagnostic := by
  rw [place, h]
  rfl

end Placer

/-- The constraints of a region and of the caller can be applied exactly if the text that is put together
    of them can. -/
theorem Region.fault_mergedConstraints_eq_none_iff {r : Region} (hr : r.IsReadable) (record : Record)
    (parts : List Part) :
    (record.applyText (r.mergedConstraints parts)).fault = none ↔
      (record.applyParts (.text r.constraints :: parts)).fault = none := by
  have hlength := Region.length_mergedConstraints hr parts
  have hwords : Text.words (Part.join (.text r.constraints :: parts)) = r.givenWords parts := by
    rw [Part.words_join, Part.words_cons]
    rfl
  rw [Record.applyParts]
  rcases Nat.mod_two_eq_zero_or_one (r.givenWords parts).length with heven | hodd
  · rw [Record.applyText_of_even (hlength.trans heven), Region.pairsOf_mergedConstraints hr heven,
      (Record.applyPairs_sizePairs hr _ _).1, Record.applyText_of_even (by rw [hwords, heven]), hwords]
  · obtain ⟨last, -, hlast⟩ := Record.applyText_of_odd (hlength.trans hodd)
    obtain ⟨last', -, hlast'⟩ :=
      Record.applyText_of_odd (t := Part.join (.text r.constraints :: parts)) (by rw [hwords, hodd])
    rw [hlast, hlast']
    exact iff_of_false (Option.some_ne_none _) (Option.some_ne_none _)

/-- A placement by name succeeds exactly if the sketch has the name, and the constraints of the first
    region of the name and of the caller can be applied to the defaults. -/
theorem Placer.exists_placement_iff {sketch : Text} {registry : Registry}
    (hsketch : Text.size16 sketch ≤ Integer.limit)
    (hread : (Registry.read sketch).outcome = .ok registry) (defaults : Record) (name : Text)
    (parts : List Part) :
    (∃ p, (place ⟨defaults, some registry⟩ name parts).outcome = .ok p) ↔
      ∃ r, Region.IsFirst registry.toList name r ∧
        (defaults.applyParts (.text r.constraints :: parts)).fault = none := by
  constructor
  · rintro ⟨p, hplace⟩
    cases hfound : registry.get? name with
    | none =>
      have habsent := (registry.get?_eq_none_iff name).mp hfound
      rw [outcome_place_of_error (registry.region_of_absent name habsent defaults)] at hplace
      cases hplace
    | some r =>
      have hr := (registry.get?_eq_some_iff name r).mp hfound
      have hregion := (registry.region_eq_ok_iff name defaults r).mpr hfound
      refine ⟨r, hr, ?_⟩
      rw [← Region.fault_mergedConstraints_eq_none_iff (isReadable_of_read hsketch hread hr.mem)]
      rw [outcome_place hregion] at hplace
      split at hplace
      next hnone => exact hnone
      next => cases hplace
  · rintro ⟨r, hr, happlies⟩
    have hregion := (registry.region_eq_ok_iff name defaults r).mpr
      ((registry.get?_eq_some_iff name r).mpr hr)
    rw [← Region.fault_mergedConstraints_eq_none_iff (isReadable_of_read hsketch hread hr.mem)]
      at happlies
    rw [outcome_place hregion, happlies]
    exact ⟨_, rfl⟩

namespace CommandLine

/-! ## Stages -/

/-- A placement that is asked for, and what the program finds around it. -/
structure Errand where
  env : Environment
  input : Text
  name : Text
  constraints : List Text
  defaults : Option Text

/-- The stages of a placement. -/
inductive Stage where
  | input | defaults | sketch | name | constraints
  deriving DecidableEq, Repr

/-- The stages before a stage, in order. -/
def Stage.earlier : Stage → List Stage
  | input => []
  | defaults => [input]
  | sketch => [input, defaults]
  | name => [input, defaults, sketch]
  | constraints => [input, defaults, sketch, name]

namespace Errand

/-- The command that asks for the placement. -/
def command (e : Errand) (style : Json.Style) : Command :=
  .placement e.input e.name e.constraints e.defaults style

/-- The arguments of the defaults. -/
def defaultParts (e : Errand) : List Part := e.defaults.toList.map .text

/-- The arguments of the caller. -/
def parts (e : Errand) : List Part := e.constraints.map .text

/-- The record that the defaults make. -/
def base (e : Errand) : Record := (Record.standard.applyParts e.defaultParts).record

/-- The text of the input, if it can be read. -/
def Finds (e : Errand) (sketch : Text) : Prop :=
  ∃ bytes, e.env.input (.ofArgument e.input) = .ok bytes ∧ Text.Utf8.decode bytes = sketch

/-- The failure of a stage, with its report. A stage may fail whatever becomes of those before it whose
    results it does not need; so several may fail at once. -/
inductive Fails (e : Errand) : Stage → CommandError → Prop
  | input {reason : ReadError} (h : e.env.input (.ofArgument e.input) = .error reason) :
      Fails e .input (.reading reason)
  | defaults {report : Diagnostic} (h : (Placer.create e.defaultParts).outcome = .error report) :
      Fails e .defaults (.reported report)
  | sketch {sketch : Text} {report : Diagnostic} (hinput : e.Finds sketch)
      (h : (Registry.read sketch).outcome = .error report) : Fails e .sketch (.reported report)
  | name {sketch : Text} {registry : Registry} (hinput : e.Finds sketch)
      (hread : (Registry.read sketch).outcome = .ok registry)
      (h : ∀ r ∈ registry.toList, r.name ≠ e.name) :
      Fails e .name (.reported (Fault.regionAbsent e.name).diagnostic)
  | constraints {sketch : Text} {registry : Registry} {r : Region} {report : Diagnostic}
      (hinput : e.Finds sketch) (hread : (Registry.read sketch).outcome = .ok registry)
      (hr : Region.IsFirst registry.toList e.name r)
      (h : (Placer.place ⟨e.base, some registry⟩ e.name e.parts).outcome = .error report) :
      Fails e .constraints (.reported report)

/-- The failure of a stage before which no stage fails. -/
def FailsFirst (e : Errand) (stage : Stage) (error : CommandError) : Prop :=
  e.Fails stage error ∧ ∀ earlier ∈ stage.earlier, ∀ other, ¬ e.Fails earlier other

/-- The success of all stages, with the placement that comes of it. -/
def Succeeds (e : Errand) (p : Placement) : Prop :=
  (Placer.create e.defaultParts).outcome = .ok ⟨e.base, none⟩ ∧
    ∃ sketch registry, e.Finds sketch ∧ (Registry.read sketch).outcome = .ok registry ∧
      (Placer.place ⟨e.base, some registry⟩ e.name e.parts).outcome = .ok p

/-! ## Stages in order -/

/-- The placement, or the first failure. -/
def placed (e : Errand) : Except CommandError Placement := do
  let bytes ← (e.env.input (.ofArgument e.input)).mapError .reading
  let placer ← (Placer.create e.defaultParts).outcome.mapError .reported
  let registry ← (Registry.read (Text.Utf8.decode bytes)).outcome.mapError .reported
  ((placer.withLayout registry).place e.name e.parts).outcome.mapError .reported

variable {e : Errand}

theorem outcome_answer (e : Errand) (style : Json.Style) :
    ((e.command style).answer e.env).outcome = e.placed.map fun p => p.json.render style := by
  have hmap : ∀ {α β : Type} (f : α → β) (x : Except CommandError α),
      (x.bind fun a => .ok (f a)) = x.map f := fun f x => by cases x <;> rfl
  have hbind : ∀ {α β γ : Type} (f : β → γ) (x : Except CommandError α)
      (g : α → Except CommandError β), (x.bind fun a => (g a).map f) = (x.bind g).map f :=
    fun f x g => by cases x <;> rfl
  rw [command, Command.answer, Command.readSource, placed]
  simp only [Traced.outcome_bind, Traced.outcome_ofExcept, Traced.outcome_mapError,
    Traced.outcome_pure, hmap, hbind]
  cases e.env.input (.ofArgument e.input) <;> rfl

theorem placed_of_reading {reason : ReadError}
    (h : e.env.input (.ofArgument e.input) = .error reason) : e.placed = .error (.reading reason) := by
  rw [placed, h]
  rfl

theorem outcome_create {placer : Placer} (h : (Placer.create e.defaultParts).outcome = .ok placer) :
    placer = ⟨e.base, none⟩ := (Placer.outcome_create_eq_ok_iff.mp h).2

section

variable {sketch : Text} (hinput : e.Finds sketch)
include hinput

theorem placed_of_finds : e.placed =
    ((Placer.create e.defaultParts).outcome.mapError .reported).bind fun placer =>
      ((Registry.read sketch).outcome.mapError .reported).bind fun registry =>
        ((placer.withLayout registry).place e.name e.parts).outcome.mapError .reported := by
  obtain ⟨bytes, hbytes, rfl⟩ := hinput
  rw [placed, hbytes]
  rfl

theorem placed_of_create {report : Diagnostic}
    (h : (Placer.create e.defaultParts).outcome = .error report) :
    e.placed = .error (.reported report) := by
  rw [placed_of_finds hinput, h]
  rfl

variable (hcreate : (Placer.create e.defaultParts).outcome = .ok ⟨e.base, none⟩)
include hcreate

theorem placed_of_read {report : Diagnostic} (h : (Registry.read sketch).outcome = .error report) :
    e.placed = .error (.reported report) := by
  rw [placed_of_finds hinput, hcreate, h]
  rfl

theorem placed_of_regions {registry : Registry} (h : (Registry.read sketch).outcome = .ok registry) :
    e.placed =
      (Placer.place ⟨e.base, some registry⟩ e.name e.parts).outcome.mapError .reported := by
  rw [placed_of_finds hinput, hcreate, h]
  rfl

end

theorem exists_finds_of_not_fails (h : ∀ other, ¬ e.Fails .input other) : ∃ sketch, e.Finds sketch := by
  cases hinput : e.env.input (.ofArgument e.input) with
  | error reason => exact (h _ (.input hinput)).elim
  | ok bytes => exact ⟨_, bytes, hinput, rfl⟩

theorem create_of_not_fails (h : ∀ other, ¬ e.Fails .defaults other) :
    (Placer.create e.defaultParts).outcome = .ok ⟨e.base, none⟩ := by
  cases hcreate : (Placer.create e.defaultParts).outcome with
  | error report => exact (h _ (.defaults hcreate)).elim
  | ok placer => rw [outcome_create hcreate]

theorem placed_of_succeeds {p : Placement} (h : e.Succeeds p) : e.placed = .ok p := by
  obtain ⟨hcreate, sketch, registry, hinput, hread, hplace⟩ := h
  rw [placed_of_regions hinput hcreate hread, hplace]
  rfl

/-- The first failure ends the work. -/
theorem placed_of_failsFirst {stage : Stage} {error : CommandError} (h : e.FailsFirst stage error) :
    e.placed = .error error := by
  obtain ⟨hfails, hearlier⟩ := h
  have hdefaults : Stage.defaults ∈ stage.earlier →
      (Placer.create e.defaultParts).outcome = .ok ⟨e.base, none⟩ :=
    fun hmem => create_of_not_fails (hearlier .defaults hmem)
  cases hfails with
  | input h => exact placed_of_reading h
  | defaults h =>
    obtain ⟨sketch, hinput⟩ := exists_finds_of_not_fails (hearlier .input (by decide))
    exact placed_of_create hinput h
  | sketch hinput h => exact placed_of_read hinput (hdefaults (by decide)) h
  | @name sketch registry hinput hread h =>
    have hregion := registry.region_of_absent e.name h e.base
    rw [placed_of_regions hinput (hdefaults (by decide)) hread, Placer.outcome_place_of_error hregion]
    rfl
  | constraints hinput hread hr h =>
    rw [placed_of_regions hinput (hdefaults (by decide)) hread, h]
    rfl

theorem Finds.unique {sketch sketch' : Text} (h : e.Finds sketch) (h' : e.Finds sketch') :
    sketch = sketch' := by
  obtain ⟨bytes, hbytes, rfl⟩ := h
  obtain ⟨bytes', hbytes', rfl⟩ := h'
  rw [hbytes] at hbytes'
  rw [Except.ok.inj hbytes']

theorem not_fails_input {sketch : Text} (h : e.Finds sketch) (other : CommandError) :
    ¬ e.Fails .input other := by
  intro hfails
  cases hfails with
  | input hreason =>
    obtain ⟨bytes, hbytes, -⟩ := h
    rw [hbytes] at hreason
    cases hreason

theorem not_fails_defaults {placer : Placer} (h : (Placer.create e.defaultParts).outcome = .ok placer)
    (other : CommandError) : ¬ e.Fails .defaults other := by
  intro hfails
  cases hfails with
  | defaults hreport =>
    rw [h] at hreport
    cases hreport

section

variable {sketch : Text} {registry : Registry} (hinput : e.Finds sketch)
  (hread : (Registry.read sketch).outcome = .ok registry)
include hinput hread

theorem not_fails_sketch (other : CommandError) : ¬ e.Fails .sketch other := by
  intro hfails
  cases hfails with
  | sketch hinput' hreport =>
    rw [← hinput.unique hinput', hread] at hreport
    cases hreport

theorem not_fails_name {r : Region} (hr : r ∈ registry.toList) (hname : r.name = e.name)
    (other : CommandError) : ¬ e.Fails .name other := by
  intro hfails
  cases hfails with
  | name hinput' hread' habsent =>
    rw [← hinput.unique hinput', hread] at hread'
    obtain rfl := Except.ok.inj hread'
    exact habsent r hr hname

end

/-- All stages succeed, or there is one that fails first. -/
theorem succeeds_or_failsFirst (e : Errand) :
    (∃ p, e.Succeeds p) ∨ ∃ stage error, e.FailsFirst stage error := by
  cases hbytes : e.env.input (.ofArgument e.input) with
  | error reason => exact .inr ⟨.input, _, .input hbytes, nofun⟩
  | ok bytes =>
  have hinput : e.Finds (Text.Utf8.decode bytes) := ⟨bytes, hbytes, rfl⟩
  have hreads := not_fails_input hinput
  cases hcreate : (Placer.create e.defaultParts).outcome with
  | error report => exact .inr ⟨.defaults, _, .defaults hcreate, List.forall_mem_singleton.mpr hreads⟩
  | ok placer =>
  have hcreates := not_fails_defaults hcreate
  rw [outcome_create hcreate] at hcreate
  cases hread : (Registry.read (Text.Utf8.decode bytes)).outcome with
  | error report =>
    exact .inr ⟨.sketch, _, .sketch hinput hread,
      List.forall_mem_cons.mpr ⟨hreads, List.forall_mem_singleton.mpr hcreates⟩⟩
  | ok registry =>
  have hregions := not_fails_sketch hinput hread
  cases hfound : registry.get? e.name with
  | none =>
    have habsent := (registry.get?_eq_none_iff e.name).mp hfound
    exact .inr ⟨.name, _, .name hinput hread habsent, List.forall_mem_cons.mpr ⟨hreads,
      List.forall_mem_cons.mpr ⟨hcreates, List.forall_mem_singleton.mpr hregions⟩⟩⟩
  | some r =>
  have hr := (registry.get?_eq_some_iff e.name r).mp hfound
  have hnames := not_fails_name hinput hread hr.mem hr.name_eq
  cases hplace : (Placer.place ⟨e.base, some registry⟩ e.name e.parts).outcome with
  | error report =>
    exact .inr ⟨.constraints, _, .constraints hinput hread hr hplace, List.forall_mem_cons.mpr ⟨hreads,
      List.forall_mem_cons.mpr ⟨hcreates, List.forall_mem_cons.mpr ⟨hregions,
        List.forall_mem_singleton.mpr hnames⟩⟩⟩⟩
  | ok p => exact .inl ⟨p, hcreate, _, registry, hinput, hread, hplace⟩

/-- What a session answers in the end that is asked to create a placer with the defaults, to read a sketch
    and to place the region. -/
def answer (e : Errand) (sketch : Text) : Except Diagnostic Placer.Answer :=
  ((Session.run [.create e.defaultParts, .ask (.readLayout (some sketch))]).step
    (.ask (.place e.name e.parts))).2.outcome

/-- The session answers a placement exactly if nothing of this fails. -/
theorem answer_eq_placement_iff {sketch : Text} {p : Placement} :
    e.answer sketch = .ok (.placement p) ↔
      (Placer.create e.defaultParts).outcome = .ok ⟨e.base, none⟩ ∧ ∃ registry,
        (Registry.read sketch).outcome = .ok registry ∧
          (Placer.place ⟨e.base, some registry⟩ e.name e.parts).outcome = .ok p := by
  rw [answer, Session.run]
  simp only [List.foldl_cons, List.foldl_nil, Session.step]
  cases hcreate : (Placer.create e.defaultParts).outcome with
  | error report => simp [Traced.outcome_pure]
  | ok placer =>
    obtain rfl := outcome_create hcreate
    simp only [Placer.step, Registry.read?, Traced.outcome_map]
    cases hread : (Registry.read sketch).outcome with
    | error report =>
      have hunread : Placer.region ⟨e.base, none⟩ e.name = .error (.layoutUnread e.name) := rfl
      simp [Placer.outcome_place_of_error hunread, Except.map]
    | ok registry =>
      simp only [Placer.withLayout, Except.ok.injEq, true_and, exists_eq_left']
      cases (Placer.place ⟨e.base, some registry⟩ e.name e.parts).outcome with
      | error report => simp [Except.map]
      | ok placed => simp [Except.map]

end Errand

/-! ## Runs -/

/-- What the environment says about the steps makes no difference to any run. -/
theorem run_with_debug (env : Environment) (debug : Option Text) (args : List Text) :
    run { env with debug := debug } args = run env args := by
  rw [run, run]
  cases read args with
  | error e => rfl
  | ok command =>
    have hanswer : command.answer { env with debug := debug } = command.answer env := by
      cases command <;> rfl
    simp only [hanswer, shown_silenced]

section

variable {e : Errand} {args : List Text} {style : Json.Style}
  (hread : read args = .ok (e.command style))
include hread

theorem run_of_succeeds {p : Placement} (h : e.Succeeds p) :
    run e.env args = ⟨0, p.json.render style ++ ['\n'], []⟩ :=
  run_of_ok hread (by rw [e.outcome_answer, Errand.placed_of_succeeds h]; rfl)

theorem run_of_failsFirst {stage : Stage} {error : CommandError} (h : e.FailsFirst stage error) :
    run e.env args = ⟨1, [], error.message ++ ['\n']⟩ :=
  run_of_error hread (by rw [e.outcome_answer, Errand.placed_of_failsFirst h]; rfl)

theorem exit_eq_zero_iff : (run e.env args).exit = 0 ↔ ∃ p, e.Succeeds p := by
  rcases e.succeeds_or_failsFirst with ⟨p, hp⟩ | ⟨stage, error, hfails⟩
  · rw [run_of_succeeds hread hp]
    exact iff_of_true rfl ⟨p, hp⟩
  · rw [run_of_failsFirst hread hfails]
    refine iff_of_false Nat.one_ne_zero fun ⟨p, hp⟩ => ?_
    cases (Errand.placed_of_succeeds hp).symm.trans (Errand.placed_of_failsFirst hfails)

/-- A run ends well exactly if the input can be read, the defaults can be applied to the standard record,
    the sketch can be read, it has the name, and the constraints of the region and of the caller can be
    applied to the defaults. -/
theorem exit_eq_zero_iff_of_size
    (hsize : ∀ sketch, e.Finds sketch → Text.size16 sketch ≤ Integer.limit) :
    (run e.env args).exit = 0 ↔ (Record.standard.applyParts e.defaultParts).fault = none ∧
      ∃ sketch registry r, e.Finds sketch ∧ (Registry.read sketch).outcome = .ok registry ∧
        Region.IsFirst registry.toList e.name r ∧
        (e.base.applyParts (.text r.constraints :: e.parts)).fault = none := by
  rw [exit_eq_zero_iff hread]
  constructor
  · rintro ⟨p, hp⟩
    obtain ⟨hcreate, sketch, registry, hinput, hregions, hplace⟩ := hp
    obtain ⟨r, hr, happlies⟩ :=
      (Placer.exists_placement_iff (hsize sketch hinput) hregions e.base e.name e.parts).mp ⟨p, hplace⟩
    exact ⟨(Placer.outcome_create_eq_ok_iff.mp hcreate).1, sketch, registry, r, hinput, hregions, hr,
      happlies⟩
  · rintro ⟨hdefaults, sketch, registry, r, hinput, hregions, hr, happlies⟩
    obtain ⟨p, hplace⟩ :=
      (Placer.exists_placement_iff (hsize sketch hinput) hregions e.base e.name e.parts).mpr
        ⟨r, hr, happlies⟩
    exact ⟨p, Placer.outcome_create_eq_ok_iff.mpr ⟨hdefaults, rfl⟩, sketch, registry, hinput, hregions,
      hplace⟩

end

end CommandLine

end GridSketch
