/-
  What the command for the regions of a sketch prints.

  Whatever the environment asks for, a run prints an answer and a line feed, or reports one failure on
  the other stream. The answer for a sketch is a JSON document. In both styles it means the list of the
  regions in order, each with its six fields, and nothing else; so the regions can be read back from it,
  whatever the characters of their names and constraints.

  * `CommandLine.run_of_ok`, `CommandLine.run_of_error`: a run and the outcome of its command.
  * `CommandLine.regions_printed`: what is printed, and when.
-/
import GridSketch.CommandLine.Run
import GridSketch.Proofs.Json.Regions
import GridSketch.Proofs.Text.Utf8

namespace GridSketch

/-! ## Runs -/

namespace CommandLine

variable {env : Environment} {args : List Text} {command : Command}

/-- No step is shown, whatever the environment asks for. -/
theorem shown_silenced (debug : Option Text) (trace : List Event) :
    Trace.shown debug silenced trace = [] := rfl

/-- A command with an answer prints the answer only. -/
theorem run_of_ok {t : Text} (hread : read args = .ok command)
    (h : (command.answer env).outcome = .ok t) : run env args = ⟨0, t ++ ['\n'], []⟩ := by
  rw [run, hread]
  dsimp only
  rw [h, shown_silenced]
  exact congrArg (Output.mk 0 · []) (List.append_nil _)

/-- A command without an answer prints the report only. -/
theorem run_of_error {e : CommandError} (hread : read args = .ok command)
    (h : (command.answer env).outcome = .error e) : run env args = ⟨1, [], e.message ++ ['\n']⟩ := by
  rw [run, hread]
  dsimp only
  rw [h, shown_silenced]
  exact congrArg (Output.mk 1 []) (List.append_nil _)

/-! ## The command for the regions of a sketch -/

/-- The flag for output on one line. -/
def compactFlag : Text := "--compact".toList

/-- The style that a list of arguments asks for. -/
def styleOf (args : List Text) : Json.Style := if compactFlag ∈ args then .compact else .indented

/-- One argument of a command without the defaults option. -/
theorem sort_cons (a : Arguments) (t : Text) (rest : List Text) :
    sort false a (t :: rest) =
      if t = "--".toList then .ok { a with positional := a.positional ++ rest }
      else if t = compactFlag then sort false { a with compact := true } rest
      else if isOption t then sort false { a with unknown := a.unknown <|> some t } rest
      else sort false { a with positional := a.positional ++ [t] } rest := by
  rw [sort.eq_def]
  rfl

/-- What is neither an option nor the flag is positional, in order; the flag may stand anywhere. -/
theorem sort_of_flags {rest : List Text} (h : ∀ t ∈ rest, isOption t = false ∨ t = compactFlag)
    (a : Arguments) :
    sort false a rest = .ok
      { a with
        compact := a.compact || decide (compactFlag ∈ rest)
        positional := a.positional ++ rest.filter fun t => decide (t ≠ compactFlag) } := by
  induction rest generalizing a with
  | nil => simp [sort]
  | cons t rest ih =>
    obtain ⟨ht, hrest⟩ := List.forall_mem_cons.mp h
    rw [sort_cons]
    by_cases hflag : t = compactFlag
    · rw [hflag, if_neg (by decide), if_pos rfl, ih hrest]
      simp
    · have hplain : isOption t = false := ht.resolve_right hflag
      have hend : t ≠ "--".toList := by
        rintro rfl
        exact absurd hplain (by decide)
      rw [if_neg hend, if_neg hflag, if_neg (by rw [hplain]; decide), ih hrest]
      simp [hflag, Ne.symm hflag]

/-- The number of the release is asked for by options only. -/
theorem isOption_of_asksVersion {t : Text} (h : asksVersion t = true) : isOption t = true := by
  rw [asksVersion, Bool.or_eq_true, decide_eq_true_eq] at h
  rcases h with rfl | hprefix
  · decide
  · obtain ⟨rest, rfl⟩ := List.isPrefixOf_iff_prefix.mp hprefix
    rfl

/-- The command for the regions of the first positional argument, with or without the flag. -/
theorem read_parse {rest more : List Text} {input : Text}
    (h : ∀ t ∈ rest, isOption t = false ∨ t = compactFlag)
    (hinput : (rest.filter fun t => decide (t ≠ compactFlag)) = input :: more) :
    read ("parse".toList :: rest) = .ok (.regions input (styleOf rest)) := by
  have hversion : ∀ t ∈ "parse".toList :: rest, asksVersion t = false := by
    refine List.forall_mem_cons.mpr ⟨by decide, fun t ht => ?_⟩
    rcases h t ht with hplain | rfl
    · rw [← Bool.not_eq_true]
      intro hasks
      rw [isOption_of_asksVersion hasks] at hplain
      cases hplain
    · decide
  have hany : (("parse".toList :: rest).takeWhile (· ≠ "--".toList)).any asksVersion = false := by
    rw [List.any_eq_false]
    intro t ht
    rw [hversion t ((List.takeWhile_sublist _).subset ht)]
    exact Bool.false_ne_true
  have harguments : arguments false rest = .ok
      { compact := decide (compactFlag ∈ rest), positional := input :: more } := by
    rw [arguments, sort_of_flags h, hinput]
    simp
  have hregions : readRegions rest = .ok (.regions input (styleOf rest)) := by
    rw [readRegions, harguments]
    simp [Arguments.style, styleOf]
  rw [read, hany, if_neg Bool.false_ne_true, ← hregions]
  exact if_pos rfl

/-- The outcome for the regions of a sketch that can be read. -/
theorem outcome_answer_regions {env : Environment} {input : Text} {bytes : List UInt8}
    (hinput : env.input (.ofArgument input) = .ok bytes) (style : Json.Style) :
    ((Command.regions input style).answer env).outcome =
      ((Registry.read (Text.Utf8.decode bytes)).outcome.mapError .reported).map fun registry =>
        registry.json.render style := by
  rw [Command.answer, Command.readSource, hinput]
  simp only [Traced.outcome_bind, Traced.outcome_ofExcept, Traced.outcome_mapError,
    Traced.outcome_pure, Except.bind]
  cases (Registry.read (Text.Utf8.decode bytes)).outcome <;> rfl

/-- A sketch of which the regions can be read is answered with one document and nothing else, in both
    styles: the document means the regions in order, each with its six fields, and so no other regions.
    Otherwise the failure is reported and nothing is answered. Steps are shown in no environment. Every
    text is the reading of some bytes; and behind the name of the command, the flag may stand anywhere
    or be missing. -/
theorem regions_printed (env : Environment) {args : List Text} {input : Text} {style : Json.Style}
    {bytes : List UInt8} (hread : read args = .ok (.regions input style))
    (hinput : env.input (.ofArgument input) = .ok bytes) :
    (∀ registry, (Registry.read (Text.Utf8.decode bytes)).outcome = .ok registry →
      ∃ document, run env args = ⟨0, document ++ ['\n'], []⟩ ∧
        (∀ d, Json.Document document d ↔ d = Region.data registry.toList) ∧
        (∀ regions, Json.Document document (Region.data regions) ↔ regions = registry.toList) ∧
        ∀ style' d, Json.Document (registry.json.render style') d ↔ Json.Document document d) ∧
      (∀ report, (Registry.read (Text.Utf8.decode bytes)).outcome = .error report →
        run env args = ⟨1, [], "Error [".toList ++ report.code.label ++ "]: ".toList ++ report.message ++
          ['\n']⟩) ∧
      (∀ sketch, bytes = Text.Utf8.encode sketch → Text.Utf8.decode bytes = sketch) ∧
      ∀ rest more, (∀ t ∈ rest, isOption t = false ∨ t = compactFlag) →
        (rest.filter fun t => decide (t ≠ compactFlag)) = input :: more →
        read ("parse".toList :: rest) = .ok (.regions input (styleOf rest)) := by
  refine ⟨fun registry hregistry => ?_, fun report hreport => ?_, ?_, fun _ _ => read_parse⟩
  · have houtcome : ((Command.regions input style).answer env).outcome =
        .ok (registry.json.render style) := by
      rw [outcome_answer_regions hinput, hregistry]
      rfl
    have hdocument := registry.denotes_json.document_iff style
    refine ⟨_, run_of_ok hread houtcome, hdocument, fun regions => ?_, fun style' d => ?_⟩
    · rw [hdocument, Region.data_injective.eq_iff]
    · rw [hdocument, registry.denotes_json.document_iff style']
  · have houtcome : ((Command.regions input style).answer env).outcome = .error (.reported report) := by
      rw [outcome_answer_regions hinput, hreport]
      rfl
    exact run_of_error hread houtcome
  · rintro sketch rfl
    exact Text.Utf8.decode_encode sketch

/-- A name with a quote, a backslash, a control and a character beyond the code units; and an entry
    that names no constraint. Both in an environment that asks for the steps. -/
theorem regions_printed_escaped :
    let sketch := "\x7ba\"\\\u0001😀:wx1 + b\x7d".toList
    let regions : List Region :=
      [⟨"a\"\\\u0001😀".toList, 0, 0, 2, 1, "wx 1".toList⟩, ⟨"b".toList, 0, 2, 1, 1, []⟩]
    let environment (sketch : Text) : Environment :=
      ⟨some "true".toList, fun _ => .ok (Text.Utf8.encode sketch)⟩
    let args := ["parse".toList, "--compact".toList, "grid".toList]
    (∃ document, run (environment sketch) args = ⟨0, document ++ ['\n'], []⟩ ∧
      ∀ d, Json.Document document d ↔ d = Region.data regions) ∧
      run (environment "\x7ba:zz\x7d".toList) args =
        ⟨1, [], "Error [".toList ++ "EMBEDDED_CONSTRAINT_UNRECOGNIZED".toList ++ "]: ".toList ++
          ("Could not interpret embedded constraint ".toList ++ "\x7bzz\x7d".toList) ++ ['\n']⟩ := by
  intro sketch regions environment args
  have hread : read args = .ok (.regions "grid".toList .compact) :=
    @read_parse ["--compact".toList, "grid".toList] [] _ (by decide) (by decide)
  constructor
  · have hregistry : (Registry.read (Text.Utf8.decode (Text.Utf8.encode sketch))).outcome =
        .ok (Registry.ofList regions) := by
      rw [Text.Utf8.decode_encode]
      rfl
    obtain ⟨document, hrun, hdocument, -⟩ :=
      (regions_printed (environment sketch) hread rfl).1 _ hregistry
    exact ⟨document, hrun, hdocument⟩
  · have hreport : (Registry.read (Text.Utf8.decode (Text.Utf8.encode "\x7ba:zz\x7d".toList))).outcome =
        .error ((Fault.entryUnrecognized "zz".toList).diagnostic.withContext
          { region := some "a".toList, offset := some 1 }) := by
      rw [Text.Utf8.decode_encode]
      rfl
    exact (regions_printed (environment "\x7ba:zz\x7d".toList) hread rfl).2.1 _ hreport

end CommandLine

end GridSketch
