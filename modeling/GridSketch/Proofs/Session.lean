/-
  Sessions in closed form: what the placer of a session holds after any requests, read off the
  requests without a placer.

  Only four kinds of requests leave a trace: a placer that is created, which makes everything before
  it forgotten; defaults that are adjusted, by as many pairs as could be carried out; and a sketch
  that can be read. Everything else, and every failure but that of an adjustment, leaves none.

  * `Placer.after_eq`: a placer after requests to it.
  * `Session.run_eq`: a session after requests, by one step (`Session.step_fst`) and induction.
  * `Session.run_eq_history`: a session is what its history says.
-/
import GridSketch.Placer
import GridSketch.Proofs.Constraint.Apply
import Mathlib.Data.List.DropRight
import Mathlib.Data.List.Induction

namespace GridSketch

/-! ## Requests to a placer -/

namespace Placer

namespace Request

/-- The arguments with which a request adjusts the defaults. -/
def adjusts? : Request → Option (List Part)
  | adjustDefaults parts => some parts
  | _ => none

/-- The sketch that a request reads, if it can be read. -/
def reads? : Request → Option Registry
  | readLayout sketch => (Registry.read? sketch).outcome.toOption
  | _ => none

end Request

/-- The pairs that requests carry out on the defaults, in order. -/
def adjustments (asked : List Request) : List (Text × Text) :=
  (asked.filterMap Request.adjusts?).flatMap Part.carried

/-- The last sketch that requests read. -/
def lastRead? (asked : List Request) : Option Registry := asked.reverse.findSome? Request.reads?

/-- The placer after requests, one after the other. -/
def after (placer : Placer) (asked : List Request) : Placer :=
  asked.foldl (fun p request => (p.step request).1) placer

theorem adjustments_cons (request : Request) (asked : List Request) :
    adjustments (request :: asked) = adjustments [request] ++ adjustments asked := by
  unfold adjustments
  rw [← List.flatMap_append, ← List.filterMap_append]
  rfl

theorem lastRead?_cons (request : Request) (asked : List Request) :
    lastRead? (request :: asked) = (lastRead? asked).or request.reads? := by
  rw [lastRead?, List.reverse_cons, List.findSome?_append, lastRead?]
  simp

/-- One request: the pairs that it carries out and the sketch that it reads. -/
theorem step_fst (placer : Placer) (request : Request) :
    (placer.step request).1 =
      ⟨(adjustments [request]).foldl Record.carryOut placer.defaults,
        request.reads?.or placer.layout⟩ := by
  cases request with
  | adjustDefaults parts =>
    have hcarried : adjustments [.adjustDefaults parts] = Part.carried parts :=
      List.append_nil (Part.carried parts)
    rw [step, hcarried, ← Record.record_applyParts]
    rfl
  | readLayout sketch =>
    simp only [step, Request.reads?]
    cases (Registry.read? sketch).outcome <;> rfl
  | defaults => rfl
  | layout => rfl
  | placeAt row col parts => rfl
  | place name parts => rfl

/-- Any requests: all pairs that they carry out, and the last sketch that they read. -/
theorem after_eq (placer : Placer) (asked : List Request) :
    placer.after asked =
      ⟨(adjustments asked).foldl Record.carryOut placer.defaults,
        (lastRead? asked).or placer.layout⟩ := by
  induction asked generalizing placer with
  | nil => rfl
  | cons request asked ih =>
    rw [after, List.foldl_cons, ← after, ih, step_fst, adjustments_cons request asked,
      List.foldl_append, lastRead?_cons, Option.or_assoc]

theorem after_append (placer : Placer) (first second : List Request) :
    placer.after (first ++ second) = (placer.after first).after second := List.foldl_append

end Placer

/-! ## Requests in a session -/

namespace Session

namespace Request

/-- The arguments with which a request creates a placer, if that succeeds. -/
def creates? : Request → Option (List Part)
  | create parts => (Placer.create parts).outcome.toOption.map fun _ => parts
  | ask _ => none

/-- What a request asks of the placer. -/
def asks? : Request → Option Placer.Request
  | create _ => none
  | ask request => some request

end Request

/-- The session after requests, one after the other; there is no placer at first. -/
def run (requests : List Request) : Session :=
  requests.foldl (fun session request => (session.step request).1) none

/-- The arguments of the last placer that was created. -/
def lastCreated? (requests : List Request) : Option (List Part) :=
  requests.reverse.findSome? Request.creates?

/-- What was asked of the last placer that was created. -/
def askedSince (requests : List Request) : List Placer.Request :=
  (requests.rtakeWhile fun request => request.creates?.isNone).filterMap Request.asks?

/-- The placer that is created by arguments that can all be carried out. -/
def created (parts : List Part) : Placer :=
  ⟨(Part.pairs parts).foldl Record.carryOut Record.standard, none⟩

theorem outcome_create {parts : List Part} {placer : Placer}
    (h : (Placer.create parts).outcome = .ok placer) : placer = created parts := by
  rw [Placer.create, Traced.outcome_bind] at h
  cases hfault : (Record.standard.applyParts parts).fault with
  | some fault => simp [Applied.traced, hfault, Except.bind] at h
  | none =>
    rw [Applied.traced, hfault] at h
    cases h
    rw [Record.record_applyParts_of_fault hfault]
    rfl

/-- One request: a placer that is created takes the place of the old one, and anything else goes to
    the old one. -/
theorem step_fst (session : Session) (request : Request) :
    (session.step request).1 =
      match request.creates? with
      | some parts => some (created parts)
      | none => session.map fun placer => placer.after request.asks?.toList := by
  cases request with
  | create parts =>
    simp only [step, Request.creates?]
    cases h : (Placer.create parts).outcome with
    | error report => cases session <;> rfl
    | ok placer =>
      rw [outcome_create h]
      rfl
  | ask request => cases session <;> rfl

/-! ## One request more -/

section

variable (requests : List Request) (request : Request)

theorem run_concat : run (requests ++ [request]) = ((run requests).step request).1 := by
  rw [run, List.foldl_append]
  rfl

theorem lastCreated?_concat :
    lastCreated? (requests ++ [request]) = request.creates?.or (lastCreated? requests) := by
  rw [lastCreated?, List.reverse_append, List.findSome?_append, lastCreated?]
  simp

theorem askedSince_concat :
    askedSince (requests ++ [request]) =
      if request.creates?.isNone then askedSince requests ++ request.asks?.toList else [] := by
  rw [askedSince, List.rtakeWhile_concat]
  split
  · rw [List.filterMap_append, ← askedSince]
    cases request <;> rfl
  · rfl

end

/-! ## Any requests -/

/-- A session has the last placer that was created, after what was asked of it since. -/
theorem run_eq (requests : List Request) : run requests = (lastCreated? requests).map fun parts =>
    (created parts).after (askedSince requests) := by
  induction requests using List.reverseRecOn with
  | nil => rfl
  | append_singleton requests request ih =>
    rw [run_concat, step_fst, lastCreated?_concat, askedSince_concat]
    cases request.creates? with
    | some parts => rfl
    | none =>
      rw [ih]
      cases lastCreated? requests with
      | none => rfl
      | some parts => exact congrArg some (Placer.after_append _ _ _).symm

/-! ## Histories -/

/-- What a session remembers of its requests. -/
structure History where
  /-- The pairs carried out on the standard record, in order. -/
  pairs : List (Text × Text)
  /-- The last sketch that was read. -/
  layout : Option Registry

/-- The placer that a history makes. -/
def History.placer (h : History) : Placer :=
  ⟨h.pairs.foldl Record.carryOut Record.standard, h.layout⟩

/-- The history of requests since the last placer that was created: all pairs of its arguments, then
    those that each adjustment carried out. -/
def history (requests : List Request) : Option History :=
  (lastCreated? requests).map fun parts =>
    ⟨Part.pairs parts ++ Placer.adjustments (askedSince requests),
      Placer.lastRead? (askedSince requests)⟩

theorem run_eq_map_history (requests : List Request) :
    run requests = (history requests).map History.placer := by
  rw [run_eq, history, Option.map_map]
  congr 1
  funext parts
  rw [Placer.after_eq, Function.comp, History.placer, List.foldl_append, created, Option.or_none]

/-- The requests that change nothing: those that only ask, and those that create a placer or read a
    sketch and fail. -/
def Request.KeepsSession : Request → Prop
  | create parts => ∃ report, (Placer.create parts).outcome = .error report
  | ask (.readLayout sketch) => ∃ report, (Registry.read? sketch).outcome = .error report
  | ask (.adjustDefaults _) => False
  | ask _ => True

theorem step_fst_of_keepsSession {request : Request} (h : request.KeepsSession)
    (session : Session) : (session.step request).1 = session := by
  cases request with
  | create parts =>
    obtain ⟨report, hreport⟩ := h
    simp only [step, hreport]
  | ask request =>
    cases session with
    | none => rfl
    | some placer =>
      cases request with
      | adjustDefaults parts => exact h.elim
      | readLayout sketch =>
        obtain ⟨report, hreport⟩ := h
        simp only [step, Placer.step, hreport]
      | defaults => rfl
      | layout => rfl
      | placeAt row col parts => rfl
      | place name parts => rfl

/-- After any requests a session is what its history says, requests that only ask and failures other
    than those of adjustments change nothing, and every answer depends on the history only. -/
theorem run_eq_history (requests : List Request) :
    run requests = (history requests).map History.placer ∧
      (∀ request : Request, request.KeepsSession → run (requests ++ [request]) = run requests) ∧
      ∀ others : List Request, history others = history requests →
        ∀ request, ((run others).step request).2 = ((run requests).step request).2 := by
  refine ⟨run_eq_map_history requests, fun request h => ?_, fun others h request => ?_⟩
  · rw [run_concat, step_fst_of_keepsSession h]
  · rw [run_eq_map_history others, run_eq_map_history requests, h]

/-- An adjustment that fails at its second pair keeps the first, and a placer that cannot be created
    leaves the old one with what it was told. -/
theorem run_after_failures :
    let told : List Request :=
      [.create [.text "gridwidth 2".toList],
        .ask (.adjustDefaults [.text "Fill both anchor nowhere ipadx 3".toList])]
    let failed : Request := .create [.text "ipadx".toList]
    let placer : Placer :=
      ⟨{ Record.standard with gridwidth := 2, fill := .keyword .both }, none⟩
    run told = some placer ∧ run (told ++ [failed]) = some placer ∧
      ((run (told ++ [failed])).step (.ask (.placeAt 3 4 []))).2 =
        .placement <$> placer.placeAt 3 4 [] := by
  intro told failed placer
  obtain ⟨hrun, hkeeps, hanswers⟩ := run_eq_history told
  have htold : run told = some placer := hrun.trans rfl
  refine ⟨htold, (hkeeps failed ⟨_, rfl⟩).trans htold, ?_⟩
  rw [hanswers (told ++ [failed]) rfl, htold]
  rfl

end Session

end GridSketch
