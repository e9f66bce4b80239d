/-
  What the readers tell about their work, step by step.

  * `Event`: one step, with the line that tells it.
  * `Traced`: an outcome with the steps that led to it, which are kept for failures too. Work done
    one after the other has the steps of both parts, up to the first failure.
  * `Trace.shown`: the lines of the steps, when they are to be shown.
-/
import GridSketch.Diagnostic
import GridSketch.Number.Integer

namespace GridSketch

/-- A step worth telling. -/
inductive Event where
  /-- A region was found at a cell. -/
  | found (name : Text) (row col : Int)
  /-- A region grew to a width. -/
  | widened (name : Text) (width : Int)
  /-- A region grew to a height. -/
  | lengthened (name : Text) (height : Int)
  /-- A constraint was carried out. -/
  | applied (name value : Text)
  /-- The constraints of a placement were put together. -/
  | merged (region constraints : Text)
  deriving DecidableEq, Repr

/-- The line that tells a step. -/
def Event.line : Event → Text
  | found name row col =>
    "[Layout] Region ".toList ++ name ++ " at row ".toList ++ Integer.write row ++
      ", col ".toList ++ Integer.write col
  | widened name width =>
    "[Layout] Widened ".toList ++ name ++ " to ".toList ++ Integer.write width
  | lengthened name height =>
    "[Layout] Lengthened ".toList ++ name ++ " to ".toList ++ Integer.write height
  | applied name value => "[Constraint] ".toList ++ name ++ " = ".toList ++ value
  | merged region constraints => "[Placer] ".toList ++ region ++ " -> ".toList ++ constraints

/-- An outcome, and the steps that led to it. -/
structure Traced (ε α : Type) where
  trace : List Event
  outcome : Except ε α

namespace Traced

variable {ε δ α β : Type}

/-- An outcome reached without a step. -/
def ofExcept (outcome : Except ε α) : Traced ε α := ⟨[], outcome⟩

/-- A step. -/
def tell (event : Event) : Traced ε Unit := ⟨[event], .ok ()⟩

/-- Further work on what was reached; a failure ends it. -/
def andThen (x : Traced ε α) (f : α → Traced ε β) : Traced ε β :=
  match x.outcome with
  | .ok a => ⟨x.trace ++ (f a).trace, (f a).outcome⟩
  | .error e => ⟨x.trace, .error e⟩

instance : Monad (Traced ε) where
  pure a := ofExcept (.ok a)
  bind := andThen

/-- The same work with another account of its failure. -/
def mapError (f : ε → δ) (x : Traced ε α) : Traced δ α := ⟨x.trace, x.outcome.mapError f⟩

/-! ## Outcomes -/

@[simp] theorem outcome_pure (a : α) : (pure a : Traced ε α).outcome = .ok a := rfl

@[simp] theorem outcome_ofExcept (outcome : Except ε α) : (ofExcept outcome).outcome = outcome := rfl

@[simp] theorem outcome_tell (event : Event) : (tell event : Traced ε Unit).outcome = .ok () := rfl

@[simp] theorem outcome_mapError (f : ε → δ) (x : Traced ε α) :
    (x.mapError f).outcome = x.outcome.mapError f := rfl

/-- The outcome of work done one after the other. -/
@[simp] theorem outcome_bind (x : Traced ε α) (f : α → Traced ε β) :
    (x >>= f).outcome = x.outcome.bind fun a => (f a).outcome := by
  obtain ⟨trace, outcome⟩ := x
  cases outcome <;> rfl

@[simp] theorem outcome_map (f : α → β) (x : Traced ε α) :
    (f <$> x).outcome = x.outcome.map f := by
  obtain ⟨trace, outcome⟩ := x
  cases outcome <;> rfl

end Traced

namespace Trace

/-- Steps are shown only when the environment asks for them with `true`, and nothing silences
    them. -/
def enabled (debug : Option Text) (silenced : Bool) : Bool :=
  !silenced && debug == some "true".toList

/-- The lines of steps that are shown. -/
def shown (debug : Option Text) (silenced : Bool) (trace : List Event) : List Text :=
  if enabled debug silenced then trace.map Event.line else []

end Trace

end GridSketch
