/-
  Grid sketches: a text that draws a grid of named regions is read into placements.
-/
import GridSketch.Main
import GridSketch.Proofs.Sketch.Geometry
import GridSketch.Proofs.Sketch.Scan
import GridSketch.Proofs.Sketch.Lexemes
import GridSketch.Proofs.Sketch.Drawing
import GridSketch.Proofs.Sketch.Grid
import GridSketch.Proofs.Number.Notation
import GridSketch.Proofs.Number.Overflow
import GridSketch.Proofs.Text.CodeUnits
import GridSketch.Proofs.Text.LetterCase
import GridSketch.Proofs.Constraint.Apply
import GridSketch.Proofs.Placement
import GridSketch.Proofs.Session
import GridSketch.Proofs.Constraint.Embedded
import GridSketch.Proofs.Constraint.Fields
import GridSketch.Proofs.Attribution
import GridSketch.Proofs.Constraint.History
import GridSketch.Proofs.Constraint.Weights
import GridSketch.Proofs.Constraint.Readback
import GridSketch.Proofs.Constraint.Leading
import GridSketch.Proofs.Sketch.Refusal
import GridSketch.Proofs.Constraint.Sequence
import GridSketch.Proofs.Constraint.Grouping
import GridSketch.Proofs.Constraint.Caseless
import GridSketch.Proofs.Number.Integers
import GridSketch.Proofs.Number.Literals
import GridSketch.Proofs.Constraint.Numbers
import GridSketch.Proofs.Number.Grammar
import GridSketch.Proofs.Json.Grammar
import GridSketch.Proofs.Json.Notation
import GridSketch.Proofs.Text.Utf8
import GridSketch.Proofs.CommandLine.Regions
import GridSketch.Proofs.Sketch.Registry
import GridSketch.Proofs.Diagnostic
import GridSketch.Proofs.Trace.Lines
import GridSketch.Proofs.Trace.Replay
import GridSketch.Proofs.CommandLine.Placement
