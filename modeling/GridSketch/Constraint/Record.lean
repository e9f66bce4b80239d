/-
  The layout parameters of one component.

  * `Record`: every parameter has a value; `Record.standard` holds the defaults.
  * `Overrides`: a choice of parameters, laid over the defaults by `Record.create`.
-/
import GridSketch.Constraint.Keyword
import GridSketch.Number.Binary64

namespace GridSketch

/-- The space kept free around a component. -/
structure Insets where
  top : Int
  bottom : Int
  left : Int
  right : Int
  deriving DecidableEq, Repr

/-- The layout parameters of one component. -/
structure Record where
  /-- The number of grid columns spanned. -/
  gridwidth : Int
  /-- The number of grid rows spanned. -/
  gridheight : Int
  /-- The share of surplus width. -/
  weightx : Binary64
  /-- The share of surplus height. -/
  weighty : Binary64
  anchor : Anchor
  fill : Fill
  /-- The padding added inside, left and right. -/
  ipadx : Int
  /-- The padding added inside, above and below. -/
  ipady : Int
  insets : Insets
  deriving DecidableEq, Repr

/-- Values for some of the insets. -/
structure InsetOverrides where
  top : Option Int := none
  bottom : Option Int := none
  left : Option Int := none
  right : Option Int := none
  deriving DecidableEq, Repr

/-- Values for some of the parameters. -/
structure Overrides where
  gridwidth : Option Int := none
  gridheight : Option Int := none
  weightx : Option Binary64 := none
  weighty : Option Binary64 := none
  anchor : Option Anchor := none
  fill : Option Fill := none
  ipadx : Option Int := none
  ipady : Option Int := none
  insets : InsetOverrides := {}
  deriving DecidableEq, Repr

namespace Record

/-- The defaults: one cell, no weight, centred, not stretched, no space. -/
def standard : Record where
  gridwidth := 1
  gridheight := 1
  weightx := .zero
  weighty := .zero
  anchor := .keyword .center
  fill := .keyword .none
  ipadx := 0
  ipady := 0
  insets := ⟨0, 0, 0, 0⟩

/-- The record with the given parameters overridden. -/
def override (r : Record) (o : Overrides) : Record where
  gridwidth := o.gridwidth.getD r.gridwidth
  gridheight := o.gridheight.getD r.gridheight
  weightx := o.weightx.getD r.weightx
  weighty := o.weighty.getD r.weighty
  anchor := o.anchor.getD r.anchor
  fill := o.fill.getD r.fill
  ipadx := o.ipadx.getD r.ipadx
  ipady := o.ipady.getD r.ipady
  insets :=
    { top := o.insets.top.getD r.insets.top
      bottom := o.insets.bottom.getD r.insets.bottom
      left := o.insets.left.getD r.insets.left
      right := o.insets.right.getD r.insets.right }

/-- The defaults with the given parameters overridden. -/
def create (o : Overrides) : Record := standard.override o

end Record

end GridSketch
