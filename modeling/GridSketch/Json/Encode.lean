/-
  Regions, records and placements as JSON values.
-/
import GridSketch.Json.Basic
import GridSketch.Placer

namespace GridSketch

/-- A region, every field under its name. -/
def Region.json (r : Region) : Json :=
  .object
    [("name".toList, .text r.name),
     ("row".toList, .integer r.row),
     ("col".toList, .integer r.col),
     ("width".toList, .integer r.width),
     ("height".toList, .integer r.height),
     ("constraints".toList, .text r.constraints)]

/-- The regions of a registry in order. -/
def Registry.json (registry : Registry) : Json := .array (registry.toList.map Region.json)

/-- A choice: the name of its keyword, or its code as a number. -/
def Choice.json {κ : Type} [Vocabulary κ] : Choice κ → Json
  | .keyword k => .text (Vocabulary.name k)
  | .raw code => .integer code

/-- The four insets. -/
def Insets.json (i : Insets) : Json :=
  .object
    [("top".toList, .integer i.top),
     ("bottom".toList, .integer i.bottom),
     ("left".toList, .integer i.left),
     ("right".toList, .integer i.right)]

/-- A record, every parameter under its name. -/
def Record.json (r : Record) : Json :=
  .object
    [("gridwidth".toList, .integer r.gridwidth),
     ("gridheight".toList, .integer r.gridheight),
     ("weightx".toList, .number r.weightx),
     ("weighty".toList, .number r.weighty),
     ("anchor".toList, r.anchor.json),
     ("fill".toList, r.fill.json),
     ("ipadx".toList, .integer r.ipadx),
     ("ipady".toList, .integer r.ipady),
     ("insets".toList, r.insets.json)]

/-- A placement; the name is there when it is the placement of a region. -/
def Placement.json (p : Placement) : Json :=
  .object <|
    (p.name.toList.map fun name => ("name".toList, .text name)) ++
      [("row".toList, .integer p.row),
       ("col".toList, .integer p.col),
       ("constraints".toList, p.constraints.json)]

end GridSketch
