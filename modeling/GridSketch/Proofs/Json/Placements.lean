/-
  What the JSON of placements means.

  A placement is an object: its name, if it has one, its cell, and an object with its parameters. Anchors
  and fills are keywords by name or integers, and a weight is a number that is read as the weight, or null
  if the weight is not finite.

  * `Choice.denotes_json`, `Insets.denotes_json`, `Record.denotes_json`: parameters.
  * `Placement.exists_denotes_json`: placements.
-/
import GridSketch.Json.Encode
import GridSketch.Proofs.Json.Doubles

namespace GridSketch

open Json (denotes_integer denotes_text)

/-! ## Parameters -/

/-- A choice: a keyword by its name, or an integer. -/
def Choice.datum {κ : Type} [Vocabulary κ] : Choice κ → Datum
  | .keyword k => .text (Vocabulary.name k)
  | .raw code => .number code

theorem Choice.denotes_json {κ : Type} [Vocabulary κ] (choice : Choice κ) :
    Json.Denotes choice.json choice.datum := by
  cases choice with
  | keyword k => exact denotes_text _
  | raw code => exact denotes_integer code

/-- The four insets by name. -/
def Insets.datum (i : Insets) : Datum :=
  .object
    [("top".toList, .number i.top), ("bottom".toList, .number i.bottom),
     ("left".toList, .number i.left), ("right".toList, .number i.right)]

theorem Insets.denotes_json (i : Insets) : Json.Denotes i.json i.datum :=
  Json.denotes_object <|
    .cons ((denotes_integer _).member _) <| .cons ((denotes_integer _).member _) <|
    .cons ((denotes_integer _).member _) <| .cons ((denotes_integer _).member _) .nil

/-- The parameters of a record by name, with what is told of the two weights. -/
def Record.datum (r : Record) (weightx weighty : Datum) : Datum :=
  .object
    [("gridwidth".toList, .number r.gridwidth),
     ("gridheight".toList, .number r.gridheight),
     ("weightx".toList, weightx),
     ("weighty".toList, weighty),
     ("anchor".toList, r.anchor.datum),
     ("fill".toList, r.fill.datum),
     ("ipadx".toList, .number r.ipadx),
     ("ipady".toList, .number r.ipady),
     ("insets".toList, r.insets.datum)]

theorem Record.denotes_json (r : Record) {weightx weighty : Datum}
    (hx : Json.Denotes (.number r.weightx) weightx) (hy : Json.Denotes (.number r.weighty) weighty) :
    Json.Denotes r.json (r.datum weightx weighty) :=
  Json.denotes_object <|
    .cons ((denotes_integer _).member _) <| .cons ((denotes_integer _).member _) <|
    .cons (hx.member _) <| .cons (hy.member _) <|
    .cons (r.anchor.denotes_json.member _) <| .cons (r.fill.denotes_json.member _) <|
    .cons ((denotes_integer _).member _) <| .cons ((denotes_integer _).member _) <|
    .cons (r.insets.denotes_json.member _) .nil

/-! ## Placements -/

/-- What is told of a placement: its name, its cell, and its parameters. -/
def Placement.Tells (p : Placement) (d : Datum) : Prop :=
  ∃ weightx weighty, p.constraints.weightx.Tells weightx ∧ p.constraints.weighty.Tells weighty ∧
    d = .object ((p.name.toList.map fun name => ("name".toList, .text name)) ++
      [("row".toList, .number p.row),
       ("col".toList, .number p.col),
       ("constraints".toList, p.constraints.datum weightx weighty)])

/-- The notation of the JSON value of a placement tells the placement. -/
theorem Placement.exists_denotes_json (p : Placement) : ∃ d, p.Tells d ∧ Json.Denotes p.json d := by
  obtain ⟨weightx, htellsx, hweightx⟩ := Json.exists_denotes_number p.constraints.weightx
  obtain ⟨weighty, htellsy, hweighty⟩ := Json.exists_denotes_number p.constraints.weighty
  have hcell : List.Forall₂ Json.MemberDenotes
      [("row".toList, .integer p.row), ("col".toList, .integer p.col),
        ("constraints".toList, p.constraints.json)]
      [("row".toList, .number p.row), ("col".toList, .number p.col),
        ("constraints".toList, p.constraints.datum weightx weighty)] :=
    .cons ((denotes_integer _).member _) <| .cons ((denotes_integer _).member _) <|
      .cons ((p.constraints.denotes_json hweightx hweighty).member _) .nil
  refine ⟨_, ⟨weightx, weighty, htellsx, htellsy, rfl⟩, Json.denotes_object ?_⟩
  cases p.name with
  | none => exact hcell
  | some name => exact .cons ((denotes_text name).member _) hcell

end GridSketch
