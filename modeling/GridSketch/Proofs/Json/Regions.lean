/-
  What the JSON of regions means.

  A region is an object with its six fields, each under its name, and the regions of a registry are an
  array, in order. So the regions can be read back, whatever the characters of their names and
  constraints are.

  * `Region.denotes_json`, `Registry.denotes_json`: regions and registries.
  * `Region.datum_injective`, `Region.data_injective`: regions that mean the same are the same.
-/
import GridSketch.Json.Encode
import GridSketch.Proofs.Json.Notation

namespace GridSketch

open Json (denotes_integer denotes_text)

/-! ## Meanings -/

/-- The fields of a region by name. -/
def Region.datum (r : Region) : Datum :=
  .object
    [("name".toList, .text r.name),
     ("row".toList, .number r.row),
     ("col".toList, .number r.col),
     ("width".toList, .number r.width),
     ("height".toList, .number r.height),
     ("constraints".toList, .text r.constraints)]

/-- Regions in order. -/
def Region.data (regions : List Region) : Datum := .array (regions.map Region.datum)

theorem Region.denotes_json (r : Region) : Json.Denotes r.json r.datum :=
  Json.denotes_object <|
    .cons ((denotes_text _).member _) <| .cons ((denotes_integer _).member _) <|
    .cons ((denotes_integer _).member _) <| .cons ((denotes_integer _).member _) <|
    .cons ((denotes_integer _).member _) <| .cons ((denotes_text _).member _) .nil

theorem Registry.denotes_json (registry : Registry) :
    Json.Denotes registry.json (Region.data registry.toList) := by
  apply Json.denotes_array
  rw [List.forall₂_map_left_iff, List.forall₂_map_right_iff, List.forall₂_same]
  exact fun r _ => r.denotes_json

/-! ## Regions that mean the same -/

/-- The fields determine the region. -/
theorem Region.datum_injective : Function.Injective Region.datum := by
  intro r r' h
  obtain ⟨name, row, col, width, height, constraints⟩ := r
  obtain ⟨name', row', col', width', height', constraints'⟩ := r'
  simpa [datum] using h

theorem Region.data_injective : Function.Injective Region.data := by
  intro regions regions' h
  exact Region.datum_injective.list_map (Datum.array.inj h)

end GridSketch
