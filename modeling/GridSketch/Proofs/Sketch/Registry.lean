/-
  A registry against the list of regions that it is made of.

  Every region enters the list, but the index only if its name is not taken. So a name that several
  regions have stands for the one that comes first, and nothing else depends on names: the registry has
  all regions, in order. The index is built region by region; what it finds is what a search of the list
  finds (`Region.getElem?_foldl_addTo`, by induction on the list).

  * `Region.IsFirst`: the region that a name stands for in a list.
  * `Registry.get?_eq_some_iff`, `Registry.get?_eq_none_iff`, `Registry.contains_iff`: look-ups.
  * `Registry.keeps_all_and_finds_first`: the registry of any list.
-/
import GridSketch.Proofs.Json.Regions

namespace GridSketch

/-- A region of a given name that no region of this name precedes. -/
def Region.IsFirst (regions : List Region) (name : Text) (r : Region) : Prop :=
  ∃ before after, regions = before ++ r :: after ∧ r.name = name ∧
    ∀ earlier ∈ before, earlier.name ≠ name

namespace Region.IsFirst

variable {regions : List Region} {name : Text} {r : Region}

theorem mem (h : IsFirst regions name r) : r ∈ regions := by
  obtain ⟨before, after, rfl, -⟩ := h
  exact List.mem_append_right before List.mem_cons_self

theorem name_eq (h : IsFirst regions name r) : r.name = name := by
  obtain ⟨before, after, -, hname, -⟩ := h
  exact hname

end Region.IsFirst

/-- A search by name finds the first region of the name. -/
theorem Region.find?_eq_some_iff {regions : List Region} {name : Text} {r : Region} :
    (regions.find? fun found => found.name == name) = some r ↔ IsFirst regions name r := by
  rw [List.find?_eq_some_iff_append, IsFirst]
  constructor
  · rintro ⟨hname, before, after, hregions, hbefore⟩
    exact ⟨before, after, hregions, by simpa using hname, fun r hr => by simpa using hbefore r hr⟩
  · rintro ⟨before, after, hregions, hname, hbefore⟩
    exact ⟨by simpa using hname, before, after, hregions, fun r hr => by simpa using hbefore r hr⟩

namespace Registry

/-! ## Look-ups -/

section

variable (registry : Registry) (name : Text)

theorem get?_eq_some_iff (r : Region) :
    registry.get? name = some r ↔ Region.IsFirst registry.toList name r := by
  rw [get?, registry.indexed, Region.find?_eq_some_iff, toList]

theorem get?_eq_none_iff : registry.get? name = none ↔ ∀ r ∈ registry.toList, r.name ≠ name := by
  rw [get?, registry.indexed, List.find?_eq_none, toList]
  simp only [beq_iff_eq, ne_eq]

theorem contains_iff : registry.contains name = true ↔ ∃ r ∈ registry.toList, r.name = name := by
  rw [contains, Std.HashMap.contains_eq_isSome_getElem?, registry.indexed, List.find?_isSome, toList]
  simp only [beq_iff_eq]

/-- The region of a name, for a placement: the failure of an absent name aside, what is looked up. -/
theorem region_eq_ok_iff (defaults : Record) (r : Region) :
    Placer.region ⟨defaults, some registry⟩ name = .ok r ↔ registry.get? name = some r := by
  rw [Placer.region]
  dsimp only
  cases registry.get? name with
  | none => exact iff_of_false nofun nofun
  | some found => rw [Except.ok.injEq, Option.some.injEq]

theorem region_of_absent (h : ∀ r ∈ registry.toList, r.name ≠ name) (defaults : Record) :
    Placer.region ⟨defaults, some registry⟩ name = .error (.regionAbsent name) := by
  rw [Placer.region]
  dsimp only
  rw [(registry.get?_eq_none_iff name).mpr h]

end

/-! ## Registries of lists -/

/-- The registry of any list of regions, whatever their names: it has all of them in order, however it
    is asked for them, and of the regions of one name it finds the first. -/
theorem keeps_all_and_finds_first (regions : List Region) :
    (ofList regions).toList = regions ∧ (ofList regions).size = regions.length ∧
      (ofList regions).names = regions.map Region.name ∧
      (∀ style d, Json.Document ((ofList regions).json.render style) d ↔ d = Region.data regions) ∧
      ∀ name,
        ((ofList regions).contains name = true ↔ ∃ r ∈ regions, r.name = name) ∧
        (∀ r, (ofList regions).get? name = some r ↔ Region.IsFirst regions name r) ∧
        ((ofList regions).get? name = none ↔ ∀ r ∈ regions, r.name ≠ name) ∧
        ∀ defaults r, Placer.region ⟨defaults, some (ofList regions)⟩ name = .ok r ↔
          Region.IsFirst regions name r := by
  refine ⟨rfl, rfl, rfl, (ofList regions).denotes_json.document_iff, fun name => ?_⟩
  refine ⟨contains_iff _ name, get?_eq_some_iff _ name, get?_eq_none_iff _ name, fun defaults r => ?_⟩
  rw [region_eq_ok_iff, get?_eq_some_iff]
  rfl

end Registry

end GridSketch
