/-
  The regions of one sketch, in order and by name.

  A registry keeps a list and an index of names. The index is built with the list and finds the
  first region of each name; that it agrees with the list is part of the type.

  * `Registry.ofList`: the registry of any list of regions.
  * `Registry.get?`: the region of a name, looked up in the index.
-/
import GridSketch.Text.Basic
import Std.Data.HashMap

namespace GridSketch

/-- A text has the hash of the string of its characters. -/
instance : Hashable Text := ⟨fun t => hash (String.ofList t)⟩

/-- A rectangle of cells with a name. -/
structure Region where
  name : Text
  /-- The row of the top left cell, counted from zero. -/
  row : Int
  /-- The column of the top left cell, counted from zero. -/
  col : Int
  /-- The number of columns. -/
  width : Int
  /-- The number of rows. -/
  height : Int
  /-- The constraint text embedded in the sketch, or the empty text. -/
  constraints : Text
  deriving DecidableEq, Repr

namespace Region

/-! ## The index of names -/

/-- Adds a region to an index, unless its name is taken. -/
def addTo (index : Std.HashMap Text Region) (r : Region) : Std.HashMap Text Region :=
  index.insertIfNew r.name r

/-- The first region of each name. -/
def index (regions : List Region) : Std.HashMap Text Region := regions.foldl addTo ∅

theorem getElem?_addTo (index : Std.HashMap Text Region) (r : Region) (name : Text) :
    (addTo index r)[name]? = index[name]?.or (if r.name == name then some r else none) := by
  rw [addTo, Std.HashMap.getElem?_insertIfNew]
  grind

theorem getElem?_foldl_addTo (regions : List Region) (index : Std.HashMap Text Region)
    (name : Text) :
    (regions.foldl addTo index)[name]? =
      index[name]?.or (regions.find? fun r => r.name == name) := by
  induction regions generalizing index with
  | nil => simp
  | cons r rest ih =>
    rw [List.foldl_cons, ih, getElem?_addTo, List.find?_cons, Option.or_assoc]
    cases r.name == name <;> simp

/-- The index finds what a search of the list finds. -/
theorem getElem?_index (regions : List Region) (name : Text) :
    (index regions)[name]? = regions.find? fun r => r.name == name := by
  rw [index, getElem?_foldl_addTo, Std.HashMap.getElem?_empty, Option.none_or]

end Region

/-- The regions of one sketch, with an index of their names. -/
structure Registry where
  regions : List Region
  index : Std.HashMap Text Region
  /-- The index finds the first region of each name. -/
  indexed : ∀ name, index[name]? = regions.find? fun r => r.name == name

namespace Registry

/-- The registry of a list of regions. -/
def ofList (regions : List Region) : Registry where
  regions := regions
  index := Region.index regions
  indexed := Region.getElem?_index regions

/-- The first region of a name. -/
def get? (registry : Registry) (name : Text) : Option Region := registry.index[name]?

/-- Whether there is a region of a name. -/
def contains (registry : Registry) (name : Text) : Bool := registry.index.contains name

/-- The number of regions. -/
def size (registry : Registry) : Nat := registry.regions.length

/-- The names of the regions in order. -/
def names (registry : Registry) : List Text := registry.regions.map Region.name

/-- The regions in order. -/
def toList (registry : Registry) : List Region := registry.regions

end Registry

end GridSketch
