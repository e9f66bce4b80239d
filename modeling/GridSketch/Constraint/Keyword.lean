/-
  The keywords of anchors and fills, with their synonyms.

  * `Direction`, `FillMode`: what a keyword stands for.
  * `Choice`: a keyword, or an integer code of the caller's own that is passed through.
  * `Choice.read?`: an integer is a code; any other text must be a keyword in any letter case.
-/
import GridSketch.Number.Integer
import GridSketch.Text.LowerCase

namespace GridSketch

/-- Where a component sits in its cell. -/
inductive Direction where
  | center | north | south | east | west | northeast | northwest | southeast | southwest
  deriving DecidableEq, Repr

/-- In which directions a component is stretched to fill its cell. -/
inductive FillMode where
  | none | horizontal | vertical | both
  deriving DecidableEq, Repr

/-- A closed set of keywords. -/
class Vocabulary (κ : Type) where
  /-- Every keyword. -/
  all : List κ
  /-- The name of a keyword. -/
  name : κ → Text
  /-- The shorter and other spellings of a keyword. -/
  aliases : κ → List Text

namespace Vocabulary

variable {κ : Type} [Vocabulary κ]

/-- The spellings of a keyword, its name first. -/
def spellings (k : κ) : List Text := name k :: aliases k

/-- The keyword that a text spells, in any letter case. -/
def find? (t : Text) : Option κ := all.find? fun k => (spellings k).contains (Text.lower t)

end Vocabulary

instance : Vocabulary Direction where
  all := [.center, .north, .south, .east, .west, .northeast, .northwest, .southeast, .southwest]
  name
    | .center => "center".toList
    | .north => "north".toList
    | .south => "south".toList
    | .east => "east".toList
    | .west => "west".toList
    | .northeast => "northeast".toList
    | .northwest => "northwest".toList
    | .southeast => "southeast".toList
    | .southwest => "southwest".toList
  aliases
    | .center => ["ctr".toList, "c".toList]
    | .north => ["n".toList, "top".toList]
    | .south => ["s".toList, "bot".toList, "bottom".toList]
    | .east => ["e".toList, "right".toList, "r".toList]
    | .west => ["w".toList, "left".toList, "l".toList]
    | .northeast => ["ne".toList, "topright".toList, "tr".toList]
    | .northwest => ["nw".toList, "topleft".toList, "tl".toList]
    | .southeast => ["se".toList, "bottomright".toList, "br".toList]
    | .southwest => ["sw".toList, "bottomleft".toList, "bl".toList]

instance : Vocabulary FillMode where
  all := [.none, .horizontal, .vertical, .both]
  name
    | .none => "none".toList
    | .horizontal => "horizontal".toList
    | .vertical => "vertical".toList
    | .both => "both".toList
  aliases
    | .none => ["neither".toList, "n".toList]
    | .horizontal => ["h".toList, "x".toList]
    | .vertical => ["v".toList, "y".toList]
    | .both => ["all".toList, "xy".toList, "yx".toList, "hv".toList, "vh".toList]

/-- A keyword, or an integer code whose meaning is the caller's. -/
inductive Choice (κ : Type) where
  | keyword (k : κ)
  | raw (code : Int)
  deriving DecidableEq, Repr

namespace Choice

variable {κ : Type} [Vocabulary κ]

/-- The choice a text denotes: the code it is the integer of, or the keyword it spells. -/
def read? (t : Text) : Option (Choice κ) :=
  match Integer.read? t with
  | some code => some (raw code)
  | none => (Vocabulary.find? t).map keyword

/-- Whether a choice is a code. -/
def isRaw : Choice κ → Bool
  | keyword _ => false
  | raw _ => true

end Choice

/-- The position of a component in its cell. -/
abbrev Anchor := Choice Direction

/-- The stretching of a component in its cell. -/
abbrev Fill := Choice FillMode

end GridSketch
