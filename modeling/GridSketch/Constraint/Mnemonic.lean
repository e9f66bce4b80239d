/-
  The names of constraints and what each of them sets.

  * `Target`: the parameters that one name sets, all to the same value.
  * `Mnemonic.table`: every name, in the order in which names are sought at the start of an entry.
-/
import GridSketch.Text.LowerCase

namespace GridSketch

/-- The parameters that hold an integer. -/
inductive Measure where
  | gridwidth | gridheight | ipadx | ipady | insetTop | insetBottom | insetLeft | insetRight
  deriving DecidableEq, Repr

/-- The directions in which surplus space is shared out. -/
inductive Axis where
  | x | y
  deriving DecidableEq, Repr

/-- The parameters that one constraint sets. -/
inductive Target where
  | measures (ms : List Measure)
  | weights (axes : List Axis)
  | anchor
  | fill
  deriving DecidableEq, Repr

/-- Whether a constraint sets the weight of an axis. -/
def Target.weighs (target : Target) (axis : Axis) : Bool :=
  match target with
  | weights axes => axes.contains axis
  | _ => false

/-- A name of a constraint, in lower case. -/
structure Mnemonic where
  spelling : Text
  target : Target
  deriving DecidableEq, Repr

namespace Mnemonic

/-- Every constraint name. Of two names one of which starts with the other, the longer stands
    first. -/
def table : List Mnemonic :=
  [⟨"gridwidth".toList, .measures [.gridwidth]⟩,
   ⟨"width".toList, .measures [.gridwidth]⟩,
   ⟨"wd".toList, .measures [.gridwidth]⟩,
   ⟨"gridheight".toList, .measures [.gridheight]⟩,
   ⟨"height".toList, .measures [.gridheight]⟩,
   ⟨"ht".toList, .measures [.gridheight]⟩,
   ⟨"weightx".toList, .weights [.x]⟩,
   ⟨"wx".toList, .weights [.x]⟩,
   ⟨"weighty".toList, .weights [.y]⟩,
   ⟨"wy".toList, .weights [.y]⟩,
   ⟨"w*".toList, .weights [.x, .y]⟩,
   ⟨"weight*".toList, .weights [.x, .y]⟩,
   ⟨"anchor".toList, .anchor⟩,
   ⟨"a".toList, .anchor⟩,
   ⟨"fill".toList, .fill⟩,
   ⟨"f".toList, .fill⟩,
   ⟨"ipadx".toList, .measures [.ipadx]⟩,
   ⟨"px".toList, .measures [.ipadx]⟩,
   ⟨"ipady".toList, .measures [.ipady]⟩,
   ⟨"py".toList, .measures [.ipady]⟩,
   ⟨"ipad*".toList, .measures [.ipadx, .ipady]⟩,
   ⟨"p*".toList, .measures [.ipadx, .ipady]⟩,
   ⟨"inset_top".toList, .measures [.insetTop]⟩,
   ⟨"insets_top".toList, .measures [.insetTop]⟩,
   ⟨"it".toList, .measures [.insetTop]⟩,
   ⟨"inset_bottom".toList, .measures [.insetBottom]⟩,
   ⟨"insets_bottom".toList, .measures [.insetBottom]⟩,
   ⟨"ib".toList, .measures [.insetBottom]⟩,
   ⟨"inset_left".toList, .measures [.insetLeft]⟩,
   ⟨"insets_left".toList, .measures [.insetLeft]⟩,
   ⟨"il".toList, .measures [.insetLeft]⟩,
   ⟨"inset_right".toList, .measures [.insetRight]⟩,
   ⟨"insets_right".toList, .measures [.insetRight]⟩,
   ⟨"ir".toList, .measures [.insetRight]⟩,
   ⟨"insets*".toList, .measures [.insetTop, .insetBottom, .insetLeft, .insetRight]⟩,
   ⟨"inset*".toList, .measures [.insetTop, .insetBottom, .insetLeft, .insetRight]⟩,
   ⟨"i*".toList, .measures [.insetTop, .insetBottom, .insetLeft, .insetRight]⟩]

/-- The target of a name in lower case. -/
def target? (name : Text) : Option Target :=
  (table.find? fun m => m.spelling == name).map Mnemonic.target

/-- The first name of the table that a text starts with, in any letter case. -/
def leading? (t : Text) : Option Mnemonic :=
  table.find? fun m => m.spelling.isPrefixOf (Text.lower t)

/-- Whether a name in lower case sets the weight of an axis. -/
def weighs (axis : Axis) (name : Text) : Bool := (target? name).any fun t => t.weighs axis

/-- The names that set the weight of an axis, in table order. -/
def weightNames (axis : Axis) : List Text :=
  (table.filter fun m => m.target.weighs axis).map Mnemonic.spelling

end Mnemonic

end GridSketch
