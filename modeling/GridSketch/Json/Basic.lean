/-
  JSON values and their two notations: on one line without any space, or indented by two spaces
  for each level.
-/
import GridSketch.Number.Shortest

namespace GridSketch

/-- A JSON value; members of an object keep their order. -/
inductive Json where
  | null
  | integer (n : Int)
  | number (x : Binary64)
  | text (t : Text)
  | array (items : List Json)
  | object (members : List (Text × Json))

namespace Json

/-! ## Texts -/

/-- The notation of a character inside quotes. Quotes, backslashes and controls are escaped. -/
def escape (c : Char) : Text :=
  if c = '"' then ['\\', '"']
  else if c = '\\' then ['\\', '\\']
  else if c = '\x08' then ['\\', 'b']
  else if c = '\t' then ['\\', 't']
  else if c = '\n' then ['\\', 'n']
  else if c = '\x0c' then ['\\', 'f']
  else if c = '\r' then ['\\', 'r']
  else if c.toNat < 0x20 then
    ['\\', 'u', '0', '0', Nat.digitChar (c.toNat / 16), Nat.digitChar (c.toNat % 16)]
  else [c]

/-- The notation of a text. -/
def quote (t : Text) : Text := '"' :: t.flatMap escape ++ ['"']

/-! ## Layout -/

/-- How the parts of a value are set apart. -/
inductive Style where
  /-- Not at all. -/
  | compact
  /-- Each on a line of its own, indented by its level. -/
  | indented
  deriving DecidableEq, Repr

/-- What stands before a part of a value at a given level. -/
def Style.lead (style : Style) (level : Nat) : Text :=
  match style with
  | compact => []
  | indented => '\n' :: List.replicate (2 * level) ' '

/-- What stands between the name and the value of a member. -/
def Style.colon : Style → Text
  | compact => [':']
  | indented => [':', ' ']

/-- The notation of a number; an infinity has none and becomes null. -/
def writeNumber (x : Binary64) : Text := if x.isFinite then x.write else "null".toList

mutual

/-- The notation of a value at a given level. -/
def write (style : Style) (level : Nat) : Json → Text
  | null => "null".toList
  | integer n => Integer.write n
  | number x => writeNumber x
  | text t => quote t
  | array [] => ['[', ']']
  | array (item :: items) =>
    '[' :: style.lead (level + 1) ++ write style (level + 1) item ++
      writeItems style (level + 1) items ++ style.lead level ++ [']']
  | object [] => ['\x7b', '\x7d']
  | object ((name, value) :: members) =>
    '\x7b' :: style.lead (level + 1) ++ quote name ++ style.colon ++
      write style (level + 1) value ++ writeMembers style (level + 1) members ++
      style.lead level ++ ['\x7d']

/-- The items of an array after the first. -/
def writeItems (style : Style) (level : Nat) : List Json → Text
  | [] => []
  | item :: items =>
    ',' :: style.lead level ++ write style level item ++ writeItems style level items

/-- The members of an object after the first. -/
def writeMembers (style : Style) (level : Nat) : List (Text × Json) → Text
  | [] => []
  | (name, value) :: members =>
    ',' :: style.lead level ++ quote name ++ style.colon ++ write style level value ++
      writeMembers style level members

end

/-- The notation of a value as a document. -/
def render (style : Style) (value : Json) : Text := write style 0 value

end Json

end GridSketch
