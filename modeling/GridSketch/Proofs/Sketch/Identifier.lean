/-
  An identifier cut at its separators: the name before the first, the embedded entries between the
  first and the second.

  * `Region.splitIdentifier_eq`: the cut in terms of the leading runs without a separator.
  * `Region.ofIdentifier_eq`: the region that an identifier starts, or the report of its entries.
-/
import GridSketch.Sketch.Draft

namespace GridSketch

theorem Text.pieces_eq_cons (separator : Char) (t : Text) :
    Text.pieces separator t =
      (t.takeWhile fun c => c != separator) ::
        match t.dropWhile fun c => c != separator with
        | [] => []
        | _ :: rest => Text.pieces separator rest := by
  induction t with
  | nil => rfl
  | cons c rest ih =>
    rw [Text.pieces, List.splitOnP_cons_eq_if_modifyHead, ← Text.pieces]
    cases h : c == separator with
    | true => simp [bne, h]
    | false =>
      rw [ih]
      simp [bne, h]

theorem Text.pieces_eq_singleton {separator : Char} {t : Text} (h : separator ∉ t) :
    Text.pieces separator t = [t] :=
  List.splitOn_eq_singleton h

theorem Text.pieces_append_cons {separator : Char} {t : Text} (h : separator ∉ t) (rest : Text) :
    Text.pieces separator (t ++ separator :: rest) = t :: Text.pieces separator rest :=
  List.splitOn_append_cons_self_of_not_mem h rest

namespace Region

/-- What stands before the first separator of an identifier. -/
def nameOf (text : Text) : Text := text.takeWhile fun c => c != specSeparator

/-- What stands between the first separator of an identifier and the second. -/
def specOf (text : Text) : Text :=
  ((text.dropWhile fun c => c != specSeparator).drop 1).takeWhile fun c => c != specSeparator

theorem splitIdentifier_eq (text : Text) : splitIdentifier text = (nameOf text, specOf text) := by
  rw [splitIdentifier, Text.pieces_eq_cons, nameOf, specOf]
  cases text.dropWhile fun c => c != specSeparator with
  | nil => rfl
  | cons c rest =>
    simp only [Text.pieces_eq_cons specSeparator rest]
    rfl

theorem splitIdentifier_name {name : Text} (h : specSeparator ∉ name) :
    splitIdentifier name = (name, []) := by
  rw [splitIdentifier, Text.pieces_eq_singleton h]

theorem splitIdentifier_name_spec {name spec : Text} (hname : specSeparator ∉ name)
    (hspec : specSeparator ∉ spec) :
    splitIdentifier (name ++ specSeparator :: spec) = (name, spec) := by
  rw [splitIdentifier, Text.pieces_append_cons hname, Text.pieces_eq_singleton hspec]

/-- The region of an identifier, if its embedded entries can be read. -/
theorem ofIdentifier_eq (text : Text) (offset : Nat) (row col : Int) :
    ofIdentifier text offset row col =
      match Embedded.expand (specOf text) with
      | .ok constraints => .ok ⟨nameOf text, row, col, 1, 1, constraints⟩
      | .error fault =>
        .error (fault.diagnostic.withContext
          { region := some (nameOf text), offset := some offset }) := by
  have hcut := splitIdentifier_eq text
  unfold ofIdentifier
  cases hexpand : Embedded.expand (specOf text) with
  | ok constraints => simp [hcut, hexpand]
  | error fault => simp [hcut, hexpand]

end Region

end GridSketch
