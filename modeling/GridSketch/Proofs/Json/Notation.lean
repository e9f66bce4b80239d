/-
  What the notations of JSON values mean.

  Both styles differ in white space only, which the grammar passes over. A text in quotes is read back
  character by character, whatever is escaped; an integer is written without superfluous zeros. So each
  kind of value has a notation that means it, in both styles and at every level, if its parts have.

  * `Json.Denotes`: a value and what its notations mean.
  * `Json.denotes_text`, `Json.denotes_integer`: texts and integers.
  * `Json.denotes_array`, `Json.denotes_object`: lists of values and of members, by induction on them.
  * `Json.Denotes.document_iff`: the notation as a document.
-/
import GridSketch.Proofs.Json.Grammar
import Mathlib.Data.List.Forall2
import Mathlib.Data.Rat.Cast.Defs

namespace GridSketch

-- What holds of all characters of a text is decided on its characters.
attribute [local instance (2000)] List.decidableBAll

namespace Json

/-- Whatever its style and level, the notation of a value means another value. -/
def Denotes (v : Json) (d : Datum) : Prop :=
  ∀ (style : Style) (level : Nat) (rest : Text), Reads (write style level v ++ rest) (.value d) rest

variable {style : Style} {level : Nat} {rest : Text}

/-! ## White space -/

theorem skips_refl (t : Text) : Skips t t := ⟨[], nofun, rfl⟩

/-- What sets the parts of a value apart is white space. -/
theorem skips_lead (style : Style) (level : Nat) (rest : Text) :
    Skips (style.lead level ++ rest) rest := by
  refine ⟨style.lead level, fun c hc => ?_, rfl⟩
  cases style with
  | compact => cases hc
  | indented =>
    rcases List.mem_cons.mp hc with rfl | hc
    · decide
    · rw [(List.mem_replicate.mp hc).2]
      decide

/-! ## Texts -/

/-- A control character in four digits. -/
theorem codeUnit?_of_lt {n : Nat} (h : n < 0x20) :
    codeUnit? ['0', '0', Nat.digitChar (n / 16), Nat.digitChar (n % 16)] = some n := by
  have hall : ∀ n < 0x20,
      codeUnit? ['0', '0', Nat.digitChar (n / 16), Nat.digitChar (n % 16)] = some n := by decide
  exact hall n h

/-- A character in quotes is read back. -/
theorem character_escape (c : Char) (rest : Text) : Character (escape c ++ rest) c rest := by
  unfold escape
  split
  next hc => rw [hc]; exact .escaped (by decide)
  next hquote =>
  split
  next hc => rw [hc]; exact .escaped (by decide)
  next hbackslash =>
  split
  next hc => rw [hc]; exact .escaped (by decide)
  split
  next hc => rw [hc]; exact .escaped (by decide)
  split
  next hc => rw [hc]; exact .escaped (by decide)
  split
  next hc => rw [hc]; exact .escaped (by decide)
  split
  next hc => rw [hc]; exact .escaped (by decide)
  split
  next hcontrol => exact .coded (codeUnit?_of_lt hcontrol)
  next hplain => exact .plain ⟨Nat.le_of_not_lt hplain, hquote, hbackslash⟩

/-- A text in quotes is read back. -/
theorem characters_escape (t rest : Text) :
    Characters (t.flatMap escape ++ '"' :: rest) t rest := by
  induction t with
  | nil => exact .close
  | cons c t ih =>
    rw [List.flatMap_cons, List.append_assoc]
    exact .cons (character_escape c _) ih

theorem quote_append (t rest : Text) : quote t ++ rest = '"' :: (t.flatMap escape ++ '"' :: rest) := by
  simp [quote]

theorem denotes_text (t : Text) : Denotes (.text t) (.text t) := by
  intro style level rest
  rw [write, quote_append]
  exact .text (characters_escape t rest)

/-! ## Integers -/

/-- The digits of a natural number with no sign or a minus sign are a number. -/
theorem isNumber_ofDigits {sign : Text} (hsign : sign.IsSign) (hplus : sign ≠ ['+']) (n : Nat) :
    IsNumber (.ofDigits hsign (Text.isDigits_toDigits n)) := by
  refine ⟨hplus, ?_, nofun⟩
  rcases Nat.eq_zero_or_pos n with rfl | hn
  · exact .inl rfl
  · exact .inr ⟨Nat.toDigits_ne_nil, Text.head?_toDigits hn⟩

theorem rational_unscaled (negative : Bool) (magnitude : Nat) :
    Decimal.rational ⟨negative, magnitude, 0⟩ = Integer.ofSign negative magnitude := by
  rw [Decimal.rational, zpow_zero, mul_one]

/-- The notation of an integer is a number, and that integer. -/
theorem exists_number_write (n : Int) :
    ∃ l : Decimal.Literal, IsNumber l ∧ l.text = Integer.write n ∧ l.decimal.rational = n := by
  obtain ⟨sign, hsign, hplus, hwrite, hvalue⟩ : ∃ sign : Text, sign.IsSign ∧ sign ≠ ['+'] ∧
      Integer.write n = sign ++ Nat.toDigits 10 n.natAbs ∧
      Integer.ofSign (decide (sign = ['-'])) n.natAbs = n := by
    rw [Integer.write]
    split
    next hn => exact ⟨['-'], .inr (.inr rfl), by decide, rfl, show -(n.natAbs : Int) = n by omega⟩
    next hn => exact ⟨[], .inl rfl, by decide, rfl, show (n.natAbs : Int) = n by omega⟩
  refine ⟨.ofDigits hsign (Text.isDigits_toDigits n.natAbs), isNumber_ofDigits hsign hplus _, ?_, ?_⟩
  · rw [Decimal.Literal.text_ofDigits, hwrite]
  · rw [Decimal.Literal.decimal_ofDigits, rational_unscaled, Integer.ofDigits_toDigits, hvalue]

theorem denotes_integer (n : Int) : Denotes (.integer n) (.number n) := by
  intro style level rest
  obtain ⟨l, hl, htext, hnumber⟩ := exists_number_write n
  rw [write, ← htext, ← hnumber]
  exact .number l hl

/-! ## Lists of values -/

/-- The first item of an array and those that follow it, up to the closing bracket. -/
theorem reads_items {item : Json} {items : List Json} {d : Datum} {ds : List Datum}
    (h : Denotes item d) (hs : List.Forall₂ Denotes items ds) (style : Style) (level : Nat)
    {close rest : Text} (hclose : Skips close (']' :: rest)) :
    Reads (style.lead level ++ (write style level item ++ (writeItems style level items ++ close)))
      (.items (d :: ds)) rest := by
  induction hs generalizing item d with
  | nil =>
    rw [writeItems, List.nil_append]
    exact .lastItem (skips_lead style level _) (h style level close) hclose
  | cons h' _ ih =>
    rw [writeItems]
    simp only [List.cons_append, List.append_assoc]
    exact .item (skips_lead style level _) (h style level _) (skips_refl _) (ih h')

/-- An array means the list of what its items mean. -/
theorem denotes_array {items : List Json} {ds : List Datum} (h : List.Forall₂ Denotes items ds) :
    Denotes (.array items) (.array ds) := by
  intro style level rest
  cases h with
  | nil =>
    rw [write]
    exact .emptyArray (skips_refl _)
  | cons h hs =>
    rw [write]
    simp only [List.cons_append, List.append_assoc]
    exact .array (reads_items h hs style (level + 1) (skips_lead style level _))

/-- A member means a name and what its value means. -/
def MemberDenotes (member : Text × Json) (told : Text × Datum) : Prop :=
  member.1 = told.1 ∧ Denotes member.2 told.2

/-- A value under a name. -/
theorem Denotes.member {v : Json} {d : Datum} (h : Denotes v d) (name : Text) :
    MemberDenotes (name, v) (name, d) := ⟨rfl, h⟩

theorem skips_colon (style : Style) (rest : Text) :
    ∃ value, style.colon ++ rest = ':' :: value ∧ Skips value rest := by
  cases style with
  | compact => exact ⟨rest, rfl, skips_refl rest⟩
  | indented => exact ⟨' ' :: rest, rfl, [' '], by decide, rfl⟩

/-- The name of a member with its colon. -/
theorem names_quote (style : Style) (level : Nat) (name rest : Text) :
    Names (style.lead level ++ (quote name ++ (style.colon ++ rest))) name rest := by
  obtain ⟨value, hcolon, hvalue⟩ := skips_colon style rest
  rw [hcolon, quote_append]
  exact ⟨_, _, value, skips_lead style level _, characters_escape name _, skips_refl _, hvalue⟩

/-- The first member of an object and those that follow it, up to the closing bracket. -/
theorem reads_members {member : Text × Json} {members : List (Text × Json)} {told : Text × Datum}
    {ms : List (Text × Datum)} (h : MemberDenotes member told)
    (hs : List.Forall₂ MemberDenotes members ms) (style : Style) (level : Nat) {close rest : Text}
    (hclose : Skips close ('\x7d' :: rest)) :
    Reads (style.lead level ++ (quote member.1 ++ (style.colon ++ (write style level member.2 ++
        (writeMembers style level members ++ close))))) (.members (told :: ms)) rest := by
  induction hs generalizing member told with
  | nil =>
    obtain ⟨name, value⟩ := member
    obtain ⟨_, d⟩ := told
    obtain ⟨rfl, h⟩ := h
    rw [writeMembers, List.nil_append]
    exact .lastMember (names_quote style level name _) (h style level close) hclose
  | @cons next _ others _ h' _ ih =>
    obtain ⟨name, value⟩ := member
    obtain ⟨_, d⟩ := told
    obtain ⟨rfl, h⟩ := h
    obtain ⟨nextName, nextValue⟩ := next
    rw [writeMembers]
    simp only [List.cons_append, List.append_assoc]
    exact .member (names_quote style level name _) (h style level _) (skips_refl _) (ih h')

/-- An object means the list of what its members mean. -/
theorem denotes_object {members : List (Text × Json)} {ms : List (Text × Datum)}
    (h : List.Forall₂ MemberDenotes members ms) : Denotes (.object members) (.object ms) := by
  intro style level rest
  cases h with
  | nil =>
    rw [write]
    exact .emptyObject (skips_refl _)
  | @cons member _ _ _ h hs =>
    obtain ⟨name, value⟩ := member
    rw [write]
    simp only [List.cons_append, List.append_assoc]
    exact .object (reads_members h hs style (level + 1) (skips_lead style level _))

/-! ## Documents -/

/-- The notation of a value is a document, and one of nothing but what the value means. -/
theorem Denotes.document_iff {v : Json} {d : Datum} (h : Denotes v d) (style : Style) (d' : Datum) :
    Document (v.render style) d' ↔ d' = d := by
  have hdocument : Document (v.render style) d := by
    have hreads := h style 0 []
    rw [List.append_nil] at hreads
    exact ⟨_, _, skips_refl _, hreads, skips_refl _⟩
  constructor
  · exact fun h' => h'.unique hdocument
  · rintro rfl
    exact hdocument

end Json

end GridSketch
