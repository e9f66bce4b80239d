/-
  The grammar of JSON, and that a document has one meaning.

  A document tells a value: null, a truth, a number, a text, a list of values or a list of named values.
  The grammar is a relation between a text, what the text starts with, and the text that is left. Numbers
  are decimal literals without superfluous zeros or plus signs. In quotes, a character beyond the
  sixteen bits of a code unit may be written as a pair of them.

  The first character of a value tells its kind. What stands behind a value is white space, a comma or a
  closing bracket, none of which goes on with a number. So a text is read in one way only, by induction
  on one reading of it.

  * `Json.Reads`, `Json.Document`: the grammar.
  * `Json.initial_of_reads`: the first character of a value.
  * `Json.agrees_of_reads`: one reading of every phrase.
  * `Json.Document.unique`: one meaning of every document.
-/
import GridSketch.Json.Basic
import GridSketch.Proofs.Number.Literals
import Mathlib.Algebra.Field.Rat

namespace GridSketch

-- What holds of all characters of a text is decided on its characters.
attribute [local instance (2000)] List.decidableBAll

/-! ## Values -/

/-- What a JSON document tells; members of an object keep their order. -/
inductive Datum where
  | null
  | truth (b : Bool)
  | number (q : ℚ)
  | text (t : Text)
  | array (items : List Datum)
  | object (members : List (Text × Datum))

/-- The number of a decimal literal, not rounded. -/
def Decimal.rational (d : Decimal) : ℚ := Integer.ofSign d.negative d.digits * (10 : ℚ) ^ d.exponent

namespace Json

/-! ## The grammar -/

/-- White space. -/
def isSpace (c : Char) : Bool := [' ', '\t', '\n', '\r'].contains c

/-- White space is passed over. -/
def Skips (t rest : Text) : Prop := ∃ spaces : Text, (∀ c ∈ spaces, isSpace c = true) ∧ t = spaces ++ rest

/-- A character that stands for itself in quotes. -/
def IsPlain (c : Char) : Prop := 0x20 ≤ c.toNat ∧ c ≠ '"' ∧ c ≠ '\\'

/-- The characters that are written as a backslash and a letter or sign. -/
def escapes : List (Char × Char) :=
  [('"', '"'), ('\\', '\\'), ('/', '/'), ('b', '\x08'), ('f', '\x0c'), ('n', '\n'), ('r', '\r'),
   ('t', '\t')]

/-- The number of a hexadecimal digit of either case. -/
def hexDigit? (c : Char) : Option Nat :=
  if 0x30 ≤ c.toNat ∧ c.toNat ≤ 0x39 then some (c.toNat - 0x30)
  else if 0x41 ≤ c.toNat ∧ c.toNat ≤ 0x46 then some (c.toNat - 0x41 + 10)
  else if 0x61 ≤ c.toNat ∧ c.toNat ≤ 0x66 then some (c.toNat - 0x61 + 10)
  else none

/-- The number of four hexadecimal digits. -/
def codeUnit? (digits : Text) : Option Nat :=
  if digits.length = 4 then
    digits.foldlM (fun n c => (hexDigit? c).map fun digit => 16 * n + digit) 0
  else none

/-- One character of a text in quotes, in any of its spellings. -/
inductive Character : Text → Char → Text → Prop
  | plain {c : Char} {rest : Text} (hc : IsPlain c) : Character (c :: rest) c rest
  | escaped {sign c : Char} {rest : Text} (hc : (sign, c) ∈ escapes) :
      Character ('\\' :: sign :: rest) c rest
  | coded {unit rest : Text} {c : Char} (hunit : codeUnit? unit = some c.toNat) :
      Character ('\\' :: 'u' :: (unit ++ rest)) c rest
  | paired {unit unit' rest : Text} {high low : Nat} {c : Char} (hhigh : high < 0x400)
      (hlow : low < 0x400) (hunit : codeUnit? unit = some (0xD800 + high))
      (hunit' : codeUnit? unit' = some (0xDC00 + low))
      (hc : c.toNat = 0x10000 + (0x400 * high + low)) :
      Character ('\\' :: 'u' :: (unit ++ '\\' :: 'u' :: (unit' ++ rest))) c rest

/-- A text up to the quote that ends it. -/
inductive Characters : Text → Text → Text → Prop
  | close {rest : Text} : Characters ('"' :: rest) [] rest
  | cons {s behind t rest : Text} {c : Char} (hc : Character s c behind)
      (h : Characters behind t rest) : Characters s (c :: t) rest

/-- The literals that are numbers: no plus sign, no zero in front of other digits, and digits on both
    sides of a point. -/
def IsNumber (l : Decimal.Literal) : Prop :=
  l.sign ≠ ['+'] ∧ (l.whole = ['0'] ∨ l.whole ≠ [] ∧ l.whole.head? ≠ some '0') ∧ l.fraction ≠ some []

/-- The word of a truth. -/
def truthWord : Bool → Text
  | true => "true".toList
  | false => "false".toList

/-- The name of a member, with the colon behind it. -/
def Names (t name rest : Text) : Prop :=
  ∃ quoted behind value : Text, Skips t ('"' :: quoted) ∧ Characters quoted name behind ∧
    Skips behind (':' :: value) ∧ Skips value rest

/-- What a text may start with: a value, or the items or members behind an opening bracket, with the
    closing bracket. -/
inductive Phrase where
  | value (d : Datum)
  | items (ds : List Datum)
  | members (ms : List (Text × Datum))

/-- A text starts with a phrase, and a text is left. -/
inductive Reads : Text → Phrase → Text → Prop
  | null {rest : Text} : Reads ("null".toList ++ rest) (.value .null) rest
  | truth {rest : Text} (b : Bool) : Reads (truthWord b ++ rest) (.value (.truth b)) rest
  | number {rest : Text} (l : Decimal.Literal) (hl : IsNumber l) :
      Reads (l.text ++ rest) (.value (.number l.decimal.rational)) rest
  | text {s t rest : Text} (h : Characters s t rest) : Reads ('"' :: s) (.value (.text t)) rest
  | emptyArray {s rest : Text} (h : Skips s (']' :: rest)) : Reads ('[' :: s) (.value (.array [])) rest
  | array {s rest : Text} {ds : List Datum} (h : Reads s (.items ds) rest) :
      Reads ('[' :: s) (.value (.array ds)) rest
  | emptyObject {s rest : Text} (h : Skips s ('\x7d' :: rest)) :
      Reads ('\x7b' :: s) (.value (.object [])) rest
  | object {s rest : Text} {ms : List (Text × Datum)} (h : Reads s (.members ms) rest) :
      Reads ('\x7b' :: s) (.value (.object ms)) rest
  | lastItem {s item behind rest : Text} {d : Datum} (hlead : Skips s item)
      (h : Reads item (.value d) behind) (hclose : Skips behind (']' :: rest)) :
      Reads s (.items [d]) rest
  | item {s item behind others rest : Text} {d : Datum} {ds : List Datum} (hlead : Skips s item)
      (h : Reads item (.value d) behind) (hcomma : Skips behind (',' :: others))
      (hothers : Reads others (.items ds) rest) : Reads s (.items (d :: ds)) rest
  | lastMember {s name value behind rest : Text} {d : Datum} (hname : Names s name value)
      (h : Reads value (.value d) behind) (hclose : Skips behind ('\x7d' :: rest)) :
      Reads s (.members [(name, d)]) rest
  | member {s name value behind others rest : Text} {d : Datum} {ms : List (Text × Datum)}
      (hname : Names s name value) (h : Reads value (.value d) behind)
      (hcomma : Skips behind (',' :: others)) (hothers : Reads others (.members ms) rest) :
      Reads s (.members ((name, d) :: ms)) rest

/-- A text is a document of a value: the value from end to end, with white space around it. -/
def Document (t : Text) (d : Datum) : Prop :=
  ∃ value behind : Text, Skips t value ∧ Reads value (.value d) behind ∧ Skips behind []

/-! ## White space -/

/-- A text that does not start with white space. -/
def Solid (t : Text) : Prop := ∀ c ∈ t.head?, isSpace c = false

/-- White space, a comma or a closing bracket; what may stand behind a value. -/
def closers : List Char := [' ', '\t', '\n', '\r', ',', ']', '\x7d']

/-- A text that starts with what may stand behind a value, if with anything. -/
def Closes (t : Text) : Prop := ∀ c ∈ t.head?, c ∈ closers

variable {s t t' rest rest' : Text} {d d' : Datum}

theorem solid_cons {c : Char} (hc : isSpace c = false) : Solid (c :: t) := by
  rintro _ ⟨⟩
  exact hc

theorem mem_closers_of_isSpace {c : Char} (h : isSpace c = true) : c ∈ closers := by
  have hspaces : ∀ c ∈ [' ', '\t', '\n', '\r'], c ∈ closers := by decide
  exact hspaces c (List.contains_iff_mem.mp h)

theorem Skips.dropWhile (h : Skips t rest) (hsolid : Solid rest) : t.dropWhile isSpace = rest := by
  obtain ⟨spaces, hspaces, rfl⟩ := h
  rw [List.dropWhile_append_of_pos hspaces]
  cases rest with
  | nil => rfl
  | cons c rest =>
    rw [List.dropWhile_cons_of_neg]
    rw [hsolid c rfl]
    exact Bool.false_ne_true

/-- What is left when white space has been passed over. -/
theorem Skips.unique (h : Skips t rest) (h' : Skips t rest') (hsolid : Solid rest)
    (hsolid' : Solid rest') : rest = rest' :=
  (h.dropWhile hsolid).symm.trans (h'.dropWhile hsolid')

theorem Skips.cons_unique {c c' : Char} (h : Skips t (c :: rest)) (h' : Skips t (c' :: rest'))
    (hc : isSpace c = false) (hc' : isSpace c' = false) : c = c' ∧ rest = rest' :=
  List.cons.inj (h.unique h' (solid_cons hc) (solid_cons hc'))

theorem Skips.closes (h : Skips t rest) (hrest : Closes rest) : Closes t := by
  obtain ⟨spaces, hspaces, rfl⟩ := h
  cases spaces with
  | nil => exact hrest
  | cons c spaces =>
    rintro _ ⟨⟩
    exact mem_closers_of_isSpace (hspaces c List.mem_cons_self)

theorem Skips.closes_cons {c : Char} (h : Skips t (c :: rest)) (hc : c ∈ closers) : Closes t :=
  h.closes (by rintro _ ⟨⟩; exact hc)

theorem Skips.closes_nil (h : Skips t []) : Closes t := h.closes nofun

/-- Nothing that may stand behind a value goes on with a number. -/
theorem Closes.endsLiteral (h : Closes t) : Decimal.EndsLiteral t := by
  have hends : ∀ c ∈ closers, c.isDigit = false ∧ c ≠ '.' ∧ c ≠ 'e' ∧ c ≠ 'E' := by decide
  exact ⟨⟨fun c hc => (hends c (h c hc)).1, fun c hc => (hends c (h c hc)).2.1⟩,
    fun c hc => (hends c (h c hc)).2.2⟩

/-! ## Texts in quotes -/

theorem codeUnit?_length {u : Text} {n : Nat} (h : codeUnit? u = some n) : u.length = 4 := by
  rw [codeUnit?] at h
  split at h
  next hlength => exact hlength
  next => cases h

/-- The digits of a code unit are as many as it takes to tell where they end. -/
theorem codeUnit?_append_inj {u u' : Text} {n n' : Nat} (h : codeUnit? u = some n)
    (h' : codeUnit? u' = some n') (hsame : u ++ rest = u' ++ rest') : n = n' ∧ rest = rest' := by
  obtain ⟨rfl, rfl⟩ := List.append_inj hsame ((codeUnit?_length h).trans (codeUnit?_length h').symm)
  exact ⟨Option.some.inj (h.symm.trans h'), rfl⟩

/-- No character has a code between those of the pairs. -/
theorem toNat_ne_surrogate (c : Char) {k : Nat} (hk : k < 0x400) : c.toNat ≠ 0xD800 + k := by
  have hvalid := c.valid
  intro hc
  rcases hvalid with h | ⟨h, -⟩
  · change c.toNat < 0xD800 at h
    omega
  · change 0xDFFF < c.toNat at h
    omega

theorem eq_of_escapes {sign c c' : Char} (h : (sign, c) ∈ escapes) (h' : (sign, c') ∈ escapes) :
    c = c' := by
  have hescapes : ∀ p ∈ escapes, ∀ q ∈ escapes, p.1 = q.1 → p.2 = q.2 := by decide
  exact hescapes _ h _ h' rfl

theorem notMem_escapes (c : Char) : ('u', c) ∉ escapes := by
  have hescapes : ∀ p ∈ escapes, p.1 ≠ 'u' := by decide
  exact fun h => hescapes _ h rfl

theorem not_isPlain_backslash : ¬ IsPlain '\\' := fun h => h.2.2 rfl

/-- A character in quotes is read in one way. -/
theorem Character.unique {c c' : Char} (h : Character t c rest) (h' : Character t c' rest') :
    c = c' ∧ rest = rest' := by
  cases h with
  | plain hc =>
    cases h' with
    | plain => exact ⟨rfl, rfl⟩
    | escaped | coded | paired => exact absurd hc not_isPlain_backslash
  | escaped hc =>
    cases h' with
    | plain hc' => exact absurd hc' not_isPlain_backslash
    | escaped hc' => exact ⟨eq_of_escapes hc hc', rfl⟩
    | coded | paired => exact absurd hc (notMem_escapes c)
  | @coded unit _ _ hunit =>
    generalize ht : unit ++ rest = tail at h'
    cases h' with
    | plain hc' => exact absurd hc' not_isPlain_backslash
    | escaped hc' => exact absurd hc' (notMem_escapes c')
    | coded hunit' =>
      obtain ⟨hcode, rfl⟩ := codeUnit?_append_inj hunit hunit' ht
      exact ⟨Char.toNat_inj.mp hcode, rfl⟩
    | paired hhigh _ hunit' =>
      exact absurd (codeUnit?_append_inj hunit hunit' ht).1 (toNat_ne_surrogate c hhigh)
  | @paired unit unit₂ _ high low _ hhigh hlow hunit hunit₂ hc =>
    generalize ht : unit ++ '\\' :: 'u' :: (unit₂ ++ rest) = tail at h'
    cases h' with
    | plain hc' => exact absurd hc' not_isPlain_backslash
    | escaped hc' => exact absurd hc' (notMem_escapes c')
    | coded hunit' =>
      exact absurd (codeUnit?_append_inj hunit hunit' ht).1.symm (toNat_ne_surrogate c' hhigh)
    | paired _ _ hunit' hunit₂' hc' =>
      obtain ⟨hhighs, htail⟩ := codeUnit?_append_inj hunit hunit' ht
      obtain ⟨hlows, rfl⟩ :=
        codeUnit?_append_inj hunit₂ hunit₂' (List.cons.inj (List.cons.inj htail).2).2
      exact ⟨Char.toNat_inj.mp (by omega), rfl⟩

/-- No character starts with the quote that ends the text. -/
theorem Character.ne_quote {c : Char} (h : Character ('"' :: t) c rest) : False := by
  cases h with
  | plain hc => exact hc.2.1 rfl

/-- A text in quotes is read in one way. -/
theorem Characters.unique (h : Characters s t rest) (h' : Characters s t' rest') :
    t = t' ∧ rest = rest' := by
  induction h generalizing t' with
  | close =>
    cases h' with
    | close => exact ⟨rfl, rfl⟩
    | cons hc' => exact hc'.ne_quote.elim
  | cons hc _ ih =>
    cases h' with
    | close => exact hc.ne_quote.elim
    | cons hc' h' =>
      obtain ⟨rfl, rfl⟩ := hc.unique hc'
      obtain ⟨rfl, rfl⟩ := ih h'
      exact ⟨rfl, rfl⟩

/-! ## Numbers -/

/-- A number is read in one way if nothing behind it goes on with it. -/
theorem rational_eq_of_text_append {l l' : Decimal.Literal} (h : l.text ++ rest = l'.text ++ rest')
    (hrest : Closes rest) (hrest' : Closes rest') :
    l.decimal.rational = l'.decimal.rational ∧ rest = rest' := by
  have hscan := Decimal.scan?_literal l hrest.endsLiteral
  rw [h, Decimal.scan?_literal l' hrest'.endsLiteral] at hscan
  obtain ⟨hdecimal, hsame⟩ := Prod.mk.inj (Option.some.inj hscan)
  exact ⟨by rw [hdecimal], hsame.symm⟩

/-- A number starts with a digit or a minus sign. -/
theorem IsNumber.exists_cons {l : Decimal.Literal} (h : IsNumber l) (rest : Text) :
    ∃ c others, l.text ++ rest = c :: others ∧ (c = '-' ∨ c.isDigit = true) := by
  have hwhole : l.whole ≠ [] := by
    rcases h.2.1 with hzero | hdigits
    · rw [hzero]
      exact List.cons_ne_nil _ _
    · exact hdigits.1
  obtain ⟨c, others, hc⟩ := List.exists_cons_of_ne_nil hwhole
  have hdigit := l.isDigit_whole c (hc ▸ List.mem_cons_self)
  rw [Decimal.Literal.text, hc]
  rcases l.isSign with hsign | hsign | hsign
  · rw [hsign]
    exact ⟨c, _, rfl, .inr hdigit⟩
  · exact absurd hsign h.1
  · rw [hsign]
    exact ⟨'-', _, rfl, .inl rfl⟩

/-! ## The first character of a value -/

/-- The kinds of values. -/
inductive Kind where
  | null | truth (b : Bool) | number | text | array | object
  deriving DecidableEq

/-- The kind of a value. -/
def kind : Datum → Kind
  | .null => .null
  | .truth b => .truth b
  | .number _ => .number
  | .text _ => .text
  | .array _ => .array
  | .object _ => .object

/-- The kind of the values that start with a character. -/
def initial? (c : Char) : Option Kind :=
  if c = 'n' then some .null
  else if c = 't' then some (.truth true)
  else if c = 'f' then some (.truth false)
  else if c = '"' then some .text
  else if c = '[' then some .array
  else if c = '\x7b' then some .object
  else if c = '-' ∨ c.isDigit = true then some .number
  else none

theorem initial?_of_isDigit {c : Char} (h : c = '-' ∨ c.isDigit = true) :
    initial? c = some .number := by
  have hother : ∀ c' ∈ ['n', 't', 'f', '"', '[', '\x7b'], c ≠ c' := by
    rintro c' hc' rfl
    have hall : ∀ c' ∈ ['n', 't', 'f', '"', '[', '\x7b'], ¬ (c' = '-' ∨ c'.isDigit = true) := by decide
    exact hall c hc' h
  simp only [List.forall_mem_cons] at hother
  obtain ⟨hn, ht, hf, hquote, hbracket, hbrace, -⟩ := hother
  rw [initial?, if_neg hn, if_neg ht, if_neg hf, if_neg hquote, if_neg hbracket, if_neg hbrace, if_pos h]

/-- The first character of a value tells its kind. -/
theorem initial_of_reads (h : Reads t (.value d) rest) :
    ∃ c others, t = c :: others ∧ initial? c = some (kind d) := by
  cases h with
  | null => exact ⟨'n', _, rfl, by decide⟩
  | truth b =>
    cases b with
    | true => exact ⟨'t', _, rfl, by decide⟩
    | false => exact ⟨'f', _, rfl, by decide⟩
  | number l hl =>
    obtain ⟨c, others, ht, hc⟩ := hl.exists_cons rest
    exact ⟨c, others, ht, initial?_of_isDigit hc⟩
  | text => exact ⟨'"', _, rfl, rfl⟩
  | emptyArray | array => exact ⟨'[', _, rfl, rfl⟩
  | emptyObject | object => exact ⟨'\x7b', _, rfl, rfl⟩

theorem kind_eq_of_reads (h : Reads t (.value d) rest) (h' : Reads t (.value d') rest') :
    kind d = kind d' := by
  obtain ⟨c, others, rfl, hc⟩ := initial_of_reads h
  obtain ⟨_, _, ⟨⟩, hc'⟩ := initial_of_reads h'
  exact Option.some.inj (hc.symm.trans hc')

/-- No value starts with white space or what closes one. -/
theorem notMem_closers_of_reads (h : Reads t (.value d) rest) : ∀ c ∈ t.head?, c ∉ closers := by
  have hall : ∀ c ∈ closers, initial? c = none := by decide
  obtain ⟨c, others, rfl, hc⟩ := initial_of_reads h
  rintro _ ⟨⟩ hmem
  rw [hall c hmem] at hc
  cases hc

theorem solid_of_reads (h : Reads t (.value d) rest) : Solid t := by
  intro c hc
  rw [← Bool.not_eq_true]
  exact fun hspace => notMem_closers_of_reads h c hc (mem_closers_of_isSpace hspace)

/-- What a text of each kind of value starts with. -/
def Shape (t : Text) (d : Datum) (rest : Text) : Kind → Prop
  | .null => d = .null ∧ t = "null".toList ++ rest
  | .truth b => d = .truth b ∧ t = truthWord b ++ rest
  | .number => ∃ l : Decimal.Literal, d = .number l.decimal.rational ∧ t = l.text ++ rest
  | .text => ∃ s u, d = .text u ∧ t = '"' :: s ∧ Characters s u rest
  | .array => ∃ s ds, d = .array ds ∧ t = '[' :: s ∧
      (ds = [] ∧ Skips s (']' :: rest) ∨ Reads s (.items ds) rest)
  | .object => ∃ s ms, d = .object ms ∧ t = '\x7b' :: s ∧
      (ms = [] ∧ Skips s ('\x7d' :: rest) ∨ Reads s (.members ms) rest)

theorem shape_of_reads (h : Reads t (.value d) rest) : Shape t d rest (kind d) := by
  cases h with
  | null => exact ⟨rfl, rfl⟩
  | truth => exact ⟨rfl, rfl⟩
  | number l => exact ⟨l, rfl, rfl⟩
  | text h => exact ⟨_, _, rfl, rfl, h⟩
  | emptyArray h => exact ⟨_, _, rfl, rfl, .inl ⟨rfl, h⟩⟩
  | array h => exact ⟨_, _, rfl, rfl, .inr h⟩
  | emptyObject h => exact ⟨_, _, rfl, rfl, .inl ⟨rfl, h⟩⟩
  | object h => exact ⟨_, _, rfl, rfl, .inr h⟩

/-- Two readings of one text as a value have the same shape. -/
theorem shape_of_reads_of_reads (h : Reads t (.value d) rest) (h' : Reads t (.value d') rest') :
    Shape t d' rest' (kind d) := by
  rw [kind_eq_of_reads h h']
  exact shape_of_reads h'

/-! ## One reading -/

/-- The name of a member is read in one way. -/
theorem Names.unique {name name' : Text} (h : Names t name rest) (h' : Names t name' rest')
    (hsolid : Solid rest) (hsolid' : Solid rest') : name = name' ∧ rest = rest' := by
  obtain ⟨quoted, behind, value, hquote, hname, hcolon, hvalue⟩ := h
  obtain ⟨quoted', behind', value', hquote', hname', hcolon', hvalue'⟩ := h'
  obtain ⟨-, rfl⟩ := hquote.cons_unique hquote' (by decide) (by decide)
  obtain ⟨rfl, rfl⟩ := hname.unique hname'
  obtain ⟨-, rfl⟩ := hcolon.cons_unique hcolon' (by decide) (by decide)
  exact ⟨rfl, hvalue.unique hvalue' hsolid hsolid'⟩

/-- Where items stand, the array does not end at once. -/
theorem not_skips_of_items {ds : List Datum} (h : Reads t (.items ds) rest) :
    ¬ Skips t (']' :: rest') := by
  intro hclose
  obtain ⟨item, d, behind, hlead, hitem⟩ :
      ∃ item d behind, Skips t item ∧ Reads item (.value d) behind := by
    cases h with
    | lastItem hlead h => exact ⟨_, _, _, hlead, h⟩
    | item hlead h => exact ⟨_, _, _, hlead, h⟩
  have hsame := hlead.unique hclose (solid_of_reads hitem) (solid_cons (by decide))
  rw [hsame] at hitem
  exact notMem_closers_of_reads hitem ']' rfl (by decide)

/-- Where members stand, the object does not end at once. -/
theorem not_skips_of_members {ms : List (Text × Datum)} (h : Reads t (.members ms) rest) :
    ¬ Skips t ('\x7d' :: rest') := by
  intro hclose
  obtain ⟨name, value, hname⟩ : ∃ name value, Names t name value := by
    cases h with
    | lastMember hname => exact ⟨_, _, hname⟩
    | member hname => exact ⟨_, _, hname⟩
  obtain ⟨quoted, -, -, hquote, -⟩ := hname
  exact absurd (hquote.cons_unique hclose (by decide) (by decide)).1 (by decide)

/-- One reading of a text as a phrase is the only one. What is left behind a value must not go on with
    it. -/
def Agrees (t : Text) (p : Phrase) (rest : Text) : Prop :=
  match p with
  | .value d => ∀ {d' rest'}, Reads t (.value d') rest' → Closes rest → Closes rest' →
      d = d' ∧ rest = rest'
  | .items ds => ∀ {ds' rest'}, Reads t (.items ds') rest' → ds = ds' ∧ rest = rest'
  | .members ms => ∀ {ms' rest'}, Reads t (.members ms') rest' → ms = ms' ∧ rest = rest'

/-- What stands behind the values of arrays and objects. -/
def delimiters : List Char := [',', ']', '\x7d']

/-- Two readings of a value in front of a comma or closing bracket agree, also in what is behind it. -/
theorem Agrees.delimited {behind behind' : Text} {c c' : Char} (h : Agrees t (.value d) behind)
    (h' : Reads t (.value d') behind') (hends : Skips behind (c :: rest))
    (hends' : Skips behind' (c' :: rest')) (hc : c ∈ delimiters) (hc' : c' ∈ delimiters) :
    d = d' ∧ c = c' ∧ rest = rest' := by
  have hall : ∀ c ∈ delimiters, c ∈ closers ∧ isSpace c = false := by decide
  obtain ⟨rfl, rfl⟩ := h h' (hends.closes_cons (hall c hc).1) (hends'.closes_cons (hall c' hc').1)
  exact ⟨rfl, hends.cons_unique hends' (hall c hc).2 (hall c' hc').2⟩

/-- Every reading is the only one. -/
theorem agrees_of_reads {p : Phrase} (h : Reads t p rest) : Agrees t p rest := by
  -- By induction on one reading. For a value, the other reading has the shape that the first character
  -- tells; of a list, what stands behind the value tells whether it goes on.
  induction h with
  | null =>
    intro d' rest' h' _ _
    obtain ⟨rfl, ht⟩ := shape_of_reads_of_reads .null h'
    exact ⟨rfl, List.append_cancel_left ht⟩
  | truth b =>
    intro d' rest' h' _ _
    obtain ⟨rfl, ht⟩ := shape_of_reads_of_reads (.truth b) h'
    exact ⟨rfl, List.append_cancel_left ht⟩
  | number l hl =>
    intro d' rest' h' hrest hrest'
    obtain ⟨l', rfl, ht⟩ := shape_of_reads_of_reads (.number l hl) h'
    obtain ⟨hnumber, rfl⟩ := rational_eq_of_text_append ht hrest hrest'
    exact ⟨by rw [hnumber], rfl⟩
  | text h =>
    intro d' rest' h' _ _
    obtain ⟨s', u', rfl, ⟨⟩, h'⟩ := shape_of_reads_of_reads (.text h) h'
    obtain ⟨rfl, rfl⟩ := h.unique h'
    exact ⟨rfl, rfl⟩
  | emptyArray h =>
    intro d' rest' h' _ _
    obtain ⟨s', ds', rfl, ⟨⟩, ⟨rfl, hempty⟩ | h'⟩ := shape_of_reads_of_reads (.emptyArray h) h'
    · exact ⟨rfl, (h.cons_unique hempty (by decide) (by decide)).2⟩
    · exact absurd h (not_skips_of_items h')
  | array h ih =>
    intro d' rest' h' _ _
    obtain ⟨s', ds', rfl, ⟨⟩, ⟨rfl, hempty⟩ | h'⟩ := shape_of_reads_of_reads (.array h) h'
    · exact absurd hempty (not_skips_of_items h)
    · obtain ⟨rfl, rfl⟩ := ih h'
      exact ⟨rfl, rfl⟩
  | emptyObject h =>
    intro d' rest' h' _ _
    obtain ⟨s', ms', rfl, ⟨⟩, ⟨rfl, hempty⟩ | h'⟩ := shape_of_reads_of_reads (.emptyObject h) h'
    · exact ⟨rfl, (h.cons_unique hempty (by decide) (by decide)).2⟩
    · exact absurd h (not_skips_of_members h')
  | object h ih =>
    intro d' rest' h' _ _
    obtain ⟨s', ms', rfl, ⟨⟩, ⟨rfl, hempty⟩ | h'⟩ := shape_of_reads_of_reads (.object h) h'
    · exact absurd hempty (not_skips_of_members h)
    · obtain ⟨rfl, rfl⟩ := ih h'
      exact ⟨rfl, rfl⟩
  | lastItem hlead h hclose ih =>
    intro ds' rest' h'
    cases h' with
    | lastItem hlead' h' hclose' =>
      obtain rfl := hlead.unique hlead' (solid_of_reads h) (solid_of_reads h')
      obtain ⟨rfl, -, rfl⟩ := ih.delimited h' hclose hclose' (by decide) (by decide)
      exact ⟨rfl, rfl⟩
    | item hlead' h' hcomma' =>
      obtain rfl := hlead.unique hlead' (solid_of_reads h) (solid_of_reads h')
      exact absurd (ih.delimited h' hclose hcomma' (by decide) (by decide)).2.1 (by decide)
  | item hlead h hcomma _ ih ihs =>
    intro ds' rest' h'
    cases h' with
    | lastItem hlead' h' hclose' =>
      obtain rfl := hlead.unique hlead' (solid_of_reads h) (solid_of_reads h')
      exact absurd (ih.delimited h' hcomma hclose' (by decide) (by decide)).2.1 (by decide)
    | item hlead' h' hcomma' hothers' =>
      obtain rfl := hlead.unique hlead' (solid_of_reads h) (solid_of_reads h')
      obtain ⟨rfl, -, rfl⟩ := ih.delimited h' hcomma hcomma' (by decide) (by decide)
      obtain ⟨rfl, rfl⟩ := ihs hothers'
      exact ⟨rfl, rfl⟩
  | lastMember hname h hclose ih =>
    intro ms' rest' h'
    cases h' with
    | lastMember hname' h' hclose' =>
      obtain ⟨rfl, rfl⟩ := hname.unique hname' (solid_of_reads h) (solid_of_reads h')
      obtain ⟨rfl, -, rfl⟩ := ih.delimited h' hclose hclose' (by decide) (by decide)
      exact ⟨rfl, rfl⟩
    | member hname' h' hcomma' =>
      obtain ⟨rfl, rfl⟩ := hname.unique hname' (solid_of_reads h) (solid_of_reads h')
      exact absurd (ih.delimited h' hclose hcomma' (by decide) (by decide)).2.1 (by decide)
  | member hname h hcomma _ ih ihs =>
    intro ms' rest' h'
    cases h' with
    | lastMember hname' h' hclose' =>
      obtain ⟨rfl, rfl⟩ := hname.unique hname' (solid_of_reads h) (solid_of_reads h')
      exact absurd (ih.delimited h' hcomma hclose' (by decide) (by decide)).2.1 (by decide)
    | member hname' h' hcomma' hothers' =>
      obtain ⟨rfl, rfl⟩ := hname.unique hname' (solid_of_reads h) (solid_of_reads h')
      obtain ⟨rfl, -, rfl⟩ := ih.delimited h' hcomma hcomma' (by decide) (by decide)
      obtain ⟨rfl, rfl⟩ := ihs hothers'
      exact ⟨rfl, rfl⟩

/-- A document has one meaning. -/
theorem Document.unique (h : Document t d) (h' : Document t d') : d = d' := by
  obtain ⟨value, behind, hlead, hvalue, hend⟩ := h
  obtain ⟨value', behind', hlead', hvalue', hend'⟩ := h'
  obtain rfl := hlead.unique hlead' (solid_of_reads hvalue) (solid_of_reads hvalue')
  exact (agrees_of_reads hvalue hvalue' hend.closes_nil hend'.closes_nil).1

end Json

end GridSketch
