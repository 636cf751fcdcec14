import DelegatedAccess.Json.Number
import DelegatedAccess.Json.Text

/-!
# How JSON values are written

A JSON value can be written in many ways: with blanks between its parts, with characters escaped or
not, and with numbers in the forms that there are. A syntax tree is a value as it is written.
-/

namespace DelegatedAccess.Json

/-! ### Blanks -/

/-- Characters that may stand between the parts of a text. -/
abbrev Blanks :=
  { cs : List Char // ∀ c ∈ cs, isBlank c = true }

/-- Whether a text may go on in this way after a value: with a blank, with a comma or with a closing
bracket, or not at all. -/
def Follows (cs : List Char) : Prop :=
  ∀ c, cs.head? = some c → isBlank c = true ∨ c = ',' ∨ c = ']' ∨ c = '}'

/-! ### Numbers -/

/-- At least one digit. -/
structure Digits where
  chars : List Char
  nonempty : chars ≠ []
  isDigit : ∀ c ∈ chars, c.isDigit = true

/-- A power of ten as it is written. -/
structure Exponent where
  letter : Char
  isLetter : letter = 'e' ∨ letter = 'E'
  sign : List Char
  isSign : sign = [] ∨ sign = ['+'] ∨ sign = ['-']
  digits : Digits

namespace Exponent

/-- The text of a power of ten. -/
def chars (e : Exponent) : List Char :=
  e.letter :: (e.sign ++ e.digits.chars)

/-- The power of ten. -/
def value (e : Exponent) : Int :=
  if e.sign = ['-'] then -(Decimal.value e.digits.chars : Int) else Decimal.value e.digits.chars

end Exponent

/-- A number as it is written. -/
structure Figures where
  isNegative : Bool
  whole : Digits
  /-- A zero comes first only if it stands alone. -/
  isPlain : ∀ c cs, whole.chars ≠ '0' :: c :: cs
  fraction : Option Digits
  exponent : Option Exponent

namespace Figures

/-- The sign of a number. -/
def sign (n : Figures) : List Char :=
  if n.isNegative then ['-'] else []

/-- The point and the digits after it, if there are any. -/
def point (n : Figures) : List Char :=
  match n.fraction with
  | none => []
  | some ds => '.' :: ds.chars

/-- The power of ten, if there is one. -/
def power (n : Figures) : List Char :=
  match n.exponent with
  | none => []
  | some e => e.chars

/-- The text of a number. -/
def chars (n : Figures) : List Char :=
  n.sign ++ (n.whole.chars ++ (n.point ++ n.power))

/-- The number that is written. -/
def numeral (n : Figures) : Numeral :=
  ⟨n.isNegative, n.whole.chars, n.fraction.map Digits.chars, n.exponent.map Exponent.value⟩

end Figures

/-! ### Texts -/

/-- Four hexadecimal digits. -/
structure Unit16 where
  digits : List Char
  values : List Nat
  length : digits.length = 4
  read : digits.mapM Hex.value? = some values

/-- The number of four hexadecimal digits. -/
def Unit16.value (u : Unit16) : Nat :=
  u.values.foldl (fun n v => 16 * n + v) 0

/-- The letters that stand for characters after a backslash. -/
def shortEscapes : List (Char × Char) :=
  [('"', '"'), ('\\', '\\'), ('/', '/'), ('b', '\x08'), ('f', '\x0c'), ('n', '\n'), ('r', '\r'),
    ('t', '\t')]

/-- A character between quotes, as it is written. -/
inductive Glyph where
  /-- The character itself. -/
  | plain (c : Char) (hquote : c ≠ '"') (hslash : c ≠ '\\') (hcontrol : ¬ c < ' ')
  /-- A letter after a backslash. -/
  | short (letter c : Char) (h : (letter, c) ∈ shortEscapes)
  /-- Four digits, after a backslash and a `u`. -/
  | unit (u : Unit16) (h : ¬ (0xd800 ≤ u.value ∧ u.value < 0xe000))
  /-- Two surrogates, each of four digits after a backslash and a `u`. -/
  | pair (u v : Unit16) (hu : 0xd800 ≤ u.value ∧ u.value < 0xdc00)
      (hv : 0xdc00 ≤ v.value ∧ v.value < 0xe000)

namespace Glyph

/-- The text of a character. -/
def chars : Glyph → List Char
  | plain c _ _ _ => [c]
  | short letter _ _ => ['\\', letter]
  | unit u _ => '\\' :: 'u' :: u.digits
  | pair u v _ _ => '\\' :: 'u' :: (u.digits ++ '\\' :: 'u' :: v.digits)

/-- The character. -/
def char : Glyph → Char
  | plain c _ _ _ => c
  | short _ c _ => c
  | unit u _ => Char.ofNat u.value
  | pair u v _ _ => Char.ofNat (0x10000 + 0x400 * (u.value - 0xd800) + (v.value - 0xdc00))

end Glyph

/-- A text as it is written. -/
abbrev Letters :=
  List Glyph

namespace Letters

/-- The text that is written. -/
def string (s : Letters) : String :=
  String.ofList (s.map Glyph.char)

/-- A text between quotes. -/
def chars (s : Letters) : List Char :=
  '"' :: (s.flatMap Glyph.chars ++ ['"'])

end Letters

/-! ### Trees -/

/-- The blanks on both sides of where a comma stands, unless the first item is still to come. -/
structure Gap where
  before : Blanks
  after : Blanks

/-- The text of a gap. -/
def Gap.chars (g : Gap) (isFirst : Bool) : List Char :=
  g.before.1 ++ (if isFirst then g.after.1 else ',' :: g.after.1)

/-- The name of a member, with the blanks on both sides of the colon after it. -/
structure Name where
  letters : Letters
  before : Blanks
  after : Blanks

namespace Name

/-- The name that is written. -/
def string (n : Name) : String :=
  n.letters.string

/-- The text of a name, up to the colon. -/
def chars (n : Name) : List Char :=
  n.letters.chars ++ (n.before.1 ++ [':'])

end Name

/-- A value as it is written. -/
inductive Tree where
  | null
  | bool (b : Bool)
  | number (n : Figures)
  | text (s : Letters)
  | array (items : List (Gap × Tree)) (closing : Blanks)
  | object (members : List (Gap × Name × Tree)) (closing : Blanks)

mutual

/-- The text of a value. -/
def Tree.chars : Tree → List Char
  | .null => ['n', 'u', 'l', 'l']
  | .bool true => ['t', 'r', 'u', 'e']
  | .bool false => ['f', 'a', 'l', 's', 'e']
  | .number n => n.chars
  | .text s => s.chars
  | .array items closing => '[' :: (itemChars true items ++ (closing.1 ++ [']']))
  | .object members closing => '{' :: (memberChars true members ++ (closing.1 ++ ['}']))

/-- The text of items. -/
def itemChars : Bool → List (Gap × Tree) → List Char
  | _, [] => []
  | isFirst, (g, t) :: items => g.chars isFirst ++ (t.chars ++ itemChars false items)

/-- The text of members. -/
def memberChars : Bool → List (Gap × Name × Tree) → List Char
  | _, [] => []
  | isFirst, (g, n, t) :: members =>
      g.chars isFirst ++ (n.chars ++ (n.after.1 ++ (t.chars ++ memberChars false members)))

end

namespace Tree

/-- The first character of a value. -/
def initial : Tree → Char
  | null => 'n'
  | bool true => 't'
  | bool false => 'f'
  | number n => (n.sign ++ n.whole.chars).headD '0'
  | text _ => '"'
  | array _ _ => '['
  | object _ _ => '{'

/-- Whether a value is a number. -/
def isNumber : Tree → Bool
  | number _ => true
  | _ => false

end Tree

/-! ### First characters -/

/-- Digits begin with one. -/
theorem Digits.exists_cons (ds : Digits) :
  ∃ c cs, ds.chars = c :: cs ∧ c.isDigit = true
  := by
  obtain ⟨chars, hne, hdigit⟩ := ds
  cases chars with
  | nil => exact absurd rfl hne
  | cons c cs => exact ⟨c, cs, rfl, hdigit c List.mem_cons_self⟩

/-- A number begins with a minus sign or a digit. -/
theorem Figures.exists_cons (n : Figures) :
  ∃ c cs, n.chars = c :: cs ∧ c = (Tree.number n).initial ∧ startsNumber c = true
  := by
  obtain ⟨c, cs, hcs, hdigit⟩ := n.whole.exists_cons
  rw [chars, sign, Tree.initial, sign, hcs]
  split
  · exact ⟨'-', _, rfl, rfl, rfl⟩
  · refine ⟨c, cs ++ (n.point ++ n.power), rfl, rfl, ?_⟩
    rw [startsNumber, hdigit, Bool.or_true]

namespace Tree

/-- A value begins with its first character. -/
theorem exists_cons (t : Tree) :
  ∃ cs, t.chars = t.initial :: cs
  := by
  cases t with
  | null => exact ⟨_, rfl⟩
  | bool b => cases b <;> exact ⟨_, rfl⟩
  | number n =>
      obtain ⟨c, cs, hcs, rfl, _⟩ := n.exists_cons
      exact ⟨cs, hcs⟩
  | text s => exact ⟨_, rfl⟩
  | array items closing => exact ⟨_, rfl⟩
  | object members closing => exact ⟨_, rfl⟩

/-- A number, and nothing else, begins as a number. -/
theorem startsNumber_initial (t : Tree) :
  startsNumber t.initial = t.isNumber
  := by
  cases t with
  | null => rfl
  | bool b => cases b <;> rfl
  | number n =>
      obtain ⟨c, cs, _, rfl, hstarts⟩ := n.exists_cons
      exact hstarts
  | text s => rfl
  | array items closing => rfl
  | object members closing => rfl

/-- A number begins with nothing that no number begins with. -/
theorem number_initial_ne (n : Figures) {c : Char} (hc : startsNumber c = false) :
  (Tree.number n).initial ≠ c
  := by
  rintro rfl
  have hstarts := (Tree.number n).startsNumber_initial
  rw [hc] at hstarts
  contradiction

/-- A value begins with no blank, no comma, and no closing bracket. -/
theorem initial_ne (t : Tree) :
  isBlank t.initial = false ∧ t.initial ≠ ',' ∧ t.initial ≠ ']' ∧ t.initial ≠ '}'
  := by
  have hnumber : ∀ c : Char, startsNumber c = true →
      isBlank c = false ∧ c ≠ ',' ∧ c ≠ ']' ∧ c ≠ '}' := by
    intro c hc
    refine ⟨?_, ?_, ?_, ?_⟩
    · rw [Bool.eq_false_iff]
      intro hblank
      simp only [isBlank, Bool.or_eq_true, beq_iff_eq] at hblank
      rcases hblank with ((rfl | rfl) | rfl) | rfl <;> contradiction
    · rintro rfl
      contradiction
    · rintro rfl
      contradiction
    · rintro rfl
      contradiction
  have hother : ∀ c ∈ ['n', 't', 'f', '"', '[', '{'],
      isBlank c = false ∧ c ≠ ',' ∧ c ≠ ']' ∧ c ≠ '}' := by
    intro c hc
    simp only [List.mem_cons, List.not_mem_nil, or_false] at hc
    rcases hc with rfl | rfl | rfl | rfl | rfl | rfl <;> decide
  cases t with
  | null => exact hother 'n' (by decide)
  | bool b =>
      cases b with
      | true => exact hother 't' (by decide)
      | false => exact hother 'f' (by decide)
  | number n =>
      apply hnumber
      apply startsNumber_initial
  | text s => exact hother '"' (by decide)
  | array items closing => exact hother '[' (by decide)
  | object members closing => exact hother '{' (by decide)

end Tree

/-- What may follow a value goes on with no digit, no point and no letter `e`. -/
theorem Follows.head?_ne {cs : List Char} (h : Follows cs) {c : Char} (hc : cs.head? = some c) :
  c.isDigit = false ∧ c ≠ '.' ∧ c ≠ 'e' ∧ c ≠ 'E'
  := by
  rcases h c hc with hblank | rfl | rfl | rfl
  · simp only [isBlank, Bool.or_eq_true, beq_iff_eq] at hblank
    rcases hblank with ((rfl | rfl) | rfl) | rfl <;> decide
  · decide
  · decide
  · decide

end DelegatedAccess.Json
