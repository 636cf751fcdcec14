import DelegatedAccess.Text.Reader

/-!
# Media types

A media type is a type and a subtype with a slash between them, and parameters after
semicolons. The last plus sign of a subtype, unless it comes first, sets off a suffix. Case
does not matter. Spaces may stand only in front of a parameter and after a quoted value.
-/

namespace DelegatedAccess.Http

/-- What a text is said to hold, without parameters, in lower case. -/
structure MediaType where
  type : String
  /-- The subtype without the suffix. -/
  subtype : String
  suffix : Option String
deriving DecidableEq, Repr

namespace MediaType

/-- Whether a character may stand in a name. -/
def isToken (c : Char) : Bool :=
  c.isAlphanum || "!#$%&'*+-.^_`|~".toList.contains c

/-- Whether a character may stand in a quoted value. -/
def isQuotable (c : Char) : Bool :=
  ' ' ≤ c && c < '\x7f'

/-- Takes a name, which is not empty. -/
def name : Reader Unit (List Char) := do
  match ← Reader.takeWhile isToken with
  | [] => throw ()
  | cs => return cs

/-- Passes over a semicolon, unless the text ends. -/
def skipSemicolon : Reader Unit Unit := do
  if (← Reader.peek?).isSome then
    Reader.expect () [';']

/-- Passes over a value in quotes, of which the first is passed. The value has at least one
character, so a quote that comes first is part of it. -/
def skipQuoted : Reader Unit Unit := do
  match ← Reader.peek? with
  | none => throw ()
  | some c =>
      unless isQuotable c do
        throw ()
      Reader.advance
  Reader.skipWhile fun c => isQuotable c && c != '"'
  Reader.expect () ['"']

/-- Passes over a value and the semicolon after it, if one comes next. A value without quotes may
be empty only at the end. -/
def skipValue : Reader Unit Unit := do
  if ← Reader.skip? ['"'] then
    skipQuoted
    Reader.skipWhile (· = ' ')
    skipSemicolon
  else
    let value ← Reader.takeWhile isToken
    match value, ← Reader.peek? with
    | [], some _ => throw ()
    | _, _ => skipSemicolon

/-- Passes over a parameter, if one is left. -/
def parameter? : Reader Unit (Option Unit) := do
  Reader.skipWhile (· = ' ')
  if (← Reader.peek?).isNone then
    return none
  let _ ← name
  Reader.expect () ['=']
  skipValue
  return some ()

/-- Passes over parameters up to the end of the text, each after a semicolon. -/
def skipParameters : Reader Unit Unit := do
  if (← Reader.peek?).isSome then
    Reader.expect () [';']
    let _ ← Reader.repeatUntilNone () parameter?

/-- A subtype without its suffix, and the suffix. -/
def splitSuffix (subtype : List Char) : List Char × Option (List Char) :=
  let suffix := (subtype.reverse.takeWhile (· ≠ '+')).reverse
  match (subtype.take (subtype.length - suffix.length)).dropLast with
  | [] => (subtype, none)
  | main => (main, some suffix)

/-- A text in lower case. -/
def lower (cs : List Char) : String :=
  String.ofList (cs.map Char.toLower)

/-- A media type, whose parameters are only checked. They may not follow an empty subtype. -/
def read : Reader Unit MediaType := do
  let type ← name
  Reader.expect () ['/']
  let full ← Reader.takeWhile isToken
  if full = [] ∧ (← Reader.peek?).isSome then
    throw ()
  skipParameters
  let (subtype, suffix) := splitSuffix full
  return { type := lower type, subtype := lower subtype, suffix := suffix.map lower }

/-- The media type that a text names, if it names one. -/
def parse? (text : String) : Option MediaType :=
  match read.run text.toList with
  | .error () => none
  | .ok (m, _) => some m

/-- Whether what a media type describes is JSON. -/
def IsJson (m : MediaType) : Prop :=
  m.type = "application" ∧ (m.subtype = "json" ∨ m.suffix = some "json")

instance (m : MediaType) : Decidable m.IsJson :=
  inferInstanceAs (Decidable (_ ∧ _))

end MediaType

end DelegatedAccess.Http
