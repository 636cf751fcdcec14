import DelegatedAccess.Text.Reader
import DelegatedAccess.Toml.Scalar

/-!
# TOML text

Blanks, comments and line ends, and the four kinds of quoted text: basic and literal, each
on one line or on several. Control characters other than the tab occur in none of them.
-/

namespace DelegatedAccess.Toml

/-- Reads from a TOML document, which is valid or not. -/
abbrev TomlReader := Reader Unit

/-- Whether a character separates words on a line. -/
def isBlank (c : Char) : Bool :=
  c == ' ' || c == '\t'

/-- Whether a character may stand in a comment or between quotes on one line. -/
def isPlain (c : Char) : Bool :=
  c == '\t' || (' ' ≤ c && c != '\x7f')

/-- Refuses the document. -/
def invalid {α : Type} : TomlReader α :=
  throw ()

/-- Passes over blanks. -/
def skipBlanks : TomlReader Unit :=
  Reader.skipWhile isBlank

/-- Passes over a line end if it comes next, and says whether it does. -/
def lineEnd? : TomlReader Bool := do
  if ← Reader.skip? ['\n'] then return true
  else Reader.skip? ['\r', '\n']

/-- Passes over a comment if it comes next, and says whether it does. -/
def comment? : TomlReader Bool := do
  if (← Reader.peek?) = some '#' then
    Reader.skipWhile isPlain
    return true
  else return false

/-- Passes over blanks, comments and line ends. -/
def skipLines : TomlReader Unit := do
  skipBlanks
  let _ ← Reader.repeatUntilNone () do
    if ← comment? then return some ()
    else if ← lineEnd? then
      skipBlanks
      return some ()
    else return none

/-- The character with a number written in a given number of hexadecimal digits. -/
def codePoint (places : Nat) : TomlReader Char := do
  match ← Reader.takeExactly? places with
  | none => invalid
  | some ds =>
      let isHex := fun c => isDecimal c || ('a' ≤ c && c ≤ 'f') || ('A' ≤ c && c ≤ 'F')
      let n := numberOf 16 ds
      if ds.all isHex ∧ n.isValidChar then return Char.ofNat n
      else invalid

/-- The character that an escape stands for, after the backslash. -/
def escaped : TomlReader Char := do
  let c ← Reader.peek?
  Reader.advance
  match c with
  | some 'b' => return '\x08'
  | some 't' => return '\t'
  | some 'n' => return '\n'
  | some 'f' => return '\x0c'
  | some 'r' => return '\r'
  | some 'e' => return '\x1b'
  | some '"' => return '"'
  | some '\\' => return '\\'
  | some 'x' => codePoint 2
  | some 'u' => codePoint 4
  | some 'U' => codePoint 8
  | _ => invalid

/-- The text between quotes on one line, after the opening quote. -/
def lineText (quote : Char) (escapes : Bool) : TomlReader (List Char) := do
  let pieces ← Reader.repeatUntilNone () do
    match ← Reader.peek? with
    | none => invalid
    | some c =>
        if c = quote then
          Reader.advance
          return none
        else if c = '\\' ∧ escapes then
          Reader.advance
          return some (← escaped)
        else if isPlain c then
          Reader.advance
          return some c
        else invalid
  return pieces

/-- Passes over a line end and all blanks and line ends after it, if only blanks come before
it. Says whether it does. -/
def continuation? : TomlReader Bool := do
  let cs ← get
  skipBlanks
  if ← lineEnd? then
    skipBlanks
    let _ ← Reader.repeatUntilNone () do
      if ← lineEnd? then
        skipBlanks
        return some ()
      else return none
    return true
  else
    set cs
    return false

/-- The text between three quotes, after the opening ones. A line end right after them does
not count, and up to two more quotes may stand before the closing ones. -/
def blockText (quote : Char) (escapes : Bool) : TomlReader (List Char) := do
  let _ ← lineEnd?
  let pieces ← Reader.repeatUntilNone () do
    match ← Reader.peek? with
    | none => invalid
    | some c =>
        if c = quote then
          let run := (← get).takeWhile (· = quote)
          if run.length < 3 then
            Reader.skipWhile (· = quote)
            return some run
          else return none
        else if c = '\\' ∧ escapes then
          Reader.advance
          if ← continuation? then return some []
          else return some [← escaped]
        else if isPlain c then
          Reader.advance
          return some [c]
        else if ← lineEnd? then return some ['\n']
        else invalid
  let run := ((← get).takeWhile (· = quote)).take 5
  modify (·.drop run.length)
  return pieces.flatten ++ run.drop 3

end DelegatedAccess.Toml
