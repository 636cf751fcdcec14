import DelegatedAccess.Toml.Text

/-!
# TOML documents

A document is a sequence of lines, each with a key and its value, with a header, or with
neither. Values may nest, arrays and inline tables counted together, to a depth of eighty,
and a dotted key has at most eighty parts.
-/

namespace DelegatedAccess.Toml

/-! ### Keys -/

/-- Whether a character may stand in a key without quotes. -/
def isKeyChar (c : Char) : Bool :=
  c.isAlphanum || c == '_' || c == '-'

/-- One part of a dotted key. -/
def keyPart : TomlReader String := do
  match ← Reader.peek? with
  | some '"' =>
      Reader.advance
      return String.ofList (← lineText '"' true)
  | some '\'' =>
      Reader.advance
      return String.ofList (← lineText '\'' false)
  | _ =>
      match ← Reader.takeWhile isKeyChar with
      | [] => invalid
      | cs => return String.ofList cs

/-- The greatest depth of nested values, and the greatest number of parts of a key. -/
def maxDepth : Nat := 80

/-- A dotted key: the parts before its last, and its last. -/
def dottedKey : TomlReader (List String × String) := do
  let first ← keyPart
  skipBlanks
  let more ← Reader.repeatUntilNone () do
    if ← Reader.skip? ['.'] then
      skipBlanks
      let part ← keyPart
      skipBlanks
      return some part
    else return none
  if maxDepth ≤ more.length then invalid
  match (first :: more).reverse with
  | last :: before => return (before.reverse, last)
  | [] => invalid

/-! ### Values -/

/-- Whether a character may stand in a value without quotes. -/
def isScalarChar (c : Char) : Bool :=
  c.isAlphanum || c == '_' || c == '-' || c == '+' || c == '.' || c == ':'

/-- The run of characters of a value without quotes. A date and a time may be separated by a
single space. -/
def scalarRun : TomlReader (List Char) := do
  let run ← Reader.takeWhile isScalarChar
  match dropDate? run, ← get with
  | some [], ' ' :: c :: _ =>
      if isDecimal c then
        Reader.advance
        return run ++ ' ' :: (← Reader.takeWhile isScalarChar)
      else return run
  | _, _ => return run

/-- A quoted text of one line or several, with its quotes. -/
def quotedText (quote : Char) (escapes : Bool) : TomlReader String := do
  if ← Reader.skip? [quote, quote, quote] then
    return String.ofList (← blockText quote escapes)
  else
    Reader.advance
    return String.ofList (← lineText quote escapes)

/-- A value without parts. -/
def plainValue : TomlReader Value := do
  match ← Reader.peek? with
  | some '"' => return .text (← quotedText '"' true)
  | some '\'' => return .text (← quotedText '\'' false)
  | _ =>
      match scalar? (← scalarRun) with
      | some v => return v
      | none => invalid

/-- A key with its value. What may surround the equals sign is passed over. -/
def keyValue (skip : TomlReader Unit) (value : TomlReader Value) :
    TomlReader (List String × String × Value) := do
  let (path, key) ← dottedKey
  skip
  Reader.expect () ['=']
  skip
  return (path, key, ← value)

/-- Parts between commas, up to a closing character. A comma may follow the last part. Blanks,
comments and line ends may surround each. -/
def parts {α : Type} (close : Char) (part : TomlReader α) : TomlReader (List α) :=
  Reader.repeatUntilNone () do
    skipLines
    if ← Reader.skip? [close] then return none
    else
      let a ← part
      skipLines
      if (← Reader.peek?) ≠ some close then
        Reader.expect () [',']
      return some a

/-- The table that keys and values written inline build up. -/
def inlineTable (entries : List (List String × String × Value)) : TomlReader Value :=
  match entries.foldlM (fun t (path, key, v) => Table.insert path key v t) ⟨.inlined, []⟩ with
  | some t => return .table t.origin t.entries
  | none => invalid

/-- A value whose parts are nested to a depth at most. -/
def valueWithin : (depth : Nat) → TomlReader Value
  | 0 => plainValue
  | depth + 1 => do
      match ← Reader.peek? with
      | some '[' =>
          Reader.advance
          return .array (← parts ']' (valueWithin depth))
      | some '{' =>
          Reader.advance
          inlineTable (← parts '}' (keyValue skipLines (valueWithin depth)))
      | _ => plainValue

/-! ### Lines -/

/-- The part of a document that has been read: its root, and where keys are put from here
on. -/
structure Section where
  root : Table
  path : List String

/-- The section that puts keys at a path of a changed root, if the change is allowed. -/
def sectionAt (path : List String) (root : Option Table) : TomlReader Section :=
  match root with
  | some root => return ⟨root, path⟩
  | none => invalid

/-- A header in single or double brackets, after the opening ones. -/
def header (s : Section) (double : Bool) : TomlReader Section := do
  skipBlanks
  let (path, key) ← dottedKey
  if double then
    Reader.expect () [']', ']']
    sectionAt (path ++ [key]) (s.root.openArray path key)
  else
    Reader.expect () [']']
    sectionAt (path ++ [key]) (s.root.openHeader path key)

/-- What a line holds before its comment. -/
def lineContent (s : Section) : TomlReader Section := do
  match ← Reader.peek? with
  | none => return s
  | some '#' => return s
  | some '\n' => return s
  | some '\r' => return s
  | some '[' =>
      if ← Reader.skip? ['[', '['] then header s true
      else
        Reader.advance
        header s false
  | some _ =>
      let (path, key, v) ← keyValue skipBlanks (valueWithin maxDepth)
      sectionAt s.path (s.root.change false (Table.insert path key v) s.path)

/-- The lines of a document, of which there are at most as many as given. -/
def lines : Nat → Section → TomlReader Section
  | 0, _ => invalid
  | n + 1, s => do
      skipBlanks
      let s ← lineContent s
      skipBlanks
      let _ ← comment?
      if ← lineEnd? then lines n s
      else if (← get).isEmpty then return s
      else invalid

/-- The root of the document with a given text, if it is valid. A byte order mark may come
first. -/
def parse (text : String) : Option Table :=
  let cs := match text.toList with
    | '\ufeff' :: cs => cs
    | cs => cs
  match (lines (cs.length + 1) ⟨⟨.header, []⟩, []⟩).run cs with
  | .ok (s, _) => some s.root
  | .error () => none

end DelegatedAccess.Toml
