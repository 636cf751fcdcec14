/-!
# TOML values

The values of TOML documents, and the tables that documents build up. A table remembers how
it has been written, as that decides how it may be added to: under a header of its own, only
as a parent in the header of another table, as a parent in a dotted key, or inline. A parent
in a header that is also a parent in a dotted key counts as the latter, and the root counts
as a table with a header.
-/

namespace DelegatedAccess.Toml

/-- How a table has been written. -/
inductive Origin where
  | header
  | parent
  | dotted
  | inlined
deriving DecidableEq, Repr

/-- A value. Numbers with fractions, dates and times are kept as they are written. -/
inductive Value where
  | text (text : String)
  | integer (n : Int)
  | float (text : String)
  | boolean (b : Bool)
  | dateTime (text : String)
  | array (items : List Value)
  | table (origin : Origin) (entries : List (String × Value))
  /-- An array of tables, each with its own header. Headers below it add to the last one. -/
  | tables (last : List (String × Value)) (earlier : List (List (String × Value)))

/-- A table: how it has been written, and its keys with their values. -/
structure Table where
  origin : Origin
  entries : List (String × Value)

namespace Table

/-- The table with a value in place of the one under a key. -/
def replace (t : Table) (key : String) (v : Value) : Table :=
  { t with entries := t.entries.map fun e => if e.1 = key then (key, v) else e }

/-- The table with a value under a new key. -/
def add (t : Table) (key : String) (v : Value) : Table :=
  { t with entries := t.entries ++ [(key, v)] }

/-- Changes the table at a path of keys. The keys of a header lead into any table that is not
inline, and into the last table of an array of tables. The keys of a dotted key do not lead
into tables with a header, arrays of tables excepted, and mark all others that they lead
through. Tables that are missing are made. -/
def change (dotted : Bool) (f : Table → Option Table) : List String → Table → Option Table
  | [], t => f t
  | key :: path, t =>
      match t.entries.lookup key with
      | none => do
          let sub ← change dotted f path ⟨if dotted then .dotted else .parent, []⟩
          return t.add key (.table sub.origin sub.entries)
      | some (.table origin entries) =>
          if origin = .inlined ∨ (dotted ∧ origin = .header) then none
          else do
            let sub ← change dotted f path ⟨if dotted then .dotted else origin, entries⟩
            return t.replace key (.table sub.origin sub.entries)
      | some (.tables last earlier) => do
          let sub ← change dotted f path ⟨.header, last⟩
          return t.replace key (.tables sub.entries earlier)
      | some _ => none

/-- Puts a value under a dotted key. Its last part must be new, and its other parts must not
end at the last table of an array of tables. -/
def insert (path : List String) (key : String) (v : Value) : Table → Option Table :=
  change true (fun t =>
    if path ≠ [] ∧ t.origin ≠ .dotted then none
    else if (t.entries.lookup key).isSome then none
    else some (t.add key v)) path

/-- Begins the table with a header. There may be a table already only if it is the parent in
the header of another table. -/
def openHeader (path : List String) (key : String) : Table → Option Table :=
  change false (fun t =>
    match t.entries.lookup key with
    | none => some (t.add key (.table .header []))
    | some (.table .parent entries) => some (t.replace key (.table .header entries))
    | some _ => none) path

/-- Begins the next table of an array of tables. -/
def openArray (path : List String) (key : String) : Table → Option Table :=
  change false (fun t =>
    match t.entries.lookup key with
    | none => some (t.add key (.tables [] []))
    | some (.tables last earlier) => some (t.replace key (.tables [] (last :: earlier)))
    | some _ => none) path

end Table

end DelegatedAccess.Toml
