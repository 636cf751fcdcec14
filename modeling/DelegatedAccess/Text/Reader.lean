/-!
# Readers

A reader takes characters from the front of a text and makes something of them, or fails
with an error. Repetition is bounded by the number of characters left, as every piece that
is repeated takes at least one.
-/

namespace DelegatedAccess

/-- Reads from a list of characters. -/
abbrev Reader (ε α : Type) := StateT (List Char) (Except ε) α

namespace Reader

variable {ε α : Type}

/-- The next character, which is left in place. -/
def peek? : Reader ε (Option Char) :=
  return (← get).head?

/-- Passes over the next character. -/
def advance : Reader ε Unit :=
  modify List.tail

/-- Takes the characters up to the first that fails a test. -/
def takeWhile (p : Char → Bool) : Reader ε (List Char) := do
  let cs ← get
  set (cs.dropWhile p)
  return cs.takeWhile p

/-- Passes over the characters up to the first that fails a test. -/
def skipWhile (p : Char → Bool) : Reader ε Unit :=
  modify (·.dropWhile p)

/-- Takes a number of characters, if there are that many. -/
def takeExactly? (n : Nat) : Reader ε (Option (List Char)) := do
  let cs ← get
  if cs.length < n then return none
  else
    set (cs.drop n)
    return some (cs.take n)

/-- Passes over given characters if they come next, and says whether they do. -/
def skip? (expected : List Char) : Reader ε Bool := do
  let cs ← get
  if expected.isPrefixOf cs then
    set (cs.drop expected.length)
    return true
  else return false

/-- Passes over given characters, which must come next. -/
def expect (error : ε) (expected : List Char) : Reader ε Unit := do
  unless ← skip? expected do
    throw error

/-- Repeats a step at most a number of times, until it gives nothing. -/
def repeatUpTo (stuck : ε) (step : Reader ε (Option α)) : Nat → Reader ε (List α)
  | 0 => throw stuck
  | n + 1 => do
      match ← step with
      | none => return []
      | some a => return a :: (← repeatUpTo stuck step n)

/-- Repeats a step until it gives nothing. A step that gives something must take a
character. -/
def repeatUntilNone (stuck : ε) (step : Reader ε (Option α)) : Reader ε (List α) := do
  repeatUpTo stuck step ((← get).length + 1)

/-- Goes from state to state, at most a number of times, until a step gives no next state. -/
def iterateUpTo {σ : Type} (stuck : ε) (step : σ → Reader ε (Option σ)) :
    Nat → σ → Reader ε σ
  | 0, _ => throw stuck
  | n + 1, s => do
      match ← step s with
      | none => return s
      | some next => iterateUpTo stuck step n next

/-- Goes from state to state until a step gives no next state. A step that gives one must
take a character. -/
def iterateUntilNone {σ : Type} (stuck : ε) (step : σ → Reader ε (Option σ)) (start : σ) :
    Reader ε σ := do
  iterateUpTo stuck step ((← get).length + 1) start

end Reader

end DelegatedAccess
