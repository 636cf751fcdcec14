import DelegatedAccess.Rule.Clause
import DelegatedAccess.Rule.Error

/-!
# The structure of rule sequences

The logic rules of a sequence make it a graph: an edge leads from a rule to each of its
operands. The rules to which no edge leads are the top-level rules. A sequence is well
structured when its operands are rules of the sequence, every rule is reachable from a
top-level rule, and no rule depends on itself.

Reachability is found by a search from the top-level rules. Cycles are found by removing,
over and over, a rule to which no edge of a remaining rule leads.
-/

namespace DelegatedAccess

/-- A directed graph on `n` vertices: the targets of the edges out of each vertex, in order
and with repetitions. -/
abbrev Graph (n : Nat) := Vector (List (Fin n)) n

namespace Graph

variable {n : Nat}

/-- The number of edges of a graph. -/
def edgeCount (g : Graph n) : Nat :=
  g.toList.flatten.length

/-- The vertices among `vs`, marked in a vector of marks. -/
def mark (vs : List (Fin n)) (marks : Vector Bool n) : Vector Bool n :=
  vs.foldl (fun marks (i : Fin n) => marks.set i true) marks

/-- The vertices to which some edge leads, as a vector of marks. -/
def targets (g : Graph n) : Vector Bool n :=
  mark g.toList.flatten (Vector.replicate n false)

/-- The vertices to which no edge leads, in increasing order. -/
def sources (g : Graph n) : List (Fin n) :=
  let marks := g.targets
  (List.finRange n).filter fun i => !marks[i]

/-- Marks the vertices reachable from those on the stack, except through vertices that are
already marked. Each step takes a vertex from the stack. -/
def search (g : Graph n) : (steps : Nat) → (stack : List (Fin n)) → Vector Bool n → Vector Bool n
  | 0, _, seen => seen
  | _, [], seen => seen
  | steps + 1, i :: stack, seen =>
      if seen[i] then g.search steps stack seen
      else g.search steps (g[i] ++ stack) (seen.set i true)

/-- Marks the vertices reachable from those given. The edges out of a vertex put their
targets on the stack only once, when the vertex is marked, so that the search takes no more
steps than there are vertices given and edges. -/
def reachable (g : Graph n) (start : List (Fin n)) : Vector Bool n :=
  g.search (start.length + g.edgeCount) start (Vector.replicate n false)

/-! ### Removal of vertices in dependency order -/

/-- A stage of the removal of the vertices of a graph. -/
structure Sweep (n : Nat) where
  /-- The number of edges to each vertex from vertices that are not removed. -/
  indegree : Vector Nat n
  /-- The vertices ready to be removed, the next one first. -/
  ready : List (Fin n)
  /-- The vertices removed, the last one first. -/
  removed : List (Fin n)

namespace Sweep

/-- Counts one more edge to a vertex. -/
def count (indegree : Vector Nat n) (j : Fin n) : Vector Nat n :=
  indegree.set j (indegree[j] + 1)

/-- The stage at which no vertex is removed. -/
def start (g : Graph n) : Sweep n :=
  let indegree := g.toList.flatten.foldl count (Vector.replicate n 0)
  { indegree
    ready := ((List.finRange n).filter fun i => indegree[i] = 0).reverse
    removed := [] }

/-- Takes away an edge to a vertex, which becomes ready with its last one. -/
def release (s : Sweep n) (j : Fin n) : Sweep n :=
  let left := s.indegree[j] - 1
  { s with
    indegree := s.indegree.set j left
    ready := if left = 0 then j :: s.ready else s.ready }

/-- Removes the vertex that is ready next, with the edges out of it. -/
def step (g : Graph n) (s : Sweep n) : Sweep n :=
  match s.ready with
  | [] => s
  | i :: ready => (g[i]).foldl release { s with ready, removed := i :: s.removed }

/-- Takes a number of steps. -/
def run (g : Graph n) : (steps : Nat) → Sweep n → Sweep n
  | 0, s => s
  | steps + 1, s => run g steps (s.step g)

end Sweep

/-- The stage at which no vertex is ready any more. A step is needed for each vertex at
most. -/
def sweep (g : Graph n) : Sweep n :=
  Sweep.run g n (Sweep.start g)

end Graph

namespace Rule

/-- The first operand, in the order of the rules and of the operands of each, that is not a
rule of the sequence. -/
def strayOperand? (rules : List Rule) : Option RuleError :=
  rules.zipIdx.findSome? fun (r, i) =>
    (r.operands.find? fun j => rules.length ≤ j.toNat).map fun j =>
      .operandOutOfRange i j.toNat rules.length

/-- The operands of a rule that are rules of a sequence of `n` rules. -/
def targets (n : Nat) (r : Rule) : List (Fin n) :=
  r.operands.filterMap fun j => if h : j.toNat < n then some ⟨j.toNat, h⟩ else none

/-- The graph of a sequence: an edge leads from a rule to each of its operands. -/
def graph (rules : List Rule) : Graph rules.length :=
  ⟨(rules.map (targets rules.length)).toArray, by simp⟩

/-- The top-level rules of a sequence, in order. It is an error if an operand is no rule of
the sequence, or if some rule is not reachable from a top-level rule. -/
def roots (rules : List Rule) : Except RuleError (List (Fin rules.length)) :=
  match strayOperand? rules with
  | some e => .error e
  | none =>
      let g := graph rules
      let roots := g.sources
      let seen := g.reachable roots
      match (List.finRange rules.length).find? fun i => !seen[i] with
      | some i => .error (.unreachable i)
      | none => .ok roots

/-- Whether a sequence is well structured, and otherwise what is wrong with it. A cycle is
reported at the first rule that could not be removed. -/
def checkStructure (rules : List Rule) : Except RuleError Unit := do
  let _ ← roots rules
  let s := (graph rules).sweep
  if s.removed.length < rules.length then
    let stuck := (List.finRange rules.length).find? fun i => 0 < s.indegree[i]
    throw (.cycle ((stuck.map Fin.val).getD 0))

end Rule

end DelegatedAccess
