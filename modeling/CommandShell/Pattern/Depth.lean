import CommandShell.Pattern.Fault
import CommandShell.Pattern.Tree

/-!
How deep the parts of a pattern lie in each other.  All parts that have parts count.
-/

namespace CommandShell.Pattern

/-- How deep parts may lie. -/
def depthLimit : Nat := 250

/-- One deeper than `depth`, for the part with the given span. -/
def deeper (depth : Nat) (span : Span) : Except Fault Nat :=
  if depth < depthLimit then .ok (depth + 1) else .error ⟨.tooDeep depthLimit, span, none⟩

mutual

/-- Fails at the first part of a class that lies too deep. -/
def ClassTree.checkDepth (depth : Nat) : ClassTree → Except Fault Unit
  | .empty _ | .letter _ | .range _ _ _ | .ascii _ _ _ | .kind _ _ _ | .property _ _ _ => .ok ()
  | .bracket span _ inner => do inner.checkDepth (← deeper depth span)
  | .union span parts => do ClassTree.checkDepths (← deeper depth span) parts
  | .op span _ left right => do
    let depth ← deeper depth span
    left.checkDepth depth
    right.checkDepth depth

def ClassTree.checkDepths (depth : Nat) : List ClassTree → Except Fault Unit
  | [] => .ok ()
  | t :: ts => do
    t.checkDepth depth
    ClassTree.checkDepths depth ts

end

mutual

/-- Fails at the first part of a pattern that lies too deep. -/
def Tree.checkDepth (depth : Nat) : Tree → Except Fault Unit
  | .empty _ | .flags _ _ | .atom _ => .ok ()
  | .bracket span _ inner => do inner.checkDepth (← deeper depth span)
  | .times span _ _ _ inner => do inner.checkDepth (← deeper depth span)
  | .group span _ inner => do inner.checkDepth (← deeper depth span)
  | .either span branches => do Tree.checkDepths (← deeper depth span) branches
  | .seq span parts => do Tree.checkDepths (← deeper depth span) parts

def Tree.checkDepths (depth : Nat) : List Tree → Except Fault Unit
  | [] => .ok ()
  | t :: ts => do
    t.checkDepth depth
    Tree.checkDepths depth ts

end

end CommandShell.Pattern
