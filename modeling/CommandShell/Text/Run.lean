/-!
Code points at regular distances, as the data of Unicode lists them.
-/

namespace CommandShell.Text

/-- The code points from the first to the last that are a multiple of the step away from it. -/
structure Run where
  first : Nat
  last : Nat
  step : Nat
  deriving DecidableEq, Repr

def Run.contains (r : Run) (n : Nat) : Bool :=
  r.first ≤ n && n ≤ r.last && (n - r.first) % r.step == 0

/-- The run as ranges without gaps. -/
def Run.ranges (r : Run) : List (Nat × Nat) :=
  if r.step == 1 then [(r.first, r.last)]
  else
    (List.range ((r.last - r.first) / r.step + 1)).map fun k =>
      let n := r.first + k * r.step
      (n, n)

/-- The code point lies in one of the runs. -/
def inRuns (rs : List Run) (n : Nat) : Bool :=
  rs.any (·.contains n)

/-- The code point lies in one of the ranges. -/
def inRanges (rs : List (Nat × Nat)) (n : Nat) : Bool :=
  rs.any fun r => r.1 ≤ n && n ≤ r.2

end CommandShell.Text
