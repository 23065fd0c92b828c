/-!
# Ranges of code

A range of code is a half-open interval of offsets. Handlers cover the code of what
they guard except for *gaps*: the copies of exit blocks within it.
-/

namespace ComponentViews

/-- The offsets from `start` up to but not including `stop`. -/
structure CodeRange where
  start : Nat
  stop : Nat
deriving DecidableEq, Repr

namespace CodeRange

/-- Whether an offset lies in a range. -/
def contains (r : CodeRange) (pc : Nat) : Bool := r.start ≤ pc && pc < r.stop

/-- The order by start, and then by stop. -/
def precedes (a b : CodeRange) : Bool :=
  a.start < b.start || (a.start == b.start && a.stop ≤ b.stop)

/-- What is left from `cursor` to `stop` when gaps, in order, are taken out. -/
def between (stop : Nat) : (cursor : Nat) → (gaps : List CodeRange) → List CodeRange
  | cursor, [] => if cursor < stop then [⟨cursor, stop⟩] else []
  | cursor, gap :: gaps =>
    (if cursor < gap.start then [⟨cursor, gap.start⟩] else []) ++
      between stop (max cursor gap.stop) gaps

/-- The parts of a range that lie in no gap. -/
def subtract (r : CodeRange) (gaps : List CodeRange) : List CodeRange :=
  let inside := gaps.filter fun gap => r.start < gap.stop && gap.start < r.stop
  between r.stop r.start (inside.mergeSort precedes)

end CodeRange

end ComponentViews
