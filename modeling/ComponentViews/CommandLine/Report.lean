import ComponentViews.Text.Dotted

/-!
# Reports of failure

When a command fails, it says what it was doing and then what went wrong, from the outside
in.
-/

namespace ComponentViews

/-- Why a command failed. -/
structure Report where
  message : String
  /-- What the failure came from, the immediate cause first. -/
  causes : List String := []
deriving DecidableEq, Repr

namespace Report

/-- The lines of a text. -/
def linesOf (text : String) : List String :=
  (Text.splitAt '\n' text.toList).map String.ofList

/-- The lines of a cause: the first with a mark in front of it, the others indented as far. -/
def causeLines (mark : String) (text : String) : List String :=
  match linesOf text with
  | [] => []
  | first :: more =>
    let indent := String.ofList (List.replicate mark.length ' ')
    (mark ++ first) :: more.map (indent ++ ·)

/-- The causes, numbered if there are several. -/
def causeBlock : List String → List String
  | [] => []
  | [cause] => ["", "Caused by:"] ++ causeLines "    " cause
  | causes =>
    ["", "Caused by:"] ++ causes.zipIdx.flatMap fun (cause, i) =>
      let number := toString i
      let indent := String.ofList (List.replicate (5 - number.length) ' ')
      causeLines (indent ++ number ++ ": ") cause

/-- The lines of a report. -/
def lines (r : Report) : List String :=
  linesOf ("Error: " ++ r.message) ++ causeBlock r.causes

/-- The report of a failure that came up while doing something. -/
def within (doing : String) (r : Report) : Report := ⟨doing, r.message :: r.causes⟩

end Report

end ComponentViews
