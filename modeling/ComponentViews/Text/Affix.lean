/-!
# Beginnings and endings

What is left of a text when a given beginning or ending is taken off.
-/

namespace ComponentViews.Text

/-- The rest of a text that begins with `start`. -/
def afterStart? : (start text : List Char) → Option (List Char)
  | [], text => some text
  | _ :: _, [] => none
  | p :: ps, c :: cs => if p = c then afterStart? ps cs else none

theorem afterStart?_eq_some_iff {start text rest : List Char} :
    afterStart? start text = some rest ↔ text = start ++ rest := by
  induction start generalizing text with
  | nil => simp [afterStart?]
  | cons p ps ih =>
    cases text with
    | nil => simp [afterStart?]
    | cons c cs =>
      by_cases h : p = c
      · simp [afterStart?, h, ih]
      · simp [afterStart?, h, Ne.symm h]

/-- The rest of a text that begins with `start`. -/
def dropStart? (start text : String) : Option String :=
  (afterStart? start.toList text.toList).map String.ofList

/-- The rest of a text that ends with `ending`. -/
def dropEnd? (ending text : String) : Option String :=
  (afterStart? ending.toList.reverse text.toList.reverse).map fun rest =>
    String.ofList rest.reverse

/-- Whether a text begins with another. -/
def startsWith (start text : String) : Bool := (dropStart? start text).isSome

end ComponentViews.Text
