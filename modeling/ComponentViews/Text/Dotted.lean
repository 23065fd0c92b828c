/-!
# Dotted names

A class is named by the segments of its package and its simple name, joined by
dots. The last segment is the simple name, and what comes before the last dot is
the package; a name without a dot lies in no package.
-/

namespace ComponentViews

namespace Text

/-- The parts of a text between the separators: one more than there are
    separators. -/
def splitAt (sep : Char) : List Char → List (List Char)
  | [] => [[]]
  | c :: cs =>
    if c = sep then [] :: splitAt sep cs
    else
      match splitAt sep cs with
      | [] => [[c]]
      | part :: parts => (c :: part) :: parts

theorem splitAt_ne_nil (sep : Char) (cs : List Char) : splitAt sep cs ≠ [] := by
  cases cs with
  | nil => simp [splitAt]
  | cons c cs =>
    simp only [splitAt]
    split
    · simp
    · split <;> simp

/-- The text with every `old` replaced by `new`. -/
def replaceChar (old new : Char) (text : String) : String :=
  String.ofList (text.toList.map fun c => if c = old then new else c)

end Text

namespace Dotted

/-- The segments of a name, from the outermost package to the simple name. -/
def segments (name : String) : List String :=
  (Text.splitAt '.' name.toList).map String.ofList

/-- The last segment of a name. -/
def simpleName (name : String) : String :=
  (segments name).getLastD name

/-- What comes before the last dot of a name, if it has one. -/
def package? (name : String) : Option String :=
  match (segments name).dropLast with
  | [] => none
  | outer => some (".".intercalate outer)

/-- The name of `simple` in a package. -/
def qualify (package : Option String) (simple : String) : String :=
  match package with
  | some outer => outer ++ "." ++ simple
  | none => simple

/-- The name with slashes for its dots, as class files spell it. -/
def slashed (name : String) : String := Text.replaceChar '.' '/' name

end Dotted

end ComponentViews
