/-!
# The grammar of descriptors

A field descriptor is any number of brackets followed by the letter of a primitive type
or by `L`, a name that is not empty and has no semicolon, and a semicolon. A method
descriptor is a parenthesised sequence of field descriptors followed by `V` or a field
descriptor.
-/

namespace ComponentViews.Descriptor

/-- The letters of the primitive types. -/
def letters : List Char := ['B', 'C', 'D', 'F', 'I', 'J', 'S', 'Z']

/-- What follows the semicolon that ends a name. -/
def afterName? : List Char → Option (List Char)
  | [] => none
  | c :: rest => if c = ';' then some rest else afterName? rest

/-- What follows the field descriptor that a text begins with. -/
def afterField? : List Char → Option (List Char)
  | '[' :: rest => afterField? rest
  | 'L' :: c :: rest => if c = ';' then none else afterName? rest
  | c :: rest => if c ∈ letters then some rest else none
  | [] => none

theorem length_lt_of_afterName? {s t : List Char} (h : afterName? s = some t) :
    t.length < s.length := by
  induction s with
  | nil => simp [afterName?] at h
  | cons c s ih =>
    simp only [afterName?] at h
    split at h
    · simp_all
    · have := ih h
      simp only [List.length_cons]
      omega

theorem length_lt_of_afterField? {s t : List Char} (h : afterField? s = some t) :
    t.length < s.length := by
  fun_induction afterField? s with
  | case1 rest ih =>
    have := ih h
    simp only [List.length_cons]
    omega
  | case2 => simp at h
  | case3 c rest _ =>
    have := length_lt_of_afterName? h
    simp only [List.length_cons]
    omega
  | case4 => simp_all
  | case5 => simp at h
  | case6 => simp at h

/-- Whether a text is a field descriptor. -/
def isField (s : List Char) : Bool := afterField? s == some []

/-- Whether a text is the part of a method descriptor after the opening parenthesis. -/
def isMethodTail (s : List Char) : Bool :=
  match s with
  | ')' :: result => result == ['V'] || isField result
  | s =>
    match _h : afterField? s with
    | some rest => isMethodTail rest
    | none => false
termination_by s.length
decreasing_by exact length_lt_of_afterField? _h

/-- Whether a text is a method descriptor. -/
def isMethod : List Char → Bool
  | '(' :: rest => isMethodTail rest
  | _ => false

end ComponentViews.Descriptor
