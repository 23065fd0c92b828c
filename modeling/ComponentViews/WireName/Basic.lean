import ComponentViews.Hierarchy.Basic
import ComponentViews.Operation

/-!
# Wire names

The name of an operation on the wire, and the candidates from which it is chosen.
A candidate carries the operation, the name as far as it has been worked out, and
whether the operation reads or writes a property, which puts a word in front of the
name in the end.
-/

namespace ComponentViews

/-- The name of an operation on the wire. -/
structure WireName where
  name : String
  /-- A further name under which the operation is reached. -/
  altName : Option String := none
  /-- The property that the operation reads or writes. -/
  property : Option String := none
deriving DecidableEq, Repr

/-- Why operations cannot be given wire names: the two that stand in each other's
    way, and how. -/
inductive NamingConflict where
  /-- Both read the property, spelled with different letter case. -/
  | propertyCase (first second : Operation) (property : String)
  /-- The first is named like the owner, and the second has the name that it would
      get instead. -/
  | ownerName (first second : Operation) (legacy corrected : String)
  /-- Both come to the same name. -/
  | sameName (first second : Operation) (name : String)
deriving DecidableEq, Repr

namespace NamingConflict

/-- The operation that comes first in the conflict. -/
def first : NamingConflict → Operation
  | propertyCase a _ _ | ownerName a _ _ _ | sameName a _ _ => a

/-- The operation that it is in conflict with. -/
def second : NamingConflict → Operation
  | propertyCase _ b _ | ownerName _ b _ _ | sameName _ b _ => b

/-- The text that is reported for the conflict. -/
def reason : NamingConflict → String
  | propertyCase _ _ property => s!"both map to property '{property}' with different casing"
  | ownerName _ _ legacy corrected =>
    s!"'{legacy}' matches owner name and its replacement '{corrected}' is taken"
  | sameName _ _ name => s!"both map to wire name '{name}'"

end NamingConflict

/-- What an operation does for a property. -/
inductive AccessRole where
  | plain
  | getter
  | setter
deriving DecidableEq, Repr

/-- The word that a role puts in front of a name. -/
def AccessRole.lead : AccessRole → String
  | plain => ""
  | getter => "get_"
  | setter => "set_"

/-- An operation whose wire name is being worked out. -/
structure NameCandidate where
  op : Operation
  name : String
  role : AccessRole := .plain
  property : Option String := none
  altName : Option String := none
deriving DecidableEq, Repr

namespace NameCandidate

/-- An operation under its own name. -/
def ofOperation (op : Operation) : NameCandidate where
  op := op
  name := op.name

/-- The signature of the operation as a text. -/
def key (c : NameCandidate) : String := c.op.signatureKey

/-- A name with the word of the candidate's role. -/
def withLead (c : NameCandidate) (name : String) : String := c.role.lead ++ name

end NameCandidate

end ComponentViews
