import ComponentViews.Known

/-!
# The class hierarchy

A hierarchy is what is known of the classes around a component: for each class its
superclass, the interfaces it names, and whether it is an interface itself. The
latest declaration of a name counts.

A class is a subtype of itself, of every class that a chain of superclasses and
interfaces leads to, and of `java.lang.Object`. Nothing keeps the declarations
acyclic, so the search notes where it has been.
-/

namespace ComponentViews

/-- What is known of one class. -/
structure ClassDecl where
  name : String
  superclass : Option String := none
  /-- The interfaces the class implements, or the interface extends. -/
  interfaces : List String := []
  isInterface : Bool := false
deriving DecidableEq, Repr

namespace ClassDecl

/-- The classes directly above. -/
def parents (c : ClassDecl) : List String := c.superclass.toList ++ c.interfaces

/-- A class below `superclass`. -/
def extending (name superclass : String) (interfaces : List String := []) : ClassDecl where
  name := name
  superclass := some superclass
  interfaces := interfaces

/-- An interface below `interfaces`. -/
def interface (name : String) (interfaces : List String := []) : ClassDecl where
  name := name
  interfaces := interfaces
  isInterface := true

end ClassDecl

/-- The classes known, the latest declaration first. -/
structure Hierarchy where
  classes : List ClassDecl
deriving Repr

namespace Hierarchy

/-- Declares a class, in place of any declaration of its name. -/
def insert (h : Hierarchy) (c : ClassDecl) : Hierarchy := ⟨c :: h.classes⟩

/-- Declares the classes in order. -/
def insertAll (h : Hierarchy) (cs : List ClassDecl) : Hierarchy := cs.foldl insert h

/-- The declaration of a class. -/
def find? (h : Hierarchy) (name : String) : Option ClassDecl :=
  h.classes.find? (·.name == name)

/-- Whether a class of the name is declared. -/
def contains (h : Hierarchy) (name : String) : Bool := (h.find? name).isSome

theorem find?_insert (h : Hierarchy) (c : ClassDecl) (name : String) :
    (h.insert c).find? name = if c.name = name then some c else h.find? name := by
  by_cases hn : c.name = name <;> simp [insert, find?, hn]

/-- Whether the name is declared, as an interface. -/
def isInterface (h : Hierarchy) (name : String) : Bool :=
  match h.find? name with
  | some c => c.isInterface
  | none => false

/-- The classes directly above a name; a class that is not declared has none. -/
def parents (h : Hierarchy) (name : String) : List String :=
  match h.find? name with
  | some c => c.parents
  | none => []

/-! ### Subtypes -/

/-- Whether `sup` lies directly above some class that can be reached from one in
    `work`, going upwards and not through a class in `seen`. -/
def reaches (h : Hierarchy) (sup : String) : (fuel : Nat) → (seen work : List String) → Bool
  | 0, _, _ => false
  | _ + 1, _, [] => false
  | fuel + 1, seen, name :: work =>
    if seen.contains name then h.reaches sup fuel seen work
    else if (h.parents name).contains sup then true
    else h.reaches sup fuel (name :: seen) (h.parents name ++ work)

/-- The steps upwards that the hierarchy declares. -/
def edgeCount (h : Hierarchy) : Nat := h.classes.foldr (fun c n => c.parents.length + n) 0

/-- Whether `sub` is a subtype of `sup`. Each class is expanded once, so the search
    takes no more steps than there are edges, and one for the start. -/
def isSubtype (h : Hierarchy) (sub sup : String) : Bool :=
  sub == sup || sup == Known.object || h.reaches sup (h.edgeCount + 2) [] [sub]

/-- Whether `sub` is a subtype of `sup` and not `sup` itself. -/
def isStrictSubtype (h : Hierarchy) (sub sup : String) : Bool :=
  sub != sup && h.isSubtype sub sup

/-! ### Kinds of class -/

/-- Whether instances of the class can be thrown. -/
def isThrowable (h : Hierarchy) (name : String) : Bool := h.isSubtype name Known.throwable

/-- Whether a failure needs no declaration: runtime exceptions and errors. -/
def isUnchecked (h : Hierarchy) (name : String) : Bool :=
  h.isSubtype name Known.runtimeException || h.isSubtype name Known.error

/-- Whether a failure is one of the remote protocol itself. -/
def isProtocolFailure (h : Hierarchy) (name : String) : Bool :=
  h.isSubtype name Known.remoteException

/-- Whether an interface marks its instances as reached through the remote protocol. -/
def isRemoteInterface (h : Hierarchy) (name : String) : Bool :=
  name != Known.object && h.isSubtype name Known.remote

/-- The chain of superclasses above a name, nearest first, up to the first that
    comes up again. -/
def superclasses (h : Hierarchy) (name : String) : List String :=
  go (h.classes.length + 1) [] (above name)
where
  /-- The superclass of a name. -/
  above (name : String) : Option String := (h.find? name).bind (·.superclass)
  /-- The chain `chain` continued from its next class upwards. -/
  go : Nat → List String → Option String → List String
    | 0, chain, _ => chain
    | _ + 1, chain, none => chain
    | fuel + 1, chain, some next =>
      if chain.contains next then chain else go fuel (chain ++ [next]) (above next)

/-- The hierarchy in which a failure that was not declared is an exception of the
    checked kind. -/
def assumeChecked (h : Hierarchy) (name : String) : Hierarchy :=
  if h.contains name then h else h.insert (.extending name Known.exception)

end Hierarchy

end ComponentViews
