import ComponentViews.Request.Basic
import ComponentViews.Text.Affix
import ComponentViews.Text.Case

/-!
# Operations of a home

What an operation of a home does is told by its name: it creates, finds by primary
key, finds otherwise, or does the home's own business. The bean class has a method
for each, whose name is made from it.
-/

namespace ComponentViews

/-- What an operation of a home does. -/
inductive HomeOperation where
  | create
  | findByPrimaryKey
  | find
  | business
deriving DecidableEq, Repr

namespace HomeOperation

/-- What the operation of a name does. -/
def ofName (name : String) : HomeOperation :=
  if name = "findByPrimaryKey" then findByPrimaryKey
  else if Text.startsWith "create" name then create
  else if Text.startsWith "find" name then find
  else business

/-- What an operation's name adds to `create` or `find`; any other name counts as a
    whole, capitalised. -/
def suffix (name : String) : String :=
  ((Text.dropStart? "create" name).or (Text.dropStart? "find" name)).getD (Text.capitalize name)

/-- The bean method behind an operation of an entity's home. -/
def entityMethod (name : String) : String :=
  match ofName name with
  | create => "ejbCreate" ++ suffix name
  | findByPrimaryKey | find => "ejb" ++ Text.capitalize name
  | business => "ejbHome" ++ suffix name

/-- The bean method that runs after an entity has been created. -/
def postCreateMethod (name : String) : String := "ejbPostCreate" ++ suffix name

end HomeOperation

/-- The bean method that finishes the construction for a creating operation. -/
def Request.initMethod (r : Request) (op : Operation) : String :=
  let bound (key : String) := r.factory.bind (·.initMethods.get? key)
  ((bound op.signatureKey).or (bound op.name)).getD ("ejbCreate" ++ HomeOperation.suffix op.name)

end ComponentViews
