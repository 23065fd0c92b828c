/-!
# Violations

The rules that a request can break, and how a violation is reported. Nothing is
generated for a request that breaks one.
-/

namespace ComponentViews

/-- What is wrong with a request. Kinds, operations and types stand as they are
    reported. -/
inductive Violation where
  | missingInterface (kind : String)
  | missingSuperInterface (interface required : String)
  | forbiddenSuperInterface (interface parent : String)
  | remoteLocalInterface (interface : String)
  | aggregateNotAllowed (kind : String) (count : Nat)
  | missingBeanMethod (op : String)
  | reservedName (op : String)
  | finalMethod (op : String)
  | protocolFailureOnNoInterface (op : String)
  | asyncResult (op : String)
  | unsupportedHome (componentType : String)
  | invalidHomeOperation (op problem : String)
  | missingBoundMethod (op required : String)
deriving DecidableEq, Repr

namespace Violation

/-- The rule that is broken. -/
def rule : Violation → String
  | missingInterface _ | missingSuperInterface _ _ | forbiddenSuperInterface _ _
  | remoteLocalInterface _ => "interface"
  | aggregateNotAllowed _ _ => "aggregate"
  | missingBeanMethod _ => "implementation-method"
  | reservedName _ => "ejb-prefix"
  | finalMethod _ | protocolFailureOnNoInterface _ => "no-interface"
  | asyncResult _ => "asynchronous"
  | unsupportedHome _ | invalidHomeOperation _ _ | missingBoundMethod _ _ => "factory"

/-- The text that is reported for a violation. -/
def message : Violation → String
  | missingInterface kind => s!"{kind} view requires at least one interface"
  | missingSuperInterface interface required => s!"interface {interface} must extend {required}"
  | forbiddenSuperInterface interface parent =>
    s!"business interface {interface} must not extend {parent}"
  | remoteLocalInterface interface =>
    s!"local business interface {interface} must not extend java.rmi.Remote"
  | aggregateNotAllowed kind count => s!"{kind} view cannot aggregate {count} interfaces"
  | missingBeanMethod op => s!"method {op} is not implemented by the bean class"
  | reservedName op => s!"method {op} must not start with 'ejb'"
  | finalMethod op => s!"method {op} of a no-interface view must not be final"
  | protocolFailureOnNoInterface op =>
    s!"public method {op} of a no-interface view must not declare java.rmi.RemoteException"
  | asyncResult op =>
    s!"asynchronous method {op} must return void or java.util.concurrent.Future"
  | unsupportedHome componentType => s!"{componentType} components cannot have a home interface"
  | invalidHomeOperation op problem => s!"home method {op}: {problem}"
  | missingBoundMethod op required => s!"home method {op} requires {required} on the bean class"

end Violation

end ComponentViews
