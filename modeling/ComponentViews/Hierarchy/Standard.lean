import ComponentViews.Hierarchy.Basic
import ComponentViews.Ty.Primitive

/-!
# The standard classes

The classes that every request may rely on: those of the language, the component
interfaces, and the remote protocol's.
-/

namespace ComponentViews.Hierarchy

/-- The standard classes. -/
def standardClasses : List ClassDecl :=
  [{ name := Known.object },
    .interface Known.serializable,
    .interface Known.externalizable [Known.serializable],
    .extending Known.string Known.object [Known.serializable],
    .extending Known.throwable Known.object [Known.serializable],
    .extending Known.exception Known.throwable,
    .extending Known.error Known.throwable,
    .extending Known.runtimeException Known.exception,
    .extending "java.lang.IllegalArgumentException" Known.runtimeException,
    .extending "java.lang.IllegalStateException" Known.runtimeException,
    .extending Known.nullPointerException Known.runtimeException,
    .extending Known.classCastException Known.runtimeException,
    .extending Known.indexOutOfBounds Known.runtimeException,
    .extending Known.abstractMethodError Known.error,
    .extending Known.stackOverflowError Known.error,
    .extending Known.noSuchMethodException Known.reflectiveOperationException,
    .extending Known.reflectiveOperationException Known.exception,
    .extending Known.ioException Known.exception,
    .extending Known.remoteException Known.ioException,
    .extending Known.unexpectedException Known.remoteException,
    .extending "java.rmi.NoSuchObjectException" Known.remoteException,
    .extending "java.rmi.AccessException" Known.remoteException,
    .interface Known.remote,
    .interface Known.collection [Known.iterable],
    .interface Known.iterable,
    .interface Known.enumeration,
    .interface Known.future,
    .interface Known.ejbObject [Known.remote],
    .interface Known.ejbHome [Known.remote],
    .interface Known.ejbLocalObject,
    .interface Known.ejbLocalHome,
    .extending Known.ejbException Known.runtimeException,
    .extending Known.createException Known.exception,
    .extending "javax.ejb.DuplicateKeyException" Known.createException,
    .extending Known.finderException Known.exception,
    .extending "javax.ejb.ObjectNotFoundException" Known.finderException,
    .extending Known.removeException Known.exception,
    .extending Known.resourceException Known.exception,
    .extending Known.createFailureException Known.createException,
    .extending Known.systemException Known.runtimeException,
    .extending Known.badOperation Known.systemException,
    .extending Known.marshal Known.systemException,
    .extending Known.unknownException Known.systemException,
    .extending Known.applicationException Known.exception,
    .extending Known.remarshalException Known.exception,
    .interface Known.corbaObject,
    .extending Known.portableInputStream Known.object,
    .extending Known.inputStream Known.portableInputStream,
    .extending Known.portableOutputStream Known.object,
    .extending Known.outputStream Known.portableOutputStream,
    .extending Known.objectImpl Known.object [Known.corbaObject],
    .extending Known.protocolStub Known.objectImpl,
    .extending Known.number Known.object [Known.serializable]] ++
  Primitive.all.map boxDecl
where
  /-- The box class of a primitive type; those of the numeric types are numbers. -/
  boxDecl (p : Primitive) : ClassDecl :=
    match p with
    | .boolean | .char => .extending p.boxClass Known.object [Known.serializable]
    | _ => .extending p.boxClass Known.number [Known.serializable]

/-- The hierarchy of the standard classes. -/
def standard : Hierarchy := ⟨standardClasses⟩

/-- The standard classes and those of `extra`, which replace standard ones of the
    same name. -/
def withClasses (extra : List ClassDecl) : Hierarchy := standard.insertAll extra

end ComponentViews.Hierarchy
