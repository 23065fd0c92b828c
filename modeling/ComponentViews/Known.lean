/-!
# Well-known classes and members

The classes that the rules of component views and the generated code know by
name: the language's own, the component interfaces, the container's, and those
of the remote protocol; then the members that generated units declare.
-/

namespace ComponentViews.Known

/-! ### The language -/

def object := "java.lang.Object"
def string := "java.lang.String"
def classClass := "java.lang.Class"
def voidClass := "java.lang.Void"
def number := "java.lang.Number"
def system := "java.lang.System"
def throwable := "java.lang.Throwable"
def exception := "java.lang.Exception"
def runtimeException := "java.lang.RuntimeException"
def error := "java.lang.Error"
def ioException := "java.io.IOException"
def serializable := "java.io.Serializable"
def externalizable := "java.io.Externalizable"
def remote := "java.rmi.Remote"
def remoteException := "java.rmi.RemoteException"
def unexpectedException := "java.rmi.UnexpectedException"
def collection := "java.util.Collection"
def enumeration := "java.util.Enumeration"
def future := "java.util.concurrent.Future"
def method := "java.lang.reflect.Method"
def iterable := "java.lang.Iterable"
def nullPointerException := "java.lang.NullPointerException"
def classCastException := "java.lang.ClassCastException"
def indexOutOfBounds := "java.lang.ArrayIndexOutOfBoundsException"
def abstractMethodError := "java.lang.AbstractMethodError"
def stackOverflowError := "java.lang.StackOverflowError"
def noSuchMethodException := "java.lang.NoSuchMethodException"
def reflectiveOperationException := "java.lang.ReflectiveOperationException"

/-- The name of every constructor. -/
def constructor := "<init>"

/-! ### Component interfaces and their failures -/

def ejbObject := "javax.ejb.EJBObject"
def ejbLocalObject := "javax.ejb.EJBLocalObject"
def ejbHome := "javax.ejb.EJBHome"
def ejbLocalHome := "javax.ejb.EJBLocalHome"
def ejbException := "javax.ejb.EJBException"
def createException := "javax.ejb.CreateException"
def finderException := "javax.ejb.FinderException"
def removeException := "javax.ejb.RemoveException"
def resourceException := "javax.resource.ResourceException"
def messageEndpoint := "javax.resource.spi.endpoint.MessageEndpoint"
def timer := "javax.ejb.Timer"

/-! ### The container -/

def container := "com.ibm.ejs.container.EJSContainer"
def wrapperBase := "com.ibm.ejs.container.EJSWrapperBase"
def remoteWrapper := "com.ibm.ejs.container.EJSWrapper"
def localWrapper := "com.ibm.ejs.container.EJSLocalWrapper"
def businessLocalWrapper := "com.ibm.ejs.container.BusinessLocalWrapper"
def businessRemoteWrapper := "com.ibm.ejs.container.BusinessRemoteWrapper"
def localBeanWrapper := "com.ibm.ejs.container.LocalBeanWrapper"
def deployedSupport := "com.ibm.ejs.container.EJSDeployedSupport"
def beanContext := "com.ibm.ejs.container.BeanO"
def home := "com.ibm.ejs.container.EJSHome"
def entityBeanContext := "com.ibm.ejs.container.EntityBeanO"
def createFailureException := "com.ibm.ejs.container.CreateFailureException"
def beanId := "com.ibm.ejs.container.BeanId"
def messageEndpointBase := "com.ibm.ws.ejbcontainer.mdb.MessageEndpointBase"

/-! ### The remote protocol -/

def protocolStub := "javax.rmi.CORBA.Stub"
def protocolTie := "javax.rmi.CORBA.Tie"
def protocolUtil := "javax.rmi.CORBA.Util"
def portableRemoteObject := "javax.rmi.PortableRemoteObject"
def objectImpl := "org.omg.CORBA_2_3.portable.ObjectImpl"
def inputStream := "org.omg.CORBA_2_3.portable.InputStream"
def outputStream := "org.omg.CORBA_2_3.portable.OutputStream"
def portableInputStream := "org.omg.CORBA.portable.InputStream"
def portableOutputStream := "org.omg.CORBA.portable.OutputStream"
def responseHandler := "org.omg.CORBA.portable.ResponseHandler"
def applicationException := "org.omg.CORBA.portable.ApplicationException"
def remarshalException := "org.omg.CORBA.portable.RemarshalException"
def servantObject := "org.omg.CORBA.portable.ServantObject"
def systemException := "org.omg.CORBA.SystemException"
def badOperation := "org.omg.CORBA.BAD_OPERATION"
def marshal := "org.omg.CORBA.MARSHAL"
def unknownException := "org.omg.CORBA.portable.UnknownException"
def corbaObject := "org.omg.CORBA.Object"
def orb := "org.omg.CORBA.ORB"

/-! ### Members of generated units -/

def wrapperBaseField := "ivWrapperBase"
def managedContextField := "ivBeanO"
def endpointBaseField := "ivMessageEndpointBase"
def containerField := "container"
def deployedSupportField := "ivEJSDeployedSupport"
def tieTargetField := "target"

/-- What a caller is told who reaches a method of the bean class that is not public. -/
def nonPublicMethodMessage :=
  "Only public methods of the bean class may be invoked through the no-interface view"

/-- The ending of the factory implementation's methods that a local home reaches. -/
def localSuffix := "_Local"

end ComponentViews.Known
