import ComponentViews.Failures
import ComponentViews.Ty.Json

/-!
# Sorted failures as JSON
-/

namespace ComponentViews

/-- The classification of failures with all its fields. -/
def Failures.toJson (f : Failures) : Json :=
  .ofEntries
    [("system_unchecked", .bool f.systemUnchecked), ("protocol_native", .bool f.protocolNative),
      ("application_checked", Ty.listJson f.application),
      ("declared_protocol_native", Ty.listJson f.declaredProtocol)]

end ComponentViews
