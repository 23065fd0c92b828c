import ComponentViews.Proofs.Execution.Skeleton
import ComponentViews.Proofs.Failures.Handling

/-!
# Failures that a skeleton replies

A handler of a skeleton has handlers for the failures of the application only: nothing stands
before them for the failures that nobody need declare, even where the classification asks for
it. So where a broad type is declared, such a failure is replied as if it had been declared,
and does not leave the handler for the skeleton to pass on:

* a runtime failure exactly where the classification asks for a handler for runtime failures
  (`repliesIff_runtime`), and a protocol failure exactly where it asks for one for those
  (`repliesIff_protocol`);
* an error exactly where `java.lang.Throwable` is declared (`repliesIff_error`).

In all other cases the failure leaves the handler as it is.
-/

namespace ComponentViews.Skeleton

open Effect Loopback Activation Marshalling

/-- A failure leaves a handler as it is, unless it is replied as one of those declared; and it
    is replied exactly if `asked`. -/
def RepliedIff (asked : Prop) (h : Hierarchy) (declared : List Ty) (thrown : ObjectRef)
    (l : Loopback) (answer : Except ObjectRef Value × Loopback) : Prop :=
  (¬ asked → answer = (.error thrown, l)) ∧
    (asked → ∃ failure ∈ declared, h.isSubtype thrown.className failure.name = true ∧
      answer = send h failure (.object thrown) [.string (Idl.repositoryId failure)]
        { l with failureReplies := (l.heap.lastId + 1) :: l.failureReplies })

theorem repliedIff_replyFailure {asked : Prop} {h : Hierarchy} {declared : List Ty}
    {thrown : ObjectRef}
    (hasked : (∃ ty ∈ declared, h.isSubtype thrown.className ty.name = true) ↔ asked)
    (l : Loopback) :
    RepliedIff asked h declared thrown l (replyFailure h declared thrown l) := by
  rw [replyFailure]
  cases hfind : declared? h declared thrown with
  | none =>
    have hnone : ¬ asked := by
      rw [← hasked]
      simpa [declared?] using hfind
    exact ⟨fun _ => rfl, fun h => absurd h hnone⟩
  | some failure =>
    have hmem := List.mem_of_find?_eq_some hfind
    have htaken := List.find?_some hfind
    exact ⟨fun h => absurd (hasked.1 ⟨failure, hmem, htaken⟩) h,
      fun _ => ⟨failure, hmem, htaken, rfl⟩⟩

section

variable {link : Link} {tie : ObjectRef} {l : Loopback} {unit target : String} {m : Served}
  {args : List Value} {j p : Nat} {rest : List (Nat × List Value)} {policy : FailurePolicy}
  {style : Bool} {asked : Prop}

/-- The handler of an operation replies the failures of the servant below `root` as declared
    ones exactly if `asked`, and otherwise ends with them. -/
def RepliesIff (asked : Prop) (root : String) (link : Link) (tie : ObjectRef)
    (unit target : String) (m : Served) (args : List Value) (j p : Nat)
    (rest : List (Nat × List Value)) (l : Loopback) : Prop :=
  ∀ (ask : Option Value → Effect Loopback Value) (b : Blueprint) (depth : Nat),
    ∃ w, Ready target j rest l w ∧ ∀ thrown w',
      served link m.operation.exposed.op.name args w = (.error thrown, w') →
      link.hierarchy.isSubtype thrown.className root = true →
      RepliedIff asked link.hierarchy m.operation.exposed.failures.application thrown w'
        (exec (b.runMethod (environmentWith link ask) tie (depth + 1)
          (handler link.hierarchy unit target m)
          [.object ⟨j, Known.inputStream⟩, .object ⟨p, Known.responseHandler⟩]) l)

/-- The types of the application's failures decide. -/
theorem repliesIff_of_application {root : String}
    (hl : Asked link tie unit target m j p args rest l)
    (hasked : ∀ name, link.hierarchy.isSubtype name root = true →
      ((∃ ty ∈ m.operation.exposed.failures.application,
        link.hierarchy.isSubtype name ty.name = true) ↔ asked)) :
    RepliesIff asked root link tie unit target m args j p rest l := by
  intro ask b depth
  obtain ⟨w, hready, hrun⟩ := exec_runHandler ask b depth hl
  refine ⟨w, hready, fun thrown w' hserved hroot => ?_⟩
  rw [hrun, handled, hserved]
  exact repliedIff_replyFailure (hasked _ hroot) w'

variable (hk : link.hierarchy.KeepsStandard) (hclasses : link.hierarchy.FailuresAreClasses)
  (hdeclared : ∀ ty ∈ m.operation.exposed.op.throws, link.hierarchy.isThrowable ty.name = true)
  (hl : Asked link tie unit target m j p args rest l)

include hk hclasses hdeclared hl

/-- Runtime failures are replied where the classification asks for a handler for them. -/
theorem repliesIff_runtime (hsystem : policy.uncheckedAreSystem = true)
    (hfailures : m.operation.exposed.failures =
      link.hierarchy.classify policy m.operation.exposed.op.throws style) :
    RepliesIff (m.operation.exposed.failures.systemUnchecked = true) Known.runtimeException link
      tie unit target m args j p rest l := by
  refine repliesIff_of_application hl fun name hname => ?_
  rw [hfailures]
  exact Hierarchy.exists_application_runtime_iff hk hclasses hdeclared hsystem hname

/-- Protocol failures are replied where the classification asks for a handler for them. -/
theorem repliesIff_protocol (hremote : policy.remoteAreApplication = false)
    (hfailures : m.operation.exposed.failures =
      link.hierarchy.classify policy m.operation.exposed.op.throws true) :
    RepliesIff (m.operation.exposed.failures.protocolNative = true) Known.remoteException link
      tie unit target m args j p rest l := by
  refine repliesIff_of_application hl fun name hname => ?_
  rw [hfailures]
  exact Hierarchy.exists_application_protocol_iff hk hclasses hdeclared hremote hname

/-- Errors are replied where `java.lang.Throwable` is declared. -/
theorem repliesIff_error
    (hfailures : m.operation.exposed.failures =
      link.hierarchy.classify policy m.operation.exposed.op.throws style) :
    RepliesIff (∃ ty ∈ m.operation.exposed.op.throws, ty.name = Known.throwable) Known.error link
      tie unit target m args j p rest l := by
  refine repliesIff_of_application hl fun name hname => ?_
  rw [hfailures]
  have hthrowable : (∃ ty ∈ (link.hierarchy.classify policy m.operation.exposed.op.throws
      style).application, ty.name = Known.throwable) ↔ _ :=
    Hierarchy.exists_application_throwable_iff hk
  refine Iff.trans (exists_congr fun ty => and_congr_right fun hty => ?_) hthrowable
  exact Hierarchy.isSubtype_error_iff hk hclasses hdeclared hname hty

end

end ComponentViews.Skeleton
