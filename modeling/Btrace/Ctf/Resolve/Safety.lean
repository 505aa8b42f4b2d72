import Btrace.Ctf.Resolve.Run

set_option autoImplicit false

/- No run of the resolver reaches a failed assertion or an abort: every error
it returns is the -1 of a reference it could not resolve. A failed call is the
failed lookup of one node, and a lookup from the context at its node never
aborts (`resolveSequenceOrVariantTarget_ne_aborted`). -/
namespace Btrace.Ctf

open CtfFieldClass CtfTraceClass

theorem runRootCall_ne_aborted (tc : CtfTraceClass) (call : RootCall) : runRootCall tc call ≠ .error .aborted := by
  unfold runRootCall
  split
  · exact nofun
  · rename_i rootRef scope
    split
    · exact nofun
    · rename_i rootFc root
      intro aborted
      obtain ⟨rel, node, reached, steps, kind, failedAt⟩ :=
        resolveTargets_error _ [] rootFc _ (except_map_eq_error.mp aborted)
      exact resolveSequenceOrVariantTarget_ne_aborted ⟨scope, root, reached, steps, rfl⟩ kind failedAt

theorem runRootCalls_ne_aborted : ∀ (calls : List RootCall) (tc : CtfTraceClass),
    runRootCalls tc calls ≠ .error .aborted
  | [], _ => nofun
  | call :: calls, tc => by
      rw [runRootCalls_cons]
      cases called : runRootCall tc call with
      | error e =>
          rintro ⟨⟩
          exact runRootCall_ne_aborted tc call called
      | ok tc' => exact runRootCalls_ne_aborted calls tc'

/-- `ctf_trace_class_resolve_field_classes` never aborts, whatever the trace
class and its references. -/
theorem ctfTraceClassResolveFieldClasses_ne_aborted (tc : CtfTraceClass) :
    (ctfTraceClassResolveFieldClasses tc).1 ≠ .error .aborted := by
  rw [ctfTraceClassResolveFieldClasses_fst]
  cases folded : runRootCalls tc (rootCalls tc) with
  | ok _ => exact nofun
  | error e =>
      rintro ⟨⟩
      exact runRootCalls_ne_aborted _ tc folded

end Btrace.Ctf
