import Btrace.Ctf.Locality

set_option autoImplicit false

/- The resolver against a statement of what it is for. `ResolvesTo tc tc'` says,
without running anything, what `tc` looks like once resolved: only stored
targets change, the roots the driver does not resolve are kept, and every
sequence and variant of a root it resolves stores the target the reference
rules give in the node's own layers. A run returns 0 and leaves `tc'` exactly
when `ResolvesTo tc tc'` (`ctfTraceClassResolveFieldClasses_eq_ok_iff_resolvesTo`).
One way, each root holds what its last call rebuilt, and the rebuild stores what
the lookups find (`found_of_rebuilt`). The other way, a root whose nodes
already store what the lookups find is its own rebuild (`resolveTargets_of_stores`),
so every call writes the root `tc'` holds (`runRootCall_of_resolvesTo`). -/
namespace Btrace.Ctf

open CtfFieldClass CtfTraceClass

/-- The conditions of the absolute rule, read in the layers of the root `rootRef`. -/
def LayerAvailable (tc : CtfTraceClass) (rootRef : RootClassRef) (pathstr : String) (target : CtfFieldPath) : Prop :=
  ∀ scope, getRootScopeFromAbsolutePathstr pathstr = some scope →
    layerAvailable tc rootRef scope = true ∧ FirstNamedWithin int64Max target.path

/-- What resolving `tc` gives, stated without the resolver. `tc'` differs from
`tc` only in stored targets, and the roots the driver does not resolve are kept
as they are. In every root it resolves, each sequence and variant, at a
position that takes -1 at every array or sequence, stores a target with three
properties: the reference rules find it in the node's own trace, stream and
event class; it passes every check of `validate_target_field_path`; and, for an
absolute reference, it names an available layer within the bound. -/
structure ResolvesTo (tc tc' : CtfTraceClass) : Prop where
  erased : tc'.eraseTargets = tc.eraseTargets
  kept : ∀ r, tc.resolvesRoot r = false → tc'.rootClass r = tc.rootClass r
  found : ∀ r, tc.resolvesRoot r = true → ∀ rootFc, tc'.rootClass r = some rootFc →
    ∀ pos node, rootFc.borrowFieldClassByPath pos = some node → ArraySteps rootFc pos →
      node.isSequenceOrVariant = true → ∃ target targetFc, node.Stores target targetFc ∧
        FoundTarget (layerRoots tc r) r.scope rootFc pos node target targetFc ∧
        ∀ pathstr, node.reference = some pathstr → LayerAvailable tc r pathstr target

theorem shape_eraseTargets (tc : CtfTraceClass) : tc.eraseTargets.shape = tc.shape := by
  simp [CtfTraceClass.shape, CtfTraceClass.eraseTargets, CtfTraceClass.mapRoots, CtfStreamClass.mapRoots,
    CtfEventClass.mapRoots, Option.map_map, Function.comp_def]

/-! ## A tree that stores what its lookups find is its own rebuild -/

section Rebuild

variable (target : List Int → CtfFieldClass → Except ResolveError (CtfFieldPath × CtfFieldClass))

mutual
theorem resolveTargets_of_stores :
    ∀ (pos : List Int) (fc : CtfFieldClass),
      (∀ rel node, fc.borrowFieldClassByPath rel = some node → ArraySteps fc rel → node.isSequenceOrVariant = true →
        ∃ found, target (pos ++ rel) node = .ok found ∧ node.Stores found.1 found.2) →
      resolveTargets target pos fc = .ok fc
  | _, .int _, _ | _, .enum _, _ | _, .float, _ | _, .string, _ => rfl
  | pos, .struct members, stored => by
      have rest := resolveTargetsMembers_of_stores pos members 0 fun k name child member rel node reached steps kind => by
        simpa using stored ((k : Int) :: rel) node
          (by simp [borrowFieldClassByPath, compoundBorrowFieldClassByIndex, member, reached])
          (fun child' found => by
            simp only [borrowMember_natCast, member, Option.map_some', Option.some.injEq] at found
            exact found ▸ steps) kind
      simp only [resolveTargets, rest]
      rfl
  | pos, .variant tagRef tagPath tagFc options, stored => by
      obtain ⟨found, atNode, rfl, rfl⟩ := stored [] _ rfl (arraySteps_nil _) rfl
      have rest := resolveTargetsMembers_of_stores pos options 0 fun k name child member rel node reached steps kind => by
        simpa using stored ((k : Int) :: rel) node
          (by simp [borrowFieldClassByPath, compoundBorrowFieldClassByIndex, member, reached])
          (fun child' found => by
            simp only [borrowMember_natCast, member, Option.map_some', Option.some.injEq] at found
            exact found ▸ steps) kind
      rw [List.append_nil] at atNode
      simp only [resolveTargets, bind, Except.bind, atNode, rest]
      rfl
  | pos, .array elemFc isText, stored => by
      have elem := resolveTargets_of_stores (pos ++ [-1]) elemFc fun rel node reached steps kind => by
        simpa using stored (-1 :: rel) node reached ⟨rfl, steps⟩ kind
      simp only [resolveTargets, elem]
      rfl
  | pos, .sequence elemFc isText lengthRef lengthPath lengthFc, stored => by
      obtain ⟨found, atNode, rfl, rfl⟩ := stored [] _ rfl (arraySteps_nil _) rfl
      have elem := resolveTargets_of_stores (pos ++ [-1]) elemFc fun rel node reached steps kind => by
        simpa using stored (-1 :: rel) node reached ⟨rfl, steps⟩ kind
      rw [List.append_nil] at atNode
      simp only [resolveTargets, bind, Except.bind, atNode, elem]
      rfl
termination_by structural _ fc => fc

theorem resolveTargetsMembers_of_stores :
    ∀ (pos : List Int) (members : List (String × CtfFieldClass)) (index : Nat),
      (∀ (k : Nat) (name : String) (child : CtfFieldClass), members[k]? = some (name, child) →
        ∀ rel node, child.borrowFieldClassByPath rel = some node → ArraySteps child rel →
          node.isSequenceOrVariant = true →
            ∃ found, target (pos ++ ((index + k : Nat) : Int) :: rel) node = .ok found ∧ node.Stores found.1 found.2) →
      resolveTargetsMembers target pos members index = .ok members
  | _, [], _, _ => rfl
  | pos, (name, child) :: members, index, stored => by
      have head := resolveTargets_of_stores (pos ++ [(index : Int)]) child fun rel node reached steps kind => by
        simpa using stored 0 name child (by simp) rel node reached steps kind
      have rest := resolveTargetsMembers_of_stores pos members (index + 1)
        fun k name' child' member rel node reached steps kind => by
          simpa [Nat.add_assoc, Nat.add_comm 1 k] using
            stored (k + 1) name' child' (by simpa using member) rel node reached steps kind
      simp only [resolveTargetsMembers, bind, Except.bind, head, rest]
      rfl
termination_by structural _ members => members
end

end Rebuild

/-! ## One call against the statement -/

section Call

variable {tc tcm : CtfTraceClass} {c : RootCall} (member : c ∈ rootCalls tc) {r : RootClassRef}
  (scope : c.scopes.get c.rootScope = some r) (same : tcm.eraseTargets = tc.eraseTargets)
include member scope same

/-- A call of the driver, run on a trace class alike to the one the driver got,
reads for an absolute reference the flags of its root's own layers. -/
theorem absoluteAvailable_iff_layerAvailable {rootOf : CtfScope → Option CtfFieldClass} {rootFc : CtfFieldClass}
    {pos : List Int} {node : CtfFieldClass} {target : CtfFieldPath} {targetFc : CtfFieldClass}
    (facts : FoundTarget rootOf c.rootScope rootFc pos node target targetFc) {pathstr : String}
    (reference : node.reference = some pathstr) :
    AbsoluteAvailable (c.context tcm) pathstr target ↔ LayerAvailable tc r pathstr target := by
  refine forall_congr' fun scope' => forall_congr' fun absolute => ?_
  rw [absoluteRootAvailable_context c (isTranslated_of_eraseTargets_eq same),
    rootCalls_available tc c member r scope scope' (facts.absolute_le reference absolute)]

/-- Each node a call of the driver rebuilds stores a target as `ResolvesTo` asks. -/
theorem found_of_rebuilt {rootFc rootFc' : CtfFieldClass} (root : tcm.rootClass r = some rootFc)
    (rebuilt : resolveTargets (nodeTarget (c.context tcm) rootFc) [] rootFc = .ok rootFc') {pos : List Int}
    {node : CtfFieldClass} (reached : rootFc'.borrowFieldClassByPath pos = some node) (steps : ArraySteps rootFc' pos)
    (kind : node.isSequenceOrVariant = true) :
    ∃ target targetFc, node.Stores target targetFc ∧
      FoundTarget (layerRoots tc r) r.scope rootFc' pos node target targetFc ∧
      ∀ pathstr, node.reference = some pathstr → LayerAvailable tc r pathstr target := by
  have wellScoped := rootCalls_wellScoped tc c member
  have rootScope : r.scope = c.rootScope := (wellScoped r scope).1
  have sameRoot := eraseTargets_resolveTargets _ [] rootFc rootFc' rebuilt
  obtain ⟨input, reachedInput, sameNode⟩ := borrowFieldClassByPath_congr sameRoot reached
  have stepsInput : ArraySteps rootFc pos := by rwa [← arraySteps_eraseTargets, ← sameRoot, arraySteps_eraseTargets]
  have kindInput : input.isSequenceOrVariant = true := by
    rwa [← isSequenceOrVariant_eraseTargets, ← sameNode, isSequenceOrVariant_eraseTargets]
  obtain ⟨⟨target, targetFc⟩, node', looked, reached', stores⟩ :=
    resolveTargets_stores _ [] rootFc rootFc' rebuilt pos input reachedInput stepsInput kindInput
  rw [reached, Option.some.injEq] at reached'
  subst reached'
  rw [List.nil_append] at looked
  obtain ⟨facts, available⟩ := (nodeTarget_eq_ok_iff wellScoped scope root reachedInput stepsInput).1 looked
  have reference : input.reference = node.reference := by
    rw [← reference_eraseTargets, ← sameNode, reference_eraseTargets]
  refine ⟨target, targetFc, stores, ?_, fun pathstr named => ?_⟩
  · rw [rootScope]
    exact facts.transfer (fun scope' _ => layerRoots_alike same r scope') sameRoot.symm sameNode.symm
  · exact (absoluteAvailable_iff_layerAvailable member scope same facts (reference.trans named)).1
      (available pathstr (reference.trans named))

/-- A call of the driver, run on a trace class alike to the one the driver got,
writes at its root the class `ResolvesTo` gives there. -/
theorem runRootCall_of_resolvesTo {tc' : CtfTraceClass} (spec : ResolvesTo tc tc') :
    ∃ tcm', runRootCall tcm c = .ok tcm' ∧ tcm'.rootClass r = tc'.rootClass r := by
  have wellScoped := rootCalls_wellScoped tc c member
  have rootScope : r.scope = c.rootScope := (wellScoped r scope).1
  have resolved : tc.resolvesRoot r = true := (callRoots_rootCalls_iff tc r).1 ⟨c, member, scope⟩
  have roots : (tc'.rootClass r).map CtfFieldClass.eraseTargets = (tcm.rootClass r).map CtfFieldClass.eraseTargets := by
    rw [← rootClass_eraseTargets, ← rootClass_eraseTargets, spec.erased, same]
  simp only [runRootCall, scope]
  cases root : tcm.rootClass r with
  | none =>
      have absent : tc'.rootClass r = none := by simpa [root] using roots
      exact ⟨tcm, rfl, root.trans absent.symm⟩
  | some rootFc =>
      rw [root, Option.map_some'] at roots
      obtain ⟨rootFc', root', sameRoot⟩ := Option.map_eq_some'.mp roots
      have invariant := nodeTarget_eraseTargets (c.context tcm) rootFc
      have fixed : resolveTargets (nodeTarget (c.context tcm) rootFc) [] rootFc' = .ok rootFc' :=
        resolveTargets_of_stores _ [] rootFc' fun pos node reached steps kind => by
          obtain ⟨target, targetFc, stores, facts, available⟩ :=
            spec.found r resolved rootFc' root' pos node reached steps kind
          obtain ⟨input, reachedInput, sameNode⟩ := borrowFieldClassByPath_congr sameRoot reached
          have stepsInput : ArraySteps rootFc pos := by
            rwa [← arraySteps_eraseTargets, ← sameRoot, arraySteps_eraseTargets]
          have facts' : FoundTarget (layerRoots tcm r) c.rootScope rootFc pos input target targetFc := by
            rw [← rootScope]
            exact facts.transfer (fun scope' _ => (layerRoots_alike same r scope').symm) sameRoot sameNode
          have reference : input.reference = node.reference := by
            rw [← reference_eraseTargets, ← sameNode, reference_eraseTargets]
          refine ⟨(target, targetFc), ?_, stores⟩
          rw [List.nil_append, ← invariant pos node, sameNode, invariant]
          exact (nodeTarget_eq_ok_iff wellScoped scope root reachedInput stepsInput).2
            ⟨facts', fun pathstr named => (absoluteAvailable_iff_layerAvailable member scope same facts' named).2
              (available pathstr (reference.symm.trans named))⟩
      refine ⟨tcm.modifyRootClass (fun _ => rootFc') r, ?_, by rw [rootClass_modifyRootClass_self, root, root']; rfl⟩
      dsimp only
      rw [← resolveTargets_eraseTargets_input _ invariant, ← sameRoot, resolveTargets_eraseTargets_input _ invariant,
        fixed]
      rfl

end Call

/-! ## The driver refines the statement -/

/-- `ctf_trace_class_resolve_field_classes` returns 0 and leaves `tc'` exactly
when `tc'` is what `ResolvesTo` says resolving `tc` gives. The statement does not
mention the traversal, the stack or the order of the calls. In particular, a
trace class has at most one resolved form, and the run finds it whenever it
exists. -/
theorem ctfTraceClassResolveFieldClasses_eq_ok_iff_resolvesTo (tc tc' : CtfTraceClass) :
    ctfTraceClassResolveFieldClasses tc = (.ok (), tc') ↔ ResolvesTo tc tc' := by
  constructor
  · intro ran
    have folded := runRootCalls_of_resolveFieldClasses ran
    refine ⟨runRootCalls_eraseTargets _ _ _ folded, fun r unresolved => ?_,
      fun r resolved rootFc' root' pos node reached steps kind => ?_⟩
    · refine runRootCalls_rootClass_of_not_callRoots _ tc tc' folded fun called => ?_
      rw [(callRoots_rootCalls_iff tc r).1 called] at unresolved
      cases unresolved
    · obtain ⟨c, member, tcm, tcm', scope, same, run, kept⟩ :=
        runRootCalls_rootClass_last _ tc tc' folded ((callRoots_rootCalls_iff tc r).2 resolved)
      rw [kept] at root'
      simp only [runRootCall, scope] at run
      cases root : tcm.rootClass r with
      | none =>
          simp only [root, Except.ok.injEq] at run
          subst run
          rw [root] at root'
          cases root'
      | some rootFc =>
          simp only [root] at run
          obtain ⟨rootFc'', rebuilt, rfl⟩ := except_map_eq_ok.mp run
          rw [rootClass_modifyRootClass_self, root, Option.map_some', Option.some.injEq] at root'
          subst root'
          exact found_of_rebuilt member scope same root rebuilt reached steps kind
  · intro spec
    have runs : ∀ c ∈ rootCalls tc, ∃ tc1, runRootCall tc c = .ok tc1 := fun c member => by
      cases scope : c.scopes.get c.rootScope with
      | none => exact ⟨tc, by simp [runRootCall, scope]⟩
      | some r =>
          obtain ⟨tc1, ran, -⟩ := runRootCall_of_resolvesTo member scope rfl spec
          exact ⟨tc1, ran⟩
    obtain ⟨tc'', folded⟩ := (runRootCalls_ok_iff _ tc).2 fun c member => (runRootCall_ok_iff tc c).1 (runs c member)
    rw [ctfTraceClassResolveFieldClasses_of_ok folded, Prod.mk.injEq]
    refine ⟨rfl, ext_rootClass ?_ fun r => ?_⟩
    · rw [← shape_eraseTargets, runRootCalls_eraseTargets _ _ _ folded, ← spec.erased, shape_eraseTargets]
    · cases resolved : tc.resolvesRoot r
      · rw [spec.kept r resolved]
        refine runRootCalls_rootClass_of_not_callRoots _ tc tc'' folded fun called => ?_
        rw [(callRoots_rootCalls_iff tc r).1 called] at resolved
        cases resolved
      · obtain ⟨c, member, tcm, tcm', scope, same, run, kept⟩ :=
          runRootCalls_rootClass_last _ tc tc'' folded ((callRoots_rootCalls_iff tc r).2 resolved)
        obtain ⟨tcm'', run', written⟩ := runRootCall_of_resolvesTo member scope same spec
        rw [run, Except.ok.injEq] at run'
        rw [kept, run', written]

end Btrace.Ctf
