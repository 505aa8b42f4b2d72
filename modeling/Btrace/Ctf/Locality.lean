import Btrace.Ctf.PassOrder
import Btrace.Ctf.Resolve.Writes

set_option autoImplicit false

/- What a resolved root depends on. A lookup reads the root classes of the
scopes up to its own and the translated flags of their layers
(`nodeTarget_eq_ok_iff`), and a well-scoped call reads those in the trace,
stream and event class of the root it resolves. So the class a successful run
leaves at a root it resolves is fixed by that root's own layers: the last call
resolving it writes it (`runRootCalls_rootClass_last`), and two such calls, in
one run or in two, write the same class (`runRootCall_rootClass_local`). -/
namespace Btrace.Ctf

open CtfFieldClass CtfTraceClass

/-- The translated-layer preconditions of `absolute_ptokens_to_field_path`, read
in the trace, stream and event class of the root `rootRef`. -/
def layerAvailable (tc : CtfTraceClass) (rootRef : RootClassRef) : CtfScope → Bool
  | .packetHeader => !tc.isTranslated
  | .packetContext | .eventHeader | .eventCommonContext =>
      (rootRef.streamIndex.bind fun sc => tc.streamClasses[sc]?).any (!·.isTranslated)
  | .eventSpecificContext | .eventPayload =>
      (rootRef.eventIndex.bind fun (sc, ec) => tc.eventClass sc ec).any (!·.isTranslated)

/-- The translated flags a call reads for the scopes up to its own are those of
the layers of the root it resolves. -/
def RootCall.Available (call : RootCall) (tc : CtfTraceClass) : Prop :=
  ∀ rootRef, call.scopes.get call.rootScope = some rootRef → ∀ scope, scope.toNat ≤ call.rootScope.toNat →
    absoluteRootAvailable (call.context tc) scope = layerAvailable tc rootRef scope

/-! ## The driver's calls read their own layers' flags -/

theorem eventClassCalls_available (tc : CtfTraceClass) {sc : CtfStreamClass} {scIndex ecIndex : Nat}
    {ec : CtfEventClass} (stream : tc.streamClasses[scIndex]? = some sc) (event : sc.eventClasses[ecIndex]? = some ec) :
    ∀ call ∈ eventClassCalls sc scIndex ecIndex ec, call.Available tc := by
  unfold eventClassCalls
  split
  · simp only [List.mem_cons, List.not_mem_nil, or_false]
    rintro call (rfl | rfl) rootRef found scope below <;>
      simp only [ResolveScopes.get, streamScopes, traceScopes, Option.some.injEq] at found <;> subst found <;>
      cases scope <;>
      simp_all [CtfScope.toNat, absoluteRootAvailable, layerAvailable, RootCall.context, ResolveContext.idle,
        RootClassRef.streamIndex, RootClassRef.eventIndex, CtfTraceClass.eventClass]
  · simp

theorem eventClassesCalls_available (tc : CtfTraceClass) {sc : CtfStreamClass} {scIndex : Nat}
    (stream : tc.streamClasses[scIndex]? = some sc) :
    ∀ (ecs : List CtfEventClass) (ecIndex : Nat), (∀ k, sc.eventClasses[ecIndex + k]? = ecs[k]?) →
      ∀ call ∈ eventClassesCalls sc scIndex ecs ecIndex, call.Available tc
  | [], _, _ => by simp [eventClassesCalls]
  | ec :: ecs, ecIndex, events => by
      intro call member
      simp only [eventClassesCalls, List.mem_append] at member
      rcases member with member | member
      · exact eventClassCalls_available tc stream (by simpa using events 0) call member
      · refine eventClassesCalls_available tc stream ecs (ecIndex + 1) (fun k => ?_) call member
        simpa [Nat.add_right_comm, Nat.add_assoc] using events (k + 1)

theorem streamClassCalls_available (tc : CtfTraceClass) {scIndex : Nat} {sc : CtfStreamClass}
    (stream : tc.streamClasses[scIndex]? = some sc) : ∀ call ∈ streamClassCalls scIndex sc, call.Available tc := by
  intro call member
  simp only [streamClassCalls, List.mem_append] at member
  rcases member with member | member
  · split at member
    · simp only [List.mem_cons, List.not_mem_nil, or_false] at member
      rcases member with rfl | rfl | rfl <;> intro rootRef found scope below <;>
        simp only [ResolveScopes.get, streamScopes, traceScopes, Option.some.injEq] at found <;> subst found <;>
        cases scope <;>
        simp_all [CtfScope.toNat, absoluteRootAvailable, layerAvailable, RootCall.context, ResolveContext.idle,
          RootClassRef.streamIndex]
    · simp at member
  · exact eventClassesCalls_available tc stream _ 0 (by simp) call member

theorem streamClassesCalls_available (tc : CtfTraceClass) :
    ∀ (scs : List CtfStreamClass) (scIndex : Nat), (∀ k, tc.streamClasses[scIndex + k]? = scs[k]?) →
      ∀ call ∈ streamClassesCalls scs scIndex, call.Available tc
  | [], _, _ => by simp [streamClassesCalls]
  | sc :: scs, scIndex, streams => by
      intro call member
      simp only [streamClassesCalls, List.mem_append] at member
      rcases member with member | member
      · exact streamClassCalls_available tc (by simpa using streams 0) call member
      · refine streamClassesCalls_available tc scs (scIndex + 1) (fun k => ?_) call member
        simpa [Nat.add_right_comm, Nat.add_assoc] using streams (k + 1)

/-- Every call the driver makes reads the translated flags of its own root's layers. -/
theorem rootCalls_available (tc : CtfTraceClass) : ∀ call ∈ rootCalls tc, call.Available tc := by
  intro call member
  simp only [rootCalls, List.mem_append] at member
  rcases member with member | member
  · split at member
    · simp only [List.mem_singleton] at member
      subst member
      intro rootRef found scope below
      simp only [ResolveScopes.get, traceScopes, Option.some.injEq] at found
      subst found
      cases scope <;> simp_all [CtfScope.toNat, absoluteRootAvailable, layerAvailable, RootCall.context,
        ResolveContext.idle]
    · simp at member
  · exact streamClassesCalls_available tc _ 0 (by simp) call member

theorem isTranslated_of_eraseTargets_eq {tc tc' : CtfTraceClass} (same : tc.eraseTargets = tc'.eraseTargets) :
    tc.isTranslated = tc'.isTranslated :=
  (congrArg CtfTraceClass.isTranslated same :)

theorem absoluteRootAvailable_context (call : RootCall) {tc tc' : CtfTraceClass}
    (same : tc.isTranslated = tc'.isTranslated) (scope : CtfScope) :
    absoluteRootAvailable (call.context tc) scope = absoluteRootAvailable (call.context tc') scope := by
  cases scope <;> simp [absoluteRootAvailable, RootCall.context, ResolveContext.idle, same]

/-! ## One lookup, one call -/

/-- An absolute reference a found target spells names a scope no later than
the node's own. -/
theorem FoundTarget.absolute_le {rootOf : CtfScope → Option CtfFieldClass} {rootScope : CtfScope}
    {rootFc : CtfFieldClass} {pos : List Int} {fc : CtfFieldClass} {target : CtfFieldPath} {targetFc : CtfFieldClass}
    (facts : FoundTarget rootOf rootScope rootFc pos fc target targetFc) {pathstr : String}
    (reference : fc.reference = some pathstr) {scope : CtfScope}
    (absolute : getRootScopeFromAbsolutePathstr pathstr = some scope) : scope.toNat ≤ rootScope.toNat := by
  obtain ⟨pathstr', reference', ptokens, -, rule⟩ := facts.spells
  rw [reference, Option.some.injEq] at reference'
  subst reference'
  simp only [absolute] at rule
  exact rule.1 ▸ facts.scopeOrder

/-- Two traversals of one tree whose lookups agree at every sequence and
variant they reach rebuild the same tree: the text-array commutation of the
traversal with nothing marked. -/
theorem resolveTargets_congr
    {target target' : List Int → CtfFieldClass → Except ResolveError (CtfFieldPath × CtfFieldClass)}
    {pos : List Int} {fc : CtfFieldClass}
    (agree : ∀ rel node, fc.borrowFieldClassByPath rel = some node → ArraySteps fc rel →
      node.isSequenceOrVariant = true → target' (pos ++ rel) node = target (pos ++ rel) node) :
    resolveTargets target' pos fc = resolveTargets target pos fc := by
  simpa using resolveTargets_markTextArrays pos fc
    (show LookupsAgree false target target' pos fc by simpa [LookupsAgree] using agree)

section Call

variable {tc1 tc2 : CtfTraceClass} {c1 c2 : RootCall} {r1 r2 : RootClassRef}
  (wellScoped1 : c1.WellScoped) (wellScoped2 : c2.WellScoped)
  (scope1 : c1.scopes.get c1.rootScope = some r1) (scope2 : c2.scopes.get c2.rootScope = some r2)
  (sameScope : c1.rootScope = c2.rootScope)
  (sameLayers : ∀ scope, scope.toNat ≤ c1.rootScope.toNat →
    (layerRoots tc1 r1 scope).map CtfFieldClass.eraseTargets =
      (layerRoots tc2 r2 scope).map CtfFieldClass.eraseTargets)
include wellScoped1 wellScoped2 scope1 scope2 sameScope sameLayers

/-- A target the lookup of one well-scoped call finds at a node, the lookup of
another call of the same scope finds at an alike node, when the roots' layers
hold alike root classes up to that scope and every layer the first call may
name is one the second may name. -/
theorem nodeTarget_of_moreAvailable
    (moreAvailable : ∀ scope, scope.toNat ≤ c1.rootScope.toNat →
      absoluteRootAvailable (c1.context tc1) scope = true → absoluteRootAvailable (c2.context tc2) scope = true)
    {rootFc1 rootFc2 : CtfFieldClass} (root1 : tc1.rootClass r1 = some rootFc1)
    (root2 : tc2.rootClass r2 = some rootFc2) (sameRoot : rootFc1.eraseTargets = rootFc2.eraseTargets)
    {pos : List Int} {node1 node2 : CtfFieldClass} (reached1 : rootFc1.borrowFieldClassByPath pos = some node1)
    (reached2 : rootFc2.borrowFieldClassByPath pos = some node2) (steps1 : ArraySteps rootFc1 pos)
    (steps2 : ArraySteps rootFc2 pos) (sameNode : node1.eraseTargets = node2.eraseTargets)
    {found : CtfFieldPath × CtfFieldClass} (ok : nodeTarget (c1.context tc1) rootFc1 pos node1 = .ok found) :
    nodeTarget (c2.context tc2) rootFc2 pos node2 = .ok found := by
  obtain ⟨target, targetFc⟩ := found
  rw [nodeTarget_eq_ok_iff wellScoped1 scope1 root1 reached1 steps1] at ok
  rw [nodeTarget_eq_ok_iff wellScoped2 scope2 root2 reached2 steps2, ← sameScope]
  obtain ⟨facts, absolute⟩ := ok
  have reference : node2.reference = node1.reference := by
    rw [← reference_eraseTargets, ← sameNode, reference_eraseTargets]
  refine ⟨facts.transfer sameLayers sameRoot sameNode, fun pathstr named scope prefixed => ?_⟩
  rw [reference] at named
  obtain ⟨available, within⟩ := absolute pathstr named scope prefixed
  exact ⟨moreAvailable scope (facts.absolute_le named prefixed) available, within⟩

/-- Lookups of two well-scoped calls of one scope, whose roots' layers hold alike
root classes up to that scope with the same flags, find the same target at alike
nodes of alike positions. -/
theorem nodeTarget_local
    (sameFlags : ∀ scope, scope.toNat ≤ c1.rootScope.toNat →
      absoluteRootAvailable (c1.context tc1) scope = absoluteRootAvailable (c2.context tc2) scope)
    {rootFc1 rootFc2 : CtfFieldClass} (root1 : tc1.rootClass r1 = some rootFc1)
    (root2 : tc2.rootClass r2 = some rootFc2) (sameRoot : rootFc1.eraseTargets = rootFc2.eraseTargets)
    {pos : List Int} {node1 node2 : CtfFieldClass} (reached1 : rootFc1.borrowFieldClassByPath pos = some node1)
    (reached2 : rootFc2.borrowFieldClassByPath pos = some node2) (steps1 : ArraySteps rootFc1 pos)
    (steps2 : ArraySteps rootFc2 pos) (kind1 : node1.isSequenceOrVariant = true)
    (kind2 : node2.isSequenceOrVariant = true) (sameNode : node1.eraseTargets = node2.eraseTargets) :
    nodeTarget (c2.context tc2) rootFc2 pos node2 = nodeTarget (c1.context tc1) rootFc1 pos node1 := by
  have here1 : AtNode { c1.context tc1 with fieldClassStack := ancestorFrames rootFc1 pos } r1 rootFc1 pos node1 :=
    ⟨scope1, root1, reached1, steps1, rfl⟩
  have here2 : AtNode { c2.context tc2 with fieldClassStack := ancestorFrames rootFc2 pos } r2 rootFc2 pos node2 :=
    ⟨scope2, root2, reached2, steps2, rfl⟩
  have backLayers : ∀ scope, scope.toNat ≤ c2.rootScope.toNat →
      (layerRoots tc2 r2 scope).map CtfFieldClass.eraseTargets =
        (layerRoots tc1 r1 scope).map CtfFieldClass.eraseTargets := fun scope below =>
    (sameLayers scope (by rwa [sameScope])).symm
  refine except_eq_of_ok_iff (resolveSequenceOrVariantTarget_ne_aborted here2 kind2)
    (resolveSequenceOrVariantTarget_ne_aborted here1 kind1) fun found => ⟨fun ok => ?_, fun ok => ?_⟩
  · exact nodeTarget_of_moreAvailable wellScoped2 wellScoped1 scope2 scope1 sameScope.symm backLayers
      (fun scope below available => (sameFlags scope (by rwa [sameScope])).trans available) root2 root1 sameRoot.symm
      reached2 reached1 steps2 steps1 sameNode.symm ok
  · exact nodeTarget_of_moreAvailable wellScoped1 wellScoped2 scope1 scope2 sameScope sameLayers
      (fun scope below available => (sameFlags scope below).symm.trans available) root1 root2 sameRoot reached1 reached2 steps1
      steps2 sameNode ok

/-- Two well-scoped calls of one scope, whose roots' layers hold alike root
classes up to that scope with the same flags, write the same class at the roots
they resolve. -/
theorem runRootCall_rootClass_local
    (sameFlags : ∀ scope, scope.toNat ≤ c1.rootScope.toNat →
      absoluteRootAvailable (c1.context tc1) scope = absoluteRootAvailable (c2.context tc2) scope)
    {tc1' tc2' : CtfTraceClass} (ran1 : runRootCall tc1 c1 = .ok tc1')
    (ran2 : runRootCall tc2 c2 = .ok tc2') : tc2'.rootClass r2 = tc1'.rootClass r1 := by
  have rootScope1 : r1.scope = c1.rootScope := (wellScoped1 r1 scope1).1
  have rootScope2 : r2.scope = c2.rootScope := (wellScoped2 r2 scope2).1
  have roots : (tc1.rootClass r1).map CtfFieldClass.eraseTargets = (tc2.rootClass r2).map CtfFieldClass.eraseTargets := by
    have own := sameLayers c1.rootScope le_rfl
    rwa [layerRoots, layerRoots, ← rootScope1, RootClassRef.layerRoot_scope, rootScope1, sameScope, ← rootScope2,
      RootClassRef.layerRoot_scope, Option.some_bind, Option.some_bind] at own
  simp only [runRootCall, scope1] at ran1
  simp only [runRootCall, scope2] at ran2
  cases root1 : tc1.rootClass r1 with
  | none =>
      have absent : tc2.rootClass r2 = none := by simpa [root1] using roots.symm
      simp only [root1, Except.ok.injEq] at ran1
      simp only [absent, Except.ok.injEq] at ran2
      subst ran1 ran2
      rw [root1, absent]
  | some rootFc1 =>
      rw [root1, Option.map_some'] at roots
      obtain ⟨rootFc2, root2, sameRoot⟩ := Option.map_eq_some'.mp roots.symm
      simp only [root1] at ran1
      simp only [root2] at ran2
      obtain ⟨rootFc1', rebuilt1, rfl⟩ := except_map_eq_ok.mp ran1
      obtain ⟨rootFc2', rebuilt2, rfl⟩ := except_map_eq_ok.mp ran2
      have invariant := nodeTarget_eraseTargets (c2.context tc2) rootFc2
      have same : resolveTargets (nodeTarget (c2.context tc2) rootFc2) [] rootFc2 =
          resolveTargets (nodeTarget (c1.context tc1) rootFc1) [] rootFc1 := by
        rw [← resolveTargets_eraseTargets_input _ invariant, sameRoot, resolveTargets_eraseTargets_input _ invariant]
        refine resolveTargets_congr fun pos node1 reached1 steps1 kind1 => ?_
        obtain ⟨node2, reached2, sameNode⟩ := borrowFieldClassByPath_congr sameRoot.symm reached1
        have steps2 : ArraySteps rootFc2 pos := by rwa [← arraySteps_eraseTargets, sameRoot, arraySteps_eraseTargets]
        have kind2 : node2.isSequenceOrVariant = true := by
          rwa [← isSequenceOrVariant_eraseTargets, ← sameNode, isSequenceOrVariant_eraseTargets]
        rw [List.nil_append, ← invariant pos node1, sameNode, invariant]
        exact nodeTarget_local wellScoped1 wellScoped2 scope1 scope2 sameScope sameLayers sameFlags root1 root2
          sameRoot.symm reached1 reached2 steps1 steps2 kind1 kind2 sameNode
      rw [same, rebuilt1, Except.ok.injEq] at rebuilt2
      rw [rootClass_modifyRootClass_self, rootClass_modifyRootClass_self, root1, root2, rebuilt2]
      rfl

end Call

/-! ## The driver -/

theorem layerRoots_alike {tc tcm : CtfTraceClass} (same : tcm.eraseTargets = tc.eraseTargets) (r : RootClassRef)
    (scope : CtfScope) :
    (layerRoots tcm r scope).map CtfFieldClass.eraseTargets = (layerRoots tc r scope).map CtfFieldClass.eraseTargets := by
  rw [layerRoots_eraseTargets, layerRoots_eraseTargets, same]

/-- After a successful fold, a root one of the calls resolves holds what the
last call resolving it wrote, run on a trace class alike after erasing to the
one the fold started from. -/
theorem runRootCalls_rootClass_last {r : RootClassRef} :
    ∀ (calls : List RootCall) (tc tc' : CtfTraceClass), runRootCalls tc calls = .ok tc' → callRoots calls r →
      ∃ call ∈ calls, ∃ tcm tcm', call.scopes.get call.rootScope = some r ∧ tcm.eraseTargets = tc.eraseTargets ∧
        runRootCall tcm call = .ok tcm' ∧ tc'.rootClass r = tcm'.rootClass r
  | [], _, _, _, resolved => by obtain ⟨_, member, -⟩ := resolved; cases member
  | call :: calls, tc, tc', ran, resolved => by
      obtain ⟨tc1, called, rest⟩ := runRootCalls_cons_eq_ok ran
      by_cases later : callRoots calls r
      · obtain ⟨c, member, tcm, tcm', scope, same, run, kept⟩ := runRootCalls_rootClass_last calls tc1 tc' rest later
        exact ⟨c, List.mem_cons_of_mem _ member, tcm, tcm', scope, same.trans (runRootCall_eraseTargets called), run,
          kept⟩
      · obtain ⟨c, member, scope⟩ := resolved
        rcases List.mem_cons.mp member with rfl | member
        · exact ⟨c, List.mem_cons_self _ _, tc, tc1, scope, rfl, called,
            runRootCalls_rootClass_of_not_callRoots calls tc1 tc' rest later⟩
        · exact absurd ⟨c, member, scope⟩ later

/-- Two roots of one scope that successful runs resolve, whose layers hold
alike root classes up to that scope with the same flags, end up equal. -/
theorem rootClass_eq_of_resolved_alike {tc1 tc2 tc1' tc2' : CtfTraceClass} {r1 r2 : RootClassRef}
    (ran1 : ctfTraceClassResolveFieldClasses tc1 = (.ok (), tc1'))
    (ran2 : ctfTraceClassResolveFieldClasses tc2 = (.ok (), tc2'))
    (resolved1 : tc1.resolvesRoot r1 = true) (resolved2 : tc2.resolvesRoot r2 = true) (sameScope : r1.scope = r2.scope)
    (sameLayers : ∀ scope, scope.toNat ≤ r1.scope.toNat →
      (layerRoots tc1 r1 scope).map CtfFieldClass.eraseTargets =
        (layerRoots tc2 r2 scope).map CtfFieldClass.eraseTargets)
    (sameFlags : ∀ scope, scope.toNat ≤ r1.scope.toNat → layerAvailable tc1 r1 scope = layerAvailable tc2 r2 scope) :
    tc2'.rootClass r2 = tc1'.rootClass r1 := by
  obtain ⟨c1, member1, tcm1, tcm1', scope1, same1, ran1', kept1⟩ := runRootCalls_rootClass_last _ tc1 tc1'
    (runRootCalls_of_resolveFieldClasses ran1) ((callRoots_rootCalls_iff tc1 r1).2 resolved1)
  obtain ⟨c2, member2, tcm2, tcm2', scope2, same2, ran2', kept2⟩ := runRootCalls_rootClass_last _ tc2 tc2'
    (runRootCalls_of_resolveFieldClasses ran2) ((callRoots_rootCalls_iff tc2 r2).2 resolved2)
  have wellScoped1 := rootCalls_wellScoped tc1 c1 member1
  have wellScoped2 := rootCalls_wellScoped tc2 c2 member2
  have rootScope1 : r1.scope = c1.rootScope := (wellScoped1 r1 scope1).1
  have rootScope2 : r2.scope = c2.rootScope := (wellScoped2 r2 scope2).1
  rw [kept1, kept2]
  refine runRootCall_rootClass_local wellScoped1 wellScoped2 scope1 scope2
    (by rw [← rootScope1, ← rootScope2, sameScope]) (fun scope below => ?_) (fun scope below => ?_) ran1' ran2'
  · rw [layerRoots_alike same1, layerRoots_alike same2]
    exact sameLayers scope (rootScope1 ▸ below)
  · have below2 : scope.toNat ≤ c2.rootScope.toNat := by rwa [← rootScope2, ← sameScope, rootScope1]
    rw [absoluteRootAvailable_context c1 (isTranslated_of_eraseTargets_eq same1),
      absoluteRootAvailable_context c2 (isTranslated_of_eraseTargets_eq same2),
      rootCalls_available tc1 c1 member1 r1 scope1 scope below,
      rootCalls_available tc2 c2 member2 r2 scope2 scope below2]
    exact sameFlags scope (rootScope1 ▸ below)

/-- What `ctf_trace_class_resolve_field_classes` leaves at a root class it
resolves depends only on that root's own layers. Take two trace classes on
which it returns 0 and a root of one scope that it resolves in each, whose
trace, stream and event classes hold alike root classes at every scope up to
that one, with the same translated flags: the two roots end up equal, stored
targets included. So the packet context, event header and payload of a stream
class and an event class that two trace classes share are resolved alike, at
any index and whatever the other stream and event classes. For the event common
context the root must be resolved in both runs, which line 1105 makes depend on
the other event classes of the stream. -/
theorem ctfTraceClassResolveFieldClasses_root_local {tc1 tc2 tc1' tc2' : CtfTraceClass} {r1 r2 : RootClassRef}
    (ran1 : ctfTraceClassResolveFieldClasses tc1 = (.ok (), tc1'))
    (ran2 : ctfTraceClassResolveFieldClasses tc2 = (.ok (), tc2'))
    (resolved1 : tc1.resolvesRoot r1 = true) (resolved2 : tc2.resolvesRoot r2 = true) (sameScope : r1.scope = r2.scope)
    (sameLayers : ∀ scope, scope.toNat ≤ r1.scope.toNat →
      (layerRoots tc1 r1 scope).map CtfFieldClass.eraseTargets =
        (layerRoots tc2 r2 scope).map CtfFieldClass.eraseTargets)
    (sameFlags : ∀ scope, scope.toNat ≤ r1.scope.toNat → layerAvailable tc1 r1 scope = layerAvailable tc2 r2 scope) :
    tc2'.rootClass r2 = tc1'.rootClass r1 :=
  rootClass_eq_of_resolved_alike ran1 ran2 resolved1 resolved2 sameScope sameLayers sameFlags

/-- A stream class whose packet context is `{ len, data : sequence<uint8>[len] }`. -/
def lengthPacketStream : CtfStreamClass := ⟨some (lengthBeforeSequence "len"), none, none, [], false⟩

/-- The same stream class, alone and behind a translated stream class, gets the
same packet context. -/
theorem lengthPacketStream_resolved_alike :
    ctfTraceClassResolveFieldClasses ⟨none, [lengthPacketStream], false⟩ =
        (.ok (), ⟨none, [{ lengthPacketStream with
          packetContextFc := some (lengthBeforeSequenceResolved "len" .packetContext) }], false⟩) ∧
      ctfTraceClassResolveFieldClasses ⟨none, [⟨none, none, none, [], true⟩, lengthPacketStream], false⟩ =
        (.ok (), ⟨none, [⟨none, none, none, [], true⟩, { lengthPacketStream with
          packetContextFc := some (lengthBeforeSequenceResolved "len" .packetContext) }], false⟩) ∧
      CtfTraceClass.rootClass ⟨none, [⟨none, none, none, [], true⟩, { lengthPacketStream with
          packetContextFc := some (lengthBeforeSequenceResolved "len" .packetContext) }], false⟩ (.packetContext 1) =
        CtfTraceClass.rootClass ⟨none, [{ lengthPacketStream with
          packetContextFc := some (lengthBeforeSequenceResolved "len" .packetContext) }], false⟩ (.packetContext 0) :=
  have ran1 : ctfTraceClassResolveFieldClasses ⟨none, [lengthPacketStream], false⟩ =
      (.ok (), ⟨none, [{ lengthPacketStream with
        packetContextFc := some (lengthBeforeSequenceResolved "len" .packetContext) }], false⟩) := rfl
  have ran2 : ctfTraceClassResolveFieldClasses ⟨none, [⟨none, none, none, [], true⟩, lengthPacketStream], false⟩ =
      (.ok (), ⟨none, [⟨none, none, none, [], true⟩, { lengthPacketStream with
        packetContextFc := some (lengthBeforeSequenceResolved "len" .packetContext) }], false⟩) := rfl
  ⟨ran1, ran2, ctfTraceClassResolveFieldClasses_root_local ran1 ran2 rfl rfl rfl
    (fun scope _ => by cases scope <;> rfl) (fun scope _ => by cases scope <;> rfl)⟩

end Btrace.Ctf
