import Btrace.Ctf.Locality
import Btrace.Ctf.Resolve.Entry

set_option autoImplicit false

/- Translated layers are frozen: the resolver never changes their classes. The
driver skips the roots of a translated layer but one: line 1105 resolves the
event common context of a stream class again for each untranslated event class
it holds, translated or not. A translated layer was resolved by an earlier run
before it was translated, so its roots store what that run found
(`CtfTraceClass.Settled`). Every lookup that succeeds in such a root now finds
what the earlier run found there, since a lookup reads the layers only through
what erasing keeps and translating only takes layers away
(`nodeTarget_stored_of_resolvedEarlier`). So each store rewrites the target
already there, and a traversal of the root leaves the trace class as it found
it, on either outcome (`resolveFieldClass_keeps_stored`). A failed run fails in
one call of `resolve_root_class` after the calls before it returned 0
(`resolveTraceClass_failsIn`), so on either outcome the run leaves every
translated root as it got it. -/
namespace Btrace.Ctf

open CtfFieldClass CtfTraceClass

/-! ## A failed run fails in one call -/

/-- A run of the driver's calls `calls` from the trace class `tc` that failed
with `e`, leaving the trace class `final`: the calls before one of them returned
0, and that call failed from where they left the trace class. -/
def FailsIn (tc : CtfTraceClass) (calls : List RootCall) (e : ResolveError) (final : CtfTraceClass) : Prop :=
  ∃ pre call post tcm rootScope s', calls = pre ++ call :: post ∧ runRootCalls tc pre = .ok tcm ∧
    (resolveRootClass call.rootScope).run (.idle tcm call.sc call.ec call.scopes rootScope) = .error e s' ∧
      final = s'.tc

section FailsInRules

variable {s : ResolveContext} {sc : Option CtfStreamClass} {ec : Option CtfEventClass} {scopes : ResolveScopes}
  {tc : CtfTraceClass} {e : ResolveError} {final : CtfTraceClass}

theorem failsIn_append_right {calls : List RootCall} (rest : List RootCall) (fails : FailsIn tc calls e final) :
    FailsIn tc (calls ++ rest) e final := by
  obtain ⟨pre, call, post, tcm, rootScope, s', rfl, before, failed, rfl⟩ := fails
  exact ⟨pre, call, post ++ rest, tcm, rootScope, s', by simp, before, failed, rfl⟩

theorem failsIn_append_left {tc1 : CtfTraceClass} {first calls : List RootCall}
    (ran : runRootCalls tc first = .ok tc1) (fails : FailsIn tc1 calls e final) : FailsIn tc (first ++ calls) e final := by
  obtain ⟨pre, call, post, tcm, rootScope, s', rfl, before, failed, rfl⟩ := fails
  exact ⟨first ++ pre, call, post, tcm, rootScope, s', by simp, by rw [runRootCalls_append, ran]; exact before,
    failed, rfl⟩

/-- Two parts of the driver one after the other: a failure is one of the first,
or one of the second once the first returned 0. -/
theorem failsIn_bind {x : ResolveM Unit} {f : PUnit → ResolveM Unit} {first rest : List RootCall}
    (ran : Leaves (x.run s) sc ec scopes (runRootCalls tc first))
    (fails : ∀ e s', x.run s = .error e s' → FailsIn tc first e s'.tc)
    (next : ∀ tc' rootScope, runRootCalls tc first = .ok tc' →
      ∀ e s', (f ()).run (.idle tc' sc ec scopes rootScope) = .error e s' → FailsIn tc' rest e s'.tc) :
    ∀ e s', (x >>= f).run s = .error e s' → FailsIn tc (first ++ rest) e s'.tc := by
  intro e s' failed
  cases folded : runRootCalls tc first with
  | ok tc' =>
      rw [folded] at ran
      obtain ⟨rootScope, done⟩ := ran
      rw [run_bind_of_ok done] at failed
      exact failsIn_append_left folded (next tc' rootScope folded e s' failed)
  | error e' =>
      rw [folded] at ran
      obtain ⟨s1, failed1⟩ := ran
      rw [run_bind_of_error failed1] at failed
      injection failed with sameError sameContext
      subst sameError sameContext
      exact failsIn_append_right rest (fails e' s1 failed1)

theorem failsIn_tryFinally {x : ResolveM Unit} {g : ResolveContext → ResolveContext} {calls : List RootCall}
    (body : ∀ e s', x.run s = .error e s' → FailsIn tc calls e s'.tc) (same : ∀ s, (g s).tc = s.tc) :
    ∀ e s', (tryFinally x (modify g)).run s = .error e s' → FailsIn tc calls e s'.tc := by
  intro e s' failed
  cases ran : x.run s with
  | ok _ s1 =>
      rw [tryFinally_run_of_ok ran] at failed
      cases failed
  | error e1 s1 =>
      rw [tryFinally_run_of_error ran] at failed
      injection failed with sameError sameContext
      subst sameError sameContext
      rw [same]
      exact body e1 s1 ran

end FailsInRules

theorem resolveRootClass_failsIn (call : RootCall) (tc : CtfTraceClass) (rootScope : CtfScope) :
    ∀ e s', (resolveRootClass call.rootScope).run (.idle tc call.sc call.ec call.scopes rootScope) = .error e s' →
      FailsIn tc [call] e s'.tc :=
  fun _ s' failed => ⟨[], call, [], tc, rootScope, s', rfl, rfl, failed, rfl⟩

/-- A call of `resolve_root_class` and what follows it in the driver. -/
theorem resolveRootClass_then_failsIn {f : PUnit → ResolveM Unit} {rest : List RootCall} (call : RootCall)
    (tc : CtfTraceClass) (rootScope : CtfScope)
    (next : ∀ tc' rootScope', runRootCalls tc [call] = .ok tc' →
      ∀ e s', (f ()).run (.idle tc' call.sc call.ec call.scopes rootScope') = .error e s' → FailsIn tc' rest e s'.tc) :
    ∀ e s', (resolveRootClass call.rootScope >>= f).run (.idle tc call.sc call.ec call.scopes rootScope) = .error e s' →
      FailsIn tc (call :: rest) e s'.tc :=
  failsIn_bind (resolveRootClass_run call tc rootScope) (resolveRootClass_failsIn call tc rootScope) next

theorem resolveEventClassFieldClasses_failsIn (sc : CtfStreamClass) (scIndex ecIndex : Nat) (ec : CtfEventClass)
    (tc : CtfTraceClass) (rootScope : CtfScope) :
    ∀ e s', (resolveEventClassFieldClasses scIndex ecIndex ec).run
        (.idle tc (some sc) none (streamScopes scIndex) rootScope) = .error e s' →
      FailsIn tc (eventClassCalls sc scIndex ecIndex ec) e s'.tc := by
  simp only [resolveEventClassFieldClasses, get_bind_run, ResolveContext.idle, streamScopes, traceScopes,
    Option.isSome_none, Bool.or_false, Bool.false_eq_true, ite_false, pure_bind]
  unfold eventClassCalls
  cases ec.isTranslated with
  | false =>
      simp only [Bool.not_false, ite_true]
      refine failsIn_tryFinally ?_ fun _ => rfl
      rw [modify_bind_run]
      exact resolveRootClass_then_failsIn ⟨some sc, some ec, _, .eventCommonContext⟩ tc rootScope
        fun tc rootScope _ => by
          rw [modify_bind_run]
          exact resolveRootClass_failsIn ⟨some sc, some ec, _, .eventPayload⟩ tc rootScope
  | true => exact failsIn_tryFinally (fun _ _ failed => nomatch failed) fun _ => rfl

theorem resolveEventClasses_failsIn (sc : CtfStreamClass) (scIndex : Nat) :
    ∀ (ecs : List CtfEventClass) (ecIndex : Nat) (tc : CtfTraceClass) (rootScope : CtfScope),
      ∀ e s', (resolveEventClasses scIndex ecs ecIndex).run
          (.idle tc (some sc) none (streamScopes scIndex) rootScope) = .error e s' →
        FailsIn tc (eventClassesCalls sc scIndex ecs ecIndex) e s'.tc
  | [], _, _, _ => fun _ _ failed => nomatch failed
  | ec :: ecs, ecIndex, tc, rootScope =>
      failsIn_bind (resolveEventClassFieldClasses_run sc scIndex ecIndex ec tc rootScope)
        (resolveEventClassFieldClasses_failsIn sc scIndex ecIndex ec tc rootScope) fun tc rootScope _ =>
          resolveEventClasses_failsIn sc scIndex ecs (ecIndex + 1) tc rootScope

theorem resolveStreamClassFieldClasses_failsIn (scIndex : Nat) (sc : CtfStreamClass) (tc : CtfTraceClass)
    (rootScope : CtfScope) :
    ∀ e s', (resolveStreamClassFieldClasses scIndex sc).run (.idle tc none none traceScopes rootScope) = .error e s' →
      FailsIn tc (streamClassCalls scIndex sc) e s'.tc := by
  simp only [resolveStreamClassFieldClasses, get_bind_run, ResolveContext.idle, traceScopes, Option.isSome_none,
    Bool.or_false, Bool.false_eq_true, ite_false, pure_bind, modify_bind_run]
  unfold streamClassCalls
  refine failsIn_tryFinally ?_ fun _ => rfl
  cases sc.isTranslated with
  | false =>
      simp only [Bool.not_false, ite_true, modify_bind_run]
      refine resolveRootClass_then_failsIn ⟨some sc, none, _, .packetContext⟩ tc rootScope fun tc rootScope _ => ?_
      rw [modify_bind_run]
      refine resolveRootClass_then_failsIn ⟨some sc, none, _, .eventHeader⟩ tc rootScope fun tc rootScope _ => ?_
      rw [modify_bind_run]
      refine resolveRootClass_then_failsIn ⟨some sc, none, _, .eventCommonContext⟩ tc rootScope fun tc rootScope _ => ?_
      rw [modify_bind_run]
      exact resolveEventClasses_failsIn sc scIndex sc.eventClasses 0 tc rootScope
  | true =>
      simp only [Bool.not_true, Bool.false_eq_true, ite_false, List.nil_append, modify_bind_run]
      exact resolveEventClasses_failsIn sc scIndex sc.eventClasses 0 tc rootScope

theorem resolveStreamClasses_failsIn :
    ∀ (scs : List CtfStreamClass) (scIndex : Nat) (tc : CtfTraceClass) (rootScope : CtfScope),
      ∀ e s', (resolveStreamClasses scs scIndex).run (.idle tc none none traceScopes rootScope) = .error e s' →
        FailsIn tc (streamClassesCalls scs scIndex) e s'.tc
  | [], _, _, _ => fun _ _ failed => nomatch failed
  | sc :: scs, scIndex, tc, rootScope =>
      failsIn_bind (resolveStreamClassFieldClasses_run scIndex sc tc rootScope)
        (resolveStreamClassFieldClasses_failsIn scIndex sc tc rootScope) fun tc rootScope _ =>
          resolveStreamClasses_failsIn scs (scIndex + 1) tc rootScope

/-- A failed run of `ctf_trace_class_resolve_field_classes` failed in one call of
`resolve_root_class`, once the calls before it had returned 0. -/
theorem resolveTraceClass_failsIn (tc : CtfTraceClass) :
    ∀ e s', (resolveTraceClass tc).run (ResolveContext.initial tc) = .error e s' → FailsIn tc (rootCalls tc) e s'.tc := by
  unfold resolveTraceClass rootCalls
  cases tc.isTranslated with
  | false =>
      simp only [Bool.not_false, ite_true, modify_bind_run]
      exact resolveRootClass_then_failsIn ⟨none, none, traceScopes, .packetHeader⟩ tc .packetHeader
        fun tc' rootScope _ => by
          rw [modify_bind_run]
          exact resolveStreamClasses_failsIn tc.streamClasses 0 tc' rootScope
  | true =>
      simp only [Bool.not_true, Bool.false_eq_true, ite_false, List.nil_append, modify_bind_run]
      exact resolveStreamClasses_failsIn tc.streamClasses 0 tc .packetHeader

/-! ## A traversal that stores what is already there -/

/-- A store of the target a node already holds changes nothing. -/
theorem setTargetFieldClass_of_stores {fc targetFc : CtfFieldClass} {target : CtfFieldPath}
    (stores : fc.Stores target targetFc) : setTargetFieldClass target targetFc fc = fc := by
  cases fc <;> simp only [Stores] at stores <;> obtain ⟨rfl, rfl⟩ := stores <;> rfl

theorem finalContext_bind_tc {α β : Type} {x : ResolveM α} {f : α → ResolveM β} {s : ResolveContext}
    {tc : CtfTraceClass} (first : (finalContext (x.run s)).tc = tc)
    (rest : ∀ a s1, x.run s = .ok a s1 → (finalContext ((f a).run s1)).tc = tc) :
    (finalContext ((x >>= f).run s)).tc = tc := by
  cases ran : x.run s with
  | ok a s1 =>
      rw [run_bind_of_ok ran]
      exact rest a s1 ran
  | error e s1 =>
      rw [ran] at first
      rw [run_bind_of_error ran]
      exact first

/-- Every lookup the traversal of `rootFc` from `base` makes that succeeds finds
the target its node already holds. -/
def LookupsStored (base : ResolveContext) (rootFc : CtfFieldClass) : Prop :=
  ∀ pos node, rootFc.borrowFieldClassByPath pos = some node → ArraySteps rootFc pos →
    node.isSequenceOrVariant = true → ∀ found, nodeTarget base rootFc pos node = .ok found →
      node.Stores found.1 found.2

section Stored

variable (base : ResolveContext) (rootRef : RootClassRef) (rootFc : CtfFieldClass)
  (root : base.tc.rootClass rootRef = some rootFc) (stored : LookupsStored base rootFc)

include root stored in
/-- The lookup and store at a sequence or variant whose lookup, when it
succeeds, finds the target the node holds: the context is left as it was. -/
theorem resolveSequenceOrVariantFieldClass_stored {pos : List Int} {fc : CtfFieldClass}
    (reached : rootFc.borrowFieldClassByPath pos = some fc) (steps : ArraySteps rootFc pos)
    (kind : fc.isSequenceOrVariant = true) (result : EStateM.Result ResolveError ResolveContext Unit)
    (ran : (resolveSequenceOrVariantFieldClass fc ⟨rootRef, pos⟩).run
      { base with fieldClassStack := ancestorFrames rootFc pos } = result) :
    finalContext result = { base with fieldClassStack := ancestorFrames rootFc pos } := by
  have current : base.tc.fieldClass ⟨rootRef, pos⟩ = some fc := by simp [fieldClass, root, reached]
  rw [← ran, resolveSequenceOrVariantFieldClass_run base rootRef rootFc pos fc base.tc _ rfl rfl]
  cases found : nodeTarget base rootFc pos fc with
  | error e => rfl
  | ok target =>
      have same : base.tc.modifyFieldClass ⟨rootRef, pos⟩ (setTargetFieldClass target.1 target.2) = base.tc :=
        (modifyFieldClass_congr current (setTargetFieldClass_of_stores (stored pos fc reached steps kind _ found))).trans
          (modifyFieldClass_const_self current)
      simp only [finalContext, same]

mutual
/-- A traversal of the class at `pos` below `rootFc` whose every lookup that
succeeds finds the target the node already holds ends, on either outcome, with
the trace class it started from. -/
theorem resolveFieldClass_keeps_stored (root : base.tc.rootClass rootRef = some rootFc)
    (stored : LookupsStored base rootFc) :
    ∀ (fc : CtfFieldClass) (pos : List Int), rootFc.borrowFieldClassByPath pos = some fc → ArraySteps rootFc pos →
      (finalContext ((resolveFieldClass fc ⟨rootRef, pos⟩).run
        { base with fieldClassStack := ancestorFrames rootFc pos })).tc = base.tc
  | .int _, _, _, _ | .enum _, _, _, _ | .float, _, _, _ | .string, _, _, _ => rfl
  | .struct members, pos, reached, steps => by
      simp only [resolveFieldClass]
      refine finalContext_bind_tc rfl fun _ _ pushed => ?_
      cases pushed
      have loop := resolveFieldClassMembers_keeps_stored root stored pos _ members 0 0 reached steps rfl
        fun k m found => by simp [compoundBorrowFieldClassByIndex, found]
      exact finalContext_bind_tc loop fun _ _ done => by rwa [done] at loop
  | .variant tagRef tagPath tagFc options, pos, reached, steps => by
      simp only [resolveFieldClass]
      have lookup := resolveSequenceOrVariantFieldClass_stored base rootRef rootFc root stored reached steps rfl _ rfl
      refine finalContext_bind_tc (by rw [lookup]) fun _ s1 done => ?_
      rw [done] at lookup
      subst lookup
      refine finalContext_bind_tc rfl fun _ _ pushed => ?_
      cases pushed
      have loop := resolveFieldClassMembers_keeps_stored root stored pos _ options 0 0 reached steps rfl
        fun k m found => by simp [compoundBorrowFieldClassByIndex, found]
      exact finalContext_bind_tc loop fun _ _ done => by rwa [done] at loop
  | .array elemFc isText, pos, reached, steps => by
      simp only [resolveFieldClass, FieldClassRef.child]
      refine finalContext_bind_tc rfl fun _ _ pushed => ?_
      cases pushed
      rw [run_bind_of_ok (fieldClassStackSetTopIndex_enter base rootFc base.tc (-1) 0 reached)]
      have elem := resolveFieldClass_keeps_stored root stored elemFc (pos ++ [-1])
        (by rw [borrowFieldClassByPath_concat, reached]; rfl)
        (arraySteps_concat rootFc _ steps reached ⟨rfl, arraySteps_nil elemFc⟩)
      exact finalContext_bind_tc elem fun _ _ done => by rwa [done] at elem
  | .sequence elemFc isText lengthRef lengthPath lengthFc, pos, reached, steps => by
      simp only [resolveFieldClass, FieldClassRef.child]
      have lookup := resolveSequenceOrVariantFieldClass_stored base rootRef rootFc root stored reached steps rfl _ rfl
      refine finalContext_bind_tc (by rw [lookup]) fun _ s1 done => ?_
      rw [done] at lookup
      subst lookup
      refine finalContext_bind_tc rfl fun _ _ pushed => ?_
      cases pushed
      rw [run_bind_of_ok (fieldClassStackSetTopIndex_enter base rootFc base.tc (-1) 0 reached)]
      have elem := resolveFieldClass_keeps_stored root stored elemFc (pos ++ [-1])
        (by rw [borrowFieldClassByPath_concat, reached]; rfl)
        (arraySteps_concat rootFc _ steps reached ⟨rfl, arraySteps_nil elemFc⟩)
      exact finalContext_bind_tc elem fun _ _ done => by rwa [done] at elem

/-- The child loop of `parent`, at child `i` with the frame of `parent` on top,
under the same lookups: the trace class it started from, on either outcome. -/
theorem resolveFieldClassMembers_keeps_stored (root : base.tc.rootClass rootRef = some rootFc)
    (stored : LookupsStored base rootFc) (pos : List Int) (parent : CtfFieldClass) :
    ∀ (members : List (String × CtfFieldClass)) (i : Nat) (top : Int),
      rootFc.borrowFieldClassByPath pos = some parent → ArraySteps rootFc pos → parent.isStructOrVariant = true →
      (∀ (k : Nat) (m : String × CtfFieldClass), members[k]? = some m →
        parent.compoundBorrowFieldClassByIndex ((i + k : Nat) : Int) = some m.2) →
      (finalContext ((resolveFieldClassMembers members ⟨rootRef, pos⟩ i).run
        { base with fieldClassStack := ancestorFrames rootFc pos ++ [⟨parent, top⟩] })).tc = base.tc
  | [], _, _, _, _, _, _ => rfl
  | (name, childFc) :: members, i, top, reached, steps, named, origin => by
      have childReached : rootFc.borrowFieldClassByPath (pos ++ [(i : Int)]) = some childFc := by
        rw [borrowFieldClassByPath_concat, reached]
        exact origin 0 (name, childFc) (by simp)
      simp only [resolveFieldClassMembers, FieldClassRef.child]
      rw [run_bind_of_ok (fieldClassStackSetTopIndex_enter base rootFc base.tc _ top reached)]
      have child := resolveFieldClass_keeps_stored root stored childFc _ childReached
        (arraySteps_concat rootFc _ steps reached (arraySteps_member named _))
      refine finalContext_bind_tc child fun _ s2 done => ?_
      obtain ⟨tc', rfl⟩ := resolveFieldClass_ok_context _ _ _ _ done
      rw [done] at child
      cases child
      rw [ancestorFrames_concat pos rootFc parent (i : Int) reached]
      exact resolveFieldClassMembers_keeps_stored root stored pos parent members (i + 1) i reached steps named
        fun k m found => by simpa [Nat.add_assoc, Nat.add_comm 1 k] using origin (k + 1) m (by simpa using found)
end

end Stored

/-! ## Translated layers resolved by an earlier run -/

/-- The root `r` lies in a translated layer: it is the packet header of a
translated trace class, a root of a translated stream class or a root of a
translated event class. -/
def CtfTraceClass.isTranslatedRoot (tc : CtfTraceClass) : RootClassRef → Bool
  | .packetHeader => tc.isTranslated
  | .packetContext i | .eventHeader i | .eventCommonContext i => (tc.streamClasses[i]?).any (·.isTranslated)
  | .eventSpecContext i j | .eventPayload i j => (tc.eventClass i j).any (·.isTranslated)

/-- The root `r` of `tc` holds what an earlier successful run left at a root
`r0` of the same scope that it resolved, from layers holding alike root classes
up to that scope: the classes then differ from those now at most in stored
targets, and every layer a reference may name now it could name then. -/
def ResolvedEarlier (tc : CtfTraceClass) (r : RootClassRef) : Prop :=
  ∃ tc0 tc0' r0, ctfTraceClassResolveFieldClasses tc0 = (.ok (), tc0') ∧ tc0.resolvesRoot r0 = true ∧
    r0.scope = r.scope ∧
    (∀ scope, scope.toNat ≤ r.scope.toNat →
      (layerRoots tc0 r0 scope).map CtfFieldClass.eraseTargets =
        (layerRoots tc r scope).map CtfFieldClass.eraseTargets) ∧
    (∀ scope, scope.toNat ≤ r.scope.toNat → layerAvailable tc r scope = true → layerAvailable tc0 r0 scope = true) ∧
    tc.rootClass r = tc0'.rootClass r0

/-- The translated layers of `tc` hold what the run before their translation
found: every root of a translated layer that the driver resolves was resolved
earlier. The driver writes no other root of a translated layer. -/
def CtfTraceClass.Settled (tc : CtfTraceClass) : Prop :=
  ∀ r, tc.resolvesRoot r = true → tc.isTranslatedRoot r = true → ResolvedEarlier tc r

theorem resolvesRoot_packetHeader (tc : CtfTraceClass) : tc.resolvesRoot .packetHeader = !tc.isTranslated := by
  simp [CtfTraceClass.resolvesRoot, CtfStreamClass.resolvesRoot]

section Earlier

variable {tc tcm : CtfTraceClass} {r : RootClassRef} (earlier : ResolvedEarlier tc r)
include earlier

/-- A driver's call on a root resolved earlier, from a trace class alike to the
one the driver got that still holds that root: every lookup that succeeds finds
the target the earlier run stored. -/
theorem nodeTarget_stored_of_resolvedEarlier {c : RootCall} {rootFc : CtfFieldClass} (member : c ∈ rootCalls tc)
    (scope : c.scopes.get c.rootScope = some r) (same : tcm.eraseTargets = tc.eraseTargets)
    (root : tcm.rootClass r = some rootFc) (kept : tcm.rootClass r = tc.rootClass r) :
    LookupsStored (c.context tcm) rootFc := by
  obtain ⟨tc0, tc0', r0, ran0, resolved0, sameScope, sameLayers, moreAvailable, stored⟩ := earlier
  obtain ⟨c0, member0, tcm0, tcm0', scope0, same0, called0, last0⟩ := runRootCalls_rootClass_last _ tc0 tc0'
    (runRootCalls_of_resolveFieldClasses ran0) ((callRoots_rootCalls_iff tc0 r0).2 resolved0)
  have wellScoped := rootCalls_wellScoped tc c member
  have wellScoped0 := rootCalls_wellScoped tc0 c0 member0
  have rootScope : r.scope = c.rootScope := (wellScoped r scope).1
  have rootScope0 : r0.scope = c0.rootScope := (wellScoped0 r0 scope0).1
  have rebuiltRoot : tcm0'.rootClass r0 = some rootFc := by rw [← last0, ← stored, ← kept, root]
  simp only [runRootCall, scope0] at called0
  cases root0 : tcm0.rootClass r0 with
  | none =>
      simp only [root0, Except.ok.injEq] at called0
      simp [← called0, root0] at rebuiltRoot
  | some rootFc0 =>
      simp only [root0] at called0
      obtain ⟨rootFc', rebuilt, rfl⟩ := except_map_eq_ok.mp called0
      simp only [rootClass_modifyRootClass_self, root0, Option.map_some', Option.some.injEq] at rebuiltRoot
      rw [rebuiltRoot] at rebuilt
      have sameRoot : rootFc.eraseTargets = rootFc0.eraseTargets := eraseTargets_resolveTargets _ _ _ _ rebuilt
      -- the layers the call reads are those the earlier call read, and it may name no more of them
      have layers : ∀ s, s.toNat ≤ c.rootScope.toNat →
          (layerRoots tcm r s).map CtfFieldClass.eraseTargets =
            (layerRoots tcm0 r0 s).map CtfFieldClass.eraseTargets := fun s below => by
        rw [layerRoots_alike same r s, layerRoots_alike same0 r0 s]
        exact (sameLayers s (by rwa [rootScope])).symm
      have flags : ∀ s, s.toNat ≤ c.rootScope.toNat → absoluteRootAvailable (c.context tcm) s = true →
          absoluteRootAvailable (c0.context tcm0) s = true := fun s below available => by
        have below0 : s.toNat ≤ c0.rootScope.toNat := by rwa [← rootScope0, sameScope, rootScope]
        rw [absoluteRootAvailable_context c (isTranslated_of_eraseTargets_eq same),
          rootCalls_available tc c member r scope s below] at available
        rw [absoluteRootAvailable_context c0 (isTranslated_of_eraseTargets_eq same0),
          rootCalls_available tc0 c0 member0 r0 scope0 s below0]
        exact moreAvailable s (by rwa [rootScope]) available
      intro pos node reached steps kind found ok
      obtain ⟨node0, reached0, sameNode⟩ := borrowFieldClassByPath_congr sameRoot reached
      have steps0 : ArraySteps rootFc0 pos := by
        rwa [← arraySteps_eraseTargets, ← sameRoot, arraySteps_eraseTargets]
      have kind0 : node0.isSequenceOrVariant = true := by
        rwa [← isSequenceOrVariant_eraseTargets, ← sameNode, isSequenceOrVariant_eraseTargets]
      obtain ⟨found0, node', ok0, reached', stores⟩ :=
        resolveTargets_stores _ [] rootFc0 rootFc rebuilt pos node0 reached0 steps0 kind0
      rw [reached, Option.some.injEq] at reached'
      subst reached'
      have earlierOk := nodeTarget_of_moreAvailable wellScoped wellScoped0 scope scope0
        (by rw [← rootScope, ← rootScope0, sameScope]) layers flags root root0 sameRoot reached reached0 steps steps0
        sameNode ok
      rw [List.nil_append, earlierOk, Except.ok.injEq] at ok0
      exact ok0 ▸ stores

/-- A call of `resolve_root_class` the driver makes, from a trace class alike
to the one it got that still holds a root resolved earlier, leaves that root as
it found it, on either outcome. -/
theorem resolveRootClass_keeps_resolvedEarlier {c : RootCall} (member : c ∈ rootCalls tc)
    (same : tcm.eraseTargets = tc.eraseTargets) (kept : tcm.rootClass r = tc.rootClass r) (rootScope : CtfScope) :
    (finalContext ((resolveRootClass c.rootScope).run (.idle tcm c.sc c.ec c.scopes rootScope))).tc.rootClass r =
      tc.rootClass r := by
  by_cases resolves : c.scopes.get c.rootScope = some r
  · rw [resolveRootClass_run_eq _ _ rfl]
    simp only [ResolveContext.idle, resolves]
    cases root : tcm.rootClass r with
    | none =>
        simp only [root]
        exact kept
    | some rootFc =>
        simp only [root]
        have keeps := resolveFieldClass_keeps_stored (c.context tcm) r rootFc root
          (nodeTarget_stored_of_resolvedEarlier earlier member resolves same root kept) rootFc [] rfl (arraySteps_nil _)
        exact (congrArg (·.rootClass r) keeps).trans kept
  · have writes := resolveRootClass_writesWithin c tcm rootScope r fun ⟨c', member', scope'⟩ => by
      rw [List.mem_singleton] at member'
      subst member'
      exact resolves scope'
    exact writes.trans kept

/-- A successful fold of driver's calls, from a trace class alike to the one the
driver got that still holds a root resolved earlier, leaves that root as it
found it. -/
theorem runRootCalls_keeps_resolvedEarlier :
    ∀ (calls : List RootCall) (tcm tcm' : CtfTraceClass), (∀ c ∈ calls, c ∈ rootCalls tc) →
      tcm.eraseTargets = tc.eraseTargets → tcm.rootClass r = tc.rootClass r → runRootCalls tcm calls = .ok tcm' →
        tcm'.rootClass r = tc.rootClass r
  | [], _, _, _, _, kept, ran => by
      cases ran
      exact kept
  | c :: calls, tcm, tcm', members, same, kept, ran => by
      obtain ⟨tc1, called, rest⟩ := runRootCalls_cons_eq_ok ran
      have leaves := resolveRootClass_run c tcm c.rootScope
      rw [runRootCalls_cons, called] at leaves
      obtain ⟨rootScope, done⟩ := leaves
      have kept1 := resolveRootClass_keeps_resolvedEarlier earlier (members c (List.mem_cons_self _ _)) same kept
        c.rootScope
      rw [done] at kept1
      exact runRootCalls_keeps_resolvedEarlier calls tc1 tcm' (fun c' m => members c' (List.mem_cons_of_mem _ m))
        ((runRootCall_eraseTargets called).trans same) kept1 rest

end Earlier

/-- On either outcome, the run leaves as it got it a root it does not resolve,
or one resolved earlier. -/
theorem rootClass_kept {tc : CtfTraceClass} {r : RootClassRef}
    (frozen : tc.resolvesRoot r = false ∨ ResolvedEarlier tc r) :
    (ctfTraceClassResolveFieldClasses tc).2.rootClass r = tc.rootClass r := by
  rcases frozen with unresolved | earlier
  · have writes := resolveTraceClass_writesWithin tc r fun called => by
      rw [rootCalls_roots tc called] at unresolved
      cases unresolved
    unfold ctfTraceClassResolveFieldClasses
    cases ran : (resolveTraceClass tc).run (ResolveContext.initial tc) <;> rw [ran] at writes <;> exact writes
  · have leaves := resolveTraceClass_run tc
    cases folded : runRootCalls tc (rootCalls tc) with
    | ok tc' =>
        rw [ctfTraceClassResolveFieldClasses_of_ok folded]
        exact runRootCalls_keeps_resolvedEarlier earlier _ tc tc' (fun _ m => m) rfl rfl folded
    | error e =>
        rw [folded] at leaves
        obtain ⟨s', ran⟩ := leaves
        obtain ⟨pre, c, post, tcm, rootScope, s'', split, before, failed, final⟩ :=
          resolveTraceClass_failsIn tc e s' ran
        have kept := runRootCalls_keeps_resolvedEarlier earlier pre tc tcm
          (fun c' m => by rw [split]; exact List.mem_append_left _ m) rfl rfl before
        have keeps := resolveRootClass_keeps_resolvedEarlier earlier (show c ∈ rootCalls tc by rw [split]; simp)
          (runRootCalls_eraseTargets pre tc tcm before) kept rootScope
        rw [failed] at keeps
        unfold ctfTraceClassResolveFieldClasses
        rw [ran]
        exact (congrArg (·.rootClass r) final).trans keeps

/-- On either outcome, the run leaves a root of a translated layer of a settled
trace class as it got it. -/
theorem rootClass_kept_of_translated {tc : CtfTraceClass} (settled : tc.Settled) {r : RootClassRef}
    (translated : tc.isTranslatedRoot r = true) :
    (ctfTraceClassResolveFieldClasses tc).2.rootClass r = tc.rootClass r := by
  cases resolved : tc.resolvesRoot r
  · exact rootClass_kept (.inl resolved)
  · exact rootClass_kept (.inr (settled r resolved translated))

/-- On either outcome, `ctf_trace_class_resolve_field_classes`, run on a trace
class whose translated layers hold what the run before their translation found,
writes nothing but the length path and class of sequences and the tag path and
class of variants, and none in a translated layer: the packet header of a
translated trace class, the roots of a translated stream class and those of a
translated event class are left as they were. Line 1105 resolves the event
common context of a translated stream class again, but what it stores there is
what the class already holds. -/
theorem ctfTraceClassResolveFieldClasses_keeps_translated_layers (tc : CtfTraceClass) (settled : tc.Settled) :
    (ctfTraceClassResolveFieldClasses tc).2.eraseTargets = tc.eraseTargets ∧
      ∀ r, tc.isTranslatedRoot r = true → (ctfTraceClassResolveFieldClasses tc).2.rootClass r = tc.rootClass r := by
  refine ⟨?_, fun r translated => rootClass_kept_of_translated settled translated⟩
  have kept := keepsShape_resolveTraceClass tc (ResolveContext.initial tc)
  unfold ctfTraceClassResolveFieldClasses
  cases ran : (resolveTraceClass tc).run (ResolveContext.initial tc) <;> rw [ran] at kept <;> exact kept

/-- A trace class whose one stream class has the event common context
`{ len, data : sequence<uint8>[len] }`, not yet resolved, and no event class. -/
def commonLengthTrace : CtfTraceClass :=
  ⟨none, [⟨none, none, some (lengthBeforeSequence "len"), [], false⟩], false⟩

/-- `commonLengthTrace` once resolved and translated, with the event classes
`events` added to its stream class since. -/
def translatedCommonLength (events : List CtfEventClass) : CtfTraceClass :=
  ⟨none, [⟨none, none, some (lengthBeforeSequenceResolved "len" .eventCommonContext), events, true⟩], true⟩

/-- Whatever event classes were added, the common context holds what the run
on `commonLengthTrace` found. -/
theorem translatedCommonLength_settled (events : List CtfEventClass) : (translatedCommonLength events).Settled := by
  intro r resolved translated
  cases r with
  | packetHeader => simp [translatedCommonLength, resolvesRoot_packetHeader] at resolved
  | eventCommonContext i =>
      simp only [translatedCommonLength, CtfTraceClass.resolvesRoot, CtfStreamClass.resolvesRoot] at resolved
      have first : i = 0 := by
        simp at resolved
        exact resolved.1
      subst first
      refine ⟨commonLengthTrace,
        ⟨none, [⟨none, none, some (lengthBeforeSequenceResolved "len" .eventCommonContext), [], false⟩], false⟩,
        .eventCommonContext 0, rfl, rfl, rfl, ?_, ?_, rfl⟩
      · intro scope _
        cases scope <;> rfl
      · intro scope _ available
        cases scope <;> cases available
  | eventPayload i j =>
      simp only [translatedCommonLength, CtfTraceClass.resolvesRoot, CtfStreamClass.resolvesRoot,
        CtfTraceClass.isTranslatedRoot, eventClass] at resolved translated
      cases i <;> simp_all
      cases event : events[j]? <;> simp_all
  | _ => simp [translatedCommonLength, CtfTraceClass.resolvesRoot, CtfStreamClass.resolvesRoot] at resolved

/-- An untranslated event class added to the translated stream class: the run
resolves the common context again and leaves it as it was. -/
theorem translatedCommonLength_kept :
    (translatedCommonLength [⟨none, none, false⟩]).Settled ∧
      ((ctfTraceClassResolveFieldClasses (translatedCommonLength [⟨none, none, false⟩])).2.eraseTargets =
          (translatedCommonLength [⟨none, none, false⟩]).eraseTargets ∧
        ∀ r, (translatedCommonLength [⟨none, none, false⟩]).isTranslatedRoot r = true →
          (ctfTraceClassResolveFieldClasses (translatedCommonLength [⟨none, none, false⟩])).2.rootClass r =
            (translatedCommonLength [⟨none, none, false⟩]).rootClass r) :=
  ⟨translatedCommonLength_settled _,
    ctfTraceClassResolveFieldClasses_keeps_translated_layers _ (translatedCommonLength_settled _)⟩

/-- The run of the example returns 0 and stores back what the common context
holds. -/
example : ctfTraceClassResolveFieldClasses (translatedCommonLength [⟨none, none, false⟩]) =
    (.ok (), translatedCommonLength [⟨none, none, false⟩]) := rfl

/-! ## Roots shared by two trace classes -/

theorem CtfStreamClass.resolvesRoot_of_ne {sc : CtfStreamClass} {k : Nat} {r : RootClassRef}
    (other : r.streamIndex ≠ some k) : sc.resolvesRoot k r = false := by
  cases r <;> simp_all [CtfStreamClass.resolvesRoot, RootClassRef.streamIndex]

/-- Whether the driver resolves a root of a stream class, or of one of its event
classes, is up to that stream class alone. -/
theorem resolvesRoot_of_streamClass {tc : CtfTraceClass} {i : Nat} {sc : CtfStreamClass}
    (stream : tc.streamClasses[i]? = some sc) {r : RootClassRef} (inStream : r.streamIndex = some i) :
    tc.resolvesRoot r = sc.resolvesRoot i r := by
  have notHeader : (r == .packetHeader) = false := by
    cases r <;> first | rfl | cases inStream
  simp only [CtfTraceClass.resolvesRoot, notHeader, Bool.false_and, Bool.false_or]
  apply Bool.eq_iff_iff.2
  simp only [List.any_eq_true, Prod.exists, List.mem_enum_iff_getElem?]
  constructor
  · rintro ⟨k, sc', found, resolves⟩
    by_cases same : k = i
    · subst same
      rw [stream, Option.some.injEq] at found
      subst found
      exact resolves
    · rw [CtfStreamClass.resolvesRoot_of_ne (by rw [inStream]; simpa using Ne.symm same)] at resolves
      cases resolves
  · exact fun resolves => ⟨i, sc, stream, resolves⟩

/-- The roots of the layers of event class `j` of stream class `i` below the
scope of one of them are theirs too. -/
theorem layerRoot_of_eventPayload {i j : Nat} {scope0 scope : CtfScope} {r : RootClassRef}
    (chain : (RootClassRef.eventPayload i j).layerRoot scope0 = some r) (below : scope.toNat ≤ scope0.toNat) :
    r.scope = scope0 ∧ r.layerRoot scope = (RootClassRef.eventPayload i j).layerRoot scope ∧
      ∀ tc, layerAvailable tc r scope = layerAvailable tc (.eventPayload i j) scope := by
  cases scope0 <;>
    simp only [RootClassRef.layerRoot, RootClassRef.streamIndex, RootClassRef.eventIndex, Option.map_some',
      Option.some.injEq] at chain <;> subst chain <;> cases scope <;>
    simp_all [CtfScope.toNat, RootClassRef.scope, RootClassRef.layerRoot, RootClassRef.streamIndex,
      RootClassRef.eventIndex, layerAvailable]

/-- A root of one scope in each of two settled trace classes on which the run
returns 0, from layers holding the same classes and flags up to that scope:
the run leaves them equal if it resolves both or neither, or if both lie in
translated layers. -/
theorem rootClass_eq_of_settled_alike {tc1 tc2 tc1' tc2' : CtfTraceClass} {r1 r2 : RootClassRef}
    (settled1 : tc1.Settled) (settled2 : tc2.Settled)
    (ran1 : ctfTraceClassResolveFieldClasses tc1 = (.ok (), tc1'))
    (ran2 : ctfTraceClassResolveFieldClasses tc2 = (.ok (), tc2')) (sameScope : r1.scope = r2.scope)
    (sameLayers : ∀ scope, scope.toNat ≤ r1.scope.toNat → layerRoots tc1 r1 scope = layerRoots tc2 r2 scope)
    (sameFlags : ∀ scope, scope.toNat ≤ r1.scope.toNat → layerAvailable tc1 r1 scope = layerAvailable tc2 r2 scope)
    (sameRoot : tc1.rootClass r1 = tc2.rootClass r2)
    (alike : tc1.resolvesRoot r1 = tc2.resolvesRoot r2 ∨ tc1.isTranslatedRoot r1 = true ∧ tc2.isTranslatedRoot r2 = true) :
    tc2'.rootClass r2 = tc1'.rootClass r1 := by
  have final1 : (ctfTraceClassResolveFieldClasses tc1).2 = tc1' := by rw [ran1]
  have final2 : (ctfTraceClassResolveFieldClasses tc2).2 = tc2' := by rw [ran2]
  rcases alike with alike | ⟨translated1, translated2⟩
  · cases resolved1 : tc1.resolvesRoot r1
    · rw [resolved1] at alike
      rw [← final1, ← final2, rootClass_kept (.inl resolved1), rootClass_kept (.inl alike.symm), sameRoot]
    · rw [resolved1] at alike
      exact rootClass_eq_of_resolved_alike ran1 ran2 resolved1 alike.symm sameScope
        (fun scope below => by rw [sameLayers scope below]) sameFlags
  · rw [← final1, ← final2, rootClass_kept_of_translated settled1 translated1,
      rootClass_kept_of_translated settled2 translated2, sameRoot]

/-- Take two settled trace classes with the same packet header and translated
flag, each holding a stream class with the same packet context, event header,
event common context and translated flag, which holds the same event class
`ec`. If `ctf_trace_class_resolve_field_classes` returns 0 on both, every root
of that stream class and of `ec` ends up the same in both, stored targets
included: a node's resolution depends only on its own trace, stream and event
class, never on the other stream and event classes or on their order. -/
theorem ctfTraceClassResolveFieldClasses_stream_event_local {tc1 tc2 tc1' tc2' : CtfTraceClass}
    {i1 i2 j1 j2 : Nat} {sc1 sc2 : CtfStreamClass} {ec : CtfEventClass}
    (settled1 : tc1.Settled) (settled2 : tc2.Settled)
    (header : tc1.packetHeaderFc = tc2.packetHeaderFc) (traceTranslated : tc1.isTranslated = tc2.isTranslated)
    (stream1 : tc1.streamClasses[i1]? = some sc1) (stream2 : tc2.streamClasses[i2]? = some sc2)
    (packetContext : sc1.packetContextFc = sc2.packetContextFc) (eventHeader : sc1.eventHeaderFc = sc2.eventHeaderFc)
    (eventCommonContext : sc1.eventCommonContextFc = sc2.eventCommonContextFc)
    (streamTranslated : sc1.isTranslated = sc2.isTranslated)
    (event1 : sc1.eventClasses[j1]? = some ec) (event2 : sc2.eventClasses[j2]? = some ec)
    (ran1 : ctfTraceClassResolveFieldClasses tc1 = (.ok (), tc1'))
    (ran2 : ctfTraceClassResolveFieldClasses tc2 = (.ok (), tc2')) :
    ∀ scope, layerRoots tc2' (.eventPayload i2 j2) scope = layerRoots tc1' (.eventPayload i1 j1) scope := by
  have layers : ∀ scope, layerRoots tc1 (.eventPayload i1 j1) scope = layerRoots tc2 (.eventPayload i2 j2) scope := by
    intro scope
    cases scope <;> simp [layerRoots, RootClassRef.layerRoot, RootClassRef.streamIndex, RootClassRef.eventIndex,
      rootClass, eventClass, stream1, stream2, event1, event2, header, packetContext, eventHeader, eventCommonContext]
  have flags : ∀ scope, layerAvailable tc1 (.eventPayload i1 j1) scope =
      layerAvailable tc2 (.eventPayload i2 j2) scope := by
    intro scope
    cases scope <;> simp [layerAvailable, RootClassRef.streamIndex, RootClassRef.eventIndex, eventClass, stream1,
      stream2, event1, event2, traceTranslated, streamTranslated]
  -- each root of the chain, by the comparison above
  have atScope : ∀ scope r1 r2, (RootClassRef.eventPayload i1 j1).layerRoot scope = some r1 →
      (RootClassRef.eventPayload i2 j2).layerRoot scope = some r2 →
      (tc1.resolvesRoot r1 = tc2.resolvesRoot r2 ∨ tc1.isTranslatedRoot r1 = true ∧ tc2.isTranslatedRoot r2 = true) →
      layerRoots tc2' (.eventPayload i2 j2) scope = layerRoots tc1' (.eventPayload i1 j1) scope := by
    intro scope r1 r2 chain1 chain2 alike
    have own1 := (layerRoot_of_eventPayload chain1 (le_refl _)).1
    have own2 := (layerRoot_of_eventPayload chain2 (le_refl _)).1
    have sameRoot : tc1.rootClass r1 = tc2.rootClass r2 := by
      simpa [layerRoots, chain1, chain2] using layers scope
    simp only [layerRoots, chain1, chain2, Option.some_bind]
    refine rootClass_eq_of_settled_alike settled1 settled2 ran1 ran2 (own1.trans own2.symm) (fun s below => ?_)
      (fun s below => ?_) sameRoot alike
    · rw [own1] at below
      simp only [layerRoots, (layerRoot_of_eventPayload chain1 below).2.1, (layerRoot_of_eventPayload chain2 below).2.1]
      exact layers s
    · rw [own1] at below
      rw [(layerRoot_of_eventPayload chain1 below).2.2, (layerRoot_of_eventPayload chain2 below).2.2]
      exact flags s
  have inStream1 : ∀ r, r.streamIndex = some i1 → tc1.resolvesRoot r = sc1.resolvesRoot i1 r :=
    fun _ => resolvesRoot_of_streamClass stream1
  have inStream2 : ∀ r, r.streamIndex = some i2 → tc2.resolvesRoot r = sc2.resolvesRoot i2 r :=
    fun _ => resolvesRoot_of_streamClass stream2
  intro scope
  cases scope
  case eventCommonContext =>
    cases translated : sc1.isTranslated
    · exact atScope _ _ _ rfl rfl (.inl (by
        simp [inStream1, inStream2, RootClassRef.streamIndex, CtfStreamClass.resolvesRoot, translated,
          ← streamTranslated]))
    · exact atScope _ _ _ rfl rfl (.inr (by
        simp [CtfTraceClass.isTranslatedRoot, stream1, stream2, translated, ← streamTranslated]))
  -- the other roots are resolved by both runs or by neither
  all_goals exact atScope _ _ _ rfl rfl (.inl (by
    simp [resolvesRoot_packetHeader, traceTranslated, inStream1, inStream2, RootClassRef.streamIndex,
      CtfStreamClass.resolvesRoot, streamTranslated, event1, event2]))

/-- The translated stream class, holding a translated event class, with and
without an untranslated one after it: the first run resolves the common context
again, the second does not, and both leave the same roots. -/
theorem translatedCommonLength_resolved_alike :
    (translatedCommonLength [⟨none, none, true⟩, ⟨none, none, false⟩]).Settled ∧
      (translatedCommonLength [⟨none, none, true⟩]).Settled ∧
      ctfTraceClassResolveFieldClasses (translatedCommonLength [⟨none, none, true⟩, ⟨none, none, false⟩]) =
        (.ok (), translatedCommonLength [⟨none, none, true⟩, ⟨none, none, false⟩]) ∧
      ctfTraceClassResolveFieldClasses (translatedCommonLength [⟨none, none, true⟩]) =
        (.ok (), translatedCommonLength [⟨none, none, true⟩]) ∧
      ∀ scope, layerRoots (translatedCommonLength [⟨none, none, true⟩]) (.eventPayload 0 0) scope =
        layerRoots (translatedCommonLength [⟨none, none, true⟩, ⟨none, none, false⟩]) (.eventPayload 0 0) scope :=
  have ran1 : ctfTraceClassResolveFieldClasses (translatedCommonLength [⟨none, none, true⟩, ⟨none, none, false⟩]) =
      (.ok (), translatedCommonLength [⟨none, none, true⟩, ⟨none, none, false⟩]) := rfl
  have ran2 : ctfTraceClassResolveFieldClasses (translatedCommonLength [⟨none, none, true⟩]) =
      (.ok (), translatedCommonLength [⟨none, none, true⟩]) := rfl
  have settled1 := translatedCommonLength_settled [⟨none, none, true⟩, ⟨none, none, false⟩]
  have settled2 := translatedCommonLength_settled [⟨none, none, true⟩]
  ⟨settled1, settled2, ran1, ran2,
    ctfTraceClassResolveFieldClasses_stream_event_local settled1 settled2 rfl rfl rfl rfl rfl rfl rfl rfl rfl rfl
      ran1 ran2⟩

end Btrace.Ctf
