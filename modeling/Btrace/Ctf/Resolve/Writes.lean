import Btrace.Ctf.Resolve.Frame
import Btrace.Ctf.Resolve.Correctness
import Btrace.Ctf.Resolve.Replay
import Btrace.Ctf.Resolve.Safety

set_option autoImplicit false

/- Which root classes the resolver writes, and that it resolves them. A traversal writes only below the
root it starts from, and each call of `resolve_root_class` the driver makes
starts from the root its scope pointer names, so on either outcome a run
changes no root class that none of its calls resolves
(`resolveTraceClass_writesWithin`). Those are listed by `resolvesRoot`: since
line 1105 resolves the event common context in the event pass, a specific
context is never written, and the common context of a translated stream class
is written when the stream holds an untranslated event class. After a
successful run every sequence and variant of each of those roots holds a target
(`ctfTraceClassResolveFieldClasses_resolves_roots`), and what it leaves there does
not depend on the targets its input stored
(`ctfTraceClassResolveFieldClasses_ignores_stored_targets`). -/
namespace Btrace.Ctf

open CtfTraceClass

/-- A store through `fcRef` writes nothing outside the root class of `fcRef`. -/
theorem storeKeeps_rootClass (fcRef : FieldClassRef) {r : RootClassRef} (other : fcRef.root ≠ r) :
    StoreKeeps (·.rootClass r) fcRef :=
  fun tc _ _ => rootClass_modifyRootClass_of_ne tc _ other

/-- The roots the calls `calls` resolve. -/
def callRoots (calls : List RootCall) (r : RootClassRef) : Prop :=
  ∃ call ∈ calls, call.scopes.get call.rootScope = some r

theorem callRoots_append (first rest : List RootCall) (r : RootClassRef) :
    callRoots (first ++ rest) r ↔ callRoots first r ∨ callRoots rest r := by
  simp only [callRoots, List.mem_append, or_and_right, exists_or]

/-- A run from `s` that leaves every root class outside `written` as `s` held
it, on either outcome. -/
def WritesWithin {α : Type} (written : RootClassRef → Prop) (s : ResolveContext)
    (result : EStateM.Result ResolveError ResolveContext α) : Prop :=
  ∀ r, ¬ written r → (finalContext result).tc.rootClass r = s.tc.rootClass r

section WritesWithinRules

variable {s : ResolveContext} {sc : Option CtfStreamClass} {ec : Option CtfEventClass} {scopes : ResolveScopes}

/-- Two parts of the driver one after the other write within the roots of both
their calls: the second starts from the idle context the first leaves on
success, and never runs after a failure. -/
theorem writesWithin_append {x : ResolveM Unit} {f : PUnit → ResolveM Unit} {first rest : List RootCall}
    {outcome : Except ResolveError CtfTraceClass} (ran : Leaves (x.run s) sc ec scopes outcome)
    (writes : WritesWithin (callRoots first) s (x.run s))
    (next : ∀ tc rootScope, WritesWithin (callRoots rest) (.idle tc sc ec scopes rootScope)
      ((f ()).run (.idle tc sc ec scopes rootScope))) :
    WritesWithin (callRoots (first ++ rest)) s ((x >>= f).run s) := by
  intro r outside
  rw [callRoots_append, not_or] at outside
  have before := writes r outside.1
  cases outcome with
  | ok tc =>
      obtain ⟨rootScope, done⟩ := ran
      rw [done] at before
      rw [run_bind_of_ok done]
      exact (next tc rootScope r outside.2).trans before
  | error e =>
      obtain ⟨s', failed⟩ := ran
      rw [failed] at before
      rw [run_bind_of_error failed]
      exact before

theorem writesWithin_cons {x : ResolveM Unit} {f : PUnit → ResolveM Unit} {call : RootCall} {rest : List RootCall}
    {outcome : Except ResolveError CtfTraceClass} (ran : Leaves (x.run s) sc ec scopes outcome)
    (writes : WritesWithin (callRoots [call]) s (x.run s))
    (next : ∀ tc rootScope, WritesWithin (callRoots rest) (.idle tc sc ec scopes rootScope)
      ((f ()).run (.idle tc sc ec scopes rootScope))) :
    WritesWithin (callRoots (call :: rest)) s ((x >>= f).run s) :=
  writesWithin_append ran writes next

theorem writesWithin_tryFinally {x : ResolveM Unit} {g : ResolveContext → ResolveContext}
    {written : RootClassRef → Prop} (body : WritesWithin written s (x.run s)) (same : ∀ s, (g s).tc = s.tc) :
    WritesWithin written s ((tryFinally x (modify g)).run s) := by
  intro r outside
  have before := body r outside
  cases ran : x.run s with
  | ok _ s₁ =>
      rw [ran] at before
      rw [tryFinally_run_of_ok ran]
      exact (congrArg (·.rootClass r) (same s₁)).trans before
  | error e s₁ =>
      rw [ran] at before
      rw [tryFinally_run_of_error ran]
      exact (congrArg (·.rootClass r) (same s₁)).trans before

end WritesWithinRules

/-! ## The drivers -/

/-- `resolve_root_class` writes only the root class its scope pointer names. -/
theorem resolveRootClass_writesWithin (call : RootCall) (tc : CtfTraceClass) (rootScope : CtfScope) :
    WritesWithin (callRoots [call]) (.idle tc call.sc call.ec call.scopes rootScope)
      ((resolveRootClass call.rootScope).run (.idle tc call.sc call.ec call.scopes rootScope)) := by
  intro r outside
  rw [resolveRootClass_run_eq _ _ rfl]
  dsimp only [ResolveContext.idle]
  cases scope : call.scopes.get call.rootScope with
  | none => rfl
  | some rootRef =>
      dsimp only
      cases root : tc.rootClass rootRef with
      | none => rfl
      | some rootFc =>
          have other : rootRef ≠ r := fun same =>
            outside ⟨call, List.mem_singleton_self call, by rw [scope, same]⟩
          exact keeps_resolveFieldClass (fun fcRef below => storeKeeps_rootClass fcRef (below ▸ other)) rootFc
            ⟨rootRef, []⟩ rfl _

theorem resolveEventClassFieldClasses_writesWithin (sc : CtfStreamClass) (scIndex ecIndex : Nat)
    (ec : CtfEventClass) (tc : CtfTraceClass) (rootScope : CtfScope) :
    WritesWithin (callRoots (eventClassCalls sc scIndex ecIndex ec)) (.idle tc (some sc) none (streamScopes scIndex) rootScope)
      ((resolveEventClassFieldClasses scIndex ecIndex ec).run
        (.idle tc (some sc) none (streamScopes scIndex) rootScope)) := by
  simp only [resolveEventClassFieldClasses, get_bind_run, ResolveContext.idle, streamScopes, traceScopes,
    Option.isSome_none, Bool.or_false, Bool.false_eq_true, ite_false, pure_bind]
  unfold eventClassCalls
  cases ec.isTranslated with
  | false =>
      simp only [Bool.not_false, ite_true]
      refine writesWithin_tryFinally ?_ fun _ => rfl
      rw [modify_bind_run]
      exact writesWithin_cons (resolveRootClass_run ⟨some sc, some ec, _, .eventCommonContext⟩ tc rootScope)
        (resolveRootClass_writesWithin _ tc rootScope) fun tc rootScope => by
          rw [modify_bind_run]
          exact resolveRootClass_writesWithin ⟨some sc, some ec, _, .eventPayload⟩ tc rootScope
  | true => exact writesWithin_tryFinally (fun _ _ => rfl) fun _ => rfl

theorem resolveEventClasses_writesWithin (sc : CtfStreamClass) (scIndex : Nat) :
    ∀ (ecs : List CtfEventClass) (ecIndex : Nat) (tc : CtfTraceClass) (rootScope : CtfScope),
      WritesWithin (callRoots (eventClassesCalls sc scIndex ecs ecIndex))
        (.idle tc (some sc) none (streamScopes scIndex) rootScope)
        ((resolveEventClasses scIndex ecs ecIndex).run (.idle tc (some sc) none (streamScopes scIndex) rootScope))
  | [], _, _, _ => fun _ _ => rfl
  | ec :: ecs, ecIndex, tc, rootScope =>
      writesWithin_append (resolveEventClassFieldClasses_run sc scIndex ecIndex ec tc rootScope)
        (resolveEventClassFieldClasses_writesWithin sc scIndex ecIndex ec tc rootScope) fun tc rootScope =>
          resolveEventClasses_writesWithin sc scIndex ecs (ecIndex + 1) tc rootScope

theorem resolveStreamClassFieldClasses_writesWithin (scIndex : Nat) (sc : CtfStreamClass) (tc : CtfTraceClass)
    (rootScope : CtfScope) :
    WritesWithin (callRoots (streamClassCalls scIndex sc)) (.idle tc none none traceScopes rootScope)
      ((resolveStreamClassFieldClasses scIndex sc).run (.idle tc none none traceScopes rootScope)) := by
  simp only [resolveStreamClassFieldClasses, get_bind_run, ResolveContext.idle, traceScopes, Option.isSome_none,
    Bool.or_false, Bool.false_eq_true, ite_false, pure_bind, modify_bind_run]
  unfold streamClassCalls
  refine writesWithin_tryFinally ?_ fun _ => rfl
  cases sc.isTranslated with
  | false =>
      simp only [Bool.not_false, ite_true, modify_bind_run]
      refine writesWithin_cons (resolveRootClass_run ⟨some sc, none, _, .packetContext⟩ tc rootScope)
        (resolveRootClass_writesWithin _ tc rootScope) fun tc rootScope => ?_
      rw [modify_bind_run]
      refine writesWithin_cons (resolveRootClass_run ⟨some sc, none, _, .eventHeader⟩ tc rootScope)
        (resolveRootClass_writesWithin _ tc rootScope) fun tc rootScope => ?_
      rw [modify_bind_run]
      refine writesWithin_cons (resolveRootClass_run ⟨some sc, none, _, .eventCommonContext⟩ tc rootScope)
        (resolveRootClass_writesWithin _ tc rootScope) fun tc rootScope => ?_
      rw [modify_bind_run]
      exact resolveEventClasses_writesWithin sc scIndex sc.eventClasses 0 tc rootScope
  | true =>
      simp only [Bool.not_true, Bool.false_eq_true, ite_false, List.nil_append, modify_bind_run]
      exact resolveEventClasses_writesWithin sc scIndex sc.eventClasses 0 tc rootScope

theorem resolveStreamClasses_writesWithin :
    ∀ (scs : List CtfStreamClass) (scIndex : Nat) (tc : CtfTraceClass) (rootScope : CtfScope),
      WritesWithin (callRoots (streamClassesCalls scs scIndex)) (.idle tc none none traceScopes rootScope)
        ((resolveStreamClasses scs scIndex).run (.idle tc none none traceScopes rootScope))
  | [], _, _, _ => fun _ _ => rfl
  | sc :: scs, scIndex, tc, rootScope =>
      writesWithin_append (resolveStreamClassFieldClasses_run scIndex sc tc rootScope)
        (resolveStreamClassFieldClasses_writesWithin scIndex sc tc rootScope) fun tc rootScope =>
          resolveStreamClasses_writesWithin scs (scIndex + 1) tc rootScope

/-- A run of the driver, on either outcome, writes only the roots of the calls
`rootCalls` lists. -/
theorem resolveTraceClass_writesWithin (tc : CtfTraceClass) :
    WritesWithin (callRoots (rootCalls tc)) (ResolveContext.initial tc)
      ((resolveTraceClass tc).run (ResolveContext.initial tc)) := by
  unfold resolveTraceClass rootCalls
  cases tc.isTranslated with
  | false =>
      simp only [Bool.not_false, ite_true, modify_bind_run]
      refine writesWithin_cons (resolveRootClass_run ⟨none, none, traceScopes, .packetHeader⟩ tc .packetHeader)
        (resolveRootClass_writesWithin _ tc .packetHeader) fun tc' rootScope => ?_
      rw [modify_bind_run]
      exact resolveStreamClasses_writesWithin tc.streamClasses 0 tc' rootScope
  | true =>
      simp only [Bool.not_true, Bool.false_eq_true, ite_false, List.nil_append, modify_bind_run]
      exact resolveStreamClasses_writesWithin tc.streamClasses 0 tc .packetHeader

/-! ## The roots the driver resolves -/

/-- The roots of the stream class `sc`, at index `scIndex`, and of its event
classes that the resolver resolves: its packet context and event header when it
is not translated; its event common context when it is not translated or holds
an untranslated event class; the payload of each untranslated event class. No
specific context. -/
def CtfStreamClass.resolvesRoot (sc : CtfStreamClass) (scIndex : Nat) : RootClassRef → Bool
  | .packetContext i | .eventHeader i => i == scIndex && !sc.isTranslated
  | .eventCommonContext i => i == scIndex && (!sc.isTranslated || sc.eventClasses.any (!·.isTranslated))
  | .eventPayload i j => i == scIndex && (sc.eventClasses[j]?.any (!·.isTranslated))
  | .packetHeader | .eventSpecContext _ _ => false

/-- The root classes `ctf_trace_class_resolve_field_classes` resolves: the packet
header of an untranslated trace class, and those of its stream classes. -/
def CtfTraceClass.resolvesRoot (tc : CtfTraceClass) (r : RootClassRef) : Bool :=
  (r == .packetHeader && !tc.isTranslated) || tc.streamClasses.enum.any fun (i, sc) => sc.resolvesRoot i r

theorem eventClassCalls_roots (sc : CtfStreamClass) (scIndex ecIndex : Nat) (ec : CtfEventClass)
    {r : RootClassRef} (resolved : callRoots (eventClassCalls sc scIndex ecIndex ec) r) :
    ec.isTranslated = false ∧ (r = .eventCommonContext scIndex ∨ r = .eventPayload scIndex ecIndex) := by
  unfold eventClassCalls at resolved
  cases translated : ec.isTranslated <;> simp only [translated, Bool.not_false, Bool.not_true, ite_true,
    Bool.false_eq_true, ite_false] at resolved
  · obtain ⟨call, member, root⟩ := resolved
    simp only [List.mem_cons, List.not_mem_nil, or_false] at member
    rcases member with rfl | rfl <;> simp_all [ResolveScopes.get, streamScopes]
  · obtain ⟨call, member, -⟩ := resolved
    cases member

theorem eventClassesCalls_roots (sc : CtfStreamClass) (scIndex : Nat) :
    ∀ (ecs : List CtfEventClass) (ecIndex : Nat) {r : RootClassRef},
      callRoots (eventClassesCalls sc scIndex ecs ecIndex) r →
        (r = .eventCommonContext scIndex ∧ ecs.any (!·.isTranslated)) ∨
          ∃ j, r = .eventPayload scIndex (ecIndex + j) ∧ ecs[j]?.any (!·.isTranslated)
  | [], _, _, resolved => by obtain ⟨_, member, -⟩ := resolved; cases member
  | ec :: ecs, ecIndex, r, resolved => by
      rw [eventClassesCalls, callRoots_append] at resolved
      rcases resolved with here | later
      · obtain ⟨untranslated, rfl | rfl⟩ := eventClassCalls_roots sc scIndex ecIndex ec here
        · exact .inl ⟨rfl, by simp [untranslated]⟩
        · exact .inr ⟨0, rfl, by simp [untranslated]⟩
      · rcases eventClassesCalls_roots sc scIndex ecs (ecIndex + 1) later with ⟨rfl, some⟩ | ⟨j, rfl, untranslated⟩
        · exact .inl ⟨rfl, by simp [some]⟩
        · exact .inr ⟨j + 1, by rw [Nat.add_right_comm, Nat.add_assoc], by simpa using untranslated⟩

theorem streamClassCalls_roots (scIndex : Nat) (sc : CtfStreamClass) {r : RootClassRef}
    (resolved : callRoots (streamClassCalls scIndex sc) r) : sc.resolvesRoot scIndex r = true := by
  rw [streamClassCalls, callRoots_append] at resolved
  rcases resolved with own | events
  · split at own
    · rename_i untranslated
      obtain ⟨call, member, root⟩ := own
      simp only [List.mem_cons, List.not_mem_nil, or_false] at member
      rcases member with rfl | rfl | rfl <;>
        simp only [ResolveScopes.get, streamScopes, traceScopes, Option.some.injEq] at root <;> subst root <;>
        simp [CtfStreamClass.resolvesRoot, untranslated]
    · obtain ⟨_, member, -⟩ := own
      cases member
  · rcases eventClassesCalls_roots sc scIndex sc.eventClasses 0 events with ⟨rfl, some⟩ | ⟨j, rfl, untranslated⟩
    · simp [CtfStreamClass.resolvesRoot, some]
    · simpa [CtfStreamClass.resolvesRoot] using untranslated

theorem streamClassesCalls_roots :
    ∀ (scs : List CtfStreamClass) (scIndex : Nat) {r : RootClassRef},
      callRoots (streamClassesCalls scs scIndex) r → (scs.enumFrom scIndex).any (fun (i, sc) => sc.resolvesRoot i r)
  | [], _, _, resolved => by obtain ⟨_, member, -⟩ := resolved; cases member
  | sc :: scs, scIndex, r, resolved => by
      rw [streamClassesCalls, callRoots_append] at resolved
      rcases resolved with here | later
      · simp [List.enumFrom, streamClassCalls_roots scIndex sc here]
      · simp [List.enumFrom, streamClassesCalls_roots scs (scIndex + 1) later]

/-- Every root a call of the driver resolves is one `resolvesRoot` lists. -/
theorem rootCalls_roots (tc : CtfTraceClass) {r : RootClassRef} (resolved : callRoots (rootCalls tc) r) :
    tc.resolvesRoot r = true := by
  rw [rootCalls, callRoots_append] at resolved
  rcases resolved with trace | streams
  · split at trace
    · obtain ⟨call, member, root⟩ := trace
      simp only [List.mem_singleton] at member
      subst member
      simp_all [ResolveScopes.get, traceScopes, CtfTraceClass.resolvesRoot]
    · obtain ⟨_, member, -⟩ := trace
      cases member
  · simp [CtfTraceClass.resolvesRoot, List.enum, streamClassesCalls_roots tc.streamClasses 0 streams]

theorem eventClassesCalls_of_untranslated (sc : CtfStreamClass) (scIndex : Nat) :
    ∀ (ecs : List CtfEventClass) (ecIndex : Nat),
      (ecs.any (!·.isTranslated) → callRoots (eventClassesCalls sc scIndex ecs ecIndex) (.eventCommonContext scIndex)) ∧
        ∀ j, ecs[j]?.any (!·.isTranslated) →
          callRoots (eventClassesCalls sc scIndex ecs ecIndex) (.eventPayload scIndex (ecIndex + j))
  | [], _ => ⟨by simp, by simp⟩
  | ec :: ecs, ecIndex => by
      have rest := eventClassesCalls_of_untranslated sc scIndex ecs (ecIndex + 1)
      have here : ec.isTranslated = false → ∀ r, r = .eventCommonContext scIndex ∨ r = .eventPayload scIndex ecIndex →
          callRoots (eventClassCalls sc scIndex ecIndex ec) r := by
        rintro untranslated r (rfl | rfl) <;>
          simp [callRoots, eventClassCalls, untranslated, ResolveScopes.get, streamScopes]
      simp only [eventClassesCalls, callRoots_append]
      refine ⟨fun some => ?_, fun j untranslated => ?_⟩
      · cases translated : ec.isTranslated
        · exact .inl (here translated _ (.inl rfl))
        · simp only [List.any_cons, translated, Bool.not_true, Bool.false_or] at some
          exact .inr (rest.1 some)
      · cases j with
        | zero => exact .inl (here (by simpa using untranslated) _ (.inr rfl))
        | succ j =>
            rw [show ecIndex + (j + 1) = ecIndex + 1 + j by omega]
            exact .inr (rest.2 j (by simpa using untranslated))

theorem streamClassCalls_of_resolvesRoot (scIndex : Nat) (sc : CtfStreamClass) {r : RootClassRef}
    (resolved : sc.resolvesRoot scIndex r = true) : callRoots (streamClassCalls scIndex sc) r := by
  have events := eventClassesCalls_of_untranslated sc scIndex sc.eventClasses 0
  have own : sc.isTranslated = false → ∀ r, r = .packetContext scIndex ∨ r = .eventHeader scIndex ∨
      r = .eventCommonContext scIndex → callRoots (streamClassCalls scIndex sc) r := by
    rintro untranslated r (rfl | rfl | rfl) <;>
      simp [callRoots, streamClassCalls, untranslated, ResolveScopes.get, streamScopes, traceScopes]
  have viaEvents : ∀ r, callRoots (eventClassesCalls sc scIndex sc.eventClasses 0) r →
      callRoots (streamClassCalls scIndex sc) r := fun r later => by
    rw [streamClassCalls, callRoots_append]
    exact .inr later
  cases r with
  | packetContext i | eventHeader i =>
      simp only [CtfStreamClass.resolvesRoot, Bool.and_eq_true, beq_iff_eq, Bool.not_eq_true'] at resolved
      obtain ⟨rfl, untranslated⟩ := resolved
      exact own untranslated _ (by simp)
  | eventCommonContext i =>
      simp only [CtfStreamClass.resolvesRoot, Bool.and_eq_true, beq_iff_eq, Bool.or_eq_true,
        Bool.not_eq_true'] at resolved
      obtain ⟨rfl, untranslated | some⟩ := resolved
      · exact own untranslated _ (by simp)
      · exact viaEvents _ (events.1 some)
  | eventPayload i j =>
      simp only [CtfStreamClass.resolvesRoot, Bool.and_eq_true, beq_iff_eq] at resolved
      obtain ⟨rfl, untranslated⟩ := resolved
      exact viaEvents _ (by simpa using events.2 j untranslated)
  | packetHeader | eventSpecContext _ _ => cases resolved

theorem streamClassesCalls_of_resolvesRoot :
    ∀ (scs : List CtfStreamClass) (scIndex : Nat) {r : RootClassRef},
      (scs.enumFrom scIndex).any (fun (i, sc) => sc.resolvesRoot i r) → callRoots (streamClassesCalls scs scIndex) r
  | [], _, _, resolved => by simp at resolved
  | sc :: scs, scIndex, r, resolved => by
      rw [streamClassesCalls, callRoots_append]
      simp only [List.enumFrom, List.any_cons, Bool.or_eq_true] at resolved
      rcases resolved with here | later
      · exact .inl (streamClassCalls_of_resolvesRoot scIndex sc here)
      · exact .inr (streamClassesCalls_of_resolvesRoot scs (scIndex + 1) later)

/-- The driver resolves exactly the roots `resolvesRoot` lists. -/
theorem callRoots_rootCalls_iff (tc : CtfTraceClass) (r : RootClassRef) :
    callRoots (rootCalls tc) r ↔ tc.resolvesRoot r = true := by
  refine ⟨rootCalls_roots tc, fun resolved => ?_⟩
  rw [rootCalls, callRoots_append]
  simp only [CtfTraceClass.resolvesRoot, Bool.or_eq_true, Bool.and_eq_true, beq_iff_eq, Bool.not_eq_true']
    at resolved
  rcases resolved with ⟨rfl, untranslated⟩ | streams
  · exact .inl ⟨⟨none, none, traceScopes, .packetHeader⟩, by simp [untranslated], rfl⟩
  · exact .inr (streamClassesCalls_of_resolvesRoot tc.streamClasses 0 streams)

/-- On either outcome, `ctf_trace_class_resolve_field_classes` leaves every root
class it does not resolve exactly as it got it, stored targets included: the
packet header of a translated trace class, the packet context and event header
of a translated stream class, the event common context of a translated stream
class whose event classes are all translated, the payload of a translated event
class and, whatever the flags, every event specific context. -/
theorem ctfTraceClassResolveFieldClasses_keeps_unresolved_roots (tc : CtfTraceClass) (r : RootClassRef)
    (unresolved : tc.resolvesRoot r = false) :
    (ctfTraceClassResolveFieldClasses tc).2.rootClass r = tc.rootClass r := by
  have writes := resolveTraceClass_writesWithin tc r fun resolved => by
    rw [rootCalls_roots tc resolved] at unresolved
    cases unresolved
  unfold ctfTraceClassResolveFieldClasses
  cases ran : (resolveTraceClass tc).run (ResolveContext.initial tc) <;> rw [ran] at writes <;> exact writes

/-! ## Every node of a resolved root gets a target -/

/-- A node that stores a target of the kind it needs holds a target class. -/
theorem isResolved_of_stores {node targetFc : CtfFieldClass} {target : CtfFieldPath}
    (stores : node.Stores target targetFc) (typed : validateTargetFieldClass targetFc node = .ok ()) :
    node.isResolved = true := by
  have kind := targetKind_of_validate typed
  cases node with
  | sequence =>
      obtain ⟨intFc, isInt, -⟩ := kind
      simp [CtfFieldClass.isResolved, stores.2, isInt]
  | variant =>
      obtain ⟨enumFc, rfl⟩ := kind
      simp [CtfFieldClass.isResolved, stores.2, CtfFieldClass.asEnum]
  | _ => exact stores.elim

/-- Every sequence and variant of the root class `r`, at a position that takes
-1 at every array or sequence, holds a target class. -/
def AllResolved (tc : CtfTraceClass) (r : RootClassRef) : Prop :=
  ∀ rootFc, tc.rootClass r = some rootFc → ∀ pos node, rootFc.borrowFieldClassByPath pos = some node →
    ArraySteps rootFc pos → node.isSequenceOrVariant = true → node.isResolved = true

/-- A successful call resolves every node of the root it rewrites. -/
theorem runRootCall_allResolved {tc tc' : CtfTraceClass} {call : RootCall} {r : RootClassRef}
    (ran : runRootCall tc call = .ok tc') (scope : call.scopes.get call.rootScope = some r) : AllResolved tc' r := by
  intro rootFc' root' pos node' reached' steps' kind'
  unfold runRootCall at ran
  simp only [scope] at ran
  cases root : tc.rootClass r with
  | none =>
      simp only [root] at ran
      cases ran
      rw [root] at root'
      cases root'
  | some rootFc =>
      simp only [root] at ran
      obtain ⟨rebuiltFc, rebuilt, rfl⟩ := except_map_eq_ok.mp ran
      rw [rootClass_modifyRootClass_self, root, Option.map_some', Option.some.injEq] at root'
      subst root'
      have sameRoot := eraseTargets_resolveTargets _ [] rootFc _ rebuilt
      obtain ⟨node, reached, sameNode⟩ := borrowFieldClassByPath_congr sameRoot reached'
      have steps : ArraySteps rootFc pos := by
        rw [← arraySteps_eraseTargets, ← sameRoot, arraySteps_eraseTargets]
        exact steps'
      have kind : node.isSequenceOrVariant = true := by
        rw [← isSequenceOrVariant_eraseTargets, ← sameNode, isSequenceOrVariant_eraseTargets]
        exact kind'
      obtain ⟨⟨target, targetFc⟩, node'', looked, reached'', stores⟩ :=
        resolveTargets_stores _ [] rootFc _ rebuilt pos node reached steps kind
      rw [reached', Option.some.injEq] at reached''
      subst reached''
      obtain ⟨_, _, _, _, valid⟩ := resolveSequenceOrVariantTarget_ok looked
      refine isResolved_of_stores stores ?_
      rw [← validateTargetFieldClass_eraseTargets, sameNode, validateTargetFieldClass_eraseTargets]
      exact (validateTargetFieldPath_ok valid).2.2.2

/-- A successful fold is a successful first call and a successful fold of the rest. -/
theorem runRootCalls_cons_eq_ok {tc tc' : CtfTraceClass} {call : RootCall} {calls : List RootCall}
    (ran : runRootCalls tc (call :: calls) = .ok tc') :
    ∃ tc1, runRootCall tc call = .ok tc1 ∧ runRootCalls tc1 calls = .ok tc' := by
  rw [runRootCalls_cons] at ran
  cases called : runRootCall tc call with
  | error e => rw [called] at ran; cases ran
  | ok tc1 => exact ⟨tc1, rfl, by rwa [called] at ran⟩

/-- A successful call keeps every root it does not resolve. -/
theorem runRootCall_rootClass_of_ne {tc tc' : CtfTraceClass} {call : RootCall} {r : RootClassRef}
    (ran : runRootCall tc call = .ok tc') (other : call.scopes.get call.rootScope ≠ some r) :
    tc'.rootClass r = tc.rootClass r := by
  unfold runRootCall at ran
  split at ran
  · cases ran
    rfl
  · rename_i rootRef scope
    split at ran
    · cases ran
      rfl
    · obtain ⟨rebuiltFc, -, rfl⟩ := except_map_eq_ok.mp ran
      exact rootClass_modifyRootClass_of_ne _ _ fun same => other (scope.trans (congrArg some same))

theorem runRootCalls_keeps_allResolved {r : RootClassRef} :
    ∀ (calls : List RootCall) (tc tc' : CtfTraceClass), runRootCalls tc calls = .ok tc' → AllResolved tc r →
      AllResolved tc' r
  | [], _, _, ran, resolved => by cases ran; exact resolved
  | call :: calls, tc, tc', ran, resolved => by
      obtain ⟨tc1, called, rest⟩ := runRootCalls_cons_eq_ok ran
      refine runRootCalls_keeps_allResolved calls tc1 tc' rest ?_
      by_cases scope : call.scopes.get call.rootScope = some r
      · exact runRootCall_allResolved called scope
      · rw [AllResolved, runRootCall_rootClass_of_ne called scope]
        exact resolved

/-- A successful fold resolves every node of every root one of its calls
resolves, whatever the calls after it. -/
theorem runRootCalls_allResolved {r : RootClassRef} :
    ∀ (calls : List RootCall) (tc tc' : CtfTraceClass), runRootCalls tc calls = .ok tc' → callRoots calls r →
      AllResolved tc' r
  | [], _, _, _, resolved => by obtain ⟨_, member, -⟩ := resolved; cases member
  | call :: calls, tc, tc', ran, resolved => by
      obtain ⟨tc1, called, rest⟩ := runRootCalls_cons_eq_ok ran
      by_cases later : callRoots calls r
      · exact runRootCalls_allResolved calls tc1 tc' rest later
      · obtain ⟨call', member, scope⟩ := resolved
        rcases List.mem_cons.mp member with rfl | member
        · exact runRootCalls_keeps_allResolved calls tc1 tc' rest (runRootCall_allResolved called scope)
        · exact absurd ⟨call', member, scope⟩ later

/-- After a successful run of `ctf_trace_class_resolve_field_classes`, every
sequence and variant of every root class it resolves, at a position that takes
-1 at every array or sequence, holds a length or tag class: in the packet header
of an untranslated trace class, the packet context and event header of an
untranslated stream class, the event common context of a stream class that is
untranslated or holds an untranslated event class, and the payload of an
untranslated event class. A specific context is not among them. -/
theorem ctfTraceClassResolveFieldClasses_resolves_roots {tc tc' : CtfTraceClass}
    (ran : ctfTraceClassResolveFieldClasses tc = (.ok (), tc')) {r : RootClassRef}
    (resolved : tc.resolvesRoot r = true) {rootFc : CtfFieldClass} (root : tc'.rootClass r = some rootFc)
    {pos : List Int} {node : CtfFieldClass} (reached : rootFc.borrowFieldClassByPath pos = some node)
    (steps : ArraySteps rootFc pos) (kind : node.isSequenceOrVariant = true) : node.isResolved = true :=
  runRootCalls_allResolved _ tc tc' (runRootCalls_of_resolveFieldClasses ran)
    ((callRoots_rootCalls_iff tc r).2 resolved) rootFc root pos node reached steps kind

theorem siblingOptionData_resolved :
    ctfTraceClassResolveFieldClasses ⟨some siblingOptionHeader, [], false⟩ =
        (.ok (), ⟨some siblingOptionHeaderResolved, [], false⟩) ∧
      CtfTraceClass.resolvesRoot ⟨some siblingOptionHeader, [], false⟩ .packetHeader = true ∧
      (⟨some siblingOptionHeaderResolved, [], false⟩ : CtfTraceClass).rootClass .packetHeader =
        some siblingOptionHeaderResolved ∧
      siblingOptionHeaderResolved.borrowFieldClassByPath [1, 1] = some siblingOptionData ∧
      ArraySteps siblingOptionHeaderResolved [1, 1] ∧ siblingOptionData.isSequenceOrVariant = true ∧
      siblingOptionData.isResolved = true :=
  ⟨siblingOptionHeader_resolves, rfl, rfl, rfl, siblingOptionData_steps, rfl,
    ctfTraceClassResolveFieldClasses_resolves_roots (r := .packetHeader) siblingOptionHeader_resolves rfl rfl
      (by rfl) siblingOptionData_steps rfl⟩

/-- An untranslated event class whose specific context holds a sequence that
takes its length from an earlier member. -/
def sequenceInSpecificContext : CtfTraceClass :=
  ⟨none, [⟨none, none, none, [⟨some (lengthBeforeSequence "len"), none, false⟩], false⟩], false⟩

theorem sequenceInSpecificContext_kept :
    sequenceInSpecificContext.resolvesRoot (.eventSpecContext 0 0) = false ∧
      (ctfTraceClassResolveFieldClasses sequenceInSpecificContext).2.rootClass (.eventSpecContext 0 0) =
        sequenceInSpecificContext.rootClass (.eventSpecContext 0 0) :=
  ⟨rfl, ctfTraceClassResolveFieldClasses_keeps_unresolved_roots _ _ rfl⟩


/-! ## Stored targets are never read -/

theorem callRoots_eraseTargets (calls : List RootCall) (r : RootClassRef) :
    callRoots (calls.map RootCall.eraseTargets) r ↔ callRoots calls r := by
  simp [callRoots, RootCall.eraseTargets]

/-- A successful fold keeps every root none of its calls resolves. -/
theorem runRootCalls_rootClass_of_not_callRoots {r : RootClassRef} :
    ∀ (calls : List RootCall) (tc tc' : CtfTraceClass), runRootCalls tc calls = .ok tc' → ¬callRoots calls r →
      tc'.rootClass r = tc.rootClass r
  | [], _, _, ran, _ => by cases ran; rfl
  | call :: calls, tc, tc', ran, unresolved => by
      obtain ⟨tc1, called, rest⟩ := runRootCalls_cons_eq_ok ran
      rw [runRootCalls_rootClass_of_not_callRoots calls tc1 tc' rest
          fun ⟨call', member, scope⟩ => unresolved ⟨call', List.mem_cons_of_mem _ member, scope⟩,
        runRootCall_rootClass_of_ne called fun scope => unresolved ⟨call, List.mem_cons_self _ _, scope⟩]

/-- Folds of alike calls on trace classes alike after erasing leave the same
class at every root one of the calls resolves: the last call to resolve it
writes the same value in both, and the calls after it keep it. -/
theorem runRootCalls_rootClass_alike {r : RootClassRef} :
    ∀ (calls calls' : List RootCall) (tc u tc' u' : CtfTraceClass),
      calls.map RootCall.eraseTargets = calls'.map RootCall.eraseTargets → tc.eraseTargets = u.eraseTargets →
        runRootCalls tc calls = .ok tc' → runRootCalls u calls' = .ok u' → callRoots calls r →
          u'.rootClass r = tc'.rootClass r
  | [], _, _, _, _, _, _, _, _, _, resolved => by obtain ⟨_, member, -⟩ := resolved; cases member
  | _ :: _, [], _, _, _, _, sameCalls, _, _, _, _ => by cases sameCalls
  | call :: calls, call' :: calls', tc, u, tc', u', sameCalls, same, ran, ran', resolved => by
      simp only [List.map_cons, List.cons.injEq] at sameCalls
      obtain ⟨tc1, called, rest⟩ := runRootCalls_cons_eq_ok ran
      obtain ⟨u1, called', rest'⟩ := runRootCalls_cons_eq_ok ran'
      have sameAfter : tc1.eraseTargets = u1.eraseTargets := by
        rw [runRootCall_eraseTargets called, runRootCall_eraseTargets called', same]
      by_cases later : callRoots calls r
      · exact runRootCalls_rootClass_alike calls calls' tc1 u1 tc' u' sameCalls.2 sameAfter rest rest' later
      · obtain ⟨c, member, scope⟩ := resolved
        rcases List.mem_cons.mp member with rfl | member
        · have later' : ¬callRoots calls' r := by
            rwa [← callRoots_eraseTargets, ← sameCalls.2, callRoots_eraseTargets]
          rw [runRootCalls_rootClass_of_not_callRoots calls tc1 tc' rest later,
            runRootCalls_rootClass_of_not_callRoots calls' u1 u' rest' later']
          exact runRootCall_rootClass_alike same sameCalls.1 called called' scope
        · exact absurd ⟨c, member, scope⟩ later

/-- A failed fold of the driver's calls failed on a reference. -/
theorem runRootCalls_eq_error {tc : CtfTraceClass} {calls : List RootCall} {e : ResolveError}
    (ran : runRootCalls tc calls = .error e) : e = .failed := by
  cases e
  · rfl
  · exact absurd ran (runRootCalls_ne_aborted calls tc)

/-- What `ctf_trace_class_resolve_field_classes` does never depends on the
targets its input stores: on two trace classes alike once their stored targets
are erased it returns the same value and, on success, leaves the same class at
every root it resolves. A stale or wrong stored target is recomputed, never read. -/
theorem ctfTraceClassResolveFieldClasses_ignores_stored_targets {tc u : CtfTraceClass}
    (same : tc.eraseTargets = u.eraseTargets) :
    (ctfTraceClassResolveFieldClasses u).1 = (ctfTraceClassResolveFieldClasses tc).1 ∧
      ∀ tc', ctfTraceClassResolveFieldClasses tc = (.ok (), tc') →
        ∃ u', ctfTraceClassResolveFieldClasses u = (.ok (), u') ∧
          ∀ r, tc.resolvesRoot r = true → u'.rootClass r = tc'.rootClass r := by
  have sameCalls : (rootCalls tc).map RootCall.eraseTargets = (rootCalls u).map RootCall.eraseTargets := by
    rw [← rootCalls_eraseTargets, ← rootCalls_eraseTargets, same]
  refine ⟨?_, fun tc' ran => ?_⟩
  · rw [ctfTraceClassResolveFieldClasses_fst, ctfTraceClassResolveFieldClasses_fst]
    cases folded : runRootCalls tc (rootCalls tc) with
    | ok tc' =>
        obtain ⟨_, -, replayed⟩ := runRootCalls_replay _ _ tc u _ sameCalls same folded
        rw [replayed]
        rfl
    | error e =>
        cases folded' : runRootCalls u (rootCalls u) with
        | ok u' =>
            obtain ⟨_, -, replayed⟩ := runRootCalls_replay _ _ u tc _ sameCalls.symm same.symm folded'
            rw [folded] at replayed
            cases replayed
        | error e' => rw [runRootCalls_eq_error folded, runRootCalls_eq_error folded']
  · have folded := runRootCalls_of_resolveFieldClasses ran
    obtain ⟨_, -, replayed⟩ := runRootCalls_replay _ _ tc u _ sameCalls same folded
    exact ⟨_, ctfTraceClassResolveFieldClasses_of_ok replayed, fun r resolved =>
      runRootCalls_rootClass_alike _ _ tc u _ _ sameCalls same folded replayed
        ((callRoots_rootCalls_iff tc r).2 resolved)⟩

/-- A packet header `{ len, data : sequence<uint8>[len] }` whose sequence
stores a stale target, the length of an event payload. -/
def staleLengthHeader : CtfTraceClass :=
  ⟨some (lengthBeforeSequenceResolved "len" .eventPayload), [], false⟩

theorem staleLengthHeader_recomputed :
    CtfTraceClass.eraseTargets ⟨some (lengthBeforeSequence "len"), [], false⟩ = staleLengthHeader.eraseTargets ∧
      (ctfTraceClassResolveFieldClasses staleLengthHeader).1 =
          (ctfTraceClassResolveFieldClasses ⟨some (lengthBeforeSequence "len"), [], false⟩).1 ∧
        ∀ tc', ctfTraceClassResolveFieldClasses ⟨some (lengthBeforeSequence "len"), [], false⟩ = (.ok (), tc') →
          ∃ u', ctfTraceClassResolveFieldClasses staleLengthHeader = (.ok (), u') ∧
            ∀ r, CtfTraceClass.resolvesRoot ⟨some (lengthBeforeSequence "len"), [], false⟩ r = true →
              u'.rootClass r = tc'.rootClass r :=
  have same : CtfTraceClass.eraseTargets ⟨some (lengthBeforeSequence "len"), [], false⟩ =
      staleLengthHeader.eraseTargets := rfl
  ⟨same, ctfTraceClassResolveFieldClasses_ignores_stored_targets same⟩

end Btrace.Ctf
