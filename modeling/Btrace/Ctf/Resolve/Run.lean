import Btrace.Ctf.Resolve.Traversal

set_option autoImplicit false

/- The driver of `ctf_trace_class_resolve_field_classes` as the list of calls
of `resolve_root_class` it makes: each call is fixed by the stream class, the
event class and the scope pointers the driver has set, and by the scope it
resolves. A run of the driver is the fold of `runRootCall` over `rootCalls`
(`ctfTraceClassResolveFieldClasses_fst`, `ctfTraceClassResolveFieldClasses_of_ok`). -/
namespace Btrace.Ctf

open CtfFieldClass CtfTraceClass

/-- What a call of `resolve_root_class` reads from the context besides the
trace class: the current stream and event classes, the scope pointers, and the
scope it resolves. -/
structure RootCall where
  sc : Option CtfStreamClass
  ec : Option CtfEventClass
  scopes : ResolveScopes
  rootScope : CtfScope

/-- A context between two calls of `resolve_root_class`: nothing on the stack. -/
def ResolveContext.idle (tc : CtfTraceClass) (sc : Option CtfStreamClass) (ec : Option CtfEventClass)
    (scopes : ResolveScopes) (rootScope : CtfScope) : ResolveContext :=
  ⟨tc, sc, ec, scopes, rootScope, []⟩

/-- The context a call runs in, once it has set its root scope. -/
def RootCall.context (call : RootCall) (tc : CtfTraceClass) : ResolveContext :=
  .idle tc call.sc call.ec call.scopes call.rootScope

/-- One call of `resolve_root_class`: the root class its scope points to,
rebuilt by the traversal and stored back, or the trace class unchanged when the
scope has no root class. -/
def runRootCall (tc : CtfTraceClass) (call : RootCall) : Except ResolveError CtfTraceClass :=
  match call.scopes.get call.rootScope with
  | none => .ok tc
  | some rootRef =>
      match tc.rootClass rootRef with
      | none => .ok tc
      | some rootFc => (resolveTargets (nodeTarget (call.context tc) rootFc) [] rootFc).map fun rootFc' =>
          tc.modifyRootClass (fun _ => rootFc') rootRef

/-- The calls one after the other, stopping at the first failure. -/
def runRootCalls (tc : CtfTraceClass) (calls : List RootCall) : Except ResolveError CtfTraceClass :=
  calls.foldlM runRootCall tc

@[simp] theorem runRootCalls_nil (tc : CtfTraceClass) : runRootCalls tc [] = .ok tc := rfl

theorem runRootCalls_cons (tc : CtfTraceClass) (call : RootCall) (calls : List RootCall) :
    runRootCalls tc (call :: calls) = (runRootCall tc call).bind (runRootCalls · calls) := rfl

theorem runRootCalls_append (tc : CtfTraceClass) (first rest : List RootCall) :
    runRootCalls tc (first ++ rest) = (runRootCalls tc first).bind (runRootCalls · rest) :=
  List.foldlM_append _ _ _ _

/-- A call keeps what erasing keeps. -/
theorem runRootCall_eraseTargets {tc tc' : CtfTraceClass} {call : RootCall} (ran : runRootCall tc call = .ok tc') :
    tc'.eraseTargets = tc.eraseTargets := by
  unfold runRootCall at ran
  split at ran
  · cases ran
    rfl
  · split at ran
    · cases ran
      rfl
    · rename_i rootRef _ rootFc root
      obtain ⟨rootFc', resolved, rfl⟩ := except_map_eq_ok.mp ran
      apply eraseTargets_modifyRootClass
      intro x found
      rw [root] at found
      cases found
      exact eraseTargets_resolveTargets _ [] rootFc rootFc' resolved

theorem runRootCalls_eraseTargets :
    ∀ (calls : List RootCall) (tc tc' : CtfTraceClass), runRootCalls tc calls = .ok tc' →
      tc'.eraseTargets = tc.eraseTargets
  | [], _, _, ran => by cases ran; rfl
  | call :: calls, tc, tc', ran => by
      rw [runRootCalls_cons] at ran
      cases called : runRootCall tc call with
      | error e => rw [called] at ran; cases ran
      | ok tc1 =>
          rw [called] at ran
          exact (runRootCalls_eraseTargets calls tc1 tc' ran).trans (runRootCall_eraseTargets called)

/-- The scope pointers outside any stream class. -/
def traceScopes : ResolveScopes := ⟨some .packetHeader, none, none, none, none, none⟩

/-- The scope pointers while the event classes of stream class `scIndex` are
visited. -/
def streamScopes (scIndex : Nat) : ResolveScopes :=
  { traceScopes with
    packetContext := some (.packetContext scIndex)
    eventHeader := some (.eventHeader scIndex)
    eventCommonContext := some (.eventCommonContext scIndex) }

/-- The calls of `resolve_event_class_field_classes`: none for a translated
event class; otherwise the common context, with the specific-context pointer
set, then the payload. -/
def eventClassCalls (sc : CtfStreamClass) (scIndex ecIndex : Nat) (ec : CtfEventClass) : List RootCall :=
  let specScopes := { streamScopes scIndex with eventSpecContext := some (.eventSpecContext scIndex ecIndex) }
  if !ec.isTranslated then
    [⟨some sc, some ec, specScopes, .eventCommonContext⟩,
      ⟨some sc, some ec, { specScopes with eventPayload := some (.eventPayload scIndex ecIndex) }, .eventPayload⟩]
  else []

def eventClassesCalls (sc : CtfStreamClass) (scIndex : Nat) : List CtfEventClass → Nat → List RootCall
  | [], _ => []
  | ec :: ecs, ecIndex => eventClassCalls sc scIndex ecIndex ec ++ eventClassesCalls sc scIndex ecs (ecIndex + 1)

/-- The calls of `resolve_stream_class_field_classes`: the stream class's own
roots when it is not translated, then those of its event classes. -/
def streamClassCalls (scIndex : Nat) (sc : CtfStreamClass) : List RootCall :=
  let pcScopes := { traceScopes with packetContext := some (.packetContext scIndex) }
  (if !sc.isTranslated then
    [⟨some sc, none, pcScopes, .packetContext⟩,
      ⟨some sc, none, { pcScopes with eventHeader := some (.eventHeader scIndex) }, .eventHeader⟩,
      ⟨some sc, none, streamScopes scIndex, .eventCommonContext⟩]
  else []) ++ eventClassesCalls sc scIndex sc.eventClasses 0

def streamClassesCalls : List CtfStreamClass → Nat → List RootCall
  | [], _ => []
  | sc :: scs, scIndex => streamClassCalls scIndex sc ++ streamClassesCalls scs (scIndex + 1)

/-- Every call of `resolve_root_class` a run of `ctf_trace_class_resolve_field_classes`
makes, in order. -/
def rootCalls (tc : CtfTraceClass) : List RootCall :=
  (if !tc.isTranslated then [⟨none, none, traceScopes, .packetHeader⟩] else []) ++
    streamClassesCalls tc.streamClasses 0

/-- How a run of a part of the driver ends: on success idle again, with the
given stream class, event class and scope pointers and the trace class
`outcome` gives (the root scope the last call set is not read again); on
failure with its error. -/
def Leaves (result : EStateM.Result ResolveError ResolveContext Unit) (sc : Option CtfStreamClass)
    (ec : Option CtfEventClass) (scopes : ResolveScopes) : Except ResolveError CtfTraceClass → Prop
  | .ok tc => ∃ rootScope, result = .ok () (.idle tc sc ec scopes rootScope)
  | .error e => ∃ s', result = .error e s'

section DriverRunLemmas

variable {α : Type} {s : ResolveContext} {sc sc' : Option CtfStreamClass} {ec ec' : Option CtfEventClass}
  {scopes scopes' : ResolveScopes}

@[simp] theorem get_bind_run (f : ResolveContext → ResolveM α) :
    ((get : ResolveM ResolveContext) >>= f).run s = (f s).run s := rfl

@[simp] theorem modify_bind_run (g : ResolveContext → ResolveContext) (f : PUnit → ResolveM α) :
    ((modify g : ResolveM PUnit) >>= f).run s = (f ()).run (g s) := rfl

theorem tryFinally_run_of_ok {x : ResolveM Unit} {g : ResolveContext → ResolveContext} {s' : ResolveContext}
    (ran : x.run s = .ok () s') : (tryFinally x (modify g)).run s = .ok () (g s') := by
  simp only [resolveM_run] at ran ⊢
  simp [tryFinally, MonadFinally.tryFinally', ran, bind, EStateM.bind, modify, modifyGet,
    MonadStateOf.modifyGet, EStateM.modifyGet, Functor.map, EStateM.map]

theorem tryFinally_run_of_error {x : ResolveM Unit} {g : ResolveContext → ResolveContext} {s' : ResolveContext}
    {e : ResolveError} (ran : x.run s = .error e s') : (tryFinally x (modify g)).run s = .error e (g s') := by
  simp only [resolveM_run] at ran ⊢
  simp [tryFinally, MonadFinally.tryFinally', ran, bind, EStateM.bind, modify, modifyGet,
    MonadStateOf.modifyGet, EStateM.modifyGet, Functor.map, EStateM.map]

theorem leaves_of_endsAs {result : EStateM.Result ResolveError ResolveContext Unit} {tc : CtfTraceClass}
    {rootScope : CtfScope} {outcome : Except ResolveError CtfTraceClass}
    (ends : EndsAs result (.idle tc sc ec scopes rootScope) outcome) : Leaves result sc ec scopes outcome := by
  cases outcome with
  | ok tc' => exact ⟨rootScope, ends⟩
  | error e => exact ends

theorem leaves_bind {x : ResolveM Unit} {f : PUnit → ResolveM Unit} {first : Except ResolveError CtfTraceClass}
    {rest : CtfTraceClass → Except ResolveError CtfTraceClass} (ran : Leaves (x.run s) sc ec scopes first)
    (next : ∀ tc rootScope, Leaves ((f ()).run (.idle tc sc ec scopes rootScope)) sc' ec' scopes' (rest tc)) :
    Leaves ((x >>= f).run s) sc' ec' scopes' (first.bind rest) := by
  cases first with
  | ok tc =>
      obtain ⟨rootScope, done⟩ := ran
      rw [run_bind_of_ok done]
      exact next tc rootScope
  | error e =>
      obtain ⟨s', failed⟩ := ran
      exact ⟨s', run_bind_of_error failed⟩

theorem leaves_append {x : ResolveM Unit} {f : PUnit → ResolveM Unit} {tc : CtfTraceClass}
    {first rest : List RootCall} (ran : Leaves (x.run s) sc ec scopes (runRootCalls tc first))
    (next : ∀ tc rootScope, Leaves ((f ()).run (.idle tc sc ec scopes rootScope)) sc' ec' scopes'
      (runRootCalls tc rest)) :
    Leaves ((x >>= f).run s) sc' ec' scopes' (runRootCalls tc (first ++ rest)) := by
  rw [runRootCalls_append]
  exact leaves_bind ran next

theorem leaves_cons {x : ResolveM Unit} {f : PUnit → ResolveM Unit} {tc : CtfTraceClass} {call : RootCall}
    {rest : List RootCall} (ran : Leaves (x.run s) sc ec scopes (runRootCalls tc [call]))
    (next : ∀ tc rootScope, Leaves ((f ()).run (.idle tc sc ec scopes rootScope)) sc' ec' scopes'
      (runRootCalls tc rest)) :
    Leaves ((x >>= f).run s) sc' ec' scopes' (runRootCalls tc (call :: rest)) :=
  leaves_append ran next

theorem leaves_tryFinally (sc : Option CtfStreamClass) (ec : Option CtfEventClass) (scopes : ResolveScopes)
    {x : ResolveM Unit} {g : ResolveContext → ResolveContext}
    {outcome : Except ResolveError CtfTraceClass} (body : Leaves (x.run s) sc ec scopes outcome)
    (resets : ∀ tc rootScope, g (.idle tc sc ec scopes rootScope) = .idle tc sc' ec' scopes' rootScope) :
    Leaves ((tryFinally x (modify g)).run s) sc' ec' scopes' outcome := by
  cases outcome with
  | ok tc =>
      obtain ⟨rootScope, ran⟩ := body
      exact ⟨rootScope, (tryFinally_run_of_ok ran).trans (congrArg _ (resets tc rootScope))⟩
  | error e =>
      obtain ⟨s', ran⟩ := body
      exact ⟨g s', tryFinally_run_of_error ran⟩

end DriverRunLemmas

theorem resolveRootClass_run_eq (rootScope : CtfScope) (s : ResolveContext) (empty : s.fieldClassStack = []) :
    (resolveRootClass rootScope).run s =
      (match s.scopes.get rootScope with
        | none => pure ()
        | some rootRef =>
            match s.tc.rootClass rootRef with
            | none => pure ()
            | some fc => resolveFieldClass fc ⟨rootRef, []⟩ : ResolveM Unit).run { s with rootScope := rootScope } := by
  obtain ⟨tc, sc, ec, scopes, _, stack⟩ := s
  subst empty
  rfl

/-- `resolve_root_class` from an idle context is `runRootCall`. -/
theorem resolveRootClass_run (call : RootCall) (tc : CtfTraceClass) (rootScope : CtfScope) :
    Leaves ((resolveRootClass call.rootScope).run (.idle tc call.sc call.ec call.scopes rootScope))
      call.sc call.ec call.scopes (runRootCalls tc [call]) := by
  rw [resolveRootClass_run_eq _ _ rfl]
  dsimp only [ResolveContext.idle, runRootCalls, List.foldlM, runRootCall]
  cases scope : call.scopes.get call.rootScope with
  | none => exact ⟨call.rootScope, rfl⟩
  | some rootRef =>
      dsimp only
      cases root : tc.rootClass rootRef with
      | none => exact ⟨call.rootScope, rfl⟩
      | some rootFc =>
          dsimp only
          have current : tc.fieldClass ⟨rootRef, []⟩ = some rootFc := by simp [fieldClass, root]
          have ends := resolveFieldClass_run (call.context tc) rootRef rootFc rootFc [] tc rfl
            (arraySteps_nil rootFc) current rfl
          cases resolved : resolveTargets (nodeTarget (call.context tc) rootFc) [] rootFc <;>
            rw [resolved] at ends <;> exact leaves_of_endsAs ends

/-- `resolve_event_class_field_classes` from an idle context of stream class
`scIndex` makes the calls `eventClassCalls` lists, and leaves the context as it
found it. -/
theorem resolveEventClassFieldClasses_run (sc : CtfStreamClass) (scIndex ecIndex : Nat) (ec : CtfEventClass)
    (tc : CtfTraceClass) (rootScope : CtfScope) :
    Leaves ((resolveEventClassFieldClasses scIndex ecIndex ec).run
        (.idle tc (some sc) none (streamScopes scIndex) rootScope))
      (some sc) none (streamScopes scIndex) (runRootCalls tc (eventClassCalls sc scIndex ecIndex ec)) := by
  simp only [resolveEventClassFieldClasses, get_bind_run, ResolveContext.idle, streamScopes, traceScopes,
    Option.isSome_none, Bool.or_false, Bool.false_eq_true, ite_false, pure_bind]
  unfold eventClassCalls
  cases ec.isTranslated with
  | false =>
      simp only [Bool.not_false, ite_true]
      refine leaves_tryFinally (some sc) (some ec)
        { streamScopes scIndex with
          eventSpecContext := some (.eventSpecContext scIndex ecIndex)
          eventPayload := some (.eventPayload scIndex ecIndex) } ?_ fun _ _ => rfl
      rw [modify_bind_run]
      exact leaves_cons (resolveRootClass_run ⟨some sc, some ec, _, .eventCommonContext⟩ tc rootScope)
        fun tc rootScope => by
          rw [modify_bind_run]
          exact resolveRootClass_run ⟨some sc, some ec, _, .eventPayload⟩ tc rootScope
  | true => exact leaves_tryFinally (some sc) none (streamScopes scIndex) ⟨rootScope, rfl⟩ fun _ _ => rfl

theorem resolveEventClasses_run (sc : CtfStreamClass) (scIndex : Nat) :
    ∀ (ecs : List CtfEventClass) (ecIndex : Nat) (tc : CtfTraceClass) (rootScope : CtfScope),
      Leaves ((resolveEventClasses scIndex ecs ecIndex).run
          (.idle tc (some sc) none (streamScopes scIndex) rootScope))
        (some sc) none (streamScopes scIndex) (runRootCalls tc (eventClassesCalls sc scIndex ecs ecIndex))
  | [], _, _, rootScope => ⟨rootScope, rfl⟩
  | ec :: ecs, ecIndex, tc, rootScope =>
      leaves_append (resolveEventClassFieldClasses_run sc scIndex ecIndex ec tc rootScope) fun tc rootScope =>
        resolveEventClasses_run sc scIndex ecs (ecIndex + 1) tc rootScope

/-- `resolve_stream_class_field_classes` from an idle context outside any
stream class makes the calls `streamClassCalls` lists, and leaves the context
as it found it. -/
theorem resolveStreamClassFieldClasses_run (scIndex : Nat) (sc : CtfStreamClass) (tc : CtfTraceClass)
    (rootScope : CtfScope) :
    Leaves ((resolveStreamClassFieldClasses scIndex sc).run (.idle tc none none traceScopes rootScope))
      none none traceScopes (runRootCalls tc (streamClassCalls scIndex sc)) := by
  simp only [resolveStreamClassFieldClasses, get_bind_run, ResolveContext.idle, traceScopes, Option.isSome_none,
    Bool.or_false, Bool.false_eq_true, ite_false, pure_bind, modify_bind_run]
  unfold streamClassCalls
  refine leaves_tryFinally (some sc) none (streamScopes scIndex) ?_ fun _ _ => rfl
  cases sc.isTranslated with
  | false =>
      simp only [Bool.not_false, ite_true, modify_bind_run]
      refine leaves_cons (resolveRootClass_run ⟨some sc, none, _, .packetContext⟩ tc rootScope)
        fun tc rootScope => ?_
      rw [modify_bind_run]
      refine leaves_cons (resolveRootClass_run ⟨some sc, none, _, .eventHeader⟩ tc rootScope)
        fun tc rootScope => ?_
      rw [modify_bind_run]
      refine leaves_cons (resolveRootClass_run ⟨some sc, none, _, .eventCommonContext⟩ tc rootScope)
        fun tc rootScope => ?_
      rw [modify_bind_run]
      exact resolveEventClasses_run sc scIndex sc.eventClasses 0 tc rootScope
  | true =>
      simp only [Bool.not_true, Bool.false_eq_true, ite_false, List.nil_append, modify_bind_run]
      exact resolveEventClasses_run sc scIndex sc.eventClasses 0 tc rootScope

theorem resolveStreamClasses_run :
    ∀ (scs : List CtfStreamClass) (scIndex : Nat) (tc : CtfTraceClass) (rootScope : CtfScope),
      Leaves ((resolveStreamClasses scs scIndex).run (.idle tc none none traceScopes rootScope))
        none none traceScopes (runRootCalls tc (streamClassesCalls scs scIndex))
  | [], _, _, rootScope => ⟨rootScope, rfl⟩
  | sc :: scs, scIndex, tc, rootScope =>
      leaves_append (resolveStreamClassFieldClasses_run scIndex sc tc rootScope) fun tc rootScope =>
        resolveStreamClasses_run scs (scIndex + 1) tc rootScope

theorem resolveTraceClass_run (tc : CtfTraceClass) :
    Leaves ((resolveTraceClass tc).run (ResolveContext.initial tc)) none none traceScopes
      (runRootCalls tc (rootCalls tc)) := by
  unfold resolveTraceClass rootCalls
  cases tc.isTranslated with
  | false =>
      simp only [Bool.not_false, ite_true, modify_bind_run]
      refine leaves_cons (resolveRootClass_run ⟨none, none, traceScopes, .packetHeader⟩ tc .packetHeader)
        fun tc' rootScope => ?_
      rw [modify_bind_run]
      exact resolveStreamClasses_run tc.streamClasses 0 tc' rootScope
  | true =>
      simp only [Bool.not_true, Bool.false_eq_true, ite_false, List.nil_append, modify_bind_run]
      exact resolveStreamClasses_run tc.streamClasses 0 tc .packetHeader

/-- A run of `ctf_trace_class_resolve_field_classes` returns what the fold of
its root calls returns. -/
theorem ctfTraceClassResolveFieldClasses_fst (tc : CtfTraceClass) :
    (ctfTraceClassResolveFieldClasses tc).1 = (runRootCalls tc (rootCalls tc)).map fun _ => () := by
  have ran := resolveTraceClass_run tc
  unfold ctfTraceClassResolveFieldClasses
  cases outcome : runRootCalls tc (rootCalls tc) with
  | ok tc' =>
      rw [outcome] at ran
      obtain ⟨rootScope, done⟩ := ran
      rw [done]
      rfl
  | error e =>
      rw [outcome] at ran
      obtain ⟨s', failed⟩ := ran
      rw [failed]
      rfl

/-- A successful run leaves the trace class the fold of its root calls computes. -/
theorem ctfTraceClassResolveFieldClasses_of_ok {tc tc' : CtfTraceClass}
    (folded : runRootCalls tc (rootCalls tc) = .ok tc') : ctfTraceClassResolveFieldClasses tc = (.ok (), tc') := by
  have ran := resolveTraceClass_run tc
  rw [folded] at ran
  obtain ⟨rootScope, done⟩ := ran
  unfold ctfTraceClassResolveFieldClasses
  rw [done]
  rfl

/-- A successful run is a successful fold of its root calls. -/
theorem runRootCalls_of_resolveFieldClasses {tc tc' : CtfTraceClass}
    (ran : ctfTraceClassResolveFieldClasses tc = (.ok (), tc')) : runRootCalls tc (rootCalls tc) = .ok tc' := by
  have returned := ctfTraceClassResolveFieldClasses_fst tc
  rw [ran] at returned
  cases folded : runRootCalls tc (rootCalls tc) with
  | ok tc'' =>
      have left := ctfTraceClassResolveFieldClasses_of_ok folded
      rw [ran, Prod.mk.injEq] at left
      rw [left.2]
  | error e =>
      rw [folded] at returned
      cases returned

/-- The stream class a root class belongs to, if any. -/
def RootClassRef.streamIndex : RootClassRef → Option Nat
  | .packetHeader => none
  | .packetContext sc | .eventHeader sc | .eventCommonContext sc | .eventSpecContext sc _ | .eventPayload sc _ =>
      some sc

/-- The event class a root class belongs to, if any. -/
def RootClassRef.eventIndex : RootClassRef → Option (Nat × Nat)
  | .eventSpecContext sc ec | .eventPayload sc ec => some (sc, ec)
  | _ => none

/-- The root of scope `scope` in the trace, stream or event class that the root
`rootRef` belongs to. -/
def RootClassRef.layerRoot (rootRef : RootClassRef) : CtfScope → Option RootClassRef
  | .packetHeader => some .packetHeader
  | .packetContext => rootRef.streamIndex.map .packetContext
  | .eventHeader => rootRef.streamIndex.map .eventHeader
  | .eventCommonContext => rootRef.streamIndex.map .eventCommonContext
  | .eventSpecificContext => rootRef.eventIndex.map fun (sc, ec) => .eventSpecContext sc ec
  | .eventPayload => rootRef.eventIndex.map fun (sc, ec) => .eventPayload sc ec

@[simp] theorem RootClassRef.layerRoot_scope (rootRef : RootClassRef) : rootRef.layerRoot rootRef.scope = some rootRef := by
  cases rootRef <;> rfl

/-- A call resolves a root of the scope it names, and its scope pointers, up to
that scope, point at the roots of that root's own trace, stream and event
class. -/
def RootCall.WellScoped (call : RootCall) : Prop :=
  ∀ rootRef, call.scopes.get call.rootScope = some rootRef →
    rootRef.scope = call.rootScope ∧
      ∀ scope, scope.toNat ≤ call.rootScope.toNat → call.scopes.get scope = rootRef.layerRoot scope

theorem eventClassCalls_wellScoped (sc : CtfStreamClass) (scIndex ecIndex : Nat) (ec : CtfEventClass) :
    ∀ call ∈ eventClassCalls sc scIndex ecIndex ec, call.WellScoped := by
  unfold eventClassCalls
  split
  · simp only [List.mem_cons, List.not_mem_nil, or_false]
    rintro call (rfl | rfl) rootRef found <;> simp [ResolveScopes.get, streamScopes] at found <;> subst found <;>
      refine ⟨rfl, fun scope below => ?_⟩ <;> cases scope <;>
      simp_all [CtfScope.toNat, ResolveScopes.get, streamScopes, traceScopes, RootClassRef.layerRoot,
        RootClassRef.streamIndex, RootClassRef.eventIndex]
  · simp

theorem eventClassesCalls_wellScoped (sc : CtfStreamClass) (scIndex : Nat) :
    ∀ (ecs : List CtfEventClass) (ecIndex : Nat), ∀ call ∈ eventClassesCalls sc scIndex ecs ecIndex, call.WellScoped
  | [], _ => by simp [eventClassesCalls]
  | ec :: ecs, ecIndex => by
      intro call member
      simp only [eventClassesCalls, List.mem_append] at member
      rcases member with member | member
      · exact eventClassCalls_wellScoped sc scIndex ecIndex ec call member
      · exact eventClassesCalls_wellScoped sc scIndex ecs (ecIndex + 1) call member

theorem streamClassCalls_wellScoped (scIndex : Nat) (sc : CtfStreamClass) :
    ∀ call ∈ streamClassCalls scIndex sc, call.WellScoped := by
  intro call member
  simp only [streamClassCalls, List.mem_append] at member
  rcases member with member | member
  · split at member
    · simp only [List.mem_cons, List.not_mem_nil, or_false] at member
      rcases member with rfl | rfl | rfl <;> intro rootRef found <;>
        simp [ResolveScopes.get, streamScopes, traceScopes] at found <;> subst found <;>
        refine ⟨rfl, fun scope below => ?_⟩ <;> cases scope <;>
        simp_all [CtfScope.toNat, ResolveScopes.get, streamScopes, traceScopes, RootClassRef.layerRoot,
          RootClassRef.streamIndex]
    · simp at member
  · exact eventClassesCalls_wellScoped sc scIndex _ 0 call member

theorem streamClassesCalls_wellScoped :
    ∀ (scs : List CtfStreamClass) (scIndex : Nat), ∀ call ∈ streamClassesCalls scs scIndex, call.WellScoped
  | [], _ => by simp [streamClassesCalls]
  | sc :: scs, scIndex => by
      intro call member
      simp only [streamClassesCalls, List.mem_append] at member
      rcases member with member | member
      · exact streamClassCalls_wellScoped scIndex sc call member
      · exact streamClassesCalls_wellScoped scs (scIndex + 1) call member

/-- Every call the driver makes is well scoped. -/
theorem rootCalls_wellScoped (tc : CtfTraceClass) : ∀ call ∈ rootCalls tc, call.WellScoped := by
  intro call member
  simp only [rootCalls, List.mem_append] at member
  rcases member with member | member
  · split at member
    · simp only [List.mem_singleton] at member
      subst member
      intro rootRef found
      simp only [ResolveScopes.get, traceScopes, Option.some.injEq] at found
      subst found
      refine ⟨rfl, fun scope below => ?_⟩
      cases scope <;> simp_all [CtfScope.toNat, ResolveScopes.get, traceScopes, RootClassRef.layerRoot]
    · simp at member
  · exact streamClassesCalls_wellScoped _ 0 call member

end Btrace.Ctf
