import Btrace.Ctf.Resolve.Run

set_option autoImplicit false

/- A successful run replayed on its own output changes nothing. Each call of
`resolve_root_class` overwrites one root class with a value computed only from
what erasing keeps (`runRootCall_replay`), and erasing forgets exactly what the
run wrote; so a replay makes the same writes, and writing the same values twice
is writing them once (`overwrites_overwrites`). -/
namespace Btrace.Ctf

open CtfFieldClass CtfTraceClass

/-- The call with the stream and event classes it holds erased. -/
def RootCall.eraseTargets (call : RootCall) : RootCall :=
  { call with sc := call.sc.map CtfStreamClass.eraseTargets, ec := call.ec.map CtfEventClass.eraseTargets }

theorem RootCall.context_eraseTargets (call : RootCall) (tc : CtfTraceClass) :
    (call.context tc).eraseTargets = call.eraseTargets.context tc.eraseTargets := rfl

theorem eventClassesCalls_eraseTargets (sc : CtfStreamClass) (scIndex : Nat) :
    ∀ (ecs : List CtfEventClass) (ecIndex : Nat),
      eventClassesCalls sc.eraseTargets scIndex (ecs.map CtfEventClass.eraseTargets) ecIndex =
        (eventClassesCalls sc scIndex ecs ecIndex).map RootCall.eraseTargets
  | [], _ => rfl
  | ec :: ecs, ecIndex => by
      simp only [List.map_cons, eventClassesCalls, List.map_append, eventClassesCalls_eraseTargets sc scIndex ecs]
      congr 1
      unfold eventClassCalls
      rw [show ec.eraseTargets.isTranslated = ec.isTranslated from rfl]
      cases ec.isTranslated <;> rfl

theorem streamClassesCalls_eraseTargets :
    ∀ (scs : List CtfStreamClass) (scIndex : Nat),
      streamClassesCalls (scs.map CtfStreamClass.eraseTargets) scIndex =
        (streamClassesCalls scs scIndex).map RootCall.eraseTargets
  | [], _ => rfl
  | sc :: scs, scIndex => by
      simp only [List.map_cons, streamClassesCalls, List.map_append, streamClassesCalls_eraseTargets scs]
      congr 1
      unfold streamClassCalls
      rw [List.map_append, ← eventClassesCalls_eraseTargets,
        show sc.eraseTargets.isTranslated = sc.isTranslated from rfl]
      cases sc.isTranslated <;> rfl

/-- Which calls the driver makes depends only on what erasing keeps. -/
theorem rootCalls_eraseTargets (tc : CtfTraceClass) :
    rootCalls tc.eraseTargets = (rootCalls tc).map RootCall.eraseTargets := by
  unfold rootCalls
  rw [List.map_append, ← streamClassesCalls_eraseTargets,
    show tc.eraseTargets.isTranslated = tc.isTranslated from rfl]
  cases tc.isTranslated <;> rfl

/-- What a call does to the trace class: nothing, or one root class set to a value. -/
def overwrite (tc : CtfTraceClass) : Option (RootClassRef × CtfFieldClass) → CtfTraceClass
  | none => tc
  | some (rootRef, fc) => tc.modifyRootClass (fun _ => fc) rootRef

def overwrites (tc : CtfTraceClass) (writes : List (Option (RootClassRef × CtfFieldClass))) : CtfTraceClass :=
  writes.foldl overwrite tc

/-- What a write does to the root class `rootRef` points to. -/
def writeAt (rootRef : RootClassRef) : Option (RootClassRef × CtfFieldClass) → CtfFieldClass → CtfFieldClass
  | some (target, fc) => if target = rootRef then fun _ => fc else id
  | none => id

def writesAt (rootRef : RootClassRef) : List (Option (RootClassRef × CtfFieldClass)) → CtfFieldClass → CtfFieldClass
  | [] => id
  | write :: writes => writesAt rootRef writes ∘ writeAt rootRef write

theorem writesAt_idem (rootRef : RootClassRef) :
    ∀ (writes : List (Option (RootClassRef × CtfFieldClass))) (fc : CtfFieldClass),
      writesAt rootRef writes (writesAt rootRef writes fc) = writesAt rootRef writes fc := by
  have overwritten : ∀ writes, (∀ fc, writesAt rootRef writes fc = fc) ∨
      ∃ value, ∀ fc, writesAt rootRef writes fc = value := by
    intro writes
    induction writes with
    | nil => exact .inl fun _ => rfl
    | cons write writes ih =>
        rcases ih with kept | ⟨value, set⟩
        · rcases write with _ | ⟨target, value⟩
          · exact .inl kept
          · by_cases hit : target = rootRef
            · exact .inr ⟨value, fun _ => by simp [writesAt, writeAt, hit, kept]⟩
            · exact .inl fun _ => by simp [writesAt, writeAt, hit, kept]
        · exact .inr ⟨value, fun fc => set _⟩
  intro writes fc
  rcases overwritten writes with kept | ⟨value, set⟩ <;> simp [*]

theorem rootClass_overwrites :
    ∀ (writes : List (Option (RootClassRef × CtfFieldClass))) (tc : CtfTraceClass) (rootRef : RootClassRef),
      (overwrites tc writes).rootClass rootRef = (tc.rootClass rootRef).map (writesAt rootRef writes)
  | [], tc, rootRef => by simp [overwrites, writesAt]
  | write :: writes, tc, rootRef => by
      have first : (overwrite tc write).rootClass rootRef = (tc.rootClass rootRef).map (writeAt rootRef write) := by
        rcases write with _ | ⟨target, fc⟩
        · simp [overwrite, writeAt]
        · by_cases hit : target = rootRef <;> simp [overwrite, writeAt, rootClass_modifyRootClass, hit]
      rw [show overwrites tc (write :: writes) = overwrites (overwrite tc write) writes from rfl,
        rootClass_overwrites writes, first, Option.map_map]
      rfl

theorem shape_overwrites :
    ∀ (writes : List (Option (RootClassRef × CtfFieldClass))) (tc : CtfTraceClass),
      (overwrites tc writes).shape = tc.shape
  | [], _ => rfl
  | none :: writes, tc => shape_overwrites writes tc
  | some (rootRef, _) :: writes, tc =>
      (shape_overwrites writes _).trans (shape_modifyRootClass tc _ rootRef)

/-- Making the same writes twice is making them once. -/
theorem overwrites_overwrites (tc : CtfTraceClass) (writes : List (Option (RootClassRef × CtfFieldClass))) :
    overwrites (overwrites tc writes) writes = overwrites tc writes := by
  apply ext_rootClass (by rw [shape_overwrites, shape_overwrites])
  intro rootRef
  rw [rootClass_overwrites, rootClass_overwrites, Option.map_map]
  exact congrArg (Option.map · _) (funext (writesAt_idem rootRef writes))

section Alike

variable {tc u : CtfTraceClass} (same : tc.eraseTargets = u.eraseTargets)
include same

/-- A root class absent from a trace class is absent from one alike after erasing. -/
theorem rootClass_eq_none_of_alike {rootRef : RootClassRef} (root : tc.rootClass rootRef = none) :
    u.rootClass rootRef = none := by
  have roots := rootClass_eraseTargets u rootRef
  rw [← same, rootClass_eraseTargets, root, Option.map_none'] at roots
  exact Option.map_eq_none'.mp roots.symm

/-- A root class present in a trace class is present, alike after erasing, in
one alike after erasing. -/
theorem rootClass_eq_some_of_alike {rootRef : RootClassRef} {rootFc : CtfFieldClass}
    (root : tc.rootClass rootRef = some rootFc) :
    ∃ uRootFc, u.rootClass rootRef = some uRootFc ∧ uRootFc.eraseTargets = rootFc.eraseTargets := by
  have roots : (u.rootClass rootRef).map CtfFieldClass.eraseTargets = some rootFc.eraseTargets := by
    rw [← rootClass_eraseTargets, ← same, rootClass_eraseTargets, root, Option.map_some']
  cases found : u.rootClass rootRef <;> simp_all

/-- The traversal of a root call reads only what erasing keeps. -/
theorem resolveTargets_root_alike {call call' : RootCall} {rootFc uRootFc : CtfFieldClass}
    (sameCall : call.eraseTargets = call'.eraseTargets) (sameRoot : uRootFc.eraseTargets = rootFc.eraseTargets) :
    resolveTargets (nodeTarget (call'.context u) uRootFc) [] uRootFc =
      resolveTargets (nodeTarget (call.context tc) rootFc) [] rootFc := by
  have sameTarget : nodeTarget (call'.context u) uRootFc = nodeTarget (call.context tc) rootFc :=
    nodeTarget_congr (by rw [RootCall.context_eraseTargets, RootCall.context_eraseTargets, same, sameCall])
      sameRoot
  have invariant := nodeTarget_eraseTargets (call.context tc) rootFc
  rw [sameTarget, ← resolveTargets_eraseTargets_input _ invariant, sameRoot,
    resolveTargets_eraseTargets_input _ invariant]

/-- A call on a trace class and a call on another, both alike after erasing,
make the same write. -/
theorem runRootCall_replay {tc' : CtfTraceClass} {call call' : RootCall}
    (sameCall : call.eraseTargets = call'.eraseTargets) (ran : runRootCall tc call = .ok tc') :
    ∃ write, tc' = overwrite tc write ∧ runRootCall u call' = .ok (overwrite u write) := by
  have scopes : call'.scopes = call.scopes := (congrArg RootCall.scopes sameCall).symm
  have rootScope : call'.rootScope = call.rootScope := (congrArg RootCall.rootScope sameCall).symm
  unfold runRootCall at ran ⊢
  rw [scopes, rootScope]
  split at ran
  · cases ran
    exact ⟨none, rfl, rfl⟩
  · rename_i rootRef _
    split at ran
    · rename_i root
      cases ran
      simp only [rootClass_eq_none_of_alike same root]
      exact ⟨none, rfl, rfl⟩
    · rename_i rootFc root
      obtain ⟨rootFc', resolved, rfl⟩ := except_map_eq_ok.mp ran
      obtain ⟨uRootFc, uRoot, sameRoot⟩ := rootClass_eq_some_of_alike same root
      simp only [uRoot]
      rw [resolveTargets_root_alike same sameCall sameRoot, resolved]
      exact ⟨some (rootRef, rootFc'), rfl, rfl⟩

/-- Calls alike after erasing, on trace classes alike after erasing, leave the
same class at the root they resolve. -/
theorem runRootCall_rootClass_alike {tc' u' : CtfTraceClass} {call call' : RootCall} {r : RootClassRef}
    (sameCall : call.eraseTargets = call'.eraseTargets) (ran : runRootCall tc call = .ok tc')
    (ran' : runRootCall u call' = .ok u') (scope : call.scopes.get call.rootScope = some r) :
    u'.rootClass r = tc'.rootClass r := by
  have scopes : call'.scopes = call.scopes := (congrArg RootCall.scopes sameCall).symm
  have rootScope : call'.rootScope = call.rootScope := (congrArg RootCall.rootScope sameCall).symm
  unfold runRootCall at ran ran'
  simp only [scope] at ran
  simp only [scopes, rootScope, scope] at ran'
  cases root : tc.rootClass r with
  | none =>
      have absent := rootClass_eq_none_of_alike same root
      simp only [root, Except.ok.injEq] at ran
      simp only [absent, Except.ok.injEq] at ran'
      subst ran ran'
      rw [root, absent]
  | some rootFc =>
      obtain ⟨uRootFc, uRoot, sameRoot⟩ := rootClass_eq_some_of_alike same root
      simp only [root] at ran
      simp only [uRoot, resolveTargets_root_alike same sameCall sameRoot] at ran'
      obtain ⟨rootFc', resolved, rfl⟩ := except_map_eq_ok.mp ran
      obtain ⟨_, resolved', rfl⟩ := except_map_eq_ok.mp ran'
      rw [resolved, Except.ok.injEq] at resolved'
      rw [rootClass_modifyRootClass_self, rootClass_modifyRootClass_self, uRoot, root, resolved']
      rfl

end Alike

/-- The fold of calls on a trace class and of alike calls on another, both alike
after erasing, make the same writes. -/
theorem runRootCalls_replay :
    ∀ (calls calls' : List RootCall) (tc u tc' : CtfTraceClass),
      calls.map RootCall.eraseTargets = calls'.map RootCall.eraseTargets → tc.eraseTargets = u.eraseTargets →
        runRootCalls tc calls = .ok tc' →
          ∃ writes, tc' = overwrites tc writes ∧ runRootCalls u calls' = .ok (overwrites u writes)
  | [], [], _, _, _, _, _, ran => by
      cases ran
      exact ⟨[], rfl, rfl⟩
  | [], _ :: _, _, _, _, sameCalls, _, _ | _ :: _, [], _, _, _, sameCalls, _, _ => by cases sameCalls
  | call :: calls, call' :: calls', tc, u, tc', sameCalls, same, ran => by
      simp only [List.map_cons, List.cons.injEq] at sameCalls
      rw [runRootCalls_cons] at ran
      cases called : runRootCall tc call with
      | error e => rw [called] at ran; cases ran
      | ok tc1 =>
          rw [called] at ran
          obtain ⟨write, rfl, replayed⟩ := runRootCall_replay same sameCalls.1 called
          have sameAfter : (overwrite tc write).eraseTargets = (overwrite u write).eraseTargets := by
            rw [runRootCall_eraseTargets called, runRootCall_eraseTargets replayed, same]
          obtain ⟨writes, rfl, rest⟩ := runRootCalls_replay calls calls' _ _ tc' sameCalls.2 sameAfter ran
          refine ⟨write :: writes, rfl, ?_⟩
          rw [runRootCalls_cons, replayed]
          exact rest

/-- Running `ctf_trace_class_resolve_field_classes` again on the trace class a
successful run left returns 0 and changes nothing. -/
theorem ctfTraceClassResolveFieldClasses_idempotent {tc tc' : CtfTraceClass}
    (ran : ctfTraceClassResolveFieldClasses tc = (.ok (), tc')) :
    ctfTraceClassResolveFieldClasses tc' = (.ok (), tc') := by
  have folded := runRootCalls_of_resolveFieldClasses ran
  have same := runRootCalls_eraseTargets _ _ _ folded
  have sameCalls : (rootCalls tc).map RootCall.eraseTargets = (rootCalls tc').map RootCall.eraseTargets := by
    rw [← rootCalls_eraseTargets, ← rootCalls_eraseTargets, same]
  obtain ⟨writes, rfl, replayed⟩ := runRootCalls_replay _ _ tc _ _ sameCalls same.symm folded
  rw [overwrites_overwrites] at replayed
  exact ctfTraceClassResolveFieldClasses_of_ok replayed

/-- A packet header `{ len, data : sequence<uint8>[len] }` resolves, and its
resolved form resolves again to itself. -/
theorem resolve_packet_header_twice :
    ctfTraceClassResolveFieldClasses ⟨some (lengthBeforeSequence "len"), [], false⟩ =
        (.ok (), ⟨some (lengthBeforeSequenceResolved "len" .packetHeader), [], false⟩) ∧
      ctfTraceClassResolveFieldClasses ⟨some (lengthBeforeSequenceResolved "len" .packetHeader), [], false⟩ =
        (.ok (), ⟨some (lengthBeforeSequenceResolved "len" .packetHeader), [], false⟩) :=
  have ran : ctfTraceClassResolveFieldClasses ⟨some (lengthBeforeSequence "len"), [], false⟩ =
      (.ok (), ⟨some (lengthBeforeSequenceResolved "len" .packetHeader), [], false⟩) := rfl
  ⟨ran, ctfTraceClassResolveFieldClasses_idempotent ran⟩

end Btrace.Ctf
