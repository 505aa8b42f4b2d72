import Btrace.Ctf.Resolve.Rebuild

set_option autoImplicit false

/- The run of `resolve_field_class` on a root class is `resolveTargets`, stored
through the root pointer (`resolveFieldClass_run`): the stack frames it pushes
are the ancestors of the node it visits, and every lookup sees the trace class
only through what erasing keeps. -/
namespace Btrace.Ctf

open CtfFieldClass CtfTraceClass

/-- How a run of the resolver from `s` ends, as `outcome` says: on success in
`s` with the trace class `outcome` gives, on failure with its error. -/
def EndsAs (result : EStateM.Result ResolveError ResolveContext Unit) (s : ResolveContext) :
    Except ResolveError CtfTraceClass → Prop
  | .ok tc => result = .ok () { s with tc := tc }
  | .error e => ∃ s', result = .error e s'

section RunLemmas

variable {α β : Type} {x : ResolveM α} {f : α → ResolveM β} {s s' : ResolveContext}

theorem resolveM_run (x : ResolveM α) (s : ResolveContext) : x.run s = x s := rfl

theorem run_bind_of_ok {a : α} (first : x.run s = .ok a s') : (x >>= f).run s = (f a).run s' := by
  simp only [resolveM_run] at first ⊢
  show EStateM.bind x f s = _
  simp [EStateM.bind, first]

theorem run_bind_of_error {e : ResolveError} (first : x.run s = .error e s') :
    (x >>= f).run s = .error e s' := by
  simp only [resolveM_run] at first ⊢
  show EStateM.bind x f s = _
  simp [EStateM.bind, first]

@[simp] theorem fieldClassStackPush_run (fc : CtfFieldClass) (s : ResolveContext) :
    (fieldClassStackPush fc).run s = .ok () { s with fieldClassStack := s.fieldClassStack ++ [⟨fc, 0⟩] } := rfl

@[simp] theorem fieldClassStackPop_run (s : ResolveContext) :
    fieldClassStackPop.run s = .ok () { s with fieldClassStack := s.fieldClassStack.dropLast } := rfl

theorem fieldClassStackSetTopIndex_run (index : Int) (s : ResolveContext)
    (frames : List FieldClassStackFrame) (top : FieldClassStackFrame)
    (stack : s.fieldClassStack = frames ++ [top]) :
    (fieldClassStackSetTopIndex index).run s =
      .ok () { s with fieldClassStack := frames ++ [{ top with index := index }] } := by
  simp only [fieldClassStackSetTopIndex, fieldClassStackPeek, resolveM_run, bind, EStateM.bind, get,
    getThe, MonadStateOf.get, EStateM.get, stack, List.getLast?_append, List.getLast?_singleton,
    Option.or_some, pure, EStateM.pure, modify, modifyGet, MonadStateOf.modifyGet, EStateM.modifyGet,
    List.dropLast_concat]

end RunLemmas

/-- A structure or a variant header: the class as a function of its children,
through which a child is read and updated. -/
structure MembersOf (mk : List (String × CtfFieldClass) → CtfFieldClass) : Prop where
  borrow : ∀ members index, (mk members).compoundBorrowFieldClassByIndex index = borrowMember index members
  modify : ∀ members (f : CtfFieldClass → CtfFieldClass) (index : Int),
    modifyAt f [index] (mk members) = mk (modifyMember f index members)

theorem MembersOf.struct : MembersOf .struct := ⟨fun _ _ => rfl, fun _ _ _ => rfl⟩

theorem MembersOf.variant (tagRef : String) (tagPath : CtfFieldPath) (tagFc : Option CtfFieldClassEnum) :
    MembersOf (.variant tagRef tagPath tagFc) := ⟨fun _ _ => rfl, fun _ _ _ => rfl⟩

/-- The reading part sees only what erasing keeps, so a context whose trace class
differs from `base`'s only in stored targets finds the same target. -/
theorem resolveSequenceOrVariantTarget_of_eraseTargets_eq (fc : CtfFieldClass) (base : ResolveContext)
    (tc : CtfTraceClass) (stack : List FieldClassStackFrame) (same : tc.eraseTargets = base.tc.eraseTargets) :
    resolveSequenceOrVariantTarget fc { base with tc := tc, fieldClassStack := stack } =
      resolveSequenceOrVariantTarget fc { base with fieldClassStack := stack } := by
  rw [← resolveSequenceOrVariantTarget_eraseTargets fc { base with tc := tc, fieldClassStack := stack },
    ← resolveSequenceOrVariantTarget_eraseTargets fc { base with fieldClassStack := stack }]
  simp [ResolveContext.eraseTargets, same]

theorem except_map_functor_map {α β γ : Type} (f : α → β) (g : β → γ) (x : Except ResolveError α) :
    (f <$> x).map g = x.map (g ∘ f) := by
  cases x <;> rfl

theorem endsAs_of_ok {result : EStateM.Result ResolveError ResolveContext Unit} {s : ResolveContext}
    {tc : CtfTraceClass} (done : result = .ok () { s with tc := tc }) : EndsAs result s (.ok tc) := done

theorem endsAs_of_error {result : EStateM.Result ResolveError ResolveContext Unit} {s s' : ResolveContext}
    {e : ResolveError} (failed : result = .error e s') : EndsAs result s (.error e) := ⟨s', failed⟩

section Traversal

variable (base : ResolveContext) (rootRef : RootClassRef) (rootFc : CtfFieldClass)

/-- `resolve_sequence_or_variant_field_class` in the middle of the traversal of
`rootFc`: it stores the target found at the node, or fails with its error. -/
theorem resolveSequenceOrVariantFieldClass_run (pos : List Int) (fc : CtfFieldClass) (tc : CtfTraceClass)
    (stack : List FieldClassStackFrame) (same : tc.eraseTargets = base.tc.eraseTargets)
    (holds : stack = ancestorFrames rootFc pos) :
    (resolveSequenceOrVariantFieldClass fc ⟨rootRef, pos⟩).run { base with tc := tc, fieldClassStack := stack } =
      match nodeTarget base rootFc pos fc with
      | .ok (targetFieldPath, targetFc) => .ok ()
          { base with
            tc := tc.modifyFieldClass ⟨rootRef, pos⟩ (setTargetFieldClass targetFieldPath targetFc)
            fieldClassStack := stack }
      | .error e => .error e { base with tc := tc, fieldClassStack := stack } := by
  subst holds
  simp only [resolveSequenceOrVariantFieldClass, nodeTarget, resolveM_run, bind, EStateM.bind, get, getThe,
    MonadStateOf.get, EStateM.get, resolveSequenceOrVariantTarget_of_eraseTargets_eq fc base tc _ same]
  split <;> rename_i found <;> simp only [found] <;> rfl

theorem endsAs_retarget {result : EStateM.Result ResolveError ResolveContext Unit}
    {stack : List FieldClassStackFrame} {tc : CtfTraceClass} (tc' : CtfTraceClass)
    {outcome : Except ResolveError CtfTraceClass} (ends : EndsAs result { base with tc := tc, fieldClassStack := stack } outcome) :
    EndsAs result { base with tc := tc', fieldClassStack := stack } outcome := by
  cases outcome <;> exact ends

/-- One step down from the node `parent` at `pos`: the child's position keeps
the array steps canonical and the stack pointing at the node. -/
theorem arraySteps_concat {pos : List Int} {parent : CtfFieldClass} (index : Int) (steps : ArraySteps rootFc pos)
    (reached : rootFc.borrowFieldClassByPath pos = some parent) (step : ArraySteps parent [index]) :
    ArraySteps rootFc (pos ++ [index]) :=
  arraySteps_append pos [index] rootFc steps fun target found => by
    rw [reached] at found
    cases found
    exact step

theorem arraySteps_member {parent : CtfFieldClass} (named : parent.isStructOrVariant = true) (index : Int) :
    ArraySteps parent [index] := by
  cases parent <;> simp [isStructOrVariant] at named <;> exact fun child _ => arraySteps_nil child

theorem endsAs_then_pop {x : ResolveM Unit} {s : ResolveContext} {after : ResolveContext}
    {outcome : Except ResolveError CtfTraceClass} {frames : List FieldClassStackFrame}
    {top : FieldClassStackFrame} (first : EndsAs (x.run s) after outcome)
    (stack : after.fieldClassStack = frames ++ [top]) :
    EndsAs ((x >>= fun _ => fieldClassStackPop).run s) { after with fieldClassStack := frames } outcome := by
  cases outcome with
  | ok tc =>
      rw [run_bind_of_ok first]
      simp [EndsAs, stack]
  | error e =>
      obtain ⟨s', failed⟩ := first
      exact ⟨s', run_bind_of_error failed⟩

/-- Pointing the top frame, which holds the node at `pos`, at its child `index`
makes the stack the ancestors of that child. -/
theorem fieldClassStackSetTopIndex_enter {pos : List Int} {node : CtfFieldClass} (tc : CtfTraceClass)
    (index top : Int) (reached : rootFc.borrowFieldClassByPath pos = some node) :
    (fieldClassStackSetTopIndex index).run
        { base with tc := tc, fieldClassStack := ancestorFrames rootFc pos ++ [⟨node, top⟩] } =
      .ok () { base with tc := tc, fieldClassStack := ancestorFrames rootFc (pos ++ [index]) } := by
  rw [ancestorFrames_concat pos rootFc _ _ reached]
  exact fieldClassStackSetTopIndex_run _ _ (ancestorFrames rootFc pos) ⟨_, top⟩ rfl

/-- A sequence or variant visit: the lookup at the node, then `rest` from the
state that stores what it found. A failed lookup ends the visit. -/
theorem lookupThen_run {pos : List Int} {fc : CtfFieldClass} {tc : CtfTraceClass} {rest : ResolveM Unit}
    {k : CtfFieldPath × CtfFieldClass → Except ResolveError CtfFieldClass}
    (same : tc.eraseTargets = base.tc.eraseTargets)
    (next : ∀ found, nodeTarget base rootFc pos fc = .ok found →
      EndsAs (rest.run { base with
          tc := tc.modifyFieldClass ⟨rootRef, pos⟩ (setTargetFieldClass found.1 found.2)
          fieldClassStack := ancestorFrames rootFc pos })
        { base with
          tc := tc.modifyFieldClass ⟨rootRef, pos⟩ (setTargetFieldClass found.1 found.2)
          fieldClassStack := ancestorFrames rootFc pos }
        ((k found).map fun fc' => tc.modifyFieldClass ⟨rootRef, pos⟩ fun _ => fc')) :
    EndsAs ((resolveSequenceOrVariantFieldClass fc ⟨rootRef, pos⟩ >>= fun _ => rest).run
        { base with tc := tc, fieldClassStack := ancestorFrames rootFc pos })
      { base with tc := tc, fieldClassStack := ancestorFrames rootFc pos }
      ((nodeTarget base rootFc pos fc >>= k).map fun fc' => tc.modifyFieldClass ⟨rootRef, pos⟩ fun _ => fc') := by
  have stored := resolveSequenceOrVariantFieldClass_run base rootRef rootFc pos fc tc _ same rfl
  cases found : nodeTarget base rootFc pos fc with
  | error e =>
      rw [found] at stored
      exact endsAs_of_error (run_bind_of_error stored)
  | ok target =>
      rw [found] at stored
      rw [run_bind_of_ok stored]
      exact endsAs_retarget base tc (next target found)

/-- The element visit of an array or sequence `node` at `pos`: push it, point
its frame at -1, visit the element, pop; it ends as the element visit does. -/
theorem enterElement_run {pos : List Int} {node elemFc : CtfFieldClass} {tc : CtfTraceClass}
    {outcome : Except ResolveError CtfTraceClass} (reached : rootFc.borrowFieldClassByPath pos = some node)
    (elem : EndsAs ((resolveFieldClass elemFc ⟨rootRef, pos ++ [-1]⟩).run
        { base with tc := tc, fieldClassStack := ancestorFrames rootFc (pos ++ [-1]) })
      { base with tc := tc, fieldClassStack := ancestorFrames rootFc (pos ++ [-1]) } outcome) :
    EndsAs ((do
        fieldClassStackPush node
        fieldClassStackSetTopIndex (-1)
        resolveFieldClass elemFc ⟨rootRef, pos ++ [-1]⟩
        fieldClassStackPop).run { base with tc := tc, fieldClassStack := ancestorFrames rootFc pos })
      { base with tc := tc, fieldClassStack := ancestorFrames rootFc pos } outcome := by
  rw [run_bind_of_ok (fieldClassStackPush_run _ _),
    run_bind_of_ok (fieldClassStackSetTopIndex_enter base rootFc tc (-1) 0 reached)]
  have popped := endsAs_then_pop elem (ancestorFrames_concat pos rootFc _ _ reached)
  exact popped

mutual
/-- The traversal of the class `fc` at position `pos` of root class `rootFc`,
from a state whose trace class differs from `base`'s only in stored targets and
still holds `fc` there: it ends as `resolveTargets` says, the rebuilt class
stored through the pointer to `fc`, with the stack as it found it. -/
theorem resolveFieldClass_run :
    ∀ (fc : CtfFieldClass) (pos : List Int) (tc : CtfTraceClass),
      rootFc.borrowFieldClassByPath pos = some fc → ArraySteps rootFc pos →
      tc.fieldClass ⟨rootRef, pos⟩ = some fc → tc.eraseTargets = base.tc.eraseTargets →
      EndsAs ((resolveFieldClass fc ⟨rootRef, pos⟩).run
          { base with tc := tc, fieldClassStack := ancestorFrames rootFc pos })
        { base with tc := tc, fieldClassStack := ancestorFrames rootFc pos }
        ((resolveTargets (nodeTarget base rootFc) pos fc).map fun fc' =>
          tc.modifyFieldClass ⟨rootRef, pos⟩ fun _ => fc')
  | .int _, pos, tc, _, _, current, _ | .enum _, pos, tc, _, _, current, _
  | .float, pos, tc, _, _, current, _ | .string, pos, tc, _, _, current, _ => by
      apply endsAs_of_ok
      simp only [modifyFieldClass_const_self current]
      rfl
  | .struct members, pos, tc, reached, steps, current, same => by
      obtain ⟨top, body⟩ := resolveFieldClassMembers_run pos _ _ MembersOf.struct members [] tc 0 reached steps rfl
        (fun k m found => by simp [compoundBorrowFieldClassByIndex, found]) current same
      simp only [resolveFieldClass]
      rw [run_bind_of_ok (fieldClassStackPush_run _ _)]
      simp only [resolveTargets, except_map_functor_map]
      convert endsAs_then_pop body rfl using 2
  | .variant tagRef tagPath tagFc options, pos, tc, reached, steps, current, same => by
      simp only [resolveFieldClass, resolveTargets]
      apply lookupThen_run base rootRef rootFc same
      rintro ⟨targetFieldPath, targetFc⟩ -
      have storedErased := (eraseTargets_modifyFieldClass current
        (eraseTargets_setTargetFieldClass targetFieldPath targetFc _)).trans same
      obtain ⟨top, body⟩ := resolveFieldClassMembers_run pos _ _ (MembersOf.variant tagRef targetFieldPath _)
        options [] _ 0 reached steps rfl (fun k m found => by simp [compoundBorrowFieldClassByIndex, found])
        (by rw [fieldClass_modifyFieldClass_self, current]; rfl) storedErased
      rw [run_bind_of_ok (fieldClassStackPush_run _ _)]
      simp only [except_map_functor_map]
      convert endsAs_then_pop body rfl using 2
      funext options'
      rw [modifyFieldClass_comp]
      rfl
  | .array elemFc isText, pos, tc, reached, steps, current, same => by
      have elemCurrent : tc.fieldClass ⟨rootRef, pos ++ [-1]⟩ = some elemFc := by
        show tc.fieldClass (FieldClassRef.child ⟨rootRef, pos⟩ _) = _
        rw [fieldClass_child, current]
        rfl
      have elem := resolveFieldClass_run elemFc (pos ++ [-1]) tc
        (by rw [borrowFieldClassByPath_concat, reached]; rfl)
        (arraySteps_concat rootFc _ steps reached ⟨rfl, arraySteps_nil elemFc⟩) elemCurrent same
      simp only [resolveFieldClass, FieldClassRef.child, resolveTargets, except_map_functor_map]
      convert enterElement_run base rootRef rootFc reached elem using 2
      funext elemFc'
      exact (modifyFieldClass_child_const current (-1) elemFc').symm
  | .sequence elemFc isText lengthRef lengthPath lengthFc, pos, tc, reached, steps, current, same => by
      simp only [resolveFieldClass, FieldClassRef.child, resolveTargets]
      apply lookupThen_run base rootRef rootFc same
      rintro ⟨targetFieldPath, targetFc⟩ -
      have storedErased := (eraseTargets_modifyFieldClass current
        (eraseTargets_setTargetFieldClass targetFieldPath targetFc _)).trans same
      have storedCurrent : (tc.modifyFieldClass ⟨rootRef, pos⟩ (setTargetFieldClass targetFieldPath targetFc)).fieldClass
          ⟨rootRef, pos⟩ = some (.sequence elemFc isText lengthRef targetFieldPath targetFc.asInt) := by
        rw [fieldClass_modifyFieldClass_self, current]
        rfl
      have elemCurrent : (tc.modifyFieldClass ⟨rootRef, pos⟩ (setTargetFieldClass targetFieldPath targetFc)).fieldClass
          ⟨rootRef, pos ++ [-1]⟩ = some elemFc := by
        show CtfTraceClass.fieldClass _ (FieldClassRef.child ⟨rootRef, pos⟩ _) = _
        rw [fieldClass_child, storedCurrent]
        rfl
      have elem := resolveFieldClass_run elemFc (pos ++ [-1]) _
        (by rw [borrowFieldClassByPath_concat, reached]; rfl)
        (arraySteps_concat rootFc _ steps reached ⟨rfl, arraySteps_nil elemFc⟩) elemCurrent storedErased
      simp only [except_map_functor_map]
      convert enterElement_run base rootRef rootFc reached elem using 2
      funext elemFc'
      calc tc.modifyFieldClass ⟨rootRef, pos⟩
            (fun _ => .sequence elemFc' isText lengthRef targetFieldPath targetFc.asInt)
          = (tc.modifyFieldClass ⟨rootRef, pos⟩ (setTargetFieldClass targetFieldPath targetFc)).modifyFieldClass
              ⟨rootRef, pos⟩ (fun _ => .sequence elemFc' isText lengthRef targetFieldPath targetFc.asInt) := by
            rw [modifyFieldClass_comp]
            rfl
        _ = _ := (modifyFieldClass_child_const storedCurrent (-1) elemFc').symm

/-- The child loop at a structure or variant `parent` at `pos`, from child
`done.length` on: `mk` rebuilds the current class from its children. -/
theorem resolveFieldClassMembers_run (pos : List Int) (parent : CtfFieldClass)
    (mk : List (String × CtfFieldClass) → CtfFieldClass) (header : MembersOf mk) :
    ∀ (members done : List (String × CtfFieldClass)) (tc : CtfTraceClass) (top : Int),
      rootFc.borrowFieldClassByPath pos = some parent → ArraySteps rootFc pos →
      parent.isStructOrVariant = true →
      (∀ (k : Nat) (m : String × CtfFieldClass), members[k]? = some m →
        parent.compoundBorrowFieldClassByIndex ((done.length + k : Nat) : Int) = some m.2) →
      tc.fieldClass ⟨rootRef, pos⟩ = some (mk (done ++ members)) → tc.eraseTargets = base.tc.eraseTargets →
      ∃ top', EndsAs ((resolveFieldClassMembers members ⟨rootRef, pos⟩ done.length).run
          { base with tc := tc, fieldClassStack := ancestorFrames rootFc pos ++ [⟨parent, top⟩] })
        { base with tc := tc, fieldClassStack := ancestorFrames rootFc pos ++ [⟨parent, top'⟩] }
        ((resolveTargetsMembers (nodeTarget base rootFc) pos members done.length).map fun members' =>
          tc.modifyFieldClass ⟨rootRef, pos⟩ fun _ => mk (done ++ members'))
  | [], done, tc, top, _, _, _, _, current, _ => by
      refine ⟨top, endsAs_of_ok ?_⟩
      simp only [List.append_nil] at current
      simp only [List.append_nil, modifyFieldClass_const_self current]
      rfl
  | (name, childFc) :: members, done, tc, top, reached, steps, named, origin, current, same => by
      have childReached : rootFc.borrowFieldClassByPath (pos ++ [(done.length : Int)]) = some childFc := by
        rw [borrowFieldClassByPath_concat, reached]
        exact origin 0 (name, childFc) (by simp)
      have childCurrent : tc.fieldClass ⟨rootRef, pos ++ [(done.length : Int)]⟩ = some childFc := by
        show tc.fieldClass (FieldClassRef.child ⟨rootRef, pos⟩ _) = _
        rw [fieldClass_child, current]
        exact (header.borrow _ _).trans (borrowMember_append_length done name childFc members)
      have child := resolveFieldClass_run childFc _ tc childReached
        (arraySteps_concat rootFc _ steps reached (arraySteps_member named _)) childCurrent same
      simp only [resolveFieldClassMembers, FieldClassRef.child]
      rw [run_bind_of_ok (fieldClassStackSetTopIndex_enter base rootFc tc _ top reached)]
      cases resolvedChild : resolveTargets (nodeTarget base rootFc) (pos ++ [(done.length : Int)]) childFc with
      | error e =>
          rw [resolvedChild] at child
          obtain ⟨s', failed⟩ := child
          simp only [resolveTargetsMembers, resolvedChild, bind, Except.bind]
          exact ⟨top, s', run_bind_of_error failed⟩
      | ok childFc' =>
          rw [resolvedChild] at child
          have stored : tc.modifyFieldClass ⟨rootRef, pos ++ [(done.length : Int)]⟩ (fun _ => childFc') =
              tc.modifyFieldClass ⟨rootRef, pos⟩ (fun _ => mk (done ++ [(name, childFc')] ++ members)) := by
            show tc.modifyFieldClass (FieldClassRef.child ⟨rootRef, pos⟩ _) _ = _
            rw [modifyFieldClass_child_const current, header.modify, modifyMember_append_length]
            simp
          have keeps : childFc'.eraseTargets = childFc.eraseTargets :=
            eraseTargets_resolveTargets _ _ _ _ resolvedChild
          have storedErased :=
            (@eraseTargets_modifyFieldClass _ _ (fun _ => childFc') _ childCurrent keeps).trans same
          rw [stored] at storedErased
          obtain ⟨top', rest⟩ := resolveFieldClassMembers_run pos parent mk header members (done ++ [(name, childFc')])
            _ _ reached steps named
            (fun k m found => by simpa [Nat.add_assoc, Nat.add_comm 1 k] using origin (k + 1) m (by simpa using found))
            (by rw [fieldClass_modifyFieldClass_self, current]; rfl) storedErased
          have childDone : (resolveFieldClass childFc ⟨rootRef, pos ++ [(done.length : Int)]⟩).run
              { base with tc := tc, fieldClassStack := ancestorFrames rootFc (pos ++ [(done.length : Int)]) } =
                .ok () { base with
                  tc := tc.modifyFieldClass ⟨rootRef, pos⟩ (fun _ => mk (done ++ [(name, childFc')] ++ members))
                  fieldClassStack := ancestorFrames rootFc pos ++ [⟨parent, done.length⟩] } := by
            rw [← stored, ← ancestorFrames_concat pos rootFc parent _ reached]
            exact child
          refine ⟨top', ?_⟩
          rw [run_bind_of_ok childDone]
          simp only [List.length_append, List.length_singleton] at rest
          simp only [resolveTargetsMembers, resolvedChild, bind, Except.bind, except_map_functor_map]
          convert endsAs_retarget base tc rest using 2
          funext members'
          simp
end

end Traversal

end Btrace.Ctf
