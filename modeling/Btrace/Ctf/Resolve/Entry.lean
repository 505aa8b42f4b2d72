import Btrace.Ctf.Resolve.Run

set_option autoImplicit false

/- The context at each call of `resolve_field_class` during a run of
`resolve_root_class`. The condition of a call (the root scope is the one being
resolved and the stack holds the ancestors of the class entered, frame by
frame) is checked where each call begins by `resolveFieldClassChecked`, the
statements of `resolve_field_class` with the check added, and the checked run
is the code's run with every check holding
(`resolveRootClass_stack_mirrors_ancestors`). -/
namespace Btrace.Ctf

open CtfFieldClass

section OkRuns

variable {α β : Type} {x : ResolveM α} {f : α → ResolveM β} {s s' : ResolveContext} {b : β}

theorem run_bind_eq_ok (done : (x >>= f).run s = .ok b s') : ∃ a s1, x.run s = .ok a s1 ∧ (f a).run s1 = .ok b s' := by
  simp only [resolveM_run] at done ⊢
  change EStateM.bind x f s = _ at done
  cases first : x s with
  | ok a s1 =>
      simp only [EStateM.bind, first] at done
      exact ⟨a, s1, rfl, done⟩
  | error e s1 => simp [EStateM.bind, first] at done

theorem resolveSequenceOrVariantFieldClass_ok {fc : CtfFieldClass} {fcRef : FieldClassRef}
    (done : (resolveSequenceOrVariantFieldClass fc fcRef).run s = .ok () s') : ∃ tc, s' = { s with tc := tc } := by
  simp only [resolveSequenceOrVariantFieldClass, resolveM_run, bind, EStateM.bind, get, getThe,
    MonadStateOf.get, EStateM.get] at done
  cases found : resolveSequenceOrVariantTarget fc s with
  | ok target =>
      rw [found] at done
      cases done
      exact ⟨_, rfl⟩
  | error e =>
      rw [found] at done
      cases done

theorem fieldClassStackSetTopIndex_ok {index : Int} {frames : List FieldClassStackFrame}
    {top : FieldClassStackFrame} (stack : s.fieldClassStack = frames ++ [top])
    (done : (fieldClassStackSetTopIndex index).run s = .ok () s') :
    s' = { s with fieldClassStack := frames ++ [{ top with index := index }] } := by
  rw [fieldClassStackSetTopIndex_run index s frames top stack] at done
  cases done
  rfl

end OkRuns

mutual
/-- A call of `resolve_field_class` that returns 0 changes only the trace
class: it pops every frame it pushes. -/
theorem resolveFieldClass_ok_context :
    ∀ (fc : CtfFieldClass) (fcRef : FieldClassRef) (s s' : ResolveContext),
      (resolveFieldClass fc fcRef).run s = .ok () s' → ∃ tc, s' = { s with tc := tc }
  | .int _, _, _, _, done | .enum _, _, _, _, done | .float, _, _, _, done | .string, _, _, _, done => by
      cases done
      exact ⟨_, rfl⟩
  | .struct members, fcRef, s, _, done => by
      simp only [resolveFieldClass] at done
      obtain ⟨_, _, pushed, rest⟩ := run_bind_eq_ok done
      obtain ⟨_, _, loop, popped⟩ := run_bind_eq_ok rest
      cases pushed
      obtain ⟨tc', top, rfl⟩ := resolveFieldClassMembers_ok_context members fcRef 0 _ _ _ _ rfl loop
      cases popped
      exact ⟨tc', by simp⟩
  | .variant _ _ _ options, fcRef, s, _, done => by
      simp only [resolveFieldClass] at done
      obtain ⟨_, _, lookup, rest⟩ := run_bind_eq_ok done
      obtain ⟨tc, rfl⟩ := resolveSequenceOrVariantFieldClass_ok lookup
      obtain ⟨_, _, pushed, rest⟩ := run_bind_eq_ok rest
      obtain ⟨_, _, loop, popped⟩ := run_bind_eq_ok rest
      cases pushed
      obtain ⟨tc', top, rfl⟩ := resolveFieldClassMembers_ok_context options fcRef 0 _ _ _ _ rfl loop
      cases popped
      exact ⟨tc', by simp⟩
  | .array elemFc _, fcRef, s, _, done => by
      simp only [resolveFieldClass] at done
      obtain ⟨_, _, pushed, rest⟩ := run_bind_eq_ok done
      obtain ⟨_, _, set, rest⟩ := run_bind_eq_ok rest
      obtain ⟨_, _, elem, popped⟩ := run_bind_eq_ok rest
      cases pushed
      cases fieldClassStackSetTopIndex_ok rfl set
      obtain ⟨tc', rfl⟩ := resolveFieldClass_ok_context elemFc _ _ _ elem
      cases popped
      exact ⟨tc', by simp⟩
  | .sequence elemFc _ _ _ _, fcRef, s, _, done => by
      simp only [resolveFieldClass] at done
      obtain ⟨_, _, lookup, rest⟩ := run_bind_eq_ok done
      obtain ⟨tc, rfl⟩ := resolveSequenceOrVariantFieldClass_ok lookup
      obtain ⟨_, _, pushed, rest⟩ := run_bind_eq_ok rest
      obtain ⟨_, _, set, rest⟩ := run_bind_eq_ok rest
      obtain ⟨_, _, elem, popped⟩ := run_bind_eq_ok rest
      cases pushed
      cases fieldClassStackSetTopIndex_ok rfl set
      obtain ⟨tc', rfl⟩ := resolveFieldClass_ok_context elemFc _ _ _ elem
      cases popped
      exact ⟨tc', by simp⟩

/-- The child loop, with the frame of its class on top, returns 0 only with
that frame still on top, its index changed at most. -/
theorem resolveFieldClassMembers_ok_context :
    ∀ (members : List (String × CtfFieldClass)) (fcRef : FieldClassRef) (i : Nat) (s s' : ResolveContext)
      (frames : List FieldClassStackFrame) (top : FieldClassStackFrame),
      s.fieldClassStack = frames ++ [top] → (resolveFieldClassMembers members fcRef i).run s = .ok () s' →
        ∃ tc top', s' = { s with tc := tc, fieldClassStack := frames ++ [top'] }
  | [], _, _, s, _, _, top, stack, done => by
      cases done
      exact ⟨s.tc, top, by rw [← stack]⟩
  | (_, childFc) :: members, fcRef, i, s, _, frames, top, stack, done => by
      simp only [resolveFieldClassMembers] at done
      obtain ⟨_, _, set, rest⟩ := run_bind_eq_ok done
      obtain ⟨_, _, child, later⟩ := run_bind_eq_ok rest
      cases fieldClassStackSetTopIndex_ok stack set
      obtain ⟨tc, rfl⟩ := resolveFieldClass_ok_context childFc _ _ _ child
      obtain ⟨tc', top', rfl⟩ := resolveFieldClassMembers_ok_context members fcRef (i + 1) _ _ frames _ rfl later
      exact ⟨tc', top', rfl⟩
end

/-- The stack mirrors the ancestors of `fc`, the class at `pos` below `rootFc`:
one frame per step of `pos`, the first holding `rootFc` and each next one the
child of the one before at its index, the indices spelling `pos` with -1 at
every array or sequence, and `fc` the child of the last frame at its index. -/
structure StackMirrors (stack : List FieldClassStackFrame) (rootFc : CtfFieldClass) (pos : List Int)
    (fc : CtfFieldClass) : Prop where
  reached : rootFc.borrowFieldClassByPath pos = some fc
  length : stack.length = pos.length
  first : ∀ frame, stack[0]? = some frame → frame.fc = rootFc
  next : ∀ (k : Nat) (frame frame' : FieldClassStackFrame), stack[k]? = some frame → stack[k + 1]? = some frame' →
    frame.fc.compoundBorrowFieldClassByIndex frame.index = some frame'.fc
  index : ∀ k : Nat, (stack[k]?).map (·.index) = pos[k]?
  arrayIndex : ∀ frame ∈ stack, frame.fc.isArrayOrSequence = true → frame.index = -1
  last : ∀ frame, stack.getLast? = some frame → frame.fc.compoundBorrowFieldClassByIndex frame.index = some fc

theorem ancestorFrames_arrayIndex :
    ∀ (pos : List Int) (fc : CtfFieldClass), ArraySteps fc pos →
      ∀ frame ∈ ancestorFrames fc pos, frame.fc.isArrayOrSequence = true → frame.index = -1
  | [], _, _ => by simp [ancestorFrames]
  | index :: pos, fc, steps => by
      simp only [ancestorFrames, List.mem_cons]
      rintro frame (rfl | mem) nested
      · cases fc <;> simp_all [isArrayOrSequence, ArraySteps]
      · split at mem
        · exact ancestorFrames_arrayIndex pos _ (steps.child ‹_›) frame mem nested
        · simp at mem

theorem stackMirrors_ancestorFrames :
    ∀ (pos : List Int) (rootFc fc : CtfFieldClass), rootFc.borrowFieldClassByPath pos = some fc →
      (∀ frame ∈ ancestorFrames rootFc pos, frame.fc.isArrayOrSequence = true → frame.index = -1) →
        StackMirrors (ancestorFrames rootFc pos) rootFc pos fc
  | [], rootFc, fc, reached, _ => by
      refine ⟨reached, rfl, ?_, ?_, ?_, ?_, ?_⟩ <;> simp [ancestorFrames]
  | index :: pos, rootFc, fc, reached, arrays => by
      simp only [borrowFieldClassByPath, Option.bind_eq_some] at reached
      obtain ⟨child, found, below⟩ := reached
      have frames : ancestorFrames rootFc (index :: pos) = ⟨rootFc, index⟩ :: ancestorFrames child pos := by
        simp [ancestorFrames, found]
      have deeper := stackMirrors_ancestorFrames pos child fc below fun frame mem =>
        arrays frame (frames ▸ List.mem_cons_of_mem _ mem)
      rw [frames] at arrays ⊢
      refine ⟨by simp [borrowFieldClassByPath, found, below], by simp [deeper.length], ?_, ?_, ?_, arrays, ?_⟩
      · intro frame head
        rw [List.getElem?_cons_zero, Option.some.injEq] at head
        rw [← head]
      · intro k frame frame' at1 at2
        cases k with
        | zero =>
            rw [List.getElem?_cons_zero, Option.some.injEq] at at1
            subst at1
            rw [found, ← deeper.first frame' (by simpa using at2)]
        | succ k => exact deeper.next k frame frame' (by simpa using at1) (by simpa using at2)
      · intro k
        cases k <;> simp [deeper.index]
      · intro frame lastFrame
        rw [List.getLast?_cons] at lastFrame
        cases inner : (ancestorFrames child pos).getLast? with
        | some frame' =>
            rw [inner] at lastFrame
            cases lastFrame
            exact deeper.last frame' inner
        | none =>
            rw [inner] at lastFrame
            cases lastFrame
            have empty : pos = [] := by
              simpa [← List.length_eq_zero, deeper.length] using List.getLast?_eq_none_iff.1 inner
            subst empty
            simpa [found] using below

/-- The condition on a call of `resolve_field_class(fc)` through `fcRef` while
`resolve_root_class(rootScope)` resolves the root class `rootFc` through
`rootRef`: the root scope is set, `fc` is the class at `fcRef`, and the stack
holds the ancestors of `fc`, with -1 in the frame of every array or sequence. -/
def entryHolds (rootScope : CtfScope) (rootRef : RootClassRef) (rootFc fc : CtfFieldClass) (fcRef : FieldClassRef)
    (ctx : ResolveContext) : Bool :=
  decide (ctx.rootScope = rootScope ∧ fcRef.root = rootRef ∧ rootFc.borrowFieldClassByPath fcRef.position = some fc ∧
    ctx.fieldClassStack = ancestorFrames rootFc fcRef.position ∧
    ∀ frame ∈ ctx.fieldClassStack, frame.fc.isArrayOrSequence = true → frame.index = -1)

/-- The entry condition, read from the context as a statement of the resolver. -/
def checkEntry (rootScope : CtfScope) (rootRef : RootClassRef) (rootFc fc : CtfFieldClass) (fcRef : FieldClassRef) :
    ResolveM Bool := do
  return entryHolds rootScope rootRef rootFc fc fcRef (← get)

mutual
/-- `resolve_field_class` with the entry condition checked where every call
begins, its own and those it makes: the statements of `resolve_field_class` in
the same order, and a ghost result, whether every check held. -/
def resolveFieldClassChecked (rootScope : CtfScope) (rootRef : RootClassRef) (rootFc : CtfFieldClass) :
    CtfFieldClass → FieldClassRef → ResolveM Bool
  | fc@(.struct members), fcRef => do
      let here ← checkEntry rootScope rootRef rootFc fc fcRef
      fieldClassStackPush fc
      let below ← resolveFieldClassMembersChecked rootScope rootRef rootFc members fcRef 0
      fieldClassStackPop
      return here && below
  | fc@(.variant _ _ _ options), fcRef => do
      let here ← checkEntry rootScope rootRef rootFc fc fcRef
      resolveSequenceOrVariantFieldClass fc fcRef
      fieldClassStackPush fc
      let below ← resolveFieldClassMembersChecked rootScope rootRef rootFc options fcRef 0
      fieldClassStackPop
      return here && below
  | fc@(.array elemFc _), fcRef => do
      let here ← checkEntry rootScope rootRef rootFc fc fcRef
      fieldClassStackPush fc
      fieldClassStackSetTopIndex (-1)
      let below ← resolveFieldClassChecked rootScope rootRef rootFc elemFc (fcRef.child (-1))
      fieldClassStackPop
      return here && below
  | fc@(.sequence elemFc _ _ _ _), fcRef => do
      let here ← checkEntry rootScope rootRef rootFc fc fcRef
      resolveSequenceOrVariantFieldClass fc fcRef
      fieldClassStackPush fc
      fieldClassStackSetTopIndex (-1)
      let below ← resolveFieldClassChecked rootScope rootRef rootFc elemFc (fcRef.child (-1))
      fieldClassStackPop
      return here && below
  | fc, fcRef => checkEntry rootScope rootRef rootFc fc fcRef

def resolveFieldClassMembersChecked (rootScope : CtfScope) (rootRef : RootClassRef) (rootFc : CtfFieldClass) :
    List (String × CtfFieldClass) → FieldClassRef → Nat → ResolveM Bool
  | [], _, _ => pure true
  | (_, childFc) :: members, fcRef, i => do
      fieldClassStackSetTopIndex i
      let child ← resolveFieldClassChecked rootScope rootRef rootFc childFc (fcRef.child i)
      let rest ← resolveFieldClassMembersChecked rootScope rootRef rootFc members fcRef (i + 1)
      return child && rest
end

section Ghost

variable {s : ResolveContext}

/-- `x` runs from `s` as `y` does, and returns true. -/
def RunsAs (x : ResolveM Bool) (y : ResolveM Unit) (s : ResolveContext) : Prop :=
  x.run s = ((fun _ => true) <$> y).run s

theorem map_run (y : ResolveM Unit) (s : ResolveContext) :
    ((fun _ => true) <$> y).run s = match y.run s with
      | .ok _ s' => .ok true s'
      | .error e s' => .error e s' := by
  show EStateM.map _ y s = match y s with | .ok _ s' => .ok true s' | .error e s' => .error e s'
  cases ran : y s <;> simp only [EStateM.map, ran]

theorem runsAs_pure : RunsAs (pure true) (pure ()) s := rfl

/-- A statement both runs make, then runs that agree from wherever it ends. -/
theorem runsAs_seq {z : ResolveM Unit} {k : Unit → ResolveM Bool} {k' : Unit → ResolveM Unit}
    (rest : ∀ s', z.run s = .ok () s' → RunsAs (k ()) (k' ()) s') : RunsAs (z >>= k) (z >>= k') s := by
  unfold RunsAs
  rw [map_run]
  cases ran : z.run s with
  | ok _ s' => rw [run_bind_of_ok ran, run_bind_of_ok ran, rest s' ran, map_run]
  | error e s' => rw [run_bind_of_error ran, run_bind_of_error ran]

/-- A checked call that runs as its call does, then runs that agree. -/
theorem runsAs_bind {x : ResolveM Bool} {y : ResolveM Unit} {k : Bool → ResolveM Bool} {k' : Unit → ResolveM Unit}
    (first : RunsAs x y s) (rest : ∀ s', y.run s = .ok () s' → RunsAs (k true) (k' ()) s') :
    RunsAs (x >>= k) (y >>= k') s := by
  unfold RunsAs at first ⊢
  rw [map_run] at first ⊢
  cases ran : y.run s with
  | ok _ s' =>
      rw [ran] at first
      rw [run_bind_of_ok first, run_bind_of_ok ran, rest s' ran, map_run]
  | error e s' =>
      rw [ran] at first
      rw [run_bind_of_error first, run_bind_of_error ran]

/-- A checked call that runs as its call does, its result kept. -/
theorem runsAs_and {x : ResolveM Bool} {y : ResolveM Unit} (first : RunsAs x y s) :
    RunsAs (x >>= fun b => pure (true && b)) y s := by
  unfold RunsAs at first ⊢
  rw [map_run] at first ⊢
  cases ran : y.run s with
  | ok _ s' =>
      rw [ran] at first
      rw [run_bind_of_ok first]
      rfl
  | error e s' =>
      rw [ran] at first
      rw [run_bind_of_error first]

end Ghost

section Checked

variable (rootScope : CtfScope) (rootRef : RootClassRef) (rootFc : CtfFieldClass) (start : ResolveContext)

/-- The check holds at every node, with the stack holding its ancestors. -/
theorem checkEntry_at (rooted : start.rootScope = rootScope) {fc : CtfFieldClass} {pos : List Int} (tc : CtfTraceClass)
    (reached : rootFc.borrowFieldClassByPath pos = some fc) (steps : ArraySteps rootFc pos) :
    (checkEntry rootScope rootRef rootFc fc ⟨rootRef, pos⟩).run
        { start with tc := tc, fieldClassStack := ancestorFrames rootFc pos } =
      .ok true { start with tc := tc, fieldClassStack := ancestorFrames rootFc pos } := by
  have holds : entryHolds rootScope rootRef rootFc fc ⟨rootRef, pos⟩
      { start with tc := tc, fieldClassStack := ancestorFrames rootFc pos } = true :=
    decide_eq_true ⟨rooted, rfl, reached, rfl, ancestorFrames_arrayIndex pos rootFc steps⟩
  rw [← holds]
  rfl

mutual
/-- The checked traversal of the class at `pos` below `rootFc` runs as
`resolve_field_class` does and every check it makes holds. -/
theorem resolveFieldClassChecked_runsAs (rooted : start.rootScope = rootScope) :
    ∀ (fc : CtfFieldClass) (pos : List Int) (tc : CtfTraceClass),
      rootFc.borrowFieldClassByPath pos = some fc → ArraySteps rootFc pos →
      RunsAs (resolveFieldClassChecked rootScope rootRef rootFc fc ⟨rootRef, pos⟩) (resolveFieldClass fc ⟨rootRef, pos⟩)
        { start with tc := tc, fieldClassStack := ancestorFrames rootFc pos }
  | .int _, _, tc, reached, steps | .enum _, _, tc, reached, steps
  | .float, _, tc, reached, steps | .string, _, tc, reached, steps =>
      checkEntry_at rootScope rootRef rootFc start rooted tc reached steps
  | .struct members, pos, tc, reached, steps => by
      simp only [resolveFieldClassChecked, resolveFieldClass]
      unfold RunsAs
      rw [run_bind_of_ok (checkEntry_at rootScope rootRef rootFc start rooted tc reached steps)]
      refine runsAs_seq fun _ pushed => ?_
      cases pushed
      refine runsAs_bind (resolveFieldClassMembersChecked_runsAs rooted pos _ members 0 tc 0 reached steps rfl
        fun k m found => by simp [compoundBorrowFieldClassByIndex, found]) fun _ _ => runsAs_seq fun _ _ => runsAs_pure
  | .variant tagRef tagPath tagFc options, pos, tc, reached, steps => by
      simp only [resolveFieldClassChecked, resolveFieldClass]
      unfold RunsAs
      rw [run_bind_of_ok (checkEntry_at rootScope rootRef rootFc start rooted tc reached steps)]
      refine runsAs_seq fun _ lookup => ?_
      obtain ⟨tc', rfl⟩ := resolveSequenceOrVariantFieldClass_ok lookup
      refine runsAs_seq fun _ pushed => ?_
      cases pushed
      refine runsAs_bind (resolveFieldClassMembersChecked_runsAs rooted pos _ options 0 tc' 0 reached steps rfl
        fun k m found => by simp [compoundBorrowFieldClassByIndex, found]) fun _ _ => runsAs_seq fun _ _ => runsAs_pure
  | .array elemFc isText, pos, tc, reached, steps => by
      simp only [resolveFieldClassChecked, resolveFieldClass, FieldClassRef.child]
      unfold RunsAs
      rw [run_bind_of_ok (checkEntry_at rootScope rootRef rootFc start rooted tc reached steps)]
      refine runsAs_seq fun _ pushed => ?_
      cases pushed
      refine runsAs_seq fun _ set => ?_
      rw [fieldClassStackSetTopIndex_enter start rootFc tc (-1) 0 reached] at set
      cases set
      exact runsAs_bind (resolveFieldClassChecked_runsAs rooted elemFc _ tc (by rw [borrowFieldClassByPath_concat, reached]; rfl)
        (arraySteps_concat rootFc _ steps reached ⟨rfl, arraySteps_nil elemFc⟩)) fun _ _ => runsAs_seq fun _ _ => runsAs_pure
  | .sequence elemFc isText lengthRef lengthPath lengthFc, pos, tc, reached, steps => by
      simp only [resolveFieldClassChecked, resolveFieldClass, FieldClassRef.child]
      unfold RunsAs
      rw [run_bind_of_ok (checkEntry_at rootScope rootRef rootFc start rooted tc reached steps)]
      refine runsAs_seq fun _ lookup => ?_
      obtain ⟨tc', rfl⟩ := resolveSequenceOrVariantFieldClass_ok lookup
      refine runsAs_seq fun _ pushed => ?_
      cases pushed
      refine runsAs_seq fun _ set => ?_
      rw [fieldClassStackSetTopIndex_enter start rootFc tc' (-1) 0 reached] at set
      cases set
      exact runsAs_bind (resolveFieldClassChecked_runsAs rooted elemFc _ tc' (by rw [borrowFieldClassByPath_concat, reached]; rfl)
        (arraySteps_concat rootFc _ steps reached ⟨rfl, arraySteps_nil elemFc⟩)) fun _ _ => runsAs_seq fun _ _ => runsAs_pure

/-- The checked child loop of `parent`, at child `i` with the frame of `parent`
on top, runs as the child loop does and every check it makes holds. -/
theorem resolveFieldClassMembersChecked_runsAs (rooted : start.rootScope = rootScope) (pos : List Int)
    (parent : CtfFieldClass) :
    ∀ (members : List (String × CtfFieldClass)) (i : Nat) (tc : CtfTraceClass) (top : Int),
      rootFc.borrowFieldClassByPath pos = some parent → ArraySteps rootFc pos → parent.isStructOrVariant = true →
      (∀ (k : Nat) (m : String × CtfFieldClass), members[k]? = some m →
        parent.compoundBorrowFieldClassByIndex ((i + k : Nat) : Int) = some m.2) →
      RunsAs (resolveFieldClassMembersChecked rootScope rootRef rootFc members ⟨rootRef, pos⟩ i)
        (resolveFieldClassMembers members ⟨rootRef, pos⟩ i)
        { start with tc := tc, fieldClassStack := ancestorFrames rootFc pos ++ [⟨parent, top⟩] }
  | [], _, _, _, _, _, _, _ => runsAs_pure
  | (name, childFc) :: members, i, tc, top, reached, steps, named, origin => by
      have childReached : rootFc.borrowFieldClassByPath (pos ++ [(i : Int)]) = some childFc := by
        rw [borrowFieldClassByPath_concat, reached]
        exact origin 0 (name, childFc) (by simp)
      simp only [resolveFieldClassMembersChecked, resolveFieldClassMembers, FieldClassRef.child]
      refine runsAs_seq fun _ set => ?_
      rw [fieldClassStackSetTopIndex_enter start rootFc tc _ top reached] at set
      cases set
      refine runsAs_bind (resolveFieldClassChecked_runsAs rooted childFc _ tc childReached
        (arraySteps_concat rootFc _ steps reached (arraySteps_member named _))) fun _ child => ?_
      obtain ⟨tc', rfl⟩ := resolveFieldClass_ok_context _ _ _ _ child
      have restack := ancestorFrames_concat pos rootFc parent (i : Int) reached
      simp only [restack]
      exact runsAs_and (resolveFieldClassMembersChecked_runsAs rooted pos parent members (i + 1) tc' i reached steps named
        fun k m found => by simpa [Nat.add_assoc, Nat.add_comm 1 k] using origin (k + 1) m (by simpa using found))
end

end Checked

/-- A packet header `{ len, data : uint8[] }`. -/
def intThenArray : CtfFieldClass :=
  .struct [("len", .int ⟨8, 32, false, .none⟩), ("data", .array (.int ⟨8, 8, false, .utf8⟩) false)]

/-- The context `resolve_root_class` starts from on a trace class with the
header `intThenArray`. -/
def intThenArrayContext : ResolveContext :=
  .idle ⟨some intThenArray, [], false⟩ none none traceScopes .packetHeader

/-- At the element of `data`, the check holds with the header at index 1 and
the array at -1, and fails with the header still at index 0. -/
example : entryHolds .packetHeader .packetHeader intThenArray (.int ⟨8, 8, false, .utf8⟩) ⟨.packetHeader, [1, -1]⟩
      { intThenArrayContext with
        fieldClassStack := [⟨intThenArray, 1⟩, ⟨.array (.int ⟨8, 8, false, .utf8⟩) false, -1⟩] } = true ∧
    entryHolds .packetHeader .packetHeader intThenArray (.int ⟨8, 8, false, .utf8⟩) ⟨.packetHeader, [1, -1]⟩
      { intThenArrayContext with
        fieldClassStack := [⟨intThenArray, 0⟩, ⟨.array (.int ⟨8, 8, false, .utf8⟩) false, -1⟩] } = false := by
  decide

end Btrace.Ctf
