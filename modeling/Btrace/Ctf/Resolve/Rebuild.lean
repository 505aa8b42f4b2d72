import Btrace.Ctf.Resolve.Target

set_option autoImplicit false

/- The traversal `resolve_field_class` as a pure function of the tree it
visits: `resolveTargets` rebuilds a tree with every sequence and variant holding
the target found for it at its position, in the order the resolver visits them.
Its facts: a failure is the failure of one node's lookup, every sequence and
variant of the rebuilt tree stores what the lookup found at its position, and
nothing depends on the targets the tree held before. -/
namespace Btrace.Ctf

open CtfFieldClass

mutual
/-- The tree `fc` at position `pos` with every sequence and variant holding the
target `target` finds for it there, visiting a node before its children and the
children in order; the first failure ends the visit. -/
def resolveTargets (target : List Int → CtfFieldClass → Except ResolveError (CtfFieldPath × CtfFieldClass))
    (pos : List Int) : CtfFieldClass → Except ResolveError CtfFieldClass
  | .struct members => .struct <$> resolveTargetsMembers target pos members 0
  | fc@(.variant tagRef _ _ options) => do
      let (targetFieldPath, targetFc) ← target pos fc
      .variant tagRef targetFieldPath targetFc.asEnum <$> resolveTargetsMembers target pos options 0
  | .array elemFc isText => (.array · isText) <$> resolveTargets target (pos ++ [-1]) elemFc
  | fc@(.sequence elemFc isText lengthRef _ _) => do
      let (targetFieldPath, targetFc) ← target pos fc
      (.sequence · isText lengthRef targetFieldPath targetFc.asInt) <$>
        resolveTargets target (pos ++ [-1]) elemFc
  | fc => pure fc

def resolveTargetsMembers
    (target : List Int → CtfFieldClass → Except ResolveError (CtfFieldPath × CtfFieldClass))
    (pos : List Int) : List (String × CtfFieldClass) → Nat → Except ResolveError (List (String × CtfFieldClass))
  | [], _ => pure []
  | (name, childFc) :: members, index => do
      let childFc' ← resolveTargets target (pos ++ [(index : Int)]) childFc
      ((name, childFc') :: ·) <$> resolveTargetsMembers target pos members (index + 1)
end

/-- The target the resolver finds at position `pos` of root class `rootFc` when
the traversal of that root starts in `base`. -/
def nodeTarget (base : ResolveContext) (rootFc : CtfFieldClass) (pos : List Int) (fc : CtfFieldClass) :
    Except ResolveError (CtfFieldPath × CtfFieldClass) :=
  resolveSequenceOrVariantTarget fc { base with fieldClassStack := ancestorFrames rootFc pos }

theorem eraseTargets_setTargetFieldClass (targetFieldPath : CtfFieldPath) (targetFc fc : CtfFieldClass) :
    (setTargetFieldClass targetFieldPath targetFc fc).eraseTargets = fc.eraseTargets := by
  cases fc <;> rfl

mutual
/-- The tree `resolveTargets` rebuilds has the shape, names and references of
the one it visits. -/
theorem eraseTargets_resolveTargets
    (target : List Int → CtfFieldClass → Except ResolveError (CtfFieldPath × CtfFieldClass)) :
    ∀ (pos : List Int) (fc fc' : CtfFieldClass), resolveTargets target pos fc = .ok fc' →
      fc'.eraseTargets = fc.eraseTargets
  | _, .int _, _, found | _, .enum _, _, found | _, .float, _, found | _, .string, _, found => by
      cases found; rfl
  | pos, .struct members, fc', found => by
      simp only [resolveTargets, except_map_eq_ok] at found
      obtain ⟨members', resolved, rfl⟩ := found
      simp [eraseTargetsMembers_resolveTargetsMembers target pos members 0 members' resolved]
  | pos, .variant tagRef tagPath tagFc options, fc', found => by
      simp only [resolveTargets, bind, Except.bind] at found
      split at found
      · cases found
      · simp only [except_map_eq_ok] at found
        obtain ⟨options', resolved, rfl⟩ := found
        simp [eraseTargetsMembers_resolveTargetsMembers target pos options 0 options' resolved]
  | pos, .array elemFc isText, fc', found => by
      simp only [resolveTargets, except_map_eq_ok] at found
      obtain ⟨elemFc', resolved, rfl⟩ := found
      simp [eraseTargets_resolveTargets target (pos ++ [-1]) elemFc elemFc' resolved]
  | pos, .sequence elemFc isText lengthRef lengthPath lengthFc, fc', found => by
      simp only [resolveTargets, bind, Except.bind] at found
      split at found
      · cases found
      · simp only [except_map_eq_ok] at found
        obtain ⟨elemFc', resolved, rfl⟩ := found
        simp [eraseTargets_resolveTargets target (pos ++ [-1]) elemFc elemFc' resolved]

theorem eraseTargetsMembers_resolveTargetsMembers
    (target : List Int → CtfFieldClass → Except ResolveError (CtfFieldPath × CtfFieldClass))
    (pos : List Int) :
    ∀ (members : List (String × CtfFieldClass)) (index : Nat) (members' : List (String × CtfFieldClass)),
      resolveTargetsMembers target pos members index = .ok members' →
        members'.map (fun m => (m.1, m.2.eraseTargets)) = members.map fun m => (m.1, m.2.eraseTargets)
  | [], _, _, found => by cases found; rfl
  | (name, childFc) :: members, index, members', found => by
      simp only [resolveTargetsMembers, bind, Except.bind] at found
      split at found
      · cases found
      · rename_i childFc' resolvedChild
        simp only [except_map_eq_ok] at found
        obtain ⟨rest', resolvedRest, rfl⟩ := found
        simp [eraseTargets_resolveTargets target _ childFc childFc' resolvedChild,
          eraseTargetsMembers_resolveTargetsMembers target pos members (index + 1) rest' resolvedRest]
end


/-- The target a resolved sequence or variant holds: its length or tag field
path, and the class it points to as the node keeps it. -/
def CtfFieldClass.Stores : CtfFieldClass → CtfFieldPath → CtfFieldClass → Prop
  | .sequence _ _ _ lengthPath lengthFc, target, targetFc => lengthPath = target ∧ lengthFc = targetFc.asInt
  | .variant _ tagPath tagFc _, target, targetFc => tagPath = target ∧ tagFc = targetFc.asEnum
  | _, _, _ => False

section Rebuild

variable (target : List Int → CtfFieldClass → Except ResolveError (CtfFieldPath × CtfFieldClass))

mutual
/-- A failed rebuild is the failed lookup of one sequence or variant of the
tree, at a position that takes -1 at every array or sequence. -/
theorem resolveTargets_error :
    ∀ (pos : List Int) (fc : CtfFieldClass) (e : ResolveError), resolveTargets target pos fc = .error e →
      ∃ (rel : List Int) (node : CtfFieldClass), fc.borrowFieldClassByPath rel = some node ∧
        ArraySteps fc rel ∧ node.isSequenceOrVariant = true ∧ target (pos ++ rel) node = .error e
  | _, .int _, _, failed | _, .enum _, _, failed | _, .float, _, failed | _, .string, _, failed => by
      cases failed
  | pos, .struct members, e, failed => by
      simp only [resolveTargets, except_map_eq_error] at failed
      obtain ⟨k, name, child, member, rel, node, reached, steps, kind, failedAt⟩ :=
        resolveTargetsMembers_error pos members 0 e failed
      refine ⟨(k : Int) :: rel, node, ?_, fun child' found => ?_, kind, by simpa using failedAt⟩
      · simp [borrowFieldClassByPath, compoundBorrowFieldClassByIndex, member, reached]
      · simp only [borrowMember_natCast, member, Option.map_some', Option.some.injEq] at found
        exact found ▸ steps
  | pos, .variant tagRef tagPath tagFc options, e, failed => by
      simp only [resolveTargets, bind, Except.bind] at failed
      split at failed
      · rename_i atNode
        cases failed
        exact ⟨[], _, rfl, arraySteps_nil _, rfl, by simpa using atNode⟩
      · simp only [except_map_eq_error] at failed
        obtain ⟨k, name, child, member, rel, node, reached, steps, kind, failedAt⟩ :=
          resolveTargetsMembers_error pos options 0 e failed
        refine ⟨(k : Int) :: rel, node, ?_, fun child' found => ?_, kind, by simpa using failedAt⟩
        · simp [borrowFieldClassByPath, compoundBorrowFieldClassByIndex, member, reached]
        · simp only [borrowMember_natCast, member, Option.map_some', Option.some.injEq] at found
          exact found ▸ steps
  | pos, .array elemFc isText, e, failed => by
      simp only [resolveTargets, except_map_eq_error] at failed
      obtain ⟨rel, node, reached, steps, kind, failedAt⟩ := resolveTargets_error (pos ++ [-1]) elemFc e failed
      exact ⟨-1 :: rel, node, reached, ⟨rfl, steps⟩, kind, by simpa using failedAt⟩
  | pos, .sequence elemFc isText lengthRef lengthPath lengthFc, e, failed => by
      simp only [resolveTargets, bind, Except.bind] at failed
      split at failed
      · rename_i atNode
        cases failed
        exact ⟨[], _, rfl, arraySteps_nil _, rfl, by simpa using atNode⟩
      · simp only [except_map_eq_error] at failed
        obtain ⟨rel, node, reached, steps, kind, failedAt⟩ := resolveTargets_error (pos ++ [-1]) elemFc e failed
        exact ⟨-1 :: rel, node, reached, ⟨rfl, steps⟩, kind, by simpa using failedAt⟩

theorem resolveTargetsMembers_error :
    ∀ (pos : List Int) (members : List (String × CtfFieldClass)) (index : Nat) (e : ResolveError),
      resolveTargetsMembers target pos members index = .error e →
        ∃ (k : Nat) (name : String) (child : CtfFieldClass), members[k]? = some (name, child) ∧
          ∃ (rel : List Int) (node : CtfFieldClass), child.borrowFieldClassByPath rel = some node ∧
            ArraySteps child rel ∧ node.isSequenceOrVariant = true ∧
              target (pos ++ ((index + k : Nat) : Int) :: rel) node = .error e
  | _, [], _, _, failed => by cases failed
  | pos, (name, child) :: members, index, e, failed => by
      simp only [resolveTargetsMembers, bind, Except.bind] at failed
      split at failed
      · rename_i childFailed
        cases failed
        obtain ⟨rel, node, reached, steps, kind, failedAt⟩ := resolveTargets_error _ child _ childFailed
        exact ⟨0, name, child, by simp, rel, node, reached, steps, kind, by simpa using failedAt⟩
      · simp only [except_map_eq_error] at failed
        obtain ⟨k, name', child', member, rest⟩ := resolveTargetsMembers_error pos members (index + 1) e failed
        exact ⟨k + 1, name', child', by simpa using member, by simpa [Nat.add_assoc, Nat.add_comm 1 k] using rest⟩
end

/-- One step into the members of a structure or variant, for a fact that holds
member by member. -/
theorem stores_of_member {members members' : List (String × CtfFieldClass)} {pos : List Int} {index : Int}
    {rel : List Int} {node : CtfFieldClass}
    (memberwise : ∀ (k : Nat) (name : String) (child : CtfFieldClass), members[k]? = some (name, child) →
      child.borrowFieldClassByPath rel = some node → ArraySteps child rel →
        ∃ (found : CtfFieldPath × CtfFieldClass) (child' node' : CtfFieldClass),
          target (pos ++ (k : Int) :: rel) node = .ok found ∧ members'[k]? = some (name, child') ∧
            child'.borrowFieldClassByPath rel = some node' ∧ node'.Stores found.1 found.2)
    (reached : (borrowMember index members).bind (·.borrowFieldClassByPath rel) = some node)
    (steps : ∀ child, borrowMember index members = some child → ArraySteps child rel) :
    ∃ (found : CtfFieldPath × CtfFieldClass) (node' : CtfFieldClass),
      target (pos ++ index :: rel) node = .ok found ∧
        (borrowMember index members').bind (·.borrowFieldClassByPath rel) = some node' ∧
          node'.Stores found.1 found.2 := by
  obtain ⟨child, found, childReached⟩ := Option.bind_eq_some.mp reached
  obtain ⟨k, name, rfl, member⟩ := borrowMember_eq_some.mp found
  obtain ⟨found', child', node', ok, member', reached', stores⟩ :=
    memberwise k name child member childReached (steps child found)
  exact ⟨found', node', ok, by simp [member', reached'], stores⟩

mutual
/-- Every sequence and variant of the tree, at a position that takes -1 at
every array or sequence, has its lookup succeed there, and the rebuilt tree
holds at that position a node that stores what the lookup found. -/
theorem resolveTargets_stores :
    ∀ (pos : List Int) (fc fc' : CtfFieldClass), resolveTargets target pos fc = .ok fc' →
      ∀ (rel : List Int) (node : CtfFieldClass), fc.borrowFieldClassByPath rel = some node → ArraySteps fc rel →
        node.isSequenceOrVariant = true →
          ∃ (found : CtfFieldPath × CtfFieldClass) (node' : CtfFieldClass), target (pos ++ rel) node = .ok found ∧
            fc'.borrowFieldClassByPath rel = some node' ∧ node'.Stores found.1 found.2
  | _, .int _, _, _, [], _, reached, _, kind | _, .enum _, _, _, [], _, reached, _, kind
  | _, .float, _, _, [], _, reached, _, kind | _, .string, _, _, [], _, reached, _, kind
  | _, .struct _, _, _, [], _, reached, _, kind | _, .array _ _, _, _, [], _, reached, _, kind => by
      cases reached
      cases kind
  | _, .int _, _, _, _ :: _, _, reached, _, _ | _, .enum _, _, _, _ :: _, _, reached, _, _
  | _, .float, _, _, _ :: _, _, reached, _, _ | _, .string, _, _, _ :: _, _, reached, _, _ => by
      cases reached
  | pos, .struct members, fc', resolved, index :: rel, node, reached, steps, kind => by
      simp only [resolveTargets, except_map_eq_ok] at resolved
      obtain ⟨members', resolvedMembers, rfl⟩ := resolved
      exact stores_of_member target (fun k name child member reached steps => by
        simpa using resolveTargetsMembers_stores pos members 0 members' resolvedMembers k name child rel node
          member reached steps kind) reached steps
  | pos, .variant tagRef tagPath tagFc options, fc', resolved, rel, node, reached, steps, kind => by
      simp only [resolveTargets, bind, Except.bind] at resolved
      split at resolved
      · cases resolved
      · rename_i found atNode
        simp only [except_map_eq_ok] at resolved
        obtain ⟨options', resolvedOptions, rfl⟩ := resolved
        cases rel with
        | nil =>
            cases reached
            exact ⟨found, _, by simpa using atNode, rfl, rfl, rfl⟩
        | cons index rel =>
            exact stores_of_member target (fun k name child member reached steps => by
              simpa using resolveTargetsMembers_stores pos options 0 options' resolvedOptions k name child rel
                node member reached steps kind) reached steps
  | pos, .array elemFc isText, fc', resolved, index :: rel, node, reached, steps, kind => by
      simp only [resolveTargets, except_map_eq_ok] at resolved
      obtain ⟨elemFc', resolvedElem, rfl⟩ := resolved
      obtain ⟨rfl, steps⟩ := steps
      simpa using resolveTargets_stores (pos ++ [-1]) elemFc elemFc' resolvedElem rel node reached steps kind
  | pos, .sequence elemFc isText lengthRef lengthPath lengthFc, fc', resolved, rel, node, reached, steps, kind => by
      simp only [resolveTargets, bind, Except.bind] at resolved
      split at resolved
      · cases resolved
      · rename_i found atNode
        simp only [except_map_eq_ok] at resolved
        obtain ⟨elemFc', resolvedElem, rfl⟩ := resolved
        cases rel with
        | nil =>
            cases reached
            exact ⟨found, _, by simpa using atNode, rfl, rfl, rfl⟩
        | cons index rel =>
            obtain ⟨rfl, steps⟩ := steps
            simpa using resolveTargets_stores (pos ++ [-1]) elemFc elemFc' resolvedElem rel node reached steps kind
termination_by structural _ fc => fc

theorem resolveTargetsMembers_stores :
    ∀ (pos : List Int) (members : List (String × CtfFieldClass)) (index : Nat)
      (members' : List (String × CtfFieldClass)), resolveTargetsMembers target pos members index = .ok members' →
        ∀ (k : Nat) (name : String) (child : CtfFieldClass) (rel : List Int) (node : CtfFieldClass),
          members[k]? = some (name, child) → child.borrowFieldClassByPath rel = some node → ArraySteps child rel →
            node.isSequenceOrVariant = true →
              ∃ (found : CtfFieldPath × CtfFieldClass) (child' node' : CtfFieldClass),
                target (pos ++ ((index + k : Nat) : Int) :: rel) node = .ok found ∧
                  members'[k]? = some (name, child') ∧ child'.borrowFieldClassByPath rel = some node' ∧
                    node'.Stores found.1 found.2
  | _, [], _, _, _, _, _, _, _, _, member, _, _, _ => by cases member
  | pos, (name, child) :: members, index, members', resolved, k, name', child', rel, node, member, reached,
      steps, kind => by
      simp only [resolveTargetsMembers, bind, Except.bind] at resolved
      split at resolved
      · cases resolved
      · rename_i childFc' resolvedChild
        simp only [except_map_eq_ok] at resolved
        obtain ⟨rest', resolvedRest, rfl⟩ := resolved
        cases k with
        | zero =>
            simp only [List.getElem?_cons_zero, Option.some.injEq, Prod.mk.injEq] at member
            obtain ⟨rfl, rfl⟩ := member
            obtain ⟨found, node', ok, reached', stores⟩ :=
              resolveTargets_stores _ child childFc' resolvedChild rel node reached steps kind
            exact ⟨found, childFc', node', by simpa using ok, by simp, reached', stores⟩
        | succ k =>
            obtain ⟨found, child'', node', ok, member', reached', stores⟩ :=
              resolveTargetsMembers_stores pos members (index + 1) rest' resolvedRest k name' child' rel node
                (by simpa using member) reached steps kind
            exact ⟨found, child'', node', by simpa [Nat.add_assoc, Nat.add_comm 1 k] using ok, by simpa using member',
              reached', stores⟩
termination_by structural _ members => members
end

mutual
/-- A lookup that reads only what erasing keeps makes a rebuild that does not
depend on the targets the tree held. -/
theorem resolveTargets_eraseTargets_input (invariant : ∀ pos node, target pos node.eraseTargets = target pos node) :
    ∀ (pos : List Int) (fc : CtfFieldClass), resolveTargets target pos fc.eraseTargets = resolveTargets target pos fc
  | _, .int _ | _, .enum _ | _, .float | _, .string => rfl
  | pos, .struct members => by
      rw [eraseTargets_struct]
      simp only [resolveTargets]
      rw [resolveTargetsMembers_eraseTargets_input invariant pos members 0]
  | pos, .variant tagRef tagPath tagFc options => by
      have atNode := invariant pos (.variant tagRef tagPath tagFc options)
      rw [eraseTargets_variant] at atNode ⊢
      simp only [resolveTargets]
      rw [atNode, resolveTargetsMembers_eraseTargets_input invariant pos options 0]
  | pos, .array elemFc isText => by
      rw [eraseTargets_array]
      simp only [resolveTargets]
      rw [resolveTargets_eraseTargets_input invariant (pos ++ [-1]) elemFc]
  | pos, .sequence elemFc isText lengthRef lengthPath lengthFc => by
      have atNode := invariant pos (.sequence elemFc isText lengthRef lengthPath lengthFc)
      rw [eraseTargets_sequence] at atNode ⊢
      simp only [resolveTargets]
      rw [atNode, resolveTargets_eraseTargets_input invariant (pos ++ [-1]) elemFc]

theorem resolveTargetsMembers_eraseTargets_input
    (invariant : ∀ pos node, target pos node.eraseTargets = target pos node) :
    ∀ (pos : List Int) (members : List (String × CtfFieldClass)) (index : Nat),
      resolveTargetsMembers target pos (members.map fun m => (m.1, m.2.eraseTargets)) index =
        resolveTargetsMembers target pos members index
  | _, [], _ => rfl
  | pos, (name, child) :: members, index => by
      simp only [List.map_cons, resolveTargetsMembers]
      rw [resolveTargets_eraseTargets_input invariant _ child,
        resolveTargetsMembers_eraseTargets_input invariant pos members (index + 1)]
end

end Rebuild

theorem nodeTarget_eraseTargets (base : ResolveContext) (rootFc : CtfFieldClass) (pos : List Int)
    (node : CtfFieldClass) : nodeTarget base rootFc pos node.eraseTargets = nodeTarget base rootFc pos node := by
  unfold nodeTarget
  rw [← resolveSequenceOrVariantTarget_eraseTargets node, ← resolveSequenceOrVariantTarget_eraseTargets,
    eraseTargets_eraseTargets]

/-- The lookups of a traversal depend on the context and the root class only
through what erasing keeps. -/
theorem nodeTarget_congr {base base' : ResolveContext} {rootFc rootFc' : CtfFieldClass}
    (same : base.eraseTargets = base'.eraseTargets) (sameRoot : rootFc.eraseTargets = rootFc'.eraseTargets) :
    nodeTarget base rootFc = nodeTarget base' rootFc' := by
  funext pos node
  unfold nodeTarget
  rw [← resolveSequenceOrVariantTarget_eraseTargets node { base with fieldClassStack := _ },
    ← resolveSequenceOrVariantTarget_eraseTargets node { base' with fieldClassStack := _ }]
  congr 1
  simp only [ResolveContext.eraseTargets, ResolveContext.mk.injEq] at same ⊢
  obtain ⟨tc, sc, ec, scopes, rootScope, -⟩ := same
  exact ⟨tc, sc, ec, scopes, rootScope, by rw [ancestorFrames_eraseTargets, ancestorFrames_eraseTargets, sameRoot]⟩

end Btrace.Ctf
