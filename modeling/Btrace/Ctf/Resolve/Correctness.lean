import Btrace.Ctf.Resolve.Run

set_option autoImplicit false

/- What a successful run stores. Every sequence and variant that holds a target
class after the run, at a position that takes -1 at every array or sequence,
holds a target with every property the resolver checks and spelled by its
reference, in the trace class the run left (`resolvedNode_found`). One call of
`resolve_root_class` keeps this of every root (`runRootCall_found`): the root it
rewrites gets the targets `resolveSequenceOrVariantTarget_found` describes, and
the others change only in stored targets, which the facts do not read. -/
namespace Btrace.Ctf

open CtfFieldClass CtfTraceClass

/-- A sequence or variant that holds a target class. -/
def CtfFieldClass.isResolved : CtfFieldClass → Bool
  | .sequence _ _ _ _ lengthFc => lengthFc.isSome
  | .variant _ _ tagFc _ => tagFc.isSome
  | _ => false

theorem isSequenceOrVariant_of_isResolved {fc : CtfFieldClass} (resolved : fc.isResolved = true) :
    fc.isSequenceOrVariant = true := by
  cases fc <;> simp_all [isResolved, isSequenceOrVariant]

@[simp] theorem isSequenceOrVariant_eraseTargets (fc : CtfFieldClass) :
    fc.eraseTargets.isSequenceOrVariant = fc.isSequenceOrVariant := by
  cases fc <;> rfl

/-- Every sequence and variant arrives without a target class. -/
def CtfTraceClass.Unresolved (tc : CtfTraceClass) : Prop :=
  ∀ (rootRef : RootClassRef) (rootFc : CtfFieldClass) (pos : List Int) (node : CtfFieldClass),
    tc.rootClass rootRef = some rootFc → rootFc.borrowFieldClassByPath pos = some node → node.isResolved = false

/-- A trace class as the parser builds it, with no stored target, is unresolved. -/
theorem unresolved_of_eraseTargets_eq {tc : CtfTraceClass} (erased : tc.eraseTargets = tc) : tc.Unresolved := by
  intro rootRef rootFc pos node root reached
  have rootErased := rootClass_eraseTargets tc rootRef
  rw [erased, root, Option.map_some', Option.some.injEq] at rootErased
  have nodeErased := borrowFieldClassByPath_eraseTargets pos rootFc
  rw [← rootErased, reached, Option.map_some', Option.some.injEq] at nodeErased
  rw [nodeErased]
  cases node <;> rfl

/-- The root classes of `tc` seen from the root `rootRef`: for each scope, the
root of that scope in `rootRef`'s own trace, stream or event class. -/
def layerRoots (tc : CtfTraceClass) (rootRef : RootClassRef) (scope : CtfScope) : Option CtfFieldClass :=
  (rootRef.layerRoot scope).bind tc.rootClass

theorem layerRoots_eraseTargets (tc : CtfTraceClass) (rootRef : RootClassRef) (scope : CtfScope) :
    (layerRoots tc rootRef scope).map CtfFieldClass.eraseTargets = layerRoots tc.eraseTargets rootRef scope := by
  cases rootRef.layerRoot scope <;> simp [layerRoots, rootClass_eraseTargets]

/-- The node `node` at position `pos` of the root class `rootFc` of `rootRef`
stores a target found by the reference rules, with every property the resolver
checks, in the geometry `rootOf`. -/
def ResolvedAt (rootOf : CtfScope → Option CtfFieldClass) (rootRef : RootClassRef) (rootFc : CtfFieldClass)
    (pos : List Int) (node : CtfFieldClass) : Prop :=
  ∃ target targetFc, node.Stores target targetFc ∧ FoundTarget rootOf rootRef.scope rootFc pos node target targetFc

theorem ResolvedAt.transfer {tc tc' : CtfTraceClass} {rootRef : RootClassRef} {rootFc : CtfFieldClass}
    {pos : List Int} {node : CtfFieldClass} (resolved : ResolvedAt (layerRoots tc rootRef) rootRef rootFc pos node)
    (same : tc.eraseTargets = tc'.eraseTargets) : ResolvedAt (layerRoots tc' rootRef) rootRef rootFc pos node := by
  obtain ⟨target, targetFc, stores, facts⟩ := resolved
  refine ⟨target, targetFc, stores, facts.transfer (fun scope _ => ?_) rfl rfl⟩
  rw [layerRoots_eraseTargets, layerRoots_eraseTargets, same]

/-- Every resolved node of every root class of `tc` stores a target the
reference rules find. -/
def AllResolvedFound (tc : CtfTraceClass) : Prop :=
  ∀ (rootRef : RootClassRef) (rootFc : CtfFieldClass) (pos : List Int) (node : CtfFieldClass),
    tc.rootClass rootRef = some rootFc → rootFc.borrowFieldClassByPath pos = some node → ArraySteps rootFc pos →
      node.isResolved = true → ResolvedAt (layerRoots tc rootRef) rootRef rootFc pos node

theorem allResolvedFound_of_unresolved {tc : CtfTraceClass} (unresolved : tc.Unresolved) : AllResolvedFound tc :=
  fun rootRef rootFc pos node root reached _ resolved => by
    rw [unresolved rootRef rootFc pos node root reached] at resolved
    cases resolved

/-- The root a call rewrites: each of its resolved nodes stores the target the
lookup found at the node it was built from. -/
theorem rebuilt_resolvedAt {tc tc' : CtfTraceClass} {call : RootCall} {rootRef : RootClassRef}
    {rootFc rootFc' : CtfFieldClass} (wellScoped : call.WellScoped)
    (scope : call.scopes.get call.rootScope = some rootRef) (root : tc.rootClass rootRef = some rootFc)
    (rebuilt : resolveTargets (nodeTarget (call.context tc) rootFc) [] rootFc = .ok rootFc')
    (same : tc.eraseTargets = tc'.eraseTargets) {pos : List Int} {node : CtfFieldClass}
    (reached : rootFc'.borrowFieldClassByPath pos = some node) (steps : ArraySteps rootFc' pos)
    (resolved : node.isResolved = true) : ResolvedAt (layerRoots tc' rootRef) rootRef rootFc' pos node := by
  have sameRoot := eraseTargets_resolveTargets _ [] rootFc rootFc' rebuilt
  obtain ⟨input, reachedInput, sameNode⟩ := borrowFieldClassByPath_congr sameRoot reached
  have stepsInput : ArraySteps rootFc pos := by
    rwa [← arraySteps_eraseTargets, ← sameRoot, arraySteps_eraseTargets]
  have kind : input.isSequenceOrVariant = true := by
    rw [← isSequenceOrVariant_eraseTargets, ← sameNode, isSequenceOrVariant_eraseTargets]
    exact isSequenceOrVariant_of_isResolved resolved
  obtain ⟨⟨target, targetFc⟩, node', looked, reached', stores⟩ :=
    resolveTargets_stores _ [] rootFc rootFc' rebuilt pos input reachedInput stepsInput kind
  rw [reached, Option.some.injEq] at reached'
  subst reached'
  rw [List.nil_append] at looked
  have facts := resolveSequenceOrVariantTarget_found ⟨scope, root, reachedInput, stepsInput, rfl⟩ looked
  obtain ⟨sameScope, pointers⟩ := wellScoped rootRef scope
  unfold ResolvedAt
  rw [sameScope]
  refine ⟨target, targetFc, stores, facts.transfer (fun scope below => ?_) sameRoot.symm sameNode.symm⟩
  show ((call.scopes.get scope).bind tc.rootClass).map CtfFieldClass.eraseTargets = _
  rw [pointers scope below, ← layerRoots, layerRoots_eraseTargets, layerRoots_eraseTargets, same]

/-- One call of `resolve_root_class` keeps every resolved node's facts. -/
theorem runRootCall_found {tc tc' : CtfTraceClass} {call : RootCall} (wellScoped : call.WellScoped)
    (found : AllResolvedFound tc) (ran : runRootCall tc call = .ok tc') : AllResolvedFound tc' := by
  have same := (runRootCall_eraseTargets ran).symm
  intro rootRef rootFc pos node root reached steps resolved
  unfold runRootCall at ran
  split at ran
  · cases ran
    exact found rootRef rootFc pos node root reached steps resolved
  · rename_i callRef scope
    split at ran
    · cases ran
      exact found rootRef rootFc pos node root reached steps resolved
    · rename_i callFc callRoot
      obtain ⟨callFc', rebuilt, rfl⟩ := except_map_eq_ok.mp ran
      rw [rootClass_modifyRootClass] at root
      split_ifs at root with written
      · subst written
        rw [callRoot, Option.map_some', Option.some.injEq] at root
        subst root
        exact rebuilt_resolvedAt wellScoped scope callRoot rebuilt same reached steps resolved
      · exact (found rootRef rootFc pos node root reached steps resolved).transfer same

theorem runRootCalls_found :
    ∀ (calls : List RootCall) (tc tc' : CtfTraceClass), (∀ call ∈ calls, call.WellScoped) →
      AllResolvedFound tc → runRootCalls tc calls = .ok tc' → AllResolvedFound tc'
  | [], _, _, _, found, ran => by cases ran; exact found
  | call :: calls, tc, tc', wellScoped, found, ran => by
      rw [runRootCalls_cons] at ran
      cases called : runRootCall tc call with
      | error e => rw [called] at ran; cases ran
      | ok tc1 =>
          rw [called] at ran
          exact runRootCalls_found calls tc1 tc' (fun c member => wellScoped c (List.mem_cons_of_mem _ member))
            (runRootCall_found (wellScoped call (List.mem_cons_self _ _)) found called) ran

/-- After a successful run on a trace class that arrives unresolved, every
resolved node stores a target found by the reference rules. -/
theorem resolvedNode_found {tc tc' : CtfTraceClass} (unresolved : tc.Unresolved)
    (ran : ctfTraceClassResolveFieldClasses tc = (.ok (), tc')) : AllResolvedFound tc' :=
  runRootCalls_found _ tc tc' (rootCalls_wellScoped tc) (allResolvedFound_of_unresolved unresolved)
    (runRootCalls_of_resolveFieldClasses ran)

/-- The classes a sequence or variant may take its length or tag from: an
enumeration for a variant, an unsigned integer or enumeration for a sequence. -/
def CtfFieldClass.TargetKind : CtfFieldClass → CtfFieldClass → Prop
  | .variant _ _ _ _, targetFc => ∃ enumFc, targetFc = .enum enumFc
  | .sequence _ _ _ _ _, targetFc => ∃ intFc, targetFc.asInt = some intFc ∧ intFc.isSigned = false
  | _, _ => False

theorem targetKind_of_validate {targetFc fc : CtfFieldClass} (typed : validateTargetFieldClass targetFc fc = .ok ()) :
    fc.TargetKind targetFc := by
  cases fc <;> cases targetFc <;> simp_all [validateTargetFieldClass, TargetKind, asInt]

/-- `{ tag : enum; choice : variant<tag> { len : uint8; data : sequence<uint8>[len] } }`
as the parser builds it: the sequence takes its length from an earlier option
of the variant that holds it. -/
def siblingOptionHeader : CtfFieldClass :=
  .struct [("tag", .enum ⟨⟨8, 8, false, .none⟩⟩),
    ("choice", .variant "tag" ⟨.packetHeader, []⟩ none
      [("len", .int ⟨8, 8, false, .none⟩),
        ("data", .sequence (.int ⟨8, 8, false, .utf8⟩) false "len" ⟨.packetHeader, []⟩ none)])]

/-- `data` once resolved: its length is option `len` of `choice`. -/
def siblingOptionData : CtfFieldClass :=
  .sequence (.int ⟨8, 8, false, .utf8⟩) false "len" ⟨.packetHeader, [1, 0]⟩ (some ⟨8, 8, false, .none⟩)

/-- The header once resolved. -/
def siblingOptionHeaderResolved : CtfFieldClass :=
  .struct [("tag", .enum ⟨⟨8, 8, false, .none⟩⟩),
    ("choice", .variant "tag" ⟨.packetHeader, [0]⟩ (some ⟨⟨8, 8, false, .none⟩⟩)
      [("len", .int ⟨8, 8, false, .none⟩), ("data", siblingOptionData)])]

theorem siblingOptionHeader_resolves :
    ctfTraceClassResolveFieldClasses ⟨some siblingOptionHeader, [], false⟩ =
      (.ok (), ⟨some siblingOptionHeaderResolved, [], false⟩) := rfl

theorem siblingOptionData_steps : ArraySteps siblingOptionHeaderResolved [1, 1] := by
  intro choice found
  simp only [siblingOptionHeaderResolved, borrowMember] at found
  cases found
  exact fun child _ => arraySteps_nil child

/-- The target every resolved node stores after a successful run: a non-empty
path, in a scope no later than the node's, before the node in its own scope,
leading from the root of that scope in the node's own trace, stream or event
class to the class stored, which has the kind the node needs. -/
theorem resolvedNode_target_valid {tc tc' : CtfTraceClass} (unresolved : tc.Unresolved)
    (ran : ctfTraceClassResolveFieldClasses tc = (.ok (), tc')) {rootRef : RootClassRef} {rootFc : CtfFieldClass}
    {pos : List Int} {node : CtfFieldClass} (root : tc'.rootClass rootRef = some rootFc)
    (reached : rootFc.borrowFieldClassByPath pos = some node) (steps : ArraySteps rootFc pos)
    (resolved : node.isResolved = true) :
    ∃ target targetFc, node.Stores target targetFc ∧ target.path ≠ [] ∧
      target.root.toNat ≤ rootRef.scope.toNat ∧
      (target.root = rootRef.scope → ∃ (k : Nat) (x y : Int), target.path.take k = pos.take k ∧
        target.path[k]? = some x ∧ pos[k]? = some y ∧ x < y) ∧
      (∃ targetRoot, layerRoots tc' rootRef target.root = some targetRoot ∧
        targetRoot.borrowFieldClassByPath target.path = some targetFc ∧ ArraySteps targetRoot target.path) ∧
      node.TargetKind targetFc := by
  obtain ⟨target, targetFc, stores, facts⟩ := resolvedNode_found unresolved ran rootRef rootFc pos node root reached
    steps resolved
  exact ⟨target, targetFc, stores, facts.nonEmpty, facts.scopeOrder, facts.before, facts.reaches,
    targetKind_of_validate facts.typed⟩

theorem siblingOptionData_target_valid :
    ∃ target targetFc, siblingOptionData.Stores target targetFc ∧ target.path ≠ [] ∧
      target.root.toNat ≤ RootClassRef.packetHeader.scope.toNat ∧
      (target.root = RootClassRef.packetHeader.scope → ∃ (k : Nat) (x y : Int),
        target.path.take k = ([1, 1] : List Int).take k ∧ target.path[k]? = some x ∧
          ([1, 1] : List Int)[k]? = some y ∧ x < y) ∧
      (∃ targetRoot, layerRoots ⟨some siblingOptionHeaderResolved, [], false⟩ .packetHeader target.root =
          some targetRoot ∧
        targetRoot.borrowFieldClassByPath target.path = some targetFc ∧ ArraySteps targetRoot target.path) ∧
      siblingOptionData.TargetKind targetFc :=
  resolvedNode_target_valid (unresolved_of_eraseTargets_eq rfl) siblingOptionHeader_resolves rfl rfl
    siblingOptionData_steps rfl

theorem borrowFieldClassByPath_take {fc target : CtfFieldClass} {path : List Int}
    (reached : fc.borrowFieldClassByPath path = some target) (k : Nat) :
    ∃ ancestor, fc.borrowFieldClassByPath (path.take k) = some ancestor := by
  rw [← List.take_append_drop k path, borrowFieldClassByPath_append] at reached
  cases found : fc.borrowFieldClassByPath (path.take k) with
  | none => rw [found] at reached; cases reached
  | some ancestor => exact ⟨ancestor, rfl⟩

end Btrace.Ctf
