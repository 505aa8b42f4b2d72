import Btrace.Ctf.Resolve.Correctness
import Btrace.Ctf.Resolve.Replay

set_option autoImplicit false

/- When the resolver succeeds. The lookup of a sequence or variant accepts
exactly the targets the reference rules find that pass every check of
`validate_target_field_path`, with one more condition on an absolute reference:
the layer owning its scope is current and not translated, and its first member
index is within `INT64_MAX` (`resolveSequenceOrVariantTarget_eq_ok_iff`). A
traversal fails exactly when one of its lookups fails, and a run of
`ctf_trace_class_resolve_field_classes` returns 0 exactly when every lookup of
every call of `resolve_root_class` it makes succeeds on the trace class it got
(`ctfTraceClassResolveFieldClasses_ok_iff`). -/
namespace Btrace.Ctf

open CtfFieldClass CtfTraceClass

/-! ## The steps of the lookup at the data the reference rules supply -/

/-- The LCA loop stops at the first index where the paths differ. -/
theorem getFieldPathsLcaIndexLoop_of_split :
    ∀ (k : Nat) (path1 path2 : List Int) (lcaIndex x y : Int), path1.take k = path2.take k →
      path1[k]? = some x → path2[k]? = some y → x ≠ y → getFieldPathsLcaIndexLoop path1 path2 lcaIndex = lcaIndex + k
  | _, [], _, _, _, _, _, at1, _, _ => by simp at at1
  | _, _ :: _, [], _, _, _, _, _, at2, _ => by simp at at2
  | 0, x' :: _, y' :: _, lcaIndex, x, y, _, at1, at2, differ => by
      simp only [List.getElem?_cons_zero, Option.some.injEq] at at1 at2
      subst at1 at2
      simp [getFieldPathsLcaIndexLoop, differ]
  | k + 1, x' :: path1, y' :: path2, lcaIndex, x, y, same, at1, at2, differ => by
      simp only [List.take_succ_cons, List.cons.injEq] at same
      obtain ⟨rfl, same⟩ := same
      simp only [List.getElem?_cons_succ] at at1 at2
      simp only [getFieldPathsLcaIndexLoop, ne_eq, not_true_eq_false, if_false,
        getFieldPathsLcaIndexLoop_of_split k path1 path2 (lcaIndex + 1) x y same at1 at2 differ]
      push_cast
      omega

/-- `validate_target_field_path` passes a target that meets its checks: the
converse of `validateTargetFieldPath_ok`. -/
theorem validateTargetFieldPath_of_checks {targetFieldPath : CtfFieldPath} {targetFc curFc : CtfFieldClass}
    {ctx : ResolveContext} (nonEmpty : targetFieldPath.path ≠ [])
    (order : targetFieldPath.root.toNat ≤ (getCtxStackFieldPath ctx).root.toNat)
    (before : targetFieldPath.root = (getCtxStackFieldPath ctx).root →
      ∃ (k : Nat) (x y : Int), targetFieldPath.path.take k = (getCtxStackFieldPath ctx).path.take k ∧
        targetFieldPath.path[k]? = some x ∧ (getCtxStackFieldPath ctx).path[k]? = some y ∧ x < y)
    (typed : validateTargetFieldClass targetFc curFc = .ok ()) :
    validateTargetFieldPath targetFieldPath targetFc curFc ctx = .ok () := by
  simp only [validateTargetFieldPath, getFieldPathsLcaIndex, bind, Except.bind, pure, Except.pure]
  generalize getCtxStackFieldPath ctx = ctxFieldPath at order before ⊢
  have notEmpty : ¬ targetFieldPath.path.length = 0 := by simpa using nonEmpty
  have notLater : ¬ targetFieldPath.root.toNat > ctxFieldPath.root.toNat := by omega
  simp only [notEmpty, notLater, if_false]
  by_cases sameRoot : targetFieldPath.root = ctxFieldPath.root
  · obtain ⟨k, x, y, same, at1, at2, ordered⟩ := before sameRoot
    have found := getFieldPathsLcaIndexLoop_of_split k _ _ 0 x y same at1 at2 (by omega)
    have notBelow : ¬ ((0 : Int) + k < 0) := by omega
    have index : ((0 : Int) + k).toNat = k := by omega
    have notAfter : ¬ x ≥ y := by omega
    simp only [sameRoot, if_true, found, notBelow, if_false, index, ctfFieldPathBorrowIndexByIndex, at1, at2,
      notAfter]
    exact typed
  · simp only [sameRoot, if_false]
    exact typed

/-- The search of `relative_ptokens_to_field_path` returns the path through the
deepest frame below `count` from which the tokens resolve: the converse of
`relativePtokensToFieldPathFrom_ok`. -/
theorem relativePtokensToFieldPathFrom_of_innermost (ptokens : List String) (stack : List FieldClassStackFrame)
    {k : Nat} {frame : FieldClassStackFrame} {tail : List Int} (atK : stack[k]? = some frame)
    (resolves : ptokensToFieldPath frame.index ptokens frame.fc false = .ok tail) :
    ∀ count : Nat, k < count → count ≤ stack.length →
      (∀ k' frame', k < k' → k' < count → stack[k']? = some frame' →
        ptokensToFieldPath frame'.index ptokens frame'.fc false = .error .failed) →
      relativePtokensToFieldPathFrom ptokens stack count = .ok ((stack.take k).map (·.index) ++ tail)
  | 0, below, _, _ => absurd below (Nat.not_lt_zero k)
  | parentPos + 1, below, within, deeper => by
      obtain ⟨parent, atParent⟩ : ∃ parent, stack[parentPos]? = some parent :=
        ⟨stack[parentPos], List.getElem?_eq_getElem (by omega)⟩
      simp only [relativePtokensToFieldPathFrom, fieldClassStackAt_of_getElem? atParent]
      by_cases top : parentPos = k
      · subst top
        rw [atK, Option.some.injEq] at atParent
        subst atParent
        simp [resolves, stitchHead_eq stack parentPos (by omega)]
      · rw [deeper parentPos parent (by omega) (by omega) atParent]
        exact relativePtokensToFieldPathFrom_of_innermost ptokens stack atK resolves parentPos (by omega) (by omega)
          fun k' frame' above below' at' => deeper k' frame' above (by omega) at'

/-- What an absolute reference needs besides the reference rules: the layer
owning its scope is current and not translated, and the first member index of
its path is within the `INT64_MAX` bound of `absolute_ptokens_to_field_path`. -/
def AbsoluteAvailable (ctx : ResolveContext) (pathstr : String) (target : CtfFieldPath) : Prop :=
  ∀ scope, getRootScopeFromAbsolutePathstr pathstr = some scope →
    absoluteRootAvailable ctx scope = true ∧ FirstNamedWithin int64Max target.path

/-- A target path found for an absolute reference was found in an available
layer within the bound. -/
theorem absoluteAvailable_of_pathstrToFieldPath {ctx : ResolveContext} {pathstr : String} {target : CtfFieldPath}
    (located : pathstrToFieldPath pathstr ctx = .ok target) : AbsoluteAvailable ctx pathstr target := by
  intro scope absolute
  unfold pathstrToFieldPath at located
  split at located
  · cases located
  · simp only [absolute, absolutePtokensToFieldPath, except_map_eq_ok] at located
    obtain ⟨path, search, rfl⟩ := located
    split at search
    · split at search
      · exact ⟨‹_›, ((ptokensToFieldPath_ok_iff _ _ _ _).1 search).2⟩
      · cases search
    · cases search

/-- `pathstr_to_field_path` finds, from a context at its node, every target
that spells the reference, the absolute conditions given: the converse of
`pathstrToFieldPath_spells`. -/
theorem pathstrToFieldPath_of_spells {ctx : ResolveContext} {rootRef : RootClassRef} {rootFc : CtfFieldClass}
    {pos : List Int} {fc : CtfFieldClass} (node : AtNode ctx rootRef rootFc pos fc) {pathstr : String}
    {target : CtfFieldPath} (spelled : SpellsReference (borrowClassFromCtx ctx) ctx.rootScope rootFc pos pathstr target)
    (available : AbsoluteAvailable ctx pathstr target) : pathstrToFieldPath pathstr ctx = .ok target := by
  obtain ⟨ptokens, lexed, rule⟩ := spelled
  unfold pathstrToFieldPath
  rw [lexed]
  cases absolute : getRootScopeFromAbsolutePathstr pathstr with
  | some scope =>
      simp only [absolute] at rule
      obtain ⟨rfl, scopeFc, root, spells⟩ := rule
      obtain ⟨current, within⟩ := available _ absolute
      simp only [absolutePtokensToFieldPath, current, if_true, root,
        ptokensToFieldPath_of_spells spells int64Max false fun _ => within, except_map_ok]
  | none =>
      simp only [absolute] at rule
      obtain ⟨rootIs, k, ancestor, bound, tail, atAncestor, atBound, pathIs, spells, within, innermost⟩ := rule
      have atK : ctx.fieldClassStack[k]? = some ⟨ancestor, bound⟩ := by
        rw [node.frame k, atAncestor, Option.some_bind, atBound, Option.map_some']
      have length : ctx.fieldClassStack.length = pos.length := by
        rw [← List.length_map ctx.fieldClassStack (·.index), node.indices]
      have below : k < pos.length := (List.getElem?_eq_some_iff.1 atBound).1
      have deeper : ∀ k' frame', k < k' → k' < ctx.fieldClassStack.length → ctx.fieldClassStack[k']? = some frame' →
          ptokensToFieldPath frame'.index ptokens frame'.fc false = .error .failed := by
        intro k' frame' above _ atK'
        rw [node.frame k', Option.bind_eq_some] at atK'
        obtain ⟨ancestor', atAncestor', frameIs⟩ := atK'
        obtain ⟨bound', atBound', rfl⟩ := Option.map_eq_some'.1 frameIs
        cases search : ptokensToFieldPath bound' ptokens ancestor' false with
        | ok tail' =>
            obtain ⟨spells', within'⟩ := (ptokensToFieldPath_ok_iff _ _ _ _).1 search
            exact absurd within' (innermost k' ancestor' bound' above atAncestor' atBound' tail' spells')
        | error e => rw [ptokensToFieldPath_error _ _ _ _ e search]
      have found := relativePtokensToFieldPathFrom_of_innermost ptokens ctx.fieldClassStack atK
        ((ptokensToFieldPath_ok_iff bound ptokens ancestor tail).2 ⟨spells, within⟩) _ (by omega) le_rfl deeper
      simp only [relativePtokensToFieldPath, found, except_map_ok, List.map_take, node.indices, ← pathIs, ← rootIs]

/-- The reading part of `resolve_sequence_or_variant_field_class` returns the
target each of its four steps gives. -/
theorem resolveSequenceOrVariantTarget_of_steps {fc : CtfFieldClass} {ctx : ResolveContext} {pathstr : String}
    {target : CtfFieldPath} {targetFc : CtfFieldClass} (reference : fc.reference = some pathstr)
    (located : pathstrToFieldPath pathstr ctx = .ok target)
    (lookup : fieldPathToFieldClass target ctx = .ok (some targetFc))
    (valid : validateTargetFieldPath target targetFc fc ctx = .ok ()) :
    resolveSequenceOrVariantTarget fc ctx = .ok (target, targetFc) := by
  cases fc <;> simp only [CtfFieldClass.reference, Option.some.injEq, reduceCtorEq] at reference <;> subst reference <;>
    simp only [resolveSequenceOrVariantTarget, bind, Except.bind, pure, Except.pure, located, lookup, valid]

/-- At a node, the lookup of `resolve_sequence_or_variant_field_class` accepts
exactly the targets the reference rules find that pass every check of
`validate_target_field_path`, an absolute reference naming an available layer
within the bound. -/
theorem resolveSequenceOrVariantTarget_eq_ok_iff {ctx : ResolveContext} {rootRef : RootClassRef}
    {rootFc : CtfFieldClass} {pos : List Int} {fc : CtfFieldClass} (node : AtNode ctx rootRef rootFc pos fc)
    {target : CtfFieldPath} {targetFc : CtfFieldClass} :
    resolveSequenceOrVariantTarget fc ctx = .ok (target, targetFc) ↔
      FoundTarget (borrowClassFromCtx ctx) ctx.rootScope rootFc pos fc target targetFc ∧
        ∀ pathstr, fc.reference = some pathstr → AbsoluteAvailable ctx pathstr target := by
  constructor
  · intro found
    obtain ⟨pathstr, reference, located, -, -⟩ := resolveSequenceOrVariantTarget_ok found
    refine ⟨resolveSequenceOrVariantTarget_found node found, fun pathstr' reference' => ?_⟩
    rw [reference, Option.some.injEq] at reference'
    exact reference' ▸ absoluteAvailable_of_pathstrToFieldPath located
  · rintro ⟨⟨nonEmpty, order, before, ⟨targetRoot, root, reached, _⟩, typed, ⟨pathstr, reference, spelled⟩⟩,
      available⟩
    have lookup : fieldPathToFieldClass target ctx = .ok (some targetFc) := by
      simp [fieldPathToFieldClass, root, fieldPathToFieldClassLoop_eq, reached]
    have valid : validateTargetFieldPath target targetFc fc ctx = .ok () :=
      validateTargetFieldPath_of_checks nonEmpty (by rw [node.stackFieldPath]; exact order)
        (by rw [node.stackFieldPath]; exact before) typed
    exact resolveSequenceOrVariantTarget_of_steps reference
      (pathstrToFieldPath_of_spells node spelled (available pathstr reference)) lookup valid

/-! ## The traversal, one call, and the driver -/

/-- A traversal fails only at a failed lookup: when every lookup succeeds, so
does the rebuild. -/
theorem resolveTargets_ok_of_lookups
    (target : List Int → CtfFieldClass → Except ResolveError (CtfFieldPath × CtfFieldClass)) (pos : List Int)
    (fc : CtfFieldClass)
    (lookups : ∀ rel node, fc.borrowFieldClassByPath rel = some node → ArraySteps fc rel →
      node.isSequenceOrVariant = true → ∃ found, target (pos ++ rel) node = .ok found) :
    ∃ fc', resolveTargets target pos fc = .ok fc' := by
  cases rebuilt : resolveTargets target pos fc with
  | ok fc' => exact ⟨fc', rfl⟩
  | error e =>
      obtain ⟨rel, node, reached, steps, kind, failed⟩ := resolveTargets_error target pos fc e rebuilt
      obtain ⟨found, ok⟩ := lookups rel node reached steps kind
      rw [ok] at failed
      cases failed

/-- Every lookup a call of `resolve_root_class` makes on `tc` succeeds: at every
sequence and variant of the root class it resolves, at a position that takes -1
at every array or sequence. -/
def RootCall.LookupsSucceed (call : RootCall) (tc : CtfTraceClass) : Prop :=
  ∀ rootRef rootFc, call.scopes.get call.rootScope = some rootRef → tc.rootClass rootRef = some rootFc →
    ∀ pos node, rootFc.borrowFieldClassByPath pos = some node → ArraySteps rootFc pos →
      node.isSequenceOrVariant = true → ∃ found, nodeTarget (call.context tc) rootFc pos node = .ok found

/-- A call of `resolve_root_class` succeeds exactly when every lookup it makes
does. -/
theorem runRootCall_ok_iff (tc : CtfTraceClass) (call : RootCall) :
    (∃ tc', runRootCall tc call = .ok tc') ↔ call.LookupsSucceed tc := by
  constructor
  · rintro ⟨tc', ran⟩ rootRef rootFc scope root pos node reached steps kind
    simp only [runRootCall, scope, root] at ran
    obtain ⟨rootFc', rebuilt, -⟩ := except_map_eq_ok.mp ran
    obtain ⟨found, -, ok, -⟩ := resolveTargets_stores _ [] rootFc rootFc' rebuilt pos node reached steps kind
    exact ⟨found, by simpa using ok⟩
  · intro lookups
    unfold runRootCall
    split
    · exact ⟨tc, rfl⟩
    · rename_i rootRef scope
      split
      · exact ⟨tc, rfl⟩
      · rename_i rootFc root
        obtain ⟨rootFc', rebuilt⟩ := resolveTargets_ok_of_lookups _ [] rootFc fun pos node reached steps kind => by
          simpa using lookups rootRef rootFc scope root pos node reached steps kind
        exact ⟨_, by rw [rebuilt]; rfl⟩

theorem rootClass_congr {tc tc' : CtfTraceClass} {rootRef : RootClassRef} {rootFc : CtfFieldClass}
    (same : tc.eraseTargets = tc'.eraseTargets) (root : tc.rootClass rootRef = some rootFc) :
    ∃ rootFc', tc'.rootClass rootRef = some rootFc' ∧ rootFc.eraseTargets = rootFc'.eraseTargets := by
  have erased := rootClass_eraseTargets tc rootRef
  rw [same, rootClass_eraseTargets, root, Option.map_some'] at erased
  obtain ⟨rootFc', found, sameRoot⟩ := Option.map_eq_some'.mp erased
  exact ⟨rootFc', found, sameRoot.symm⟩

/-- The lookups of a call read the trace class only through what erasing keeps. -/
theorem RootCall.LookupsSucceed.congr {call : RootCall} {tc tc' : CtfTraceClass} (succeed : call.LookupsSucceed tc)
    (same : tc.eraseTargets = tc'.eraseTargets) : call.LookupsSucceed tc' := by
  intro rootRef rootFc' scope root' pos node' reached' steps' kind'
  obtain ⟨rootFc, root, sameRoot⟩ := rootClass_congr same.symm root'
  obtain ⟨node, reached, sameNode⟩ := borrowFieldClassByPath_congr sameRoot reached'
  have steps : ArraySteps rootFc pos := by
    rw [← arraySteps_eraseTargets, ← sameRoot, arraySteps_eraseTargets]
    exact steps'
  have kind : node.isSequenceOrVariant = true := by
    rw [← isSequenceOrVariant_eraseTargets, ← sameNode, isSequenceOrVariant_eraseTargets]
    exact kind'
  obtain ⟨found, ok⟩ := succeed rootRef rootFc scope root pos node reached steps kind
  have sameContext : (call.context tc').eraseTargets = (call.context tc).eraseTargets := by
    rw [RootCall.context_eraseTargets, RootCall.context_eraseTargets, same]
  refine ⟨found, ?_⟩
  rw [nodeTarget_congr sameContext sameRoot, ← nodeTarget_eraseTargets _ _ _ node', sameNode,
    nodeTarget_eraseTargets, ok]

/-- The calls succeed one after the other exactly when every lookup of every
call succeeds on the trace class the first call got: the targets stored by the
earlier calls do not change a later lookup. -/
theorem runRootCalls_ok_iff :
    ∀ (calls : List RootCall) (tc : CtfTraceClass),
      (∃ tc', runRootCalls tc calls = .ok tc') ↔ ∀ call ∈ calls, call.LookupsSucceed tc
  | [], tc => by simp
  | call :: calls, tc => by
      rw [runRootCalls_cons, List.forall_mem_cons, ← runRootCall_ok_iff]
      constructor
      · rintro ⟨tc', ran⟩
        cases called : runRootCall tc call with
        | error e => rw [called] at ran; cases ran
        | ok tc1 =>
            rw [called] at ran
            exact ⟨⟨tc1, rfl⟩, fun c member =>
              ((runRootCalls_ok_iff calls tc1).1 ⟨tc', ran⟩ c member).congr (runRootCall_eraseTargets called)⟩
      · rintro ⟨⟨tc1, called⟩, rest⟩
        rw [called]
        exact (runRootCalls_ok_iff calls tc1).2 fun c member =>
          (rest c member).congr (runRootCall_eraseTargets called).symm

/-- The lookup a well-scoped call makes at one of its nodes, read in the
geometry of the node's own trace, stream and event class. -/
theorem nodeTarget_eq_ok_iff {call : RootCall} {tc : CtfTraceClass} {rootRef : RootClassRef}
    {rootFc : CtfFieldClass} {pos : List Int} {node : CtfFieldClass} (wellScoped : call.WellScoped)
    (scope : call.scopes.get call.rootScope = some rootRef) (root : tc.rootClass rootRef = some rootFc)
    (reached : rootFc.borrowFieldClassByPath pos = some node) (steps : ArraySteps rootFc pos)
    {target : CtfFieldPath} {targetFc : CtfFieldClass} :
    nodeTarget (call.context tc) rootFc pos node = .ok (target, targetFc) ↔
      FoundTarget (layerRoots tc rootRef) call.rootScope rootFc pos node target targetFc ∧
        ∀ pathstr, node.reference = some pathstr → AbsoluteAvailable (call.context tc) pathstr target := by
  have atNode : AtNode { call.context tc with fieldClassStack := ancestorFrames rootFc pos } rootRef rootFc pos node :=
    ⟨scope, root, reached, steps, rfl⟩
  have agree : ∀ s, s.toNat ≤ call.rootScope.toNat →
      (borrowClassFromCtx { call.context tc with fieldClassStack := ancestorFrames rootFc pos } s).map
        CtfFieldClass.eraseTargets = (layerRoots tc rootRef s).map CtfFieldClass.eraseTargets := fun s below => by
    show ((call.scopes.get s).bind tc.rootClass).map CtfFieldClass.eraseTargets = _
    rw [(wellScoped rootRef scope).2 s below, layerRoots]
  unfold nodeTarget
  rw [resolveSequenceOrVariantTarget_eq_ok_iff atNode]
  exact ⟨fun ⟨facts, available⟩ => ⟨facts.transfer agree rfl rfl, available⟩,
    fun ⟨facts, available⟩ => ⟨facts.transfer (fun s below => (agree s below).symm) rfl rfl, available⟩⟩

theorem RootCall.lookupsSucceed_iff {call : RootCall} {tc : CtfTraceClass} (wellScoped : call.WellScoped) :
    call.LookupsSucceed tc ↔
      ∀ rootRef rootFc, call.scopes.get call.rootScope = some rootRef → tc.rootClass rootRef = some rootFc →
        ∀ pos node, rootFc.borrowFieldClassByPath pos = some node → ArraySteps rootFc pos →
          node.isSequenceOrVariant = true →
            ∃ target targetFc, FoundTarget (layerRoots tc rootRef) call.rootScope rootFc pos node target targetFc ∧
              ∀ pathstr, node.reference = some pathstr → AbsoluteAvailable (call.context tc) pathstr target := by
  constructor
  · intro succeed rootRef rootFc scope root pos node reached steps kind
    obtain ⟨⟨target, targetFc⟩, ok⟩ := succeed rootRef rootFc scope root pos node reached steps kind
    exact ⟨target, targetFc, (nodeTarget_eq_ok_iff wellScoped scope root reached steps).1 ok⟩
  · intro found rootRef rootFc scope root pos node reached steps kind
    obtain ⟨target, targetFc, facts⟩ := found rootRef rootFc scope root pos node reached steps kind
    exact ⟨(target, targetFc), (nodeTarget_eq_ok_iff wellScoped scope root reached steps).2 facts⟩

/-- `ctf_trace_class_resolve_field_classes` returns 0 exactly when, for every
call of `resolve_root_class` it makes, every sequence and variant of the root
class the call resolves, at a position that takes -1 at every array or
sequence, has a target that the reference rules find in the geometry of its own
trace, stream and event class and that passes every check of
`validate_target_field_path`; an absolute reference must name a scope whose
layer is current and not translated, with a first member index within
`INT64_MAX`. The calls are those the driver makes, so the event pass resolves
the stream's common context, as line 1105 does, and never the specific
context. -/
theorem ctfTraceClassResolveFieldClasses_ok_iff (tc : CtfTraceClass) :
    (ctfTraceClassResolveFieldClasses tc).1 = .ok () ↔
      ∀ call ∈ rootCalls tc, ∀ rootRef rootFc, call.scopes.get call.rootScope = some rootRef →
        tc.rootClass rootRef = some rootFc → ∀ pos node, rootFc.borrowFieldClassByPath pos = some node →
          ArraySteps rootFc pos → node.isSequenceOrVariant = true →
            ∃ target targetFc, FoundTarget (layerRoots tc rootRef) call.rootScope rootFc pos node target targetFc ∧
              ∀ pathstr, node.reference = some pathstr → AbsoluteAvailable (call.context tc) pathstr target := by
  have folded : (ctfTraceClassResolveFieldClasses tc).1 = .ok () ↔ ∃ tc', runRootCalls tc (rootCalls tc) = .ok tc' := by
    rw [ctfTraceClassResolveFieldClasses_fst]
    cases runRootCalls tc (rootCalls tc) <;> simp [Except.map]
  rw [folded, runRootCalls_ok_iff]
  exact forall₂_congr fun call member => RootCall.lookupsSucceed_iff (rootCalls_wellScoped tc call member)

end Btrace.Ctf
